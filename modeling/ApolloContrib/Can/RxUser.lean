import ApolloContrib.Can.RxQueue

namespace ApolloContrib.Can

open ApolloContrib.Library

/-! One RECV call. The producer pushes only while the call waits. -/

inductive WaitOutcome where
  | interrupted
  | timedOut
  | woken
deriving DecidableEq, Repr

/-- The request of a call and what its surroundings do during it: where
`copy_to_user` fails in each of the two copies, what is pushed while the call
waits, and how the wait ends. -/
structure RxCall where
  iocMsgs : Nat
  iocMsgNum : Nat
  copyFails : Nat → Bool
  arrivals : List Msg
  outcome : WaitOutcome
  copyFailsAgain : Nat → Bool

structure RxResult where
  ret : BcanErrCode
  rxDone : Nat
  zcan : ZynqCanRx

namespace ZynqCanRx

def rxUserDone (zcan : ZynqCanRx) (ret : BcanErrCode) : RxResult where
  ret := ret
  rxDone := zcan.zcanUsrRxNum
  zcan := { zcan with
    zcanUsrRxNum := 0
    zcanUsrBufNum := 0
    zcanUsrBuf := NULL }

def rxUserAgain (zcan : ZynqCanRx) (copyFails : Nat → Bool)
    (partialRet : BcanErrCode) : RxResult :=
  match zcan.zcanCopyToUser copyFails with
  | (.BCAN_PARTIAL_OK, zcan) => zcan.rxUserDone partialRet
  | (ret, zcan) => zcan.rxUserDone ret

def setComp (zcan : ZynqCanRx) (comp : Nat) : ZynqCanRx :=
  { zcan with zcanUsrRxComp := comp }

def rxUserWait (zcan : ZynqCanRx) (call : RxCall) : RxResult :=
  let zcan := zcan.setComp 0
  let zcan := call.arrivals.foldl rxPush zcan
  match call.outcome with
  | .interrupted => zcan.rxUserDone .BCAN_ERR
  | .timedOut => zcan.rxUserAgain call.copyFailsAgain .BCAN_TIMEOUT
  | .woken =>
      -- "This should never happen when timeout != 0."
      let zcan := zcan.setComp (zcan.zcanUsrRxComp - 1)
      zcan.rxUserAgain call.copyFailsAgain .BCAN_ERR

def started (zcan : ZynqCanRx) (call : RxCall) : ZynqCanRx :=
  { zcan with zcanUsrBuf := call.iocMsgs, zcanUsrBufNum := call.iocMsgNum }

def zcanRxUser (zcan : ZynqCanRx) (call : RxCall) : RxResult :=
  if zcan.zcanUsrBuf ≠ NULL then
    { ret := .BCAN_DEV_BUSY, rxDone := 0, zcan := zcan }
  else
    match (zcan.started call).zcanCopyToUser call.copyFails with
    | (.BCAN_OK, zcan) => zcan.rxUserDone .BCAN_OK
    | (_, zcan) => zcan.rxUserWait call

end ZynqCanRx

/-! The call on a queue of items, with `onFault` for what a failing copy does to
the item it fails at. The purpose of the call is the instance `onFault = id`. -/

structure Received (α : Type*) where
  taken : List α
  left : List α

section Abstract

variable {α β : Type*}

def leave (onFault : α → α) (count limit : Nat) (queue : List α) : List α :=
  if count < limit then (queue.drop count).modifyHead onFault
  else queue.drop count

def receiveWait (onFault : α → α) (capacity : Nat) (call : RxCall)
    (taken left arrivals : List α) : Received α :=
  let waited := overflowPushAll capacity ZCAN_IP_RXFIFO_MAX left arrivals
  if call.outcome = .interrupted then ⟨taken, waited⟩
  else
    let limit := min (call.iocMsgNum - taken.length) waited.length
    let count := ZynqCanRx.copiedBeforeFault call.copyFailsAgain
      (call.iocMsgs + taken.length) limit
    ⟨taken ++ waited.take count, leave onFault count limit waited⟩

def receive (onFault : α → α) (capacity : Nat) (call : RxCall)
    (queue arrivals : List α) : Received α :=
  let limit := min call.iocMsgNum queue.length
  let count := ZynqCanRx.copiedBeforeFault call.copyFails call.iocMsgs limit
  let taken := queue.take count
  let left := leave onFault count limit queue
  if count = call.iocMsgNum then ⟨taken, left⟩
  else receiveWait onFault capacity call taken left arrivals

def Received.map (f : α → β) (result : Received α) : Received β where
  taken := result.taken.map f
  left := result.left.map f

theorem leave_map {f : α → β} {onFault : α → α} {onFault' : β → β}
    (hcomm : ∀ x, f (onFault x) = onFault' (f x)) (count limit : Nat)
    (queue : List α) :
    leave onFault' count limit (queue.map f) =
      (leave onFault count limit queue).map f := by
  unfold leave
  split
  · rw [← List.map_drop]
    cases queue.drop count with
    | nil => rfl
    | cons x rest =>
        simp only [List.map_cons, List.modifyHead_cons, hcomm]
  · rw [List.map_drop]

theorem receiveWait_map {f : α → β} {onFault : α → α} {onFault' : β → β}
    (hcomm : ∀ x, f (onFault x) = onFault' (f x)) (capacity : Nat) (call : RxCall)
    (taken left arrivals : List α) :
    receiveWait onFault' capacity call (taken.map f) (left.map f)
        (arrivals.map f) =
      (receiveWait onFault capacity call taken left arrivals).map f := by
  simp only [receiveWait, ← map_overflowPushAll, List.length_map, leave_map hcomm]
  split
  · rfl
  · rw [Received.map, List.map_append, List.map_take]

theorem receive_map {f : α → β} {onFault : α → α} {onFault' : β → β}
    (hcomm : ∀ x, f (onFault x) = onFault' (f x)) (capacity : Nat) (call : RxCall)
    (queue arrivals : List α) :
    receive onFault' capacity call (queue.map f) (arrivals.map f) =
      (receive onFault capacity call queue arrivals).map f := by
  simp only [receive, List.length_map, leave_map hcomm, ← List.map_take,
    receiveWait_map hcomm]
  split <;> rfl

end Abstract

/-- `result` is a call on the queue and user memory of `zcan` that took and left
what `received` says. -/
structure Realizes (zcan : ZynqCanRx) (call : RxCall) (result : RxResult)
    (received : Received Msg) : Prop where
  rxDone : result.rxDone = received.taken.length
  usrMsgs : result.zcan.usrMsgs = zcan.usrMsgs ++
    (received.taken.map zcanToBcan).mapIdx fun i msg => (call.iocMsgs + i, msg)
  rxMsgs : result.zcan.rxMsgs = received.left
  usrBuf : result.zcan.zcanUsrBuf = NULL
  usrBufNum : result.zcan.zcanUsrBufNum = 0
  usrRxNum : result.zcan.zcanUsrRxNum = 0

namespace ZynqCanRx

variable (zcan : ZynqCanRx)

theorem zcanCopyToUser_ok_iff (copyFails : Nat → Bool)
    (hnum : zcan.zcanUsrRxNum ≤ zcan.zcanUsrBufNum) :
    (zcan.zcanCopyToUser copyFails).1 = .BCAN_OK ↔
      zcan.zcanUsrRxNum + zcan.copyCount copyFails = zcan.zcanUsrBufNum := by
  have hcount := zcan.copyCount_le_copyLimit copyFails
  have hlimit : zcan.copyLimit ≤ zcan.zcanUsrBufNum - zcan.zcanUsrRxNum :=
    Nat.min_le_left _ _
  rw [zcanCopyToUser_eq]
  dsimp only
  split
  · refine iff_of_false (by simp) (by omega)
  · split
    · exact iff_of_false (by simp) (by omega)
    · exact iff_of_true rfl (by omega)

theorem rxMsgs_zcanCopyToUser (copyFails : Nat → Bool) :
    (zcan.zcanCopyToUser copyFails).2.rxMsgs =
      leave zcanToBcan (zcan.copyCount copyFails) zcan.copyLimit zcan.rxMsgs := by
  rw [zcanCopyToUser_snd]
  exact rxMsgs_copied zcan (zcan.copyCount_le_copyLimit copyFails)
    zcan.copyLimit_le_rxNum

theorem usrMsgs_zcanCopyToUser (copyFails : Nat → Bool) :
    (zcan.zcanCopyToUser copyFails).2.usrMsgs = zcan.usrMsgs ++
      ((zcan.rxMsgs.take (zcan.copyCount copyFails)).map zcanToBcan).mapIdx
        fun i msg => (zcan.usrAddr + i, msg) := by
  rw [zcanCopyToUser_snd]
  exact usrMsgs_copied zcan _ (zcan.copyCount_le_rxNum copyFails)

theorem usrRxNum_zcanCopyToUser (copyFails : Nat → Bool) :
    (zcan.zcanCopyToUser copyFails).2.zcanUsrRxNum =
      zcan.zcanUsrRxNum + zcan.copyCount copyFails := by
  rw [zcanCopyToUser_snd]
  rfl

theorem rxUserAgain_eq (copyFails : Nat → Bool) (partialRet : BcanErrCode) :
    ∃ ret, zcan.rxUserAgain copyFails partialRet =
      (zcan.zcanCopyToUser copyFails).2.rxUserDone ret := by
  unfold rxUserAgain
  split
  · rename_i copied heq
    exact ⟨partialRet, by rw [heq]⟩
  · rename_i ret copied _ heq
    exact ⟨ret, by rw [heq]⟩

def waited (call : RxCall) : ZynqCanRx :=
  call.arrivals.foldl rxPush (zcan.setComp 0)

theorem rxUserWait_eq (call : RxCall) :
    ∃ ret comp, zcan.rxUserWait call =
      (if call.outcome = .interrupted then zcan.waited call
        else (((zcan.waited call).setComp comp).zcanCopyToUser
          call.copyFailsAgain).2).rxUserDone ret := by
  unfold rxUserWait
  cases call.outcome with
  | interrupted => exact ⟨.BCAN_ERR, 0, rfl⟩
  | timedOut =>
      obtain ⟨ret, hret⟩ :=
        (zcan.waited call).rxUserAgain_eq call.copyFailsAgain .BCAN_TIMEOUT
      exact ⟨ret, _, hret⟩
  | woken =>
      obtain ⟨ret, hret⟩ := ((zcan.waited call).setComp
        ((zcan.waited call).zcanUsrRxComp - 1)).rxUserAgain_eq
          call.copyFailsAgain .BCAN_ERR
      exact ⟨ret, _, hret⟩

variable {zcan}

theorem zcanRxUser_of_ok {call : RxCall} (hfree : zcan.zcanUsrBuf = NULL)
    (hok : ((zcan.started call).zcanCopyToUser call.copyFails).1 = .BCAN_OK) :
    zcan.zcanRxUser call =
      ((zcan.started call).zcanCopyToUser call.copyFails).2.rxUserDone .BCAN_OK := by
  unfold zcanRxUser
  rw [if_neg (not_not.mpr hfree)]
  split
  · rename_i heq
    rw [heq]
  · rename_i hne heq
    rw [heq] at hok
    exact absurd hok (hne ·)

theorem zcanRxUser_of_not_ok {call : RxCall} (hfree : zcan.zcanUsrBuf = NULL)
    (hnot : ((zcan.started call).zcanCopyToUser call.copyFails).1 ≠ .BCAN_OK) :
    zcan.zcanRxUser call =
      ((zcan.started call).zcanCopyToUser call.copyFails).2.rxUserWait call := by
  unfold zcanRxUser
  rw [if_neg (not_not.mpr hfree)]
  split
  · rename_i heq
    rw [heq] at hnot
    exact absurd rfl hnot
  · rename_i heq
    rw [heq]

end ZynqCanRx

/-! Between the two ends of a call: `taken` has been handed over. -/

structure InCall (base : ZynqCanRx) (call : RxCall) (zcan : ZynqCanRx)
    (taken : List Msg) : Prop where
  bufRxNum : zcan.zcanBufRxNum = base.zcanBufRxNum
  usrBuf : zcan.zcanUsrBuf = call.iocMsgs
  usrBufNum : zcan.zcanUsrBufNum = call.iocMsgNum
  usrRxNum : zcan.zcanUsrRxNum = taken.length
  usrMsgs : zcan.usrMsgs = base.usrMsgs ++
    (taken.map zcanToBcan).mapIdx fun i msg => (call.iocMsgs + i, msg)

namespace InCall

open ZynqCanRx

variable {base zcan zcan' : ZynqCanRx} {call : RxCall} {taken : List Msg}

theorem start (hzero : base.zcanUsrRxNum = 0) :
    InCall base call (base.started call) [] where
  bufRxNum := rfl
  usrBuf := rfl
  usrBufNum := rfl
  usrRxNum := hzero
  usrMsgs := (List.append_nil _).symm

theorem sameReceiver (hcall : InCall base call zcan taken)
    (hsame : SameReceiver zcan zcan') : InCall base call zcan' taken where
  bufRxNum := hsame.bufRxNum.trans hcall.bufRxNum
  usrBuf := hsame.usrBuf.trans hcall.usrBuf
  usrBufNum := hsame.usrBufNum.trans hcall.usrBufNum
  usrRxNum := hsame.usrRxNum.trans hcall.usrRxNum
  usrMsgs := hsame.usrMsgs.trans hcall.usrMsgs

theorem comp (hcall : InCall base call zcan taken) (comp : Nat) :
    InCall base call (zcan.setComp comp) taken :=
  hcall.sameReceiver ⟨rfl, rfl, rfl, rfl, rfl⟩

theorem copyLimit_eq (hcall : InCall base call zcan taken) :
    zcan.copyLimit = min (call.iocMsgNum - taken.length) zcan.rxMsgs.length := by
  rw [copyLimit, hcall.usrBufNum, hcall.usrRxNum, length_rxMsgs]

theorem copyCount_eq (hcall : InCall base call zcan taken)
    (copyFails : Nat → Bool) :
    zcan.copyCount copyFails =
      copiedBeforeFault copyFails (call.iocMsgs + taken.length)
        (min (call.iocMsgNum - taken.length) zcan.rxMsgs.length) := by
  rw [copyCount, hcall.copyLimit_eq, usrAddr, hcall.usrBuf, hcall.usrRxNum]

theorem copy (hcall : InCall base call zcan taken) (copyFails : Nat → Bool) :
    InCall base call (zcan.zcanCopyToUser copyFails).2
      (taken ++ zcan.rxMsgs.take (zcan.copyCount copyFails)) := by
  have hcount := zcan.copyCount_le_rxNum copyFails
  have hframe := zcan.zcanCopyToUser_snd copyFails
  refine ⟨?_, ?_, ?_, ?_, ?_⟩
  · rw [hframe]
    exact hcall.bufRxNum
  · rw [hframe]
    exact hcall.usrBuf
  · rw [hframe]
    exact hcall.usrBufNum
  · rw [usrRxNum_zcanCopyToUser, hcall.usrRxNum, List.length_append,
      List.length_take, length_rxMsgs, Nat.min_eq_left hcount]
  · rw [usrMsgs_zcanCopyToUser, hcall.usrMsgs, usrAddr, hcall.usrBuf,
      hcall.usrRxNum, List.map_append, List.mapIdx_append, List.append_assoc,
      List.length_map]
    congr 3
    funext i msg
    rw [Nat.add_assoc, Nat.add_comm taken.length i]

theorem done (hcall : InCall base call zcan taken) (ret : BcanErrCode) :
    Realizes base call (zcan.rxUserDone ret) ⟨taken, zcan.rxMsgs⟩ where
  rxDone := hcall.usrRxNum
  usrMsgs := hcall.usrMsgs
  rxMsgs := rfl
  usrBuf := rfl
  usrBufNum := rfl
  usrRxNum := rfl

theorem wait (hcall : InCall base call zcan taken) :
    Realizes base call (zcan.rxUserWait call)
      (receiveWait zcanToBcan (base.zcanBufRxNum - 1) call taken zcan.rxMsgs
        call.arrivals) := by
  obtain ⟨ret, comp, hwait⟩ := rxUserWait_eq zcan call
  have hwaited : InCall base call (zcan.waited call) taken :=
    (hcall.comp 0).sameReceiver (sameReceiver_rxPushAll _ call.arrivals)
  have hmsgs : (zcan.waited call).rxMsgs =
      overflowPushAll (base.zcanBufRxNum - 1) ZCAN_IP_RXFIFO_MAX zcan.rxMsgs
        call.arrivals := by
    rw [waited, rxMsgs_rxPushAll, (hcall.comp 0).bufRxNum]
    rfl
  rw [hwait]
  unfold receiveWait
  rw [← hmsgs]
  split
  · exact hwaited.done ret
  · have hcomp := hwaited.comp comp
    have hresult := (hcomp.copy call.copyFailsAgain).done ret
    rw [rxMsgs_zcanCopyToUser, hcomp.copyLimit_eq, hcomp.copyCount_eq] at hresult
    exact hresult

end InCall

theorem ZynqCanRx.zcanRxUser_realizes {zcan : ZynqCanRx} (call : RxCall)
    (hfree : zcan.zcanUsrBuf = NULL) (hzero : zcan.zcanUsrRxNum = 0) :
    Realizes zcan call (zcan.zcanRxUser call)
      (receive zcanToBcan (zcan.zcanBufRxNum - 1) call zcan.rxMsgs
        call.arrivals) := by
  have hstart : InCall zcan call (zcan.started call) [] := InCall.start hzero
  have hcopy := hstart.copy call.copyFails
  have hmsgs := (zcan.started call).rxMsgs_zcanCopyToUser call.copyFails
  have hok := (zcan.started call).zcanCopyToUser_ok_iff call.copyFails (by
    rw [hstart.usrRxNum]
    exact Nat.zero_le _)
  rw [hstart.usrRxNum, hstart.usrBufNum, List.length_nil, Nat.zero_add,
    hstart.copyCount_eq] at hok
  rw [hstart.copyCount_eq] at hcopy
  rw [hstart.copyCount_eq, hstart.copyLimit_eq] at hmsgs
  unfold receive
  dsimp only
  split
  · rename_i hall
    rw [zcanRxUser_of_ok hfree (hok.mpr hall)]
    have hresult := hcopy.done .BCAN_OK
    rw [hmsgs] at hresult
    exact hresult
  · rename_i hless
    rw [zcanRxUser_of_not_ok hfree (mt hok.mp hless)]
    have hresult := hcopy.wait
    rw [hmsgs] at hresult
    exact hresult

/-- The user gets the decodings of the messages taken off the ring, those left
still have theirs, and the receiver is free again. -/
structure RxUserSpec (zcan : ZynqCanRx) (call : RxCall) : Prop where
  rxDone : (zcan.zcanRxUser call).rxDone =
    (receive id (zcan.zcanBufRxNum - 1) call zcan.rxMsgs call.arrivals).taken.length
  usrMsgs : (zcan.zcanRxUser call).zcan.usrMsgs = zcan.usrMsgs ++
    ((receive id (zcan.zcanBufRxNum - 1) call zcan.rxMsgs
      call.arrivals).taken.map zcanToBcan).mapIdx
        fun i msg => (call.iocMsgs + i, msg)
  left : (zcan.zcanRxUser call).zcan.rxMsgs.map zcanToBcan =
    (receive id (zcan.zcanBufRxNum - 1) call zcan.rxMsgs
      call.arrivals).left.map zcanToBcan
  usrBuf : (zcan.zcanRxUser call).zcan.zcanUsrBuf = NULL
  usrBufNum : (zcan.zcanRxUser call).zcan.zcanUsrBufNum = 0
  usrRxNum : (zcan.zcanRxUser call).zcan.zcanUsrRxNum = 0

structure Pending where
  msg : Msg
  conversions : Nat

namespace Pending

def fresh (msg : Msg) : Pending := ⟨msg, 0⟩

def convert (p : Pending) : Pending := { p with conversions := p.conversions + 1 }

def content (p : Pending) : Msg := zcanToBcan^[p.conversions] p.msg

theorem content_convert (p : Pending) : p.convert.content = zcanToBcan p.content :=
  Function.iterate_succ_apply' zcanToBcan p.conversions p.msg

/-- The conversions do not show in what the user reads. -/
def Harmless (p : Pending) : Prop :=
  zcanToBcan^[p.conversions + 1] p.msg = zcanToBcan p.msg

instance (p : Pending) : Decidable p.Harmless :=
  inferInstanceAs (Decidable (_ = _))

theorem harmless_iff (p : Pending) :
    p.Harmless ↔ zcanToBcan p.content = zcanToBcan p.msg := by
  rw [Harmless, Function.iterate_succ_apply']
  rfl

theorem map_fresh_content (msgs : List Msg) :
    (msgs.map fresh).map content = msgs := by
  rw [List.map_map]
  exact List.map_id msgs

theorem map_fresh_msg (msgs : List Msg) : (msgs.map fresh).map msg = msgs := by
  rw [List.map_map]
  exact List.map_id msgs

theorem map_harmless_iff (pending : List Pending) :
    (pending.map content).map zcanToBcan = (pending.map msg).map zcanToBcan ↔
      ∀ p ∈ pending, p.Harmless := by
  rw [List.map_map, List.map_map, List.map_inj_left]
  exact forall₂_congr fun p _ => p.harmless_iff.symm

end Pending

/-- Where the messages of a call end up, and the conversions they suffer from
the copies that fail at them. -/
def pendingAfter (zcan : ZynqCanRx) (call : RxCall) : Received Pending :=
  receive Pending.convert (zcan.zcanBufRxNum - 1) call
    (zcan.rxMsgs.map Pending.fresh) (call.arrivals.map Pending.fresh)

/-- No message at which a copy fails is delivered or left with a decoding that
its extra conversions change. -/
def FaultsHarmless (zcan : ZynqCanRx) (call : RxCall) : Prop :=
  ∀ p ∈ (pendingAfter zcan call).taken ++ (pendingAfter zcan call).left, p.Harmless

instance (zcan : ZynqCanRx) (call : RxCall) : Decidable (FaultsHarmless zcan call) :=
  inferInstanceAs (Decidable (∀ p ∈ _, Pending.Harmless p))

theorem pendingAfter_content (zcan : ZynqCanRx) (call : RxCall) :
    receive zcanToBcan (zcan.zcanBufRxNum - 1) call zcan.rxMsgs call.arrivals =
      (pendingAfter zcan call).map Pending.content := by
  rw [pendingAfter, ← receive_map Pending.content_convert,
    Pending.map_fresh_content, Pending.map_fresh_content]

theorem pendingAfter_msg (zcan : ZynqCanRx) (call : RxCall) :
    receive id (zcan.zcanBufRxNum - 1) call zcan.rxMsgs call.arrivals =
      (pendingAfter zcan call).map Pending.msg := by
  have hcomm : ∀ p : Pending, p.convert.msg = id p.msg := fun _ => rfl
  rw [pendingAfter, ← receive_map hcomm, Pending.map_fresh_msg,
    Pending.map_fresh_msg]

theorem mapIdx_addr_inj {base : Nat} {msgs msgs' : List Msg} :
    msgs.mapIdx (fun i msg => (base + i, msg)) =
        msgs'.mapIdx (fun i msg => (base + i, msg)) ↔ msgs = msgs' := by
  constructor
  · intro heq
    have hsnd : ∀ l : List Msg,
        (l.mapIdx fun i msg => (base + i, msg)).map Prod.snd = l := by
      intro l
      apply List.ext_getElem
      · simp
      · intro i _ _
        simp
    rw [← hsnd msgs, heq, hsnd]
  · rintro rfl
    rfl

/-- A call keeps its promise exactly when the copies that fail in it hit only
messages that another conversion does not change, or that are dropped. -/
theorem zcanRxUser_spec_iff {zcan : ZynqCanRx} (call : RxCall)
    (hfree : zcan.zcanUsrBuf = NULL) (hzero : zcan.zcanUsrRxNum = 0) :
    RxUserSpec zcan call ↔ FaultsHarmless zcan call := by
  have hcode := ZynqCanRx.zcanRxUser_realizes call hfree hzero
  rw [pendingAfter_content] at hcode
  have hcontent := Pending.map_harmless_iff (pendingAfter zcan call).taken
  have hleft := Pending.map_harmless_iff (pendingAfter zcan call).left
  unfold FaultsHarmless
  rw [List.forall_mem_append, ← hcontent, ← hleft]
  constructor
  · intro hspec
    have husr := hspec.usrMsgs
    have hkept := hspec.left
    rw [pendingAfter_msg, hcode.usrMsgs, List.append_cancel_left_eq,
      mapIdx_addr_inj] at husr
    rw [pendingAfter_msg, hcode.rxMsgs] at hkept
    exact ⟨husr, hkept⟩
  · rintro ⟨htaken, hkept⟩
    refine ⟨?_, ?_, ?_, hcode.usrBuf, hcode.usrBufNum, hcode.usrRxNum⟩
    · rw [pendingAfter_msg, hcode.rxDone]
      simp [Received.map]
    · rw [pendingAfter_msg, hcode.usrMsgs]
      exact congrArg (zcan.usrMsgs ++ List.mapIdx _ ·) htaken
    · rw [pendingAfter_msg, hcode.rxMsgs]
      exact hkept

def sampleFrame : Msg := ⟨0x24600000, 0x80000000, 0x01020304, 0x05060708, 0, 0⟩

/-- A call whose first copy fails and whose second, after a timeout, does not. -/
def retriedCall : RxCall where
  iocMsgs := 1
  iocMsgNum := 1
  copyFails := fun _ => true
  arrivals := []
  outcome := .timedOut
  copyFailsAgain := fun _ => false

/-- The retried message arrives with id 0 and its data words reversed. -/
theorem zcanRxUser_retried_not_spec :
    ¬ RxUserSpec (smallestRing.rxPush sampleFrame) retriedCall := by
  intro hspec
  have husr := hspec.usrMsgs
  revert husr
  decide +kernel

/-- A call for two messages of which one is there, and one arrives. -/
theorem zcanRxUser_spec_two :
    RxUserSpec (smallestRing.rxPush sampleFrame)
      ⟨1, 2, fun _ => false, [sampleFrame], .woken, fun _ => false⟩ :=
  (zcanRxUser_spec_iff _ rfl rfl).mpr (by decide +kernel)

end ApolloContrib.Can
