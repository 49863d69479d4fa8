import ApolloContrib.Bcan.Lib
import ApolloContrib.Library.Bits

namespace ApolloContrib.Bcan

open ApolloContrib.Can ApolloContrib.Library

/-! The calls of `bcan_lib.c` on a handle, with their ioctl answering as it likes, and
what a call that fails leaves behind. -/

structure Reply where
  iocMsgNumDone : BitVec 32
  iocMsgErr : Int
  bcanStatus : BitVec 32
  bcanErrCount : BitVec 32
  deriving DecidableEq, Repr

structure CallResult where
  ret : Int
  hdl : Option BcanIhdl
  deriving DecidableEq, Repr

/-- The common shape: leave on a failed check, else prepare the handle and run the ioctl,
whose `outcome` is `none` when it returns -1; `failed` is `ret` then. -/
def gotoErr (ahdl : Option BcanIhdl) (check : BcanErrCode)
    (prepare : BcanIhdl → BcanIhdl) (failed : BcanErrCode) (record : BcanIhdl → BcanIhdl)
    (ret : Reply → Int) (outcome : Option Reply) : CallResult :=
  if check ≠ .BCAN_OK then ⟨check.toInt, ahdl⟩
  else
    match outcome with
    | none => ⟨failed.toInt, ahdl.map prepare⟩
    | some reply => ⟨ret reply, ahdl.map (record ∘ prepare)⟩

def recordBaudrate (rate : BitVec 32) (hdl : BcanIhdl) : BcanIhdl :=
  { devState := hdl.devState ||| BCAN_DEV_BAUD_SET
    baudrate := rate }

def recordLoopback (hdl : BcanIhdl) : BcanIhdl :=
  { hdl with devState := (hdl.devState &&& ~~~BCAN_DEV_NORMAL) ||| BCAN_DEV_LOOPBACK }

def recordNormal (hdl : BcanIhdl) : BcanIhdl :=
  { hdl with devState := (hdl.devState &&& ~~~BCAN_DEV_LOOPBACK) ||| BCAN_DEV_NORMAL }

def recordStart (hdl : BcanIhdl) : BcanIhdl :=
  { hdl with devState := hdl.devState ||| BCAN_DEV_START }

def recordStop (hdl : BcanIhdl) : BcanIhdl :=
  { hdl with devState := (hdl.devState ||| BCAN_DEV_STOP) &&& ~~~BCAN_DEV_START }

def transferCheck (max : Nat) (numMsg : BitVec 32) (ahdl : Option BcanIhdl) : BcanErrCode :=
  if numMsg = 0 ∨ max < numMsg.toNat then .BCAN_PARAM_INVALID
  else bcanCheckState ahdl BCAN_DEV_ACTIVE

def transferRet (reply : Reply) : Int :=
  if reply.iocMsgNumDone ≠ 0 then reply.iocMsgNumDone.toInt else reply.iocMsgErr

inductive HdlCall where
  | bcanSetBaudrate (rate : BitVec 32)
  | bcanSetLoopback
  | bcanUnsetLoopback
  | bcanStart
  | bcanStop
  | bcanRecv (numMsg : BitVec 32)
  | bcanSend (numMsg : BitVec 32)
  | bcanGetStatus
  | bcanGetErrCounter
  deriving DecidableEq, Repr

namespace HdlCall

def check (ahdl : Option BcanIhdl) : HdlCall → BcanErrCode
  | bcanSetBaudrate _ => bcanCheckState ahdl BCAN_DEV_BAUD_SET
  | bcanSetLoopback => bcanCheckState ahdl BCAN_DEV_LOOPBACK
  | bcanUnsetLoopback => bcanCheckState ahdl (-1)
  | bcanStart => bcanCheckState ahdl BCAN_DEV_START
  | bcanStop => bcanCheckState ahdl BCAN_DEV_STOP
  | bcanRecv numMsg => transferCheck BCAN_MAX_RX_MSG numMsg ahdl
  | bcanSend numMsg => transferCheck BCAN_MAX_TX_MSG numMsg ahdl
  | bcanGetStatus => bcanCheckState ahdl (-1)
  | bcanGetErrCounter => bcanCheckState ahdl (-1)

/-- `bcan_stop` does not set `ret` when its ioctl fails, and `bcan_recv` marks the handle
before it runs its own. -/
def run (call : HdlCall) (ahdl : Option BcanIhdl) : Option Reply → CallResult :=
  match call with
  | bcanSetBaudrate rate =>
      gotoErr ahdl (call.check ahdl) id .BCAN_ERR (recordBaudrate rate) fun _ => 0
  | bcanSetLoopback => gotoErr ahdl (call.check ahdl) id .BCAN_ERR recordLoopback fun _ => 0
  | bcanUnsetLoopback => gotoErr ahdl (call.check ahdl) id .BCAN_ERR recordNormal fun _ => 0
  | bcanStart => gotoErr ahdl (call.check ahdl) id .BCAN_ERR recordStart fun _ => 0
  | bcanStop => gotoErr ahdl (call.check ahdl) id .BCAN_OK recordStop fun _ => 0
  | bcanRecv _ =>
      gotoErr ahdl (call.check ahdl) BcanSystem.markRecvd .BCAN_ERR id transferRet
  | bcanSend _ => gotoErr ahdl (call.check ahdl) id .BCAN_ERR id transferRet
  | bcanGetStatus =>
      gotoErr ahdl (call.check ahdl) id .BCAN_ERR id fun reply => reply.bcanStatus.toInt
  | bcanGetErrCounter => gotoErr ahdl (call.check ahdl) id .BCAN_ERR id fun _ => 0

end HdlCall

def errCounters (reply : Reply) : BitVec 8 × BitVec 8 :=
  ((reply.bcanErrCount &&& 0xFF).setWidth 8,
    ((reply.bcanErrCount &&& 0xFFFF) >>> 8).setWidth 8)

/-- A result that is not negative comes of an ioctl that succeeded, and a call that
fails leaves the handle alone. -/
structure Atomic (check : BcanErrCode) (outcome : Option Reply) (ahdl : Option BcanIhdl)
    (result : CallResult) : Prop where
  succeeded : 0 ≤ result.ret → check = .BCAN_OK ∧ outcome ≠ none
  unchanged : check ≠ .BCAN_OK ∨ outcome = none → result.ret < 0 ∧ result.hdl = ahdl

theorem gotoErr_atomic_iff {ahdl : Option BcanIhdl} {check failed : BcanErrCode}
    {prepare record : BcanIhdl → BcanIhdl} {ret : Reply → Int} {outcome : Option Reply}
    (hcheck : check ≠ .BCAN_OK → check.toInt < 0) :
    Atomic check outcome ahdl (gotoErr ahdl check prepare failed record ret outcome) ↔
      (check = .BCAN_OK → outcome = none →
        failed.toInt < 0 ∧ ahdl.map prepare = ahdl) := by
  unfold gotoErr
  split
  next hrefused =>
    refine iff_of_true ⟨?_, fun _ => ⟨hcheck hrefused, rfl⟩⟩ fun hok => absurd hok hrefused
    exact fun hret => absurd (hcheck hrefused) (not_lt.mpr hret)
  next hok =>
    have hok := not_not.mp hok
    cases outcome with
    | none =>
        constructor
        · exact fun hatomic _ _ => hatomic.unchanged (.inr rfl)
        · intro hfailed
          have hfailed := hfailed hok rfl
          exact ⟨fun hret => absurd hfailed.1 (not_lt.mpr hret), fun _ => hfailed⟩
    | some reply =>
        refine iff_of_true ⟨fun _ => ⟨hok, nofun⟩, ?_⟩ nofun
        rintro (hrefused | hnone)
        · exact absurd hok hrefused
        · cases hnone

theorem transferCheck_neg {max : Nat} {numMsg : BitVec 32} {ahdl : Option BcanIhdl}
    (hrefused : transferCheck max numMsg ahdl ≠ .BCAN_OK) :
    (transferCheck max numMsg ahdl).toInt < 0 := by
  unfold transferCheck at hrefused ⊢
  split
  next => decide
  next hnum =>
    rw [if_neg hnum] at hrefused
    exact bcanCheckState_neg hrefused

theorem HdlCall.check_neg {call : HdlCall} {ahdl : Option BcanIhdl}
    (hrefused : call.check ahdl ≠ .BCAN_OK) : (call.check ahdl).toInt < 0 := by
  cases call with
  | bcanRecv numMsg => exact transferCheck_neg hrefused
  | bcanSend numMsg => exact transferCheck_neg hrefused
  | _ => exact bcanCheckState_neg hrefused

theorem markRecvd_eq_self_iff (hdl : BcanIhdl) :
    BcanSystem.markRecvd hdl = hdl ↔ hasBit hdl.devState BCAN_DEV_RECVD := by
  unfold BcanSystem.markRecvd
  split
  next hbit => exact iff_of_true rfl hbit
  next hbit =>
    refine iff_of_false ?_ hbit
    intro hsame
    have hstate : hdl.devState ||| BCAN_DEV_RECVD = hdl.devState :=
      congrArg BcanIhdl.devState hsame
    apply hbit
    rw [hasBit, ← hstate, or_and_self]
    decide

def Received (ahdl : Option BcanIhdl) : Prop :=
  ∀ hdl, ahdl = some hdl → hasBit hdl.devState BCAN_DEV_RECVD

theorem map_markRecvd_eq_self_iff (ahdl : Option BcanIhdl) :
    ahdl.map BcanSystem.markRecvd = ahdl ↔ Received ahdl := by
  cases ahdl with
  | none => exact iff_of_true rfl nofun
  | some hdl => simp [Received, markRecvd_eq_self_iff]

/-- Not a `bcan_stop` whose ioctl fails, and no first `bcan_recv` whose ioctl fails. -/
def HdlCall.Safe (call : HdlCall) (ahdl : Option BcanIhdl) (outcome : Option Reply) : Prop :=
  call.check ahdl = .BCAN_OK → outcome = none →
    match call with
    | .bcanStop => False
    | .bcanRecv _ => Received ahdl
    | _ => True

theorem bcan_atomic_iff (call : HdlCall) (ahdl : Option BcanIhdl)
    (outcome : Option Reply) :
    Atomic (call.check ahdl) outcome ahdl (call.run ahdl outcome) ↔
      call.Safe ahdl outcome := by
  have herr : BcanErrCode.BCAN_ERR.toInt < 0 := by decide
  have hok : ¬ BcanErrCode.BCAN_OK.toInt < 0 := by decide
  cases call with
  | bcanStop => simp [HdlCall.run, gotoErr_atomic_iff HdlCall.check_neg, HdlCall.Safe, hok]
  | bcanRecv numMsg =>
      simp [HdlCall.run, gotoErr_atomic_iff HdlCall.check_neg, HdlCall.Safe, herr,
        map_markRecvd_eq_self_iff]
  | _ => simp [HdlCall.run, gotoErr_atomic_iff HdlCall.check_neg, HdlCall.Safe, herr]

/-- A channel that is started does not stop, and the call returns `BCAN_OK`. -/
theorem bcan_stop_not_atomic :
    ¬ Atomic (HdlCall.bcanStop.check (some ⟨BCAN_DEV_OPEN ||| BCAN_DEV_START, 0⟩)) none
      (some ⟨BCAN_DEV_OPEN ||| BCAN_DEV_START, 0⟩)
      (HdlCall.bcanStop.run (some ⟨BCAN_DEV_OPEN ||| BCAN_DEV_START, 0⟩) none) := by
  intro hatomic
  exact absurd (hatomic.unchanged (.inr rfl)).1 (by decide)

/-! ### The calls over the driver

Over the driver of one device each call does what it does here, with its ioctl answering
as that driver does. -/

namespace BcanSystem

variable {sys next : BcanSystem}

theorem hdl_ioctl {cmd : ZynqIocCan} {arg : BitVec 64} {failed : Bool}
    (hioctl : sys.ioctl cmd arg = some (failed, next)) : next.hdl = sys.hdl := by
  obtain ⟨result, -, hresult⟩ := Option.map_eq_some_iff.mp hioctl
  obtain ⟨-, rfl⟩ := Prod.mk.inj hresult
  rfl

theorem configure_gotoErr {pstate : BitVec 32} {cmd : ZynqIocCan} {arg : BitVec 64}
    {failedErr err : BcanErrCode} {record : BcanIhdl → BcanIhdl}
    (hcall : sys.configure pstate cmd arg failedErr record = some (err, next)) :
    ∃ outcome, gotoErr sys.hdl (bcanCheckState sys.hdl pstate) id failedErr record
      (fun _ => 0) outcome = ⟨err.toInt, next.hdl⟩ := by
  unfold configure at hcall
  unfold gotoErr
  cases hcheck : bcanCheckState sys.hdl pstate with
  | BCAN_OK =>
      rw [hcheck] at hcall
      obtain ⟨⟨failed, after⟩, hioctl, hresult⟩ := Option.map_eq_some_iff.mp hcall
      have hafter := hdl_ioctl hioctl
      cases failed with
      | true =>
          obtain ⟨rfl, rfl⟩ := Prod.mk.inj hresult
          exact ⟨none, by simp [hafter]⟩
      | false =>
          obtain ⟨rfl, rfl⟩ := Prod.mk.inj hresult
          exact ⟨some ⟨0, 0, 0, 0⟩, by simp [setHdl, hafter, BcanErrCode.toInt]⟩
  | _ =>
      rw [hcheck] at hcall
      obtain ⟨rfl, rfl⟩ := Prod.mk.inj (Option.some.inj hcall)
      exact ⟨none, by simp⟩

theorem bcanSetBaudrate_run {rate : BitVec 32} {err : BcanErrCode}
    (hcall : sys.bcanSetBaudrate rate = some (err, next)) :
    ∃ outcome, (HdlCall.bcanSetBaudrate rate).run sys.hdl outcome =
      ⟨err.toInt, next.hdl⟩ :=
  configure_gotoErr hcall

theorem bcanSetLoopback_run {err : BcanErrCode}
    (hcall : sys.bcanSetLoopback = some (err, next)) :
    ∃ outcome, HdlCall.bcanSetLoopback.run sys.hdl outcome = ⟨err.toInt, next.hdl⟩ :=
  configure_gotoErr hcall

theorem bcanUnsetLoopback_run {err : BcanErrCode}
    (hcall : sys.bcanUnsetLoopback = some (err, next)) :
    ∃ outcome, HdlCall.bcanUnsetLoopback.run sys.hdl outcome = ⟨err.toInt, next.hdl⟩ :=
  configure_gotoErr hcall

theorem bcanStart_run {err : BcanErrCode} (hcall : sys.bcanStart = some (err, next)) :
    ∃ outcome, HdlCall.bcanStart.run sys.hdl outcome = ⟨err.toInt, next.hdl⟩ :=
  configure_gotoErr hcall

theorem bcanStop_run {err : BcanErrCode} (hcall : sys.bcanStop = some (err, next)) :
    ∃ outcome, HdlCall.bcanStop.run sys.hdl outcome = ⟨err.toInt, next.hdl⟩ :=
  configure_gotoErr hcall

def transferOutcome (result : IocResult) : Option Reply :=
  if result.err < 0 then none
  else some ⟨result.arg.iocMsgNumDone, result.arg.iocMsgErr, 0, 0⟩

theorem transfer_gotoErr (prepare : BcanIhdl → BcanIhdl) (result : IocResult) :
    gotoErr sys.hdl .BCAN_OK prepare .BCAN_ERR id transferRet (transferOutcome result) =
      ⟨countRet result, sys.hdl.map prepare⟩ := by
  unfold gotoErr transferOutcome countRet
  by_cases herr : result.err < 0
  · rw [if_pos herr, if_pos herr]
    rfl
  · rw [if_neg herr, if_neg herr]
    rfl

theorem refused_gotoErr {check : BcanErrCode} (prepare : BcanIhdl → BcanIhdl)
    (hrefused : check ≠ .BCAN_OK) :
    gotoErr sys.hdl check prepare .BCAN_ERR id transferRet none =
      ⟨check.toInt, sys.hdl⟩ := by
  rw [gotoErr, if_pos hrefused]

theorem bcanRecv_run (buf : Nat) (numMsg : BitVec 32) (stack : IocBcanMsg)
    (call : IocCall) (rxCall : RxCall) :
    ∃ outcome, (HdlCall.bcanRecv numMsg).run sys.hdl outcome =
      ⟨(sys.bcanRecv buf numMsg stack call rxCall).ret,
        (sys.bcanRecv buf numMsg stack call rxCall).sys.hdl⟩ := by
  change ∃ outcome, gotoErr sys.hdl (transferCheck BCAN_MAX_RX_MSG numMsg sys.hdl)
    markRecvd .BCAN_ERR id transferRet outcome = _
  unfold transferCheck bcanRecv
  by_cases hnum : numMsg = 0 ∨ BCAN_MAX_RX_MSG < numMsg.toNat
  · refine ⟨none, ?_⟩
    rw [if_pos hnum, if_pos hnum, refused_gotoErr _ (by decide)]
    rfl
  · rw [if_neg hnum, if_neg hnum]
    split
    next hdl hsome hok =>
      let arg := { iocArg stack buf numMsg with iocMsgRxClear := rxClear hdl }
      refine ⟨transferOutcome (sys.zcan.zcanIoctlRecv arg call rxCall), ?_⟩
      rw [hok, transfer_gotoErr, hsome]
      rfl
    next check hrefused =>
      refine ⟨none, ?_⟩
      rw [refused_gotoErr]
      · rfl
      · intro hok
        cases hsome : sys.hdl with
        | none => cases (hsome ▸ hok)
        | some hdl => exact hrefused hdl hsome hok

theorem bcanSend_run (buf : Nat) (numMsg : BitVec 32) (stack : IocBcanMsg)
    (call : IocCall) (txCall : TxCall) (usrMsgs : Nat → Msg) :
    ∃ outcome, (HdlCall.bcanSend numMsg).run sys.hdl outcome =
      ⟨(sys.bcanSend buf numMsg stack call txCall usrMsgs).ret,
        (sys.bcanSend buf numMsg stack call txCall usrMsgs).sys.hdl⟩ := by
  change ∃ outcome, gotoErr sys.hdl (transferCheck BCAN_MAX_TX_MSG numMsg sys.hdl)
    id .BCAN_ERR id transferRet outcome = _
  unfold transferCheck bcanSend
  by_cases hnum : numMsg = 0 ∨ BCAN_MAX_TX_MSG < numMsg.toNat
  · refine ⟨none, ?_⟩
    rw [if_pos hnum, if_pos hnum, refused_gotoErr _ (by decide)]
    rfl
  · rw [if_neg hnum, if_neg hnum]
    split
    next hok =>
      let arg := iocArg stack buf numMsg
      refine ⟨transferOutcome (sys.zcan.zcanIoctlSend false arg call txCall usrMsgs), ?_⟩
      rw [hok, transfer_gotoErr, Option.map_id]
      rfl
    next check hrefused =>
      refine ⟨none, ?_⟩
      rw [refused_gotoErr _ hrefused]
      rfl

end BcanSystem

end ApolloContrib.Bcan
