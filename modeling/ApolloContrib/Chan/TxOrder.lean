import ApolloContrib.Chan.TxRing
import ApolloContrib.Library.Window

namespace ApolloContrib.Chan

open ApolloContrib.Can ApolloContrib.Library

/-! The transmit ring in every order of the accesses: what is outstanding keeps its
descriptor and buffer, and the hardware sees the messages once each, in order. -/

theorem ZCHAN_TX_ENTRIES_CAN_pos : 0 < ZCHAN_TX_ENTRIES_CAN := by decide

theorem and_txMask (i : Nat) :
    i &&& (ZCHAN_TX_ENTRIES_CAN - 1) = i % ZCHAN_TX_ENTRIES_CAN :=
  Nat.and_two_pow_sub_one_eq_mod i 10

/-! ### Addresses -/

theorem HI32_append_LO32 (addr : BitVec 64) :
    (HI32 addr).setWidth 64 <<< 32 ||| (LO32 addr).setWidth 64 = addr := by
  apply BitVec.eq_of_getLsbD_eq
  intro i hi
  simp only [HI32, LO32, BitVec.getLsbD_or, BitVec.getLsbD_shiftLeft, BitVec.getLsbD_setWidth,
    BitVec.getLsbD_ushiftRight]
  by_cases hlow : i < 32
  · simp [hlow, hi]
  · simp [hlow, hi, show i - 32 < 64 by omega, show i - 32 < 32 by omega,
      show 32 + (i - 32) = i by omega]

namespace TxAlloc

variable (alloc : TxAlloc)

theorem toNat_descAddr {i : Nat} (hi : i < ZCHAN_TX_ENTRIES_CAN) :
    (alloc.descAddr i).toNat = alloc.zchanTxDma.toNat + i * ZCHAN_TX_DESC_SIZE := by
  have haligned := alloc.aligned
  have hlt := alloc.zchanTxDma.isLt
  unfold ZCHAN_TX_ENTRIES_CAN ZCHAN_TX_DESC_SIZE at *
  simp only [descAddr, BitVec.toNat_add, BitVec.toNat_ofNat, ZCHAN_TX_DESC_SIZE]
  omega

theorem HI32_descAddr {i : Nat} (hi : i < ZCHAN_TX_ENTRIES_CAN) :
    HI32 (alloc.descAddr i) = HI32 alloc.zchanTxDma := by
  have haligned := alloc.aligned
  have haddr := alloc.toNat_descAddr hi
  apply BitVec.eq_of_toNat_eq
  simp only [HI32, BitVec.toNat_setWidth, BitVec.toNat_ushiftRight, haddr,
    Nat.shiftRight_eq_div_pow]
  unfold ZCHAN_TX_ENTRIES_CAN ZCHAN_TX_DESC_SIZE at *
  omega

theorem zchanTxReadHead_descAddr (txHead : Nat) {i : Nat} (hi : i < ZCHAN_TX_ENTRIES_CAN) :
    alloc.zchanTxReadHead txHead (HI32 alloc.zchanTxDma) (LO32 (alloc.descAddr i)) = i := by
  have haddr := alloc.toNat_descAddr hi
  have hle : alloc.zchanTxDma ≤ alloc.descAddr i := by
    rw [BitVec.le_def, haddr]
    exact Nat.le_add_right _ _
  have hindex : (alloc.descAddr i - alloc.zchanTxDma).toNat = i * ZCHAN_TX_DESC_SIZE := by
    rw [BitVec.toNat_sub_of_le hle, haddr, Nat.add_sub_cancel_left]
  have hlt : i < 2 ^ 32 := hi.trans (by decide)
  unfold zchanTxReadHead
  rw [← alloc.HI32_descAddr hi, HI32_append_LO32]
  simp only [hindex]
  rw [if_pos hle, Nat.mul_div_cancel _ (by decide), Nat.mod_eq_of_lt hlt,
    if_neg (Nat.not_le.mpr hi)]

end TxAlloc

/-- Descriptor `i` and its buffer hold a message for the hardware. -/
structure Holds (alloc : TxAlloc) (s : TxSystem) (i : Nat) (msg : Bytes) : Prop where
  addr : (s.ring.zchanTxDescp i).txAddr = alloc.zchanBufDma i
  len : (s.ring.zchanTxDescp i).txLen = msg.length
  data : ∀ j (hj : j < msg.length), s.mem (alloc.zchanBufDma i) j = msg[j]

def StageOk (alloc : TxAlloc) (s : TxSystem) (call : TxCall) : TxStage → Prop
  | .memcpy => True
  | .txLen =>
      ∀ j (hj : j < call.msg.length),
        s.mem (alloc.zchanBufDma call.txTail) j = call.msg[j]
  | .txAddr =>
      (∀ j (hj : j < call.msg.length),
        s.mem (alloc.zchanBufDma call.txTail) j = call.msg[j]) ∧
      (s.ring.zchanTxDescp call.txTail).txLen = call.msg.length
  | .tailHi | .tailLo | .tail => Holds alloc s call.txTail call.msg

def TxStage.stored : TxStage → Bool
  | .memcpy | .txLen | .txAddr => false
  | .tailHi | .tailLo | .tail => true

def TxSystem.stored (s : TxSystem) : Bool :=
  match s.tx with
  | none => false
  | some (stage, _) => stage.stored

structure CallOk (s : TxSystem) (call : TxCall) : Prop where
  txTail : call.txTail = s.accepted.length % ZCHAN_TX_ENTRIES_CAN
  txNext : call.txNext = (s.accepted.length + 1) % ZCHAN_TX_ENTRIES_CAN
  room : s.accepted.length + 2 ≤ s.completed + ZCHAN_TX_ENTRIES_CAN

def TxOk (alloc : TxAlloc) (s : TxSystem) : Option (TxStage × TxCall) → Prop
  | none => True
  | some (stage, call) => CallOk s call ∧ StageOk alloc s call stage

/-- The index that the tail registers tell the hardware: a call has written them before it
stores the tail. -/
def TxSystem.tailIndex (s : TxSystem) : Nat :=
  match s.tx with
  | some (.tail, call) => call.txNext
  | _ => s.ring.zchanTxTail

structure Told (alloc : TxAlloc) (s : TxSystem) : Prop where
  hi : s.tailHi = HI32 alloc.zchanTxDma
  lo : s.tailLo = LO32 (alloc.descAddr s.tailIndex)

/-- What `zchan_tx_done` has read, with the number of descriptors cleared since
the ring was set up. -/
def DoneOk (alloc : TxAlloc) (s : TxSystem) (cleared : Nat) : DonePhase → Prop
  | .idle => cleared = s.completed
  | .headHi head => cleared = s.completed ∧ head = s.ring.zchanTxHead
  | .headLo head hi =>
      cleared = s.completed ∧ head = s.ring.zchanTxHead ∧ hi = HI32 alloc.zchanTxDma
  | .clear idx newHead =>
      idx = cleared % ZCHAN_TX_ENTRIES_CAN ∧ ∃ upto, cleared ≤ upto ∧
        upto ≤ s.sent.length ∧ newHead = upto % ZCHAN_TX_ENTRIES_CAN

/-- Head, tail and hardware head are remainders of the numbers of messages that
are completed, accepted and sent. -/
structure Counted (s : TxSystem) (cleared : Nat) : Prop where
  head : s.ring.zchanTxHead = s.completed % ZCHAN_TX_ENTRIES_CAN
  tail : s.ring.zchanTxTail = s.accepted.length % ZCHAN_TX_ENTRIES_CAN
  hw : s.hwHead = s.sent.length % ZCHAN_TX_ENTRIES_CAN
  completed_le : s.completed ≤ cleared
  cleared_le : cleared ≤ s.sent.length
  sent_prefix : s.sent <+: s.accepted
  room : s.accepted.length + 1 ≤ s.completed + ZCHAN_TX_ENTRIES_CAN

/-- The descriptors of uncleared messages are in use, and no other but the one
that a call has just set. -/
structure Filled (alloc : TxAlloc) (s : TxSystem) (cleared : Nat) : Prop where
  used : ∀ k (hk : k < s.accepted.length), cleared ≤ k →
    Holds alloc s (k % ZCHAN_TX_ENTRIES_CAN) s.accepted[k]
  free : ∀ k, s.accepted.length ≤ k → k < cleared + ZCHAN_TX_ENTRIES_CAN →
    (s.ring.zchanTxDescp (k % ZCHAN_TX_ENTRIES_CAN)).txAddr = 0 ∨
      k = s.accepted.length ∧ s.stored = true

structure TxInv (alloc : TxAlloc) (s : TxSystem) (cleared : Nat) : Prop where
  counted : Counted s cleared
  filled : Filled alloc s cleared
  notCleared : s.notCleared = []
  answered : s.answers.count .BCAN_OK = s.accepted.length
  told : Told alloc s
  tx : TxOk alloc s s.tx
  done : DoneOk alloc s cleared s.done

theorem Counted.sent_le {s : TxSystem} {cleared : Nat} (hcounted : Counted s cleared) :
    s.sent.length ≤ s.accepted.length :=
  hcounted.sent_prefix.length_le

theorem txInv_init (alloc : TxAlloc) (mem : BitVec 64 → Nat → BitVec 8) :
    TxInv alloc (TxSystem.init alloc mem) 0 := by
  have hzero : alloc.descAddr 0 = alloc.zchanTxDma := by
    simp [TxAlloc.descAddr]
  refine ⟨⟨rfl, rfl, rfl, le_rfl, le_rfl, List.prefix_rfl, ?_⟩, ⟨nofun, ?_⟩, rfl, rfl, ⟨rfl, ?_⟩,
    trivial, rfl⟩
  · exact ZCHAN_TX_ENTRIES_CAN_pos
  · intro k _ _
    exact Or.inl rfl
  · change LO32 alloc.zchanTxDma = LO32 (alloc.descAddr 0)
    rw [hzero]

section Frames

variable {alloc : TxAlloc} {s next : TxSystem} {cleared : Nat} {call : TxCall}

theorem Holds.of_eq {i : Nat} {msg : Bytes} (hholds : Holds alloc s i msg)
    (hdesc : next.ring.zchanTxDescp i = s.ring.zchanTxDescp i)
    (hmem : next.mem (alloc.zchanBufDma i) = s.mem (alloc.zchanBufDma i)) :
    Holds alloc next i msg := by
  refine ⟨?_, ?_, ?_⟩
  · rw [hdesc]
    exact hholds.addr
  · rw [hdesc]
    exact hholds.len
  · rw [hmem]
    exact hholds.data

/-- Nothing that the hardware may read is changed by what a call does to its own
descriptor and buffer. -/
theorem Filled.of_own (hcounted : Counted s cleared) (hfilled : Filled alloc s cleared)
    (hcall : CallOk s call) (haccepted : next.accepted = s.accepted)
    (hdesc : ∀ i, i ≠ call.txTail → next.ring.zchanTxDescp i = s.ring.zchanTxDescp i)
    (hmem : ∀ addr, addr ≠ alloc.zchanBufDma call.txTail → next.mem addr = s.mem addr)
    (hown : next.stored = true ∨ (next.ring.zchanTxDescp call.txTail).txAddr =
      (s.ring.zchanTxDescp call.txTail).txAddr ∧ s.stored = false) :
    Filled alloc next cleared := by
  have hpos := ZCHAN_TX_ENTRIES_CAN_pos
  have hroom := hcounted.room
  have hle := hcounted.completed_le
  refine ⟨?_, ?_⟩
  · intro k hk hcleared
    have hk' : k < s.accepted.length := by
      rw [← haccepted]
      exact hk
    have hne : k % ZCHAN_TX_ENTRIES_CAN ≠ call.txTail := by
      rw [hcall.txTail]
      intro heq
      have hsame := mod_inj hk'.le (by omega) heq.symm
      omega
    have hlt : call.txTail < ZCHAN_TX_ENTRIES_CAN := by
      rw [hcall.txTail]
      exact Nat.mod_lt _ hpos
    have hholds := (hfilled.used k hk' hcleared).of_eq (hdesc _ hne) (hmem _ fun heq =>
      hne (alloc.distinct _ _ (Nat.mod_lt _ hpos) hlt heq))
    simpa only [haccepted] using hholds
  · intro k hfrom hto
    rw [haccepted] at hfrom ⊢
    by_cases hlast : k = s.accepted.length
    · rcases hown with hstored | ⟨haddr, hunstored⟩
      · exact Or.inr ⟨hlast, hstored⟩
      · left
        rcases hfilled.free k hfrom hto with hzero | ⟨_, hstored⟩
        · rw [hlast, ← hcall.txTail] at hzero ⊢
          exact haddr.trans hzero
        · exact absurd (hstored.symm.trans hunstored) (by decide)
    · left
      have hne : k % ZCHAN_TX_ENTRIES_CAN ≠ call.txTail := by
        rw [hcall.txTail]
        intro heq
        have hsent := hcounted.sent_le
        have hcleared := hcounted.cleared_le
        exact hlast (mod_inj hfrom (by omega) heq)
      rw [hdesc _ hne]
      rcases hfilled.free k hfrom hto with hzero | ⟨heq, _⟩
      · exact hzero
      · exact absurd heq hlast

theorem Filled.of_eq (hfilled : Filled alloc s cleared)
    (haccepted : next.accepted = s.accepted)
    (hdesc : next.ring.zchanTxDescp = s.ring.zchanTxDescp) (hmem : next.mem = s.mem)
    (hstored : next.stored = s.stored) : Filled alloc next cleared := by
  refine ⟨?_, ?_⟩
  · intro k hk hcleared
    have hk' : k < s.accepted.length := by
      rw [← haccepted]
      exact hk
    have hholds := (hfilled.used k hk' hcleared).of_eq
      (congrFun hdesc _) (congrFun hmem _)
    simpa only [haccepted] using hholds
  · intro k hfrom hto
    rw [haccepted] at hfrom ⊢
    rw [hdesc, hstored]
    exact hfilled.free k hfrom hto

theorem StageOk.of_eq {stage : TxStage} (hstage : StageOk alloc s call stage)
    (hdesc : next.ring.zchanTxDescp call.txTail = s.ring.zchanTxDescp call.txTail)
    (hmem : next.mem = s.mem) : StageOk alloc next call stage := by
  have hholds : Holds alloc s call.txTail call.msg → Holds alloc next call.txTail call.msg :=
    fun hholds => hholds.of_eq hdesc (congrFun hmem _)
  cases stage with
  | memcpy => trivial
  | txLen =>
      intro j hj
      rw [hmem]
      exact hstage j hj
  | txAddr =>
      refine ⟨fun j hj => ?_, ?_⟩
      · rw [hmem]
        exact hstage.1 j hj
      · rw [hdesc]
        exact hstage.2
  | tailHi => exact hholds hstage
  | tailLo => exact hholds hstage
  | tail => exact hholds hstage

theorem Told.of_eq (htold : Told alloc s) (htailHi : next.tailHi = s.tailHi)
    (htailLo : next.tailLo = s.tailLo) (hindex : next.tailIndex = s.tailIndex) :
    Told alloc next where
  hi := htailHi.trans htold.hi
  lo := by
    rw [htailLo, hindex]
    exact htold.lo

theorem TxOk.of_eq (htx : TxOk alloc s s.tx) (hsame : next.tx = s.tx)
    (hdesc : next.ring.zchanTxDescp (s.accepted.length % ZCHAN_TX_ENTRIES_CAN) =
      s.ring.zchanTxDescp (s.accepted.length % ZCHAN_TX_ENTRIES_CAN))
    (hmem : next.mem = s.mem) (haccepted : next.accepted = s.accepted)
    (hcompleted : s.completed ≤ next.completed) : TxOk alloc next next.tx := by
  rw [hsame]
  cases hcall : s.tx with
  | none => trivial
  | some stageCall =>
      obtain ⟨stage, call⟩ := stageCall
      rw [hcall] at htx
      obtain ⟨⟨htxTail, htxNext, hroom⟩, hstage⟩ := htx
      refine ⟨⟨?_, ?_, ?_⟩, hstage.of_eq ?_ hmem⟩
      · rw [haccepted]
        exact htxTail
      · rw [haccepted]
        exact htxNext
      · rw [haccepted]
        exact hroom.trans (Nat.add_le_add_right hcompleted _)
      · rw [htxTail]
        exact hdesc

theorem Counted.of_eq (hcounted : Counted s cleared)
    (hhead : next.ring.zchanTxHead = s.ring.zchanTxHead)
    (htail : next.ring.zchanTxTail = s.ring.zchanTxTail) (hhw : next.hwHead = s.hwHead)
    (hcompleted : next.completed = s.completed) (haccepted : next.accepted = s.accepted)
    (hsent : next.sent = s.sent) : Counted next cleared := by
  obtain ⟨h₁, h₂, h₃, h₄, h₅, h₆, h₇⟩ := hcounted
  refine ⟨?_, ?_, ?_, ?_, ?_, ?_, ?_⟩
  · rw [hhead, hcompleted]
    exact h₁
  · rw [htail, haccepted]
    exact h₂
  · rw [hhw, hsent]
    exact h₃
  · rw [hcompleted]
    exact h₄
  · rw [hsent]
    exact h₅
  · rw [hsent, haccepted]
    exact h₆
  · rw [haccepted, hcompleted]
    exact h₇

theorem DoneOk.of_eq (hdone : DoneOk alloc s cleared s.done) (hsame : next.done = s.done)
    (hhead : next.ring.zchanTxHead = s.ring.zchanTxHead)
    (hcompleted : next.completed = s.completed) (hsent : s.sent.length ≤ next.sent.length) :
    DoneOk alloc next cleared next.done := by
  rw [hsame]
  cases hphase : s.done with
  | idle =>
      rw [hphase] at hdone
      exact hdone.trans hcompleted.symm
  | headHi head =>
      rw [hphase] at hdone
      exact ⟨hdone.1.trans hcompleted.symm, hdone.2.trans hhead.symm⟩
  | headLo head hi =>
      rw [hphase] at hdone
      exact ⟨hdone.1.trans hcompleted.symm, hdone.2.1.trans hhead.symm, hdone.2.2⟩
  | clear idx newHead =>
      rw [hphase] at hdone
      obtain ⟨hidx, upto, hle, hupto, hnewHead⟩ := hdone
      exact ⟨hidx, upto, hle, hupto.trans hsent, hnewHead⟩

end Frames

section Steps

variable {alloc : TxAlloc} {s next : TxSystem} {cleared : Nat} {call : TxCall}

/-- The ring looks full exactly when a round but one is accepted and not yet
completed. -/
theorem Counted.full_iff (hcounted : Counted s cleared) :
    (s.ring.zchanTxTail + 1) &&& (ZCHAN_TX_ENTRIES_CAN - 1) = s.ring.zchanTxHead ↔
      s.accepted.length = s.completed + (ZCHAN_TX_ENTRIES_CAN - 1) := by
  have hpos := ZCHAN_TX_ENTRIES_CAN_pos
  have hroom := hcounted.room
  have hsent := hcounted.sent_le
  have hle := hcounted.completed_le.trans hcounted.cleared_le
  rw [and_txMask, hcounted.tail, hcounted.head,
    next_eq_head_iff (Nat.mod_lt _ hpos) (Nat.mod_lt _ hpos),
    ringCount_mod hpos (by omega) (by omega)]
  omega

theorem TxInv.answer (hinv : TxInv alloc s cleared) {ret : BcanErrCode}
    (hret : ret ≠ .BCAN_OK) : TxInv alloc (s.answer ret) cleared := by
  refine ⟨hinv.counted.of_eq rfl rfl rfl rfl rfl rfl, hinv.filled.of_eq rfl rfl rfl rfl,
    hinv.notCleared, ?_, hinv.told.of_eq rfl rfl rfl, hinv.tx.of_eq rfl rfl rfl rfl le_rfl,
    hinv.done.of_eq rfl rfl rfl le_rfl⟩
  change (s.answers ++ [ret]).count .BCAN_OK = s.accepted.length
  rw [List.count_append, List.count_singleton, if_neg (by simpa using hret)]
  exact hinv.answered

theorem TxInv.zchanTxOneMsg (hinv : TxInv alloc s cleared) (hidle : s.tx = none)
    (msg : Bytes) : TxInv alloc (s.zchanTxOneMsg msg) cleared := by
  unfold TxSystem.zchanTxOneMsg
  split
  next hlong => exact hinv.answer (by decide)
  next hfits =>
    dsimp only
    split
    next hfull => exact hinv.answer (by decide)
    next hroom =>
      have hless : s.accepted.length + 1 < s.completed + ZCHAN_TX_ENTRIES_CAN := by
        refine lt_of_le_of_ne hinv.counted.room fun hfull => hroom ?_
        exact hinv.counted.full_iff.mpr (Nat.eq_sub_of_add_eq hfull)
      have hstored : s.stored = false := by
        simp [TxSystem.stored, hidle]
      refine ⟨hinv.counted.of_eq rfl rfl rfl rfl rfl rfl,
        hinv.filled.of_eq rfl rfl rfl hstored.symm, hinv.notCleared, hinv.answered,
        hinv.told.of_eq rfl rfl ?_, ⟨⟨hinv.counted.tail, ?_, hless⟩, trivial⟩,
        hinv.done.of_eq rfl rfl rfl le_rfl⟩
      · simp [TxSystem.tailIndex, hidle]
      rw [and_txMask, hinv.counted.tail, Nat.mod_add_mod]

theorem TxInv.of_access {stage : TxStage} (hinv : TxInv alloc s cleared)
    (htx : next.tx = some (stage, call)) (hcall : CallOk s call)
    (hstage : StageOk alloc next call stage) (htold : Told alloc next)
    (hfilled : Filled alloc next cleared)
    (hhead : next.ring.zchanTxHead = s.ring.zchanTxHead)
    (htail : next.ring.zchanTxTail = s.ring.zchanTxTail) (hhw : next.hwHead = s.hwHead)
    (hdone : next.done = s.done) (hanswers : next.answers = s.answers)
    (hnotCleared : next.notCleared = []) (haccepted : next.accepted = s.accepted)
    (hcompleted : next.completed = s.completed) (hsent : next.sent = s.sent) :
    TxInv alloc next cleared := by
  refine ⟨hinv.counted.of_eq hhead htail hhw hcompleted haccepted hsent, hfilled, hnotCleared,
    ?_, htold, ?_, hinv.done.of_eq hdone hhead hcompleted (by rw [hsent])⟩
  · rw [hanswers, haccepted]
    exact hinv.answered
  · rw [htx]
    obtain ⟨htxTail, htxNext, hroom⟩ := hcall
    refine ⟨⟨?_, ?_, ?_⟩, hstage⟩
    · rw [haccepted]
      exact htxTail
    · rw [haccepted]
      exact htxNext
    · rw [haccepted, hcompleted]
      exact hroom

theorem getElem_of_memcpy {old : Nat → BitVec 8} {msg : Bytes} {j : Nat}
    (hj : j < msg.length) : memcpy old msg j = msg[j] := by
  simp [memcpy, List.getD_eq_getElem?_getD, hj]

theorem CallOk.txTail_lt (hcall : CallOk s call) : call.txTail < ZCHAN_TX_ENTRIES_CAN := by
  rw [hcall.txTail]
  exact Nat.mod_lt _ ZCHAN_TX_ENTRIES_CAN_pos

theorem CallOk.txNext_lt (hcall : CallOk s call) : call.txNext < ZCHAN_TX_ENTRIES_CAN := by
  rw [hcall.txNext]
  exact Nat.mod_lt _ ZCHAN_TX_ENTRIES_CAN_pos

theorem TxInv.txAddr_eq_zero (hinv : TxInv alloc s cleared) (hcall : CallOk s call)
    (hstored : s.stored = false) : (s.ring.zchanTxDescp call.txTail).txAddr = 0 := by
  have hroom := hinv.counted.room
  have hle := hinv.counted.completed_le
  rw [hcall.txTail]
  rcases hinv.filled.free _ le_rfl (by omega) with hzero | ⟨_, htrue⟩
  · exact hzero
  · exact absurd (htrue.symm.trans hstored) (by decide)

theorem TxInv.finish (hinv : TxInv alloc s cleared) (hcall : CallOk s call)
    (hholds : StageOk alloc s call .tail) (htx : s.tx = some (.tail, call)) :
    TxInv alloc (s.finish call) cleared := by
  have hcount := hinv.counted
  have hlength : (s.finish call).accepted.length = s.accepted.length + 1 :=
    List.length_append
  refine ⟨⟨hcount.head, ?_, hcount.hw, hcount.completed_le, hcount.cleared_le, ?_, ?_⟩,
    ⟨?_, ?_⟩, hinv.notCleared, ?_, hinv.told.of_eq rfl rfl ?_, trivial,
    hinv.done.of_eq rfl rfl rfl le_rfl⟩
  · rw [hlength]
    exact hcall.txNext
  · exact hcount.sent_prefix.trans (List.prefix_append _ _)
  · rw [hlength]
    exact hcall.room
  · intro k hk hcleared
    rcases Nat.lt_succ_iff_lt_or_eq.mp (hlength ▸ hk) with hlt | hlast
    · have hsame : (s.finish call).accepted[k] = s.accepted[k] :=
        List.getElem_append_left hlt
      rw [hsame]
      exact (hinv.filled.used k hlt hcleared).of_eq rfl rfl
    · have hnew : (s.finish call).accepted[k] = call.msg :=
        List.getElem_concat_length hlast _
      rw [hnew, hlast, ← hcall.txTail]
      exact hholds.of_eq rfl rfl
  · intro k hfrom hto
    rw [hlength] at hfrom
    rcases hinv.filled.free k (Nat.le_of_succ_le hfrom) hto with hzero | ⟨heq, _⟩
    · exact Or.inl hzero
    · omega
  · rw [hlength]
    change (s.answers ++ [BcanErrCode.BCAN_OK]).count BcanErrCode.BCAN_OK = _
    rw [List.count_append, List.count_singleton_self, hinv.answered]
  · simp [TxSystem.tailIndex, TxSystem.finish, htx]

theorem TxInv.txAccess {stage : TxStage} (hinv : TxInv alloc s cleared)
    (htx : s.tx = some (stage, call)) : TxInv alloc (s.txAccess alloc stage call) cleared := by
  have hok := hinv.tx
  rw [htx] at hok
  obtain ⟨hcall, hstage⟩ := hok
  have hstored : s.stored = stage.stored := by
    simp [TxSystem.stored, htx]
  have hindex : stage ≠ .tail → s.tailIndex = s.ring.zchanTxTail := by
    intro hbefore
    unfold TxSystem.tailIndex
    rw [htx]
    split
    next hsome => exact absurd (congrArg Prod.fst (Option.some.inj hsome)) hbefore
    next => rfl
  cases stage with
  | memcpy =>
      refine hinv.of_access rfl hcall ?_ (hinv.told.of_eq rfl rfl (hindex nofun).symm) ?_ rfl rfl
        rfl rfl rfl hinv.notCleared rfl rfl rfl
      · intro j hj
        simp only [TxSystem.txAccess, Function.update_self]
        exact getElem_of_memcpy hj
      · refine hinv.filled.of_own hinv.counted hcall rfl (fun i _ => rfl) ?_
          (Or.inr ⟨rfl, hstored⟩)
        intro addr haddr
        exact Function.update_of_ne haddr _ _
  | txLen =>
      refine hinv.of_access rfl hcall ⟨hstage, ?_⟩
        (hinv.told.of_eq rfl rfl (hindex nofun).symm) ?_ rfl rfl rfl rfl rfl hinv.notCleared
        rfl rfl rfl
      · simp [TxSystem.txAccess, TxSystem.goto, TxSystem.setRing, ZchanTxRing.setLen,
          ZchanTxRing.setDesc]
      · refine hinv.filled.of_own hinv.counted hcall rfl ?_ (fun _ _ => rfl)
          (Or.inr ⟨?_, hstored⟩)
        · intro i hi
          exact Function.update_of_ne hi _ _
        · simp [TxSystem.txAccess, TxSystem.goto, TxSystem.setRing, ZchanTxRing.setLen,
            ZchanTxRing.setDesc]
  | txAddr =>
      have hzero := hinv.txAddr_eq_zero hcall hstored
      refine hinv.of_access rfl hcall ⟨?_, ?_, hstage.1⟩
        (hinv.told.of_eq rfl rfl (hindex nofun).symm) ?_ rfl rfl rfl rfl rfl ?_ rfl rfl rfl
      · simp [TxSystem.txAccess, TxSystem.goto, TxSystem.setRing, ZchanTxRing.setAddr,
          ZchanTxRing.setDesc]
      · simpa [TxSystem.txAccess, TxSystem.goto, TxSystem.setRing, ZchanTxRing.setAddr,
          ZchanTxRing.setDesc] using hstage.2
      · refine hinv.filled.of_own hinv.counted hcall rfl ?_ (fun _ _ => rfl) (Or.inl rfl)
        intro i hi
        exact Function.update_of_ne hi _ _
      · simp only [TxSystem.txAccess, hzero, ne_eq, not_true_eq_false, if_false]
        exact hinv.notCleared
  | tailHi =>
      simp only [TxSystem.txAccess, if_neg (Nat.not_le.mpr hcall.txNext_lt)]
      refine hinv.of_access rfl hcall (Holds.of_eq hstage rfl rfl) ⟨?_, ?_⟩ ?_ rfl rfl rfl
        rfl rfl hinv.notCleared rfl rfl rfl
      · exact alloc.HI32_descAddr hcall.txNext_lt
      · exact hinv.told.lo.trans (congrArg (LO32 <| alloc.descAddr ·) (hindex nofun))
      · exact hinv.filled.of_eq rfl rfl rfl hstored.symm
  | tailLo =>
      refine hinv.of_access rfl hcall (Holds.of_eq hstage rfl rfl) ⟨hinv.told.hi, rfl⟩ ?_ rfl rfl
        rfl rfl rfl hinv.notCleared rfl rfl rfl
      exact hinv.filled.of_eq rfl rfl rfl hstored.symm
  | tail => exact hinv.finish hcall hstage htx

theorem TxInv.setDone (hinv : TxInv alloc s cleared) {phase : DonePhase}
    (hphase : DoneOk alloc s cleared phase) : TxInv alloc (s.setDone phase) cleared := by
  refine ⟨hinv.counted.of_eq rfl rfl rfl rfl rfl rfl, hinv.filled.of_eq rfl rfl rfl rfl,
    hinv.notCleared, hinv.answered, hinv.told.of_eq rfl rfl rfl,
    hinv.tx.of_eq rfl rfl rfl rfl le_rfl, ?_⟩
  cases phase with
  | idle => exact hphase
  | headHi head => exact hphase
  | headLo head hi => exact hphase
  | clear idx newHead => exact hphase

theorem TxInv.clear (hinv : TxInv alloc s cleared) {upto : Nat} (hless : cleared < upto)
    (hupto : upto ≤ s.sent.length) :
    TxInv alloc ((s.setRing (s.ring.setAddr (cleared % ZCHAN_TX_ENTRIES_CAN) 0)).setDone
      (.clear ((cleared + 1) % ZCHAN_TX_ENTRIES_CAN) (upto % ZCHAN_TX_ENTRIES_CAN)))
      (cleared + 1) := by
  obtain ⟨hhead, htail, hhw, hle, _, hprefix, hroom⟩ := hinv.counted
  have hsent := hprefix.length_le
  have hframe : ∀ i, i ≠ cleared % ZCHAN_TX_ENTRIES_CAN →
      (s.ring.setAddr (cleared % ZCHAN_TX_ENTRIES_CAN) 0).zchanTxDescp i =
        s.ring.zchanTxDescp i :=
    fun i hi => Function.update_of_ne hi _ _
  have hother : ∀ k, cleared < k → k < cleared + ZCHAN_TX_ENTRIES_CAN →
      k % ZCHAN_TX_ENTRIES_CAN ≠ cleared % ZCHAN_TX_ENTRIES_CAN :=
    fun k hfrom hto heq => hfrom.ne' (mod_inj hfrom.le hto heq)
  refine ⟨⟨hhead, htail, hhw, hle.trans (Nat.le_succ _), hless.trans_le hupto, hprefix, hroom⟩,
    ⟨?_, ?_⟩, hinv.notCleared, hinv.answered, hinv.told.of_eq rfl rfl rfl, ?_,
    ⟨rfl, upto, hless, hupto, rfl⟩⟩
  · intro k hk hcleared
    change k < s.accepted.length at hk
    exact (hinv.filled.used k hk (Nat.le_of_succ_le hcleared)).of_eq
      (hframe _ (hother k hcleared (by omega))) rfl
  · intro k hfrom hto
    change s.accepted.length ≤ k at hfrom
    rcases Nat.lt_or_ge k (cleared + ZCHAN_TX_ENTRIES_CAN) with hlt | hge
    · have hdesc := hframe _ (hother k (by omega) hlt)
      change ((s.ring.setAddr _ 0).zchanTxDescp _).txAddr = 0 ∨ _
      rw [hdesc]
      exact hinv.filled.free k hfrom hlt
    · have hlast : k = cleared + ZCHAN_TX_ENTRIES_CAN := by omega
      left
      rw [hlast, Nat.add_mod_right]
      simp [TxSystem.setDone, TxSystem.setRing, ZchanTxRing.setAddr, ZchanTxRing.setDesc]
  · exact hinv.tx.of_eq rfl (hframe _ (hother _ (by omega) (by omega))) rfl rfl le_rfl

theorem TxInv.publish (hinv : TxInv alloc s cleared) :
    TxInv alloc
      { s.setDone .idle with
        ring := { s.ring with zchanTxHead := cleared % ZCHAN_TX_ENTRIES_CAN }
        completed := s.completed +
          ringCount ZCHAN_TX_ENTRIES_CAN s.ring.zchanTxHead
            (cleared % ZCHAN_TX_ENTRIES_CAN) } cleared := by
  obtain ⟨hhead, htail, hhw, hle, hcleared, hprefix, hroom⟩ := hinv.counted
  have hsent := hprefix.length_le
  have hcompleted : s.completed + ringCount ZCHAN_TX_ENTRIES_CAN s.ring.zchanTxHead
      (cleared % ZCHAN_TX_ENTRIES_CAN) = cleared := by
    rw [hhead, ringCount_mod ZCHAN_TX_ENTRIES_CAN_pos hle (by omega)]
    omega
  rw [hcompleted]
  exact ⟨⟨rfl, htail, hhw, le_rfl, hcleared, hprefix,
      hroom.trans (Nat.add_le_add_right hle _)⟩,
    hinv.filled.of_eq rfl rfl rfl rfl, hinv.notCleared, hinv.answered,
    hinv.told.of_eq rfl rfl rfl, hinv.tx.of_eq rfl rfl rfl rfl hle, rfl⟩

theorem Counted.hwHead_lt (hcounted : Counted s cleared) : s.hwHead < ZCHAN_TX_ENTRIES_CAN := by
  rw [hcounted.hw]
  exact Nat.mod_lt _ ZCHAN_TX_ENTRIES_CAN_pos

theorem TxInv.doneAccess (hinv : TxInv alloc s cleared) :
    ∃ cleared', TxInv alloc (s.doneAccess alloc) cleared' := by
  have hdone := hinv.done
  have hhwHead := hinv.counted.hwHead_lt
  cases hphase : s.done with
  | idle =>
      rw [hphase] at hdone
      simp only [TxSystem.doneAccess, hphase]
      exact ⟨cleared, hinv.setDone ⟨hdone, rfl⟩⟩
  | headHi head =>
      rw [hphase] at hdone
      simp only [TxSystem.doneAccess, hphase]
      exact ⟨cleared, hinv.setDone ⟨hdone.1, hdone.2, alloc.HI32_descAddr hhwHead⟩⟩
  | headLo head hi =>
      rw [hphase] at hdone
      obtain ⟨hcleared, rfl, rfl⟩ := hdone
      simp only [TxSystem.doneAccess, hphase, alloc.zchanTxReadHead_descAddr _ hhwHead]
      refine ⟨cleared, ?_⟩
      split
      next hsame => exact hinv.setDone hcleared
      next hmoved =>
        refine hinv.setDone ⟨?_, s.sent.length, hinv.counted.cleared_le, le_rfl,
          hinv.counted.hw⟩
        rw [hinv.counted.head, hcleared]
  | clear idx newHead =>
      rw [hphase] at hdone
      obtain ⟨rfl, upto, hle, hupto, rfl⟩ := hdone
      simp only [TxSystem.doneAccess, hphase]
      split
      next hdiffer =>
        have hless : cleared < upto := lt_of_le_of_ne hle (hdiffer <| congrArg (· % _) ·)
        refine ⟨cleared + 1, ?_⟩
        rw [and_txMask, Nat.mod_add_mod]
        exact hinv.clear hless hupto
      next hsame =>
        rw [← not_not.mp hsame]
        exact ⟨cleared, hinv.publish⟩

theorem TxInv.hwRead (hinv : TxInv alloc s cleared)
    (hless : s.sent.length < s.accepted.length) :
    s.hwRead s.hwHead = s.accepted[s.sent.length] := by
  obtain ⟨haddr, hlen, hdata⟩ := hinv.filled.used _ hless hinv.counted.cleared_le
  rw [← hinv.counted.hw] at haddr hlen hdata
  apply List.ext_getElem
  · simp [TxSystem.hwRead, hlen]
  · intro j _ hj
    simpa [TxSystem.hwRead, haddr] using hdata j hj

theorem TxInv.hwSend (hinv : TxInv alloc s cleared) : TxInv alloc s.hwSend cleared := by
  unfold TxSystem.hwSend
  split
  next hempty => exact hinv
  next hwaiting =>
    obtain ⟨hhead, htail, hhw, hle, hcleared, hprefix, hroom⟩ := hinv.counted
    have hless : s.sent.length < s.accepted.length := by
      refine lt_of_le_of_ne hprefix.length_le fun heq => hwaiting ?_
      rw [hhw, htail, heq]
    have hread := hinv.hwRead hless
    have hlength : (s.sent ++ [s.hwRead s.hwHead]).length = s.sent.length + 1 :=
      List.length_append
    refine ⟨⟨hhead, htail, ?_, hle, ?_, ?_, hroom⟩, hinv.filled.of_eq rfl rfl rfl rfl,
      hinv.notCleared, hinv.answered, hinv.told.of_eq rfl rfl rfl,
      hinv.tx.of_eq rfl rfl rfl rfl le_rfl, hinv.done.of_eq rfl rfl rfl ?_⟩
    · rw [hlength, hhw, Nat.mod_add_mod]
    · rw [hlength]
      exact hcleared.trans (Nat.le_succ _)
    · rw [hread]
      exact List.concat_get_prefix hprefix hless
    · rw [hlength]
      exact Nat.le_succ _

theorem TxInv.step {event : TxEvent} (hinv : TxInv alloc s cleared) :
    ∃ next cleared', txStep alloc s event = some next ∧ TxInv alloc next cleared' := by
  cases event with
  | send msg =>
      refine ⟨_, cleared, rfl, ?_⟩
      split
      next hidle => exact hinv.zchanTxOneMsg (Option.isNone_iff_eq_none.mp hidle) msg
      next hbusy => exact hinv
  | tx =>
      refine ⟨_, cleared, rfl, ?_⟩
      split
      next hidle => exact hinv
      next stage call htx => exact hinv.txAccess htx
  | done =>
      obtain ⟨cleared', hnext⟩ := hinv.doneAccess
      exact ⟨_, cleared', rfl, hnext⟩
  | hardware => exact ⟨_, cleared, rfl, hinv.hwSend⟩

end Steps

/-! ### What the ring keeps -/

def TxSystem.clearedTo (s : TxSystem) : Nat :=
  match s.done with
  | .clear idx _ => idx
  | _ => s.ring.zchanTxHead

def TxSystem.unsent (s : TxSystem) : List Nat :=
  ringIndices ZCHAN_TX_ENTRIES_CAN s.hwHead
    (ringCount ZCHAN_TX_ENTRIES_CAN s.hwHead s.ring.zchanTxTail)

/-- A call that gets the lock with a round but one of the messages outstanding. -/
def TxSystem.Refuses (s : TxSystem) : TxEvent → Prop
  | .send msg =>
      s.tx = none ∧ msg.length ≤ ZCHAN_BUF_SIZE ∧
        s.accepted.length - s.completed = ZCHAN_TX_ENTRIES_CAN - 1
  | _ => False

def TxStage.next : TxStage → Option TxStage
  | .memcpy => some .txLen
  | .txLen => some .txAddr
  | .txAddr => some .tailHi
  | .tailHi => some .tailLo
  | .tailLo => some .tail
  | .tail => none

/-- The call goes on by its own accesses alone, and its message is accepted by the last. -/
def TxSystem.GoesOn (s : TxSystem) (stage : TxStage) (call : TxCall) (next : TxSystem) :
    TxEvent → Prop
  | .tx =>
      match stage.next with
      | some later => next.tx = some (later, call) ∧ next.accepted = s.accepted
      | none =>
          next.tx = none ∧ next.accepted = s.accepted ++ [call.msg] ∧
            next.answers = s.answers ++ [.BCAN_OK]
  | _ => next.tx = some (stage, call) ∧ next.accepted = s.accepted

/-- The ring in any state. In `occupied`, a descriptor is in use from the store of
its address on, which comes before the tail takes it in. A message that fits is `begun`
while fewer than a round but one are outstanding, and `accepted` whatever else happens
meanwhile; `told` is what the tail registers say. -/
structure TxRingOk (alloc : TxAlloc) (s : TxSystem) : Prop where
  occupied : ∀ i, i < ZCHAN_TX_ENTRIES_CAN →
    ((s.ring.zchanTxDescp i).txAddr ≠ 0 ↔
      i ∈ ringIndices ZCHAN_TX_ENTRIES_CAN s.clearedTo
          (ringCount ZCHAN_TX_ENTRIES_CAN s.clearedTo s.ring.zchanTxTail) ∨
        i = s.ring.zchanTxTail ∧ s.stored = true)
  settled : s.tx = none → (∀ idx newHead, s.done ≠ .clear idx newHead) →
    ∀ i, i < ZCHAN_TX_ENTRIES_CAN →
      ((s.ring.zchanTxDescp i).txAddr ≠ 0 ↔
        i ∈ ringIndices ZCHAN_TX_ENTRIES_CAN s.ring.zchanTxHead
          (ringCount ZCHAN_TX_ENTRIES_CAN s.ring.zchanTxHead s.ring.zchanTxTail))
  notCleared : s.notCleared = []
  untouched : ∀ event next, txStep alloc s event = some next → ∀ i ∈ s.unsent,
    next.ring.zchanTxDescp i = s.ring.zchanTxDescp i ∧
      next.mem (alloc.zchanBufDma i) = s.mem (alloc.zchanBufDma i)
  outstanding : s.completed ≤ s.accepted.length ∧
    s.accepted.length - s.completed ≤ ZCHAN_TX_ENTRIES_CAN - 1
  busy : ∀ event next, txStep alloc s event = some next →
    (next.answers = s.answers ++ [.BCAN_DEV_BUSY] ↔ s.Refuses event) ∧
    (next.answers = s.answers ++ [.BCAN_DEV_BUSY] → next = s.answer .BCAN_DEV_BUSY)
  begun : s.tx = none → ∀ msg : Bytes, msg.length ≤ ZCHAN_BUF_SIZE →
    s.accepted.length - s.completed < ZCHAN_TX_ENTRIES_CAN - 1 →
      ∀ next, txStep alloc s (.send msg) = some next →
        ∃ call, next.tx = some (.memcpy, call) ∧ call.msg = msg
  accepted : ∀ stage call, s.tx = some (stage, call) →
    ∀ event next, txStep alloc s event = some next → s.GoesOn stage call next event
  told : s.tailHi.setWidth 64 <<< 32 ||| s.tailLo.setWidth 64 = alloc.descAddr s.tailIndex
  answered : s.answers.count .BCAN_OK = s.accepted.length
  inOrder : s.sent <+: s.accepted
  onceEach : s.sent.length + s.unsent.length = s.accepted.length

section Kept

variable {alloc : TxAlloc} {s next : TxSystem} {cleared : Nat}

theorem TxInv.clearedTo (hinv : TxInv alloc s cleared) :
    s.clearedTo = cleared % ZCHAN_TX_ENTRIES_CAN := by
  have hdone := hinv.done
  have hhead := hinv.counted.head
  unfold TxSystem.clearedTo
  cases hphase : s.done with
  | idle =>
      rw [hphase] at hdone
      exact hhead.trans (congrArg (· % _) hdone.symm)
  | headHi head =>
      rw [hphase] at hdone
      exact hhead.trans (congrArg (· % _) hdone.1.symm)
  | headLo head hi =>
      rw [hphase] at hdone
      exact hhead.trans (congrArg (· % _) hdone.1.symm)
  | clear idx newHead =>
      rw [hphase] at hdone
      exact hdone.1

theorem TxInv.stored_txAddr (hinv : TxInv alloc s cleared) (hstored : s.stored = true) :
    (s.ring.zchanTxDescp s.ring.zchanTxTail).txAddr =
      alloc.zchanBufDma s.ring.zchanTxTail := by
  have hok := hinv.tx
  unfold TxSystem.stored at hstored
  cases hcall : s.tx with
  | none => simp [hcall] at hstored
  | some stageCall =>
      obtain ⟨stage, call⟩ := stageCall
      rw [hcall] at hok hstored
      obtain ⟨hcallOk, hstage⟩ := hok
      rw [hinv.counted.tail, ← hcallOk.txTail]
      cases stage with
      | memcpy => cases hstored
      | txLen => cases hstored
      | txAddr => cases hstored
      | tailHi => exact Holds.addr hstage
      | tailLo => exact Holds.addr hstage
      | tail => exact Holds.addr hstage

theorem TxInv.occupied (hinv : TxInv alloc s cleared) {i : Nat}
    (hi : i < ZCHAN_TX_ENTRIES_CAN) :
    (s.ring.zchanTxDescp i).txAddr ≠ 0 ↔
      i ∈ ringIndices ZCHAN_TX_ENTRIES_CAN s.clearedTo
          (ringCount ZCHAN_TX_ENTRIES_CAN s.clearedTo s.ring.zchanTxTail) ∨
        i = s.ring.zchanTxTail ∧ s.stored = true := by
  have hpos := ZCHAN_TX_ENTRIES_CAN_pos
  have hcount := hinv.counted
  have hroom := hcount.room
  have hle := hcount.completed_le
  have hsent := hcount.cleared_le.trans hcount.sent_le
  rw [hinv.clearedTo, hcount.tail, ringCount_mod hpos hsent (by omega), mem_ringIndices]
  constructor
  · intro haddr
    have hcleared : cleared % ZCHAN_TX_ENTRIES_CAN < ZCHAN_TX_ENTRIES_CAN := Nat.mod_lt _ hpos
    have hat := head_add_ringCount hcleared hi
    have hoff := ringCount_lt hcleared hi
    rcases Nat.lt_or_ge (ringCount ZCHAN_TX_ENTRIES_CAN (cleared % ZCHAN_TX_ENTRIES_CAN) i)
      (s.accepted.length - cleared) with hused | hfree
    · exact Or.inl ⟨_, hused, hat⟩
    · rw [Nat.mod_add_mod] at hat
      rcases hinv.filled.free (cleared + ringCount ZCHAN_TX_ENTRIES_CAN
        (cleared % ZCHAN_TX_ENTRIES_CAN) i) (by omega) (by omega) with hzero | ⟨hlast, hstored⟩
      · rw [hat] at hzero
        exact absurd hzero haddr
      · rw [hlast] at hat
        exact Or.inr ⟨hat.symm, hstored⟩
  · rintro (⟨j, hj, rfl⟩ | ⟨rfl, hstored⟩)
    · rw [Nat.mod_add_mod] at hi ⊢
      rw [(hinv.filled.used (cleared + j) (by omega) (by omega)).addr]
      exact alloc.mapped _ hi
    · rw [← hcount.tail, hinv.stored_txAddr hstored]
      exact alloc.mapped _ (hcount.tail ▸ hi)

theorem TxInv.settled (hinv : TxInv alloc s cleared) (hidle : s.tx = none)
    (hdone : ∀ idx newHead, s.done ≠ .clear idx newHead) {i : Nat}
    (hi : i < ZCHAN_TX_ENTRIES_CAN) :
    (s.ring.zchanTxDescp i).txAddr ≠ 0 ↔
      i ∈ ringIndices ZCHAN_TX_ENTRIES_CAN s.ring.zchanTxHead
        (ringCount ZCHAN_TX_ENTRIES_CAN s.ring.zchanTxHead s.ring.zchanTxTail) := by
  have hcleared : s.clearedTo = s.ring.zchanTxHead := by
    unfold TxSystem.clearedTo
    split
    next idx newHead hphase => exact absurd hphase (hdone idx newHead)
    next => rfl
  have hstored : ¬ s.stored = true := by
    simp [TxSystem.stored, hidle]
  rw [hinv.occupied hi, hcleared, or_iff_left (fun hlast => hstored hlast.2)]

theorem Counted.length_unsent (hcount : Counted s cleared) :
    s.sent.length + s.unsent.length = s.accepted.length := by
  have hsent := hcount.sent_le
  have hroom := hcount.room
  have hle := hcount.completed_le.trans hcount.cleared_le
  rw [TxSystem.unsent, length_ringIndices, hcount.hw, hcount.tail,
    ringCount_mod ZCHAN_TX_ENTRIES_CAN_pos hsent (by omega)]
  omega

theorem Counted.mem_unsent (hcount : Counted s cleared) {i : Nat} (hi : i ∈ s.unsent) :
    ∃ k, s.sent.length ≤ k ∧ k < s.accepted.length ∧ k % ZCHAN_TX_ENTRIES_CAN = i := by
  have hlength := hcount.length_unsent
  rw [TxSystem.unsent, length_ringIndices] at hlength
  obtain ⟨j, hj, rfl⟩ := mem_ringIndices.mp hi
  refine ⟨s.sent.length + j, Nat.le_add_right _ _, by omega, ?_⟩
  rw [hcount.hw, Nat.mod_add_mod]

theorem txAccess_other {stage : TxStage} {call : TxCall} {i : Nat} (hi : i ≠ call.txTail)
    (hbuf : alloc.zchanBufDma i ≠ alloc.zchanBufDma call.txTail) :
    (s.txAccess alloc stage call).ring.zchanTxDescp i = s.ring.zchanTxDescp i ∧
      (s.txAccess alloc stage call).mem (alloc.zchanBufDma i) =
        s.mem (alloc.zchanBufDma i) := by
  cases stage with
  | memcpy => exact ⟨rfl, Function.update_of_ne hbuf _ _⟩
  | txLen => exact ⟨Function.update_of_ne hi _ _, rfl⟩
  | txAddr => exact ⟨Function.update_of_ne hi _ _, rfl⟩
  | tailHi =>
      simp only [TxSystem.txAccess]
      split <;> exact ⟨rfl, rfl⟩
  | tailLo => exact ⟨rfl, rfl⟩
  | tail => exact ⟨rfl, rfl⟩

theorem zchanTxOneMsg_other (msg : Bytes) :
    (s.zchanTxOneMsg msg).ring = s.ring ∧ (s.zchanTxOneMsg msg).mem = s.mem := by
  unfold TxSystem.zchanTxOneMsg
  dsimp only
  split
  · exact ⟨rfl, rfl⟩
  · split <;> exact ⟨rfl, rfl⟩

theorem TxInv.untouched {event : TxEvent} (hinv : TxInv alloc s cleared)
    (hstep : txStep alloc s event = some next) {i : Nat} (hi : i ∈ s.unsent) :
    next.ring.zchanTxDescp i = s.ring.zchanTxDescp i ∧
      next.mem (alloc.zchanBufDma i) = s.mem (alloc.zchanBufDma i) := by
  have hpos := ZCHAN_TX_ENTRIES_CAN_pos
  have hroom := hinv.counted.room
  have hle := hinv.counted.completed_le
  have hcleared := hinv.counted.cleared_le
  obtain ⟨k, hfrom, hto, rfl⟩ := hinv.counted.mem_unsent hi
  cases event with
  | send msg =>
      obtain rfl := Option.some.inj hstep
      split
      next => exact ⟨by rw [(zchanTxOneMsg_other msg).1], by rw [(zchanTxOneMsg_other msg).2]⟩
      next => exact ⟨rfl, rfl⟩
  | tx =>
      obtain rfl := Option.some.inj hstep
      split
      next => exact ⟨rfl, rfl⟩
      next stage call htx =>
        have hok := hinv.tx
        rw [htx] at hok
        have hne : k % ZCHAN_TX_ENTRIES_CAN ≠ call.txTail := by
          rw [hok.1.txTail]
          intro heq
          have hsame := mod_inj hto.le (by omega) heq.symm
          omega
        exact txAccess_other hne fun heq =>
          hne (alloc.distinct _ _ (Nat.mod_lt _ hpos) hok.1.txTail_lt heq)
  | done =>
      obtain rfl := Option.some.inj hstep
      have hdone := hinv.done
      cases hphase : s.done with
      | idle => simp [TxSystem.doneAccess, hphase, TxSystem.setDone]
      | headHi head => simp [TxSystem.doneAccess, hphase, TxSystem.setDone]
      | headLo head hi => simp [TxSystem.doneAccess, hphase, TxSystem.setDone]
      | clear idx newHead =>
          rw [hphase] at hdone
          obtain ⟨rfl, upto, hupto, hsent, rfl⟩ := hdone
          simp only [TxSystem.doneAccess, hphase]
          split
          next hdiffer =>
            have hless : cleared < upto :=
              lt_of_le_of_ne hupto (hdiffer <| congrArg (· % _) ·)
            refine ⟨Function.update_of_ne (fun heq => ?_) _ _, rfl⟩
            have hsame := mod_inj (by omega) (by omega) heq
            omega
          next => exact ⟨rfl, rfl⟩
  | hardware =>
      obtain rfl := Option.some.inj hstep
      unfold TxSystem.hwSend
      split <;> exact ⟨rfl, rfl⟩

theorem txAccess_answers (stage : TxStage) (call : TxCall) :
    (s.txAccess alloc stage call).answers ≠ s.answers ++ [.BCAN_DEV_BUSY] := by
  cases stage with
  | tailHi =>
      simp only [TxSystem.txAccess]
      split <;> simp [TxSystem.answer, TxSystem.goto]
  | memcpy | txLen | txAddr | tailLo | tail =>
      simp [TxSystem.txAccess, TxSystem.finish, TxSystem.answer, TxSystem.goto, TxSystem.setRing]

theorem doneAccess_tx : (s.doneAccess alloc).tx = s.tx := by
  cases hphase : s.done with
  | idle | headHi | headLo => simp [TxSystem.doneAccess, hphase, TxSystem.setDone]
  | clear idx newHead =>
      simp only [TxSystem.doneAccess, hphase]
      split <;> rfl

theorem doneAccess_accepted : (s.doneAccess alloc).accepted = s.accepted := by
  cases hphase : s.done with
  | idle | headHi | headLo => simp [TxSystem.doneAccess, hphase, TxSystem.setDone]
  | clear idx newHead =>
      simp only [TxSystem.doneAccess, hphase]
      split <;> rfl

theorem doneAccess_answers : (s.doneAccess alloc).answers = s.answers := by
  cases hphase : s.done with
  | idle => simp [TxSystem.doneAccess, hphase, TxSystem.setDone]
  | headHi head => simp [TxSystem.doneAccess, hphase, TxSystem.setDone]
  | headLo head hi => simp [TxSystem.doneAccess, hphase, TxSystem.setDone]
  | clear idx newHead =>
      simp only [TxSystem.doneAccess, hphase]
      split <;> rfl

theorem TxInv.zchanTxOneMsg_busy (hinv : TxInv alloc s cleared) (msg : Bytes) :
    ((s.zchanTxOneMsg msg).answers = s.answers ++ [.BCAN_DEV_BUSY] ↔
      msg.length ≤ ZCHAN_BUF_SIZE ∧
        s.accepted.length - s.completed = ZCHAN_TX_ENTRIES_CAN - 1) ∧
    ((s.zchanTxOneMsg msg).answers = s.answers ++ [.BCAN_DEV_BUSY] →
      s.zchanTxOneMsg msg = s.answer .BCAN_DEV_BUSY) := by
  have hpos := ZCHAN_TX_ENTRIES_CAN_pos
  have hfullIff := hinv.counted.full_iff
  have hsent := hinv.counted.sent_le
  have hle := hinv.counted.completed_le.trans hinv.counted.cleared_le
  unfold TxSystem.zchanTxOneMsg
  dsimp only
  split
  next hlong =>
    refine ⟨⟨fun hbusy => ?_, fun hfits => absurd hfits.1 (Nat.not_le.mpr hlong)⟩,
      fun hbusy => ?_⟩ <;> simp [TxSystem.answer] at hbusy
  next hfits =>
    split
    next hfull =>
      have hcount := hfullIff.mp hfull
      exact ⟨⟨fun _ => ⟨Nat.not_lt.mp hfits, by omega⟩, fun _ => rfl⟩, fun _ => rfl⟩
    next hroom =>
      have hcount := (not_congr hfullIff).mp hroom
      refine ⟨⟨fun hbusy => ?_, fun hfull => absurd hfull.2 (by omega)⟩, fun hbusy => ?_⟩ <;>
        simp at hbusy

theorem TxInv.busy {event : TxEvent} (hinv : TxInv alloc s cleared)
    (hstep : txStep alloc s event = some next) :
    (next.answers = s.answers ++ [.BCAN_DEV_BUSY] ↔ s.Refuses event) ∧
    (next.answers = s.answers ++ [.BCAN_DEV_BUSY] → next = s.answer .BCAN_DEV_BUSY) := by
  have hquiet : next.answers ≠ s.answers ++ [.BCAN_DEV_BUSY] → ¬ s.Refuses event →
      (next.answers = s.answers ++ [.BCAN_DEV_BUSY] ↔ s.Refuses event) ∧
      (next.answers = s.answers ++ [.BCAN_DEV_BUSY] → next = s.answer .BCAN_DEV_BUSY) :=
    fun hanswers hnot => ⟨⟨(absurd · hanswers), (absurd · hnot)⟩, (absurd · hanswers)⟩
  have hsame : s.answers ≠ s.answers ++ [.BCAN_DEV_BUSY] := by simp
  cases event with
  | send msg =>
      cases hcall : s.tx with
      | none =>
          simp only [txStep, hcall, Option.isNone_none, if_true, Option.some.injEq] at hstep
          obtain rfl := hstep
          have hbusy := hinv.zchanTxOneMsg_busy msg
          simpa only [TxSystem.Refuses, hcall, true_and] using hbusy
      | some stageCall =>
          simp only [txStep, hcall, Option.isNone_some, Option.some.injEq] at hstep
          obtain rfl := hstep
          exact hquiet hsame (by simp [TxSystem.Refuses, hcall])
  | tx =>
      obtain rfl := Option.some.inj hstep
      split at hquiet
      next => exact hquiet hsame id
      next stage call htx => exact hquiet (txAccess_answers stage call) id
  | done =>
      obtain rfl := Option.some.inj hstep
      exact hquiet (by rw [doneAccess_answers]; exact hsame) id
  | hardware =>
      obtain rfl := Option.some.inj hstep
      refine hquiet ?_ id
      unfold TxSystem.hwSend
      split <;> exact hsame

theorem TxInv.begun (hinv : TxInv alloc s cleared) (hidle : s.tx = none) {msg : Bytes}
    (hfits : msg.length ≤ ZCHAN_BUF_SIZE)
    (hless : s.accepted.length - s.completed < ZCHAN_TX_ENTRIES_CAN - 1)
    (hstep : txStep alloc s (.send msg) = some next) :
    ∃ call, next.tx = some (.memcpy, call) ∧ call.msg = msg := by
  have hroom : (s.ring.zchanTxTail + 1) &&& (ZCHAN_TX_ENTRIES_CAN - 1) ≠ s.ring.zchanTxHead := by
    intro hfull
    have hcount := hinv.counted.full_iff.mp hfull
    omega
  simp only [txStep, hidle, Option.isNone_none, if_true, Option.some.injEq] at hstep
  obtain rfl := hstep
  unfold TxSystem.zchanTxOneMsg
  rw [if_neg (Nat.not_lt.mpr hfits)]
  dsimp only
  rw [if_neg hroom]
  exact ⟨_, rfl, rfl⟩

theorem TxInv.goesOn {stage : TxStage} {call : TxCall} {event : TxEvent}
    (hinv : TxInv alloc s cleared) (htx : s.tx = some (stage, call))
    (hstep : txStep alloc s event = some next) : s.GoesOn stage call next event := by
  have hok := hinv.tx
  rw [htx] at hok
  cases event with
  | send msg =>
      simp only [txStep, htx, Option.isNone_some, Option.some.injEq] at hstep
      obtain rfl := hstep
      exact ⟨htx, rfl⟩
  | tx =>
      simp only [txStep, htx, Option.some.injEq] at hstep
      obtain rfl := hstep
      cases stage with
      | tailHi =>
          simp only [TxSystem.txAccess, if_neg (Nat.not_le.mpr hok.1.txNext_lt)]
          exact ⟨rfl, rfl⟩
      | memcpy | txLen | txAddr | tailLo => exact ⟨rfl, rfl⟩
      | tail => exact ⟨rfl, rfl, rfl⟩
  | done =>
      obtain rfl := Option.some.inj hstep
      exact ⟨doneAccess_tx.trans htx, doneAccess_accepted⟩
  | hardware =>
      obtain rfl := Option.some.inj hstep
      unfold TxSystem.hwSend
      split <;> exact ⟨htx, rfl⟩

theorem TxInv.tailIndex_lt (hinv : TxInv alloc s cleared) :
    s.tailIndex < ZCHAN_TX_ENTRIES_CAN := by
  have hok := hinv.tx
  unfold TxSystem.tailIndex
  split
  next call htx =>
    rw [htx] at hok
    exact hok.1.txNext_lt
  next =>
    rw [hinv.counted.tail]
    exact Nat.mod_lt _ ZCHAN_TX_ENTRIES_CAN_pos

theorem TxInv.told_descAddr (hinv : TxInv alloc s cleared) :
    s.tailHi.setWidth 64 <<< 32 ||| s.tailLo.setWidth 64 = alloc.descAddr s.tailIndex := by
  rw [hinv.told.hi, hinv.told.lo, ← alloc.HI32_descAddr hinv.tailIndex_lt, HI32_append_LO32]

theorem TxInv.txRingOk (hinv : TxInv alloc s cleared) : TxRingOk alloc s := by
  have hroom := hinv.counted.room
  have hsent := hinv.counted.sent_le
  have hle := hinv.counted.completed_le.trans hinv.counted.cleared_le
  exact {
    occupied := fun i hi => hinv.occupied hi
    settled := fun hidle hdone i hi => hinv.settled hidle hdone hi
    notCleared := hinv.notCleared
    untouched := fun event next hstep i hi => hinv.untouched hstep hi
    outstanding := ⟨hle.trans hsent, by omega⟩
    busy := fun event next hstep => hinv.busy hstep
    begun := fun hidle _ hfits hless _ hstep => hinv.begun hidle hfits hless hstep
    accepted := fun _ _ htx _ _ hstep => hinv.goesOn htx hstep
    told := hinv.told_descAddr
    answered := hinv.answered
    inOrder := hinv.counted.sent_prefix
    onceEach := hinv.counted.length_unsent }

end Kept

/-- Every order of the accesses keeps the ring as it should be. -/
theorem txRing_throughout (alloc : TxAlloc) (mem : BitVec 64 → Nat → BitVec 8)
    (events : List TxEvent) :
    Throughout (txStep alloc) (TxRingOk alloc) (TxSystem.init alloc mem) events ∧
      ∃ final, run (txStep alloc) (TxSystem.init alloc mem) events = some final := by
  have hall : StepsMeet (txStep alloc) (fun _ _ => True) (TxSystem.init alloc mem) events :=
    fun _ _ _ _ _ => trivial
  have htaken : ∀ {s : TxSystem} {event : TxEvent}, (∃ cleared, TxInv alloc s cleared) →
      True → ∃ next, txStep alloc s event = some next ∧ ∃ cleared, TxInv alloc next cleared := by
    rintro s event ⟨cleared, hinv⟩ -
    obtain ⟨next, cleared', hstep, hnext⟩ := hinv.step
    exact ⟨next, hstep, cleared', hnext⟩
  obtain ⟨hinv, hfinal⟩ := throughout_and_total htaken ⟨0, txInv_init alloc mem⟩ hall
  exact ⟨hinv.imp fun _ ⟨_, hinv⟩ => hinv.txRingOk, hfinal⟩

end ApolloContrib.Chan
