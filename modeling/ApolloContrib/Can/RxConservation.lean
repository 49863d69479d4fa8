import ApolloContrib.Can.RxInterleaving

namespace ApolloContrib.Can

open ApolloContrib.Library

/-! The inductive invariant, and the two shapes it takes. -/

structure Settled (s : RxState) : Prop where
  recorded : s.Records
  conserved : s.pushed.length =
    s.delivered.length + s.zcan.rxNum + s.cleared + s.zcan.chanStatsRxDrop
  room : s.producer.Storing → s.zcan.zcanBufRxFull = false
  staged : ∀ msg, s.producer = .written msg →
    s.zcan.zcanBufRxMsg s.zcan.zcanBufRxTail = msg

/-- A head advance has dropped the message that is about to be pushed. -/
structure Early (s : RxState) : Prop where
  recorded : Recorded s.pushed s.faults s.delivered []
  conserved : s.pushed.length + 1 =
    s.delivered.length + s.cleared + s.zcan.chanStatsRxDrop
  overtaken : s.Overtaken

def RxInv (s : RxState) : Prop := Settled s ∨ Early s

theorem rxInv_init (zcan : ZynqCanRx) : RxInv (RxState.init zcan) := by
  have hempty : (RxState.init zcan).pending = [] := by
    rw [← List.length_eq_zero_iff, RxState.length_pending]
    exact zcan.rxNum_clearBufRx
  refine Or.inl ⟨⟨?_, ?_, ?_⟩, ?_, ?_, ?_⟩
  · rw [hempty]
    exact Increasing.nil
  · intro entry hmem
    exact absurd hmem List.not_mem_nil
  · rw [hempty]
    intro entry hmem
    exact absurd hmem List.not_mem_nil
  · have hnum : (RxState.init zcan).zcan.rxNum = 0 := zcan.rxNum_clearBufRx
    rw [hnum]
    rfl
  · exact False.elim
  · intro msg hwritten
    cases hwritten

theorem rxInv_spec {s : RxState} (hinv : RxInv s) : RxSpec s := by
  rcases hinv with hsettled | hearly
  · refine ⟨hsettled.recorded.numbered.sublist ?_, hsettled.recorded.decoded,
      fun _ => hsettled.conserved⟩
    rw [List.map_append]
    exact List.sublist_append_left _ _
  · refine ⟨?_, hearly.recorded.decoded, ?_⟩
    · have hnumbered := hearly.recorded.numbered
      rwa [List.append_nil] at hnumbered
    · intro hbetween
      obtain ⟨hstoring, _⟩ := hearly.overtaken
      cases hproducer : s.producer <;>
        simp_all [Producer.BetweenMessages, Producer.Storing]

section Steps

variable {s : RxState}

theorem settled_afterTest (hsettled : Settled s) : Settled s.afterTest where
  recorded := hsettled.recorded
  conserved := hsettled.conserved
  room := by
    intro hstoring
    cases hfull : s.zcan.zcanBufRxFull with
    | false => exact hfull
    | true => simp [RxState.afterTest, hfull, Producer.Storing] at hstoring
  staged := by
    intro msg hwritten
    dsimp only [RxState.afterTest] at hwritten
    split at hwritten <;> cases hwritten

theorem pending_afterIncHead (hcount : ZCAN_IP_RXFIFO_MAX ≤ s.zcan.rxNum) :
    s.afterIncHead.pending = s.pending.drop ZCAN_IP_RXFIFO_MAX := by
  have hslots : s.afterIncHead.zcan.rxSlots =
      s.zcan.rxSlots.drop ZCAN_IP_RXFIFO_MAX :=
    s.zcan.rxSlots_incHead hcount
  unfold RxState.pending
  rw [← List.map_drop, hslots]
  apply List.map_congr_left
  intro i hi
  have horigin : s.afterIncHead.origin i = s.origin i :=
    consume_of_notMem _ (notMem_taken hcount hi)
  unfold RxState.entry
  rw [horigin]
  rfl

theorem rxInv_afterIncHead (hsettled : Settled s)
    (hok : ZCAN_IP_RXFIFO_MAX ≤ s.zcan.rxNum + 1) : RxInv s.afterIncHead := by
  have hconserved := hsettled.conserved
  rcases Nat.lt_or_ge s.zcan.rxNum ZCAN_IP_RXFIFO_MAX with hless | hcount
  · -- exactly 63 messages: the head stops one slot past the tail
    have hmin := s.zcan.bufRxNum_min
    have hnum : s.afterIncHead.zcan.rxNum =
        s.zcan.zcanBufRxNum + s.zcan.rxNum - ZCAN_IP_RXFIFO_MAX :=
      s.zcan.rxNum_incHead_overtake hless (Nat.le_trans (by decide) hmin)
    refine Or.inr ⟨?_, ?_, trivial, ?_⟩
    · have hdrop := hsettled.recorded.drop s.pending.length
      rwa [List.drop_length] at hdrop
    · dsimp only [RxState.afterIncHead, ZynqCanRx.zcanBufIncRxHead]
      omega
    · rw [ZynqCanRx.zcanBufRxFull_iff, hnum]
      change _ = s.zcan.zcanBufRxNum
      unfold ZCAN_IP_RXFIFO_MAX ZCAN_IP_MSG_MIN at *
      omega
  · have hnum : s.afterIncHead.zcan.rxNum = s.zcan.rxNum - ZCAN_IP_RXFIFO_MAX :=
      s.zcan.rxNum_incHead hcount
    refine Or.inl ⟨?_, ?_, fun _ => s.zcan.notFull_incHead hcount, ?_⟩
    · rw [RxState.Records, pending_afterIncHead hcount]
      exact hsettled.recorded.drop ZCAN_IP_RXFIFO_MAX
    · rw [hnum]
      dsimp only [RxState.afterIncHead, ZynqCanRx.zcanBufIncRxHead]
      omega
    · intro msg hwritten
      cases hwritten

theorem settled_afterWriteSlot (hsettled : Settled s)
    (hready : s.producer = .ready) (msg : Msg) :
    Settled (s.afterWriteSlot msg) where
  recorded := by
    have hpending : (s.afterWriteSlot msg).pending = s.pending := by
      apply List.map_congr_left
      intro i hi
      exact congrArg (Entry.mk _) (s.zcan.writeTail_slot msg hi)
    rw [RxState.Records, hpending]
    exact hsettled.recorded
  conserved := hsettled.conserved
  room := fun _ => hsettled.room (hready ▸ trivial)
  staged := by
    intro staged hwritten
    cases hwritten
    exact Function.update_self ..

theorem pending_afterStoreTail (hroom : s.zcan.zcanBufRxFull = false) (msg : Msg) :
    (s.afterStoreTail msg).pending = s.pending ++
      [⟨some s.pushed.length, s.zcan.zcanBufRxMsg s.zcan.zcanBufRxTail⟩] := by
  have hslots : (s.afterStoreTail msg).zcan.rxSlots =
      s.zcan.rxSlots ++ [s.zcan.zcanBufRxTail] :=
    s.zcan.rxSlots_storeTail hroom
  unfold RxState.pending
  rw [hslots, List.map_append, List.map_singleton]
  congr 1
  · apply List.map_congr_left
    intro i hi
    have hne : i ≠ s.zcan.zcanBufRxTail := by
      rintro rfl
      exact s.zcan.tail_notMem_rxSlots hi
    exact congrArg (Entry.mk · _) (Function.update_of_ne hne _ _)
  · exact congrArg (fun origin => [Entry.mk origin _]) (Function.update_self ..)

theorem settled_afterStoreTail (hsettled : Settled s) {msg : Msg}
    (hwritten : s.producer = .written msg) : Settled (s.afterStoreTail msg) := by
  have hroom := hsettled.room (hwritten ▸ trivial)
  have hnum : (s.afterStoreTail msg).zcan.rxNum = s.zcan.rxNum + 1 :=
    s.zcan.rxNum_storeTail hroom
  have hconserved := hsettled.conserved
  refine ⟨?_, ?_, False.elim, ?_⟩
  · rw [RxState.Records, pending_afterStoreTail hroom, hsettled.staged msg hwritten]
    exact hsettled.recorded.push msg
  · rw [hnum]
    dsimp only [RxState.afterStoreTail, ZynqCanRx.storeTail]
    rw [List.length_append, List.length_singleton]
    omega
  · intro other hother
    cases hother

theorem early_afterWriteSlot (hearly : Early s) (msg : Msg) :
    Early (s.afterWriteSlot msg) where
  recorded := hearly.recorded
  conserved := hearly.conserved
  overtaken := ⟨trivial, hearly.overtaken.2⟩

theorem settled_afterStoreTail_of_early (hearly : Early s) (msg : Msg) :
    Settled (s.afterStoreTail msg) := by
  have hnum : (s.afterStoreTail msg).zcan.rxNum = 0 :=
    s.zcan.rxNum_storeTail_of_full hearly.overtaken.2
  have hconserved := hearly.conserved
  refine ⟨?_, ?_, False.elim, ?_⟩
  · have hpending : (s.afterStoreTail msg).pending = [] := by
      rw [← List.length_eq_zero_iff, RxState.length_pending, hnum]
    rw [RxState.Records, hpending]
    exact (hearly.recorded.push msg).drop 1
  · rw [hnum]
    dsimp only [RxState.afterStoreTail, ZynqCanRx.storeTail]
    rw [List.length_append, List.length_singleton]
    omega
  · intro other hother
    cases hother

theorem settled_afterNotify (hsettled : Settled s) : Settled s.afterNotify := by
  obtain ⟨comp, hcomp⟩ := s.zcan.zcanUsrRxComplete_frame
  unfold RxState.afterNotify
  rw [hcomp]
  refine ⟨hsettled.recorded, hsettled.conserved, False.elim, ?_⟩
  intro msg hwritten
  cases hwritten

theorem notFull_of_rxNum_eq_zero {zcan : ZynqCanRx} (hnum : zcan.rxNum = 0) :
    zcan.zcanBufRxFull = false := by
  have hmin := zcan.bufRxNum_min
  rw [← Bool.not_eq_true, ZynqCanRx.zcanBufRxFull_iff, hnum]
  unfold ZCAN_IP_MSG_MIN at hmin
  omega

theorem settled_afterClear (hsettled : Settled s) : Settled s.afterClear := by
  have hnum : s.afterClear.zcan.rxNum = 0 := s.zcan.rxNum_clearBufRx
  have hconserved := hsettled.conserved
  refine ⟨?_, ?_, fun _ => notFull_of_rxNum_eq_zero hnum, hsettled.staged⟩
  · have hpending : s.afterClear.pending = [] := by
      rw [← List.length_eq_zero_iff, RxState.length_pending, hnum]
    rw [RxState.Records, hpending]
    have hdrop := hsettled.recorded.drop s.pending.length
    rwa [List.drop_length] at hdrop
  · rw [hnum]
    dsimp only [RxState.afterClear, ZynqCanRx.zcanClearBufRx]
    omega

section CopyStep

variable (usrBuf usrBufNum usrRxNum : Nat) (copyFails : Nat → Bool)

theorem Recorded.faulted {pushed : List Msg} {faults : Nat}
    {delivered : List Entry} (hrec : Recorded pushed faults delivered [])
    (fault : Bool) :
    Recorded pushed (if fault then faults + 1 else faults) delivered [] := by
  cases fault with
  | false => exact hrec
  | true =>
      exact ⟨hrec.numbered, fun entry hmem => (hrec.decoded entry hmem).fault,
        fun entry hmem => absurd hmem List.not_mem_nil⟩

theorem recorded_taken (hrecorded : s.Records) {count limit : Nat}
    (hcount : count ≤ limit) (hlimit : limit ≤ s.zcan.rxNum) :
    (s.taken (s.asked usrBuf usrBufNum usrRxNum) count (min (count + 1) limit)
      (decide (count < limit))).Records := by
  have hdelivered := Recorded.deliver hrecorded count
  rcases Nat.lt_or_eq_of_le hcount with hfault | rfl
  · rw [Nat.min_eq_left hfault, decide_eq_true hfault]
    obtain ⟨head, rest, hdrop, hpending⟩ := pending_taken_fault s usrBuf usrBufNum
      usrRxNum true (Nat.lt_of_lt_of_le hfault hlimit)
    unfold RxState.Records
    rw [hpending]
    rw [hdrop] at hdelivered
    exact hdelivered.fault
  · rw [Nat.min_eq_right (Nat.le_succ count), decide_eq_false (Nat.lt_irrefl _)]
    unfold RxState.Records
    rw [pending_taken_all s usrBuf usrBufNum usrRxNum false hlimit]
    exact hdelivered

theorem afterCopy_counts :
    let asked := s.asked usrBuf usrBufNum usrRxNum
    let next := s.afterCopy (asked.zcanCopyToUser copyFails)
    let count := asked.copyCount copyFails
    count ≤ s.zcan.rxNum ∧
      next.zcan.rxNum = s.zcan.rxNum - count ∧
      next.delivered.length = s.delivered.length + count ∧
      next.zcan.zcanBufRxNum = s.zcan.zcanBufRxNum ∧
      next.zcan.chanStatsRxDrop = s.zcan.chanStatsRxDrop := by
  intro asked next count
  have hcount : count ≤ s.zcan.rxNum := asked.copyCount_le_rxNum copyFails
  have hnext : next = s.taken asked count (min (count + 1) asked.copyLimit)
      (decide (count < asked.copyLimit)) :=
    afterCopy_eq s usrBuf usrBufNum usrRxNum copyFails
  refine ⟨hcount, ?_, ?_, ?_, ?_⟩
  · rw [hnext]
    exact rxNum_taken s usrBuf usrBufNum usrRxNum _ _ hcount
  · rw [hnext]
    change (s.delivered ++ (s.pending.take count).map Entry.decode).length = _
    rw [List.length_append, List.length_map, List.length_take,
      RxState.length_pending, Nat.min_eq_left hcount]
  · rw [hnext]
    rfl
  · rw [hnext]
    rfl

theorem settled_afterCopy (hsettled : Settled s) :
    Settled (s.afterCopy
      ((s.asked usrBuf usrBufNum usrRxNum).zcanCopyToUser copyFails)) := by
  obtain ⟨hcount, hnum, hdelivered, hring, hdrop⟩ :=
    afterCopy_counts (s := s) usrBuf usrBufNum usrRxNum copyFails
  have hconserved := hsettled.conserved
  refine ⟨?_, ?_, ?_, ?_⟩
  · rw [afterCopy_eq s usrBuf usrBufNum usrRxNum copyFails]
    exact recorded_taken usrBuf usrBufNum usrRxNum hsettled.recorded
      (ZynqCanRx.copyCount_le_copyLimit _ _) (ZynqCanRx.copyLimit_le_rxNum _)
  · rw [hnum, hdelivered, hdrop]
    change s.pushed.length = _ + _ + s.cleared + _
    omega
  · intro hstoring
    have hroom := s.zcan.rxNum_add_one_lt (hsettled.room hstoring)
    rw [← Bool.not_eq_true, ZynqCanRx.zcanBufRxFull_iff, hnum, hring]
    omega
  · intro msg hwritten
    have hstaged := hsettled.staged msg hwritten
    rw [afterCopy_eq s usrBuf usrBufNum usrRxNum copyFails]
    have hlimit : (s.asked usrBuf usrBufNum usrRxNum).copyLimit ≤ s.zcan.rxNum :=
      ZynqCanRx.copyLimit_le_rxNum _
    refine (if_neg ?_).trans hstaged
    intro htouched
    apply s.zcan.tail_notMem_rxSlots
    obtain ⟨k, hk, heq⟩ := mem_ringIndices.mp htouched
    exact mem_ringIndices.mpr ⟨k, by omega, heq⟩

theorem early_afterCopy (hearly : Early s)
    (hnone : (s.asked usrBuf usrBufNum usrRxNum).copyCount copyFails = 0) :
    Early (s.afterCopy
      ((s.asked usrBuf usrBufNum usrRxNum).zcanCopyToUser copyFails)) := by
  obtain ⟨hcount, hnum, hdelivered, hring, hdrop⟩ :=
    afterCopy_counts (s := s) usrBuf usrBufNum usrRxNum copyFails
  rw [hnone] at hnum hdelivered
  refine ⟨?_, ?_, hearly.overtaken.1, ?_⟩
  · rw [afterCopy_eq s usrBuf usrBufNum usrRxNum copyFails, hnone]
    have hrec := hearly.recorded.faulted
      (decide (0 < (s.asked usrBuf usrBufNum usrRxNum).copyLimit))
    simpa [RxState.taken] using hrec
  · rw [hdelivered, hdrop]
    exact hearly.conserved
  · have hfull := (ZynqCanRx.zcanBufRxFull_iff _).mp hearly.overtaken.2
    rw [ZynqCanRx.zcanBufRxFull_iff, hnum, hring]
    exact hfull

end CopyStep

end Steps

theorem rxInv_step {s next : RxState} {label : RxStep} (hinv : RxInv s)
    (hok : RxStepOk s label) (hstep : rxStep s label = some next) :
    RxInv next := by
  cases label with
  | testFull =>
      cases hproducer : s.producer <;> simp only [rxStep, hproducer] at hstep <;>
        cases hstep
      rcases hinv with hsettled | hearly
      · exact Or.inl (settled_afterTest hsettled)
      · exact absurd hearly.overtaken.1 (hproducer ▸ id)
  | incHead =>
      cases hproducer : s.producer <;> simp only [rxStep, hproducer] at hstep <;>
        cases hstep
      rcases hinv with hsettled | hearly
      · exact rxInv_afterIncHead hsettled hok
      · exact absurd hearly.overtaken.1 (hproducer ▸ id)
  | writeSlot msg =>
      cases hproducer : s.producer <;> simp only [rxStep, hproducer] at hstep <;>
        cases hstep
      rcases hinv with hsettled | hearly
      · exact Or.inl (settled_afterWriteSlot hsettled hproducer msg)
      · exact Or.inr (early_afterWriteSlot hearly msg)
  | storeTail =>
      cases hproducer : s.producer <;> simp only [rxStep, hproducer] at hstep <;>
        cases hstep
      rcases hinv with hsettled | hearly
      · exact Or.inl (settled_afterStoreTail hsettled hproducer)
      · exact Or.inl (settled_afterStoreTail_of_early hearly _)
  | notify =>
      cases hproducer : s.producer <;> simp only [rxStep, hproducer] at hstep <;>
        cases hstep
      rcases hinv with hsettled | hearly
      · exact Or.inl (settled_afterNotify hsettled)
      · exact absurd hearly.overtaken.1 (hproducer ▸ id)
  | copyToUser usrBuf usrBufNum usrRxNum copyFails =>
      simp only [rxStep, Option.ite_none_right_eq_some, Option.some.injEq] at hstep
      obtain ⟨_, rfl⟩ := hstep
      rcases hinv with hsettled | hearly
      · exact Or.inl (settled_afterCopy usrBuf usrBufNum usrRxNum copyFails hsettled)
      · rcases hok with hnot | hnone
        · exact absurd hearly.overtaken hnot
        · exact Or.inr (early_afterCopy usrBuf usrBufNum usrRxNum copyFails hearly
            hnone)
  | clearBuf =>
      cases hstep
      rcases hinv with hsettled | hearly
      · exact Or.inl (settled_afterClear hsettled)
      · exact absurd hearly.overtaken hok

/-! The converse: a step outside the condition accounts for a whole ring of
messages that were never pushed, and no later step takes them back. -/

def RxState.account (s : RxState) : Nat :=
  s.delivered.length + s.zcan.rxNum + s.cleared + s.zcan.chanStatsRxDrop

structure Overcounted (s : RxState) : Prop where
  excess : s.pushed.length + s.zcan.zcanBufRxNum ≤ s.account
  overtaken : s.Overtaken → s.pushed.length + 2 * s.zcan.zcanBufRxNum ≤ s.account

section Overcount

variable {s : RxState}

theorem rxNum_of_overtaken (hover : s.Overtaken) :
    s.zcan.rxNum + 1 = s.zcan.zcanBufRxNum :=
  (ZynqCanRx.zcanBufRxFull_iff _).mp hover.2

theorem account_afterIncHead_of_lt (hless : s.zcan.rxNum < ZCAN_IP_RXFIFO_MAX) :
    s.afterIncHead.zcan.rxNum + ZCAN_IP_RXFIFO_MAX =
        s.zcan.zcanBufRxNum + s.zcan.rxNum ∧
      s.afterIncHead.account = s.account + s.zcan.zcanBufRxNum := by
  have hmin := s.zcan.bufRxNum_min
  have hnum : s.afterIncHead.zcan.rxNum =
      s.zcan.zcanBufRxNum + s.zcan.rxNum - ZCAN_IP_RXFIFO_MAX :=
    s.zcan.rxNum_incHead_overtake hless (Nat.le_trans (by decide) hmin)
  unfold RxState.account
  rw [hnum]
  dsimp only [RxState.afterIncHead, ZynqCanRx.zcanBufIncRxHead]
  unfold ZCAN_IP_RXFIFO_MAX ZCAN_IP_MSG_MIN at *
  omega

theorem overcounted_afterIncHead (hover : Overcounted s) :
    Overcounted s.afterIncHead := by
  have hexcess := hover.excess
  rcases Nat.lt_or_ge s.zcan.rxNum ZCAN_IP_RXFIFO_MAX with hless | hcount
  · obtain ⟨_, haccount⟩ := account_afterIncHead_of_lt hless
    have hring : s.afterIncHead.zcan.zcanBufRxNum = s.zcan.zcanBufRxNum := rfl
    have hpushed : s.afterIncHead.pushed.length = s.pushed.length := rfl
    refine ⟨?_, fun _ => ?_⟩ <;> rw [haccount, hring, hpushed] <;> omega
  · have hnum : s.afterIncHead.zcan.rxNum = s.zcan.rxNum - ZCAN_IP_RXFIFO_MAX :=
      s.zcan.rxNum_incHead hcount
    refine ⟨?_, fun hagain => ?_⟩
    · unfold RxState.account at *
      rw [hnum]
      dsimp only [RxState.afterIncHead, ZynqCanRx.zcanBufIncRxHead]
      omega
    · have hroom : s.afterIncHead.zcan.zcanBufRxFull = false :=
        s.zcan.notFull_incHead hcount
      rw [hagain.2] at hroom
      cases hroom

theorem overcounted_afterStoreTail (hover : Overcounted s) {msg : Msg}
    (hwritten : s.producer = .written msg) :
    Overcounted (s.afterStoreTail msg) := by
  have hexcess := hover.excess
  refine ⟨?_, fun hagain => absurd hagain.1 id⟩
  cases hfull : s.zcan.zcanBufRxFull with
  | true =>
      have hstoring : s.Overtaken := ⟨hwritten ▸ trivial, hfull⟩
      have hdouble := hover.overtaken hstoring
      have hring := rxNum_of_overtaken hstoring
      have hnum : (s.afterStoreTail msg).zcan.rxNum = 0 :=
        s.zcan.rxNum_storeTail_of_full hfull
      unfold RxState.account at *
      rw [hnum]
      dsimp only [RxState.afterStoreTail, ZynqCanRx.storeTail]
      rw [List.length_append, List.length_singleton]
      omega
  | false =>
      have hnum : (s.afterStoreTail msg).zcan.rxNum = s.zcan.rxNum + 1 :=
        s.zcan.rxNum_storeTail hfull
      unfold RxState.account at *
      rw [hnum]
      dsimp only [RxState.afterStoreTail, ZynqCanRx.storeTail]
      rw [List.length_append, List.length_singleton]
      omega

/-- Taking messages off the ring keeps the account, and leaves a ring that is
not full unless nothing was taken. -/
theorem overcounted_of_taken {next : RxState} {count : Nat}
    (hring : next.zcan.zcanBufRxNum = s.zcan.zcanBufRxNum)
    (hpushed : next.pushed = s.pushed) (haccount : next.account = s.account)
    (hproducer : next.producer = s.producer)
    (hcount : count ≤ s.zcan.rxNum) (hnum : next.zcan.rxNum = s.zcan.rxNum - count)
    (hexcess : s.pushed.length + s.zcan.zcanBufRxNum ≤ s.account)
    (hover : count = 0 → s.Overtaken →
      s.pushed.length + 2 * s.zcan.zcanBufRxNum ≤ s.account) :
    Overcounted next := by
  refine ⟨by rw [hring, hpushed, haccount]; exact hexcess, fun hagain => ?_⟩
  have hfull := rxNum_of_overtaken hagain
  have hlt := s.zcan.rxNum_lt
  rw [hring, hnum] at hfull
  rw [hring, hpushed, haccount]
  apply hover (by omega)
  refine ⟨hproducer ▸ hagain.1, ?_⟩
  rw [ZynqCanRx.zcanBufRxFull_iff]
  omega

theorem account_afterCopy (usrBuf usrBufNum usrRxNum : Nat)
    (copyFails : Nat → Bool) :
    (s.afterCopy ((s.asked usrBuf usrBufNum usrRxNum).zcanCopyToUser
      copyFails)).account = s.account := by
  obtain ⟨hcount, hnum, hdelivered, _, hdrop⟩ :=
    afterCopy_counts (s := s) usrBuf usrBufNum usrRxNum copyFails
  unfold RxState.account
  rw [hnum, hdelivered, hdrop]
  change _ + _ + _ + s.cleared + _ = _
  omega

theorem account_afterClear : s.afterClear.account = s.account := by
  have hnum : s.afterClear.zcan.rxNum = 0 := s.zcan.rxNum_clearBufRx
  unfold RxState.account
  rw [hnum]
  dsimp only [RxState.afterClear, ZynqCanRx.zcanClearBufRx]
  omega

end Overcount

theorem overcounted_step {s next : RxState} {label : RxStep}
    (hover : Overcounted s) (hstep : rxStep s label = some next) :
    Overcounted next := by
  have hexcess := hover.excess
  cases label with
  | testFull =>
      cases hproducer : s.producer <;> simp only [rxStep, hproducer] at hstep <;>
        cases hstep
      refine ⟨hexcess, fun hagain => ?_⟩
      obtain ⟨hstoring, hfull⟩ := hagain
      change s.zcan.zcanBufRxFull = true at hfull
      simp [RxState.afterTest, hfull, Producer.Storing] at hstoring
  | incHead =>
      cases hproducer : s.producer <;> simp only [rxStep, hproducer] at hstep <;>
        cases hstep
      exact overcounted_afterIncHead hover
  | writeSlot msg =>
      cases hproducer : s.producer <;> simp only [rxStep, hproducer] at hstep <;>
        cases hstep
      exact ⟨hexcess, fun hagain => hover.overtaken ⟨hproducer ▸ trivial, hagain.2⟩⟩
  | storeTail =>
      cases hproducer : s.producer <;> simp only [rxStep, hproducer] at hstep <;>
        cases hstep
      exact overcounted_afterStoreTail hover hproducer
  | notify =>
      cases hproducer : s.producer <;> simp only [rxStep, hproducer] at hstep <;>
        cases hstep
      obtain ⟨comp, hcomp⟩ := s.zcan.zcanUsrRxComplete_frame
      unfold RxState.afterNotify
      rw [hcomp]
      exact ⟨hexcess, fun hagain => absurd hagain.1 id⟩
  | copyToUser usrBuf usrBufNum usrRxNum copyFails =>
      simp only [rxStep, Option.ite_none_right_eq_some, Option.some.injEq] at hstep
      obtain ⟨_, rfl⟩ := hstep
      obtain ⟨hcount, hnum, _, hring, _⟩ :=
        afterCopy_counts (s := s) usrBuf usrBufNum usrRxNum copyFails
      exact overcounted_of_taken hring rfl
        (account_afterCopy usrBuf usrBufNum usrRxNum copyFails) rfl hcount hnum
        hexcess fun _ => hover.overtaken
  | clearBuf =>
      cases hstep
      exact overcounted_of_taken (s := s) rfl rfl account_afterClear rfl (Nat.le_refl _)
        (s.zcan.rxNum_clearBufRx.trans (Nat.sub_self _).symm) hexcess
        fun _ => hover.overtaken

theorem overcounted_of_not_ok {s next : RxState} {label : RxStep}
    (hinv : RxInv s) (hbad : ¬ RxStepOk s label)
    (hstep : rxStep s label = some next) : Overcounted next := by
  have hearly : s.Overtaken → Early s := by
    intro hover
    rcases hinv with hsettled | hearly
    · have hroom := hsettled.room hover.1
      rw [hover.2] at hroom
      cases hroom
    · exact hearly
  have hexcess : s.Overtaken →
      s.pushed.length + s.zcan.zcanBufRxNum ≤ s.account := by
    intro hover
    have hconserved := (hearly hover).conserved
    have hring := rxNum_of_overtaken hover
    unfold RxState.account
    omega
  cases label with
  | incHead =>
      cases hproducer : s.producer <;> simp only [rxStep, hproducer] at hstep <;>
        cases hstep
      have hless : s.zcan.rxNum + 1 < ZCAN_IP_RXFIFO_MAX := Nat.not_le.mp hbad
      obtain ⟨hnum, haccount⟩ :=
        account_afterIncHead_of_lt (Nat.lt_of_succ_lt hless)
      have hconserved : s.pushed.length = s.account := by
        rcases hinv with hsettled | hearly
        · exact hsettled.conserved
        · exact absurd hearly.overtaken.1 (hproducer ▸ id)
      refine ⟨?_, fun hagain => ?_⟩
      · rw [haccount]
        change s.pushed.length + s.zcan.zcanBufRxNum ≤ _
        omega
      · have hfull := rxNum_of_overtaken hagain
        change _ = s.zcan.zcanBufRxNum at hfull
        omega
  | copyToUser usrBuf usrBufNum usrRxNum copyFails =>
      simp only [rxStep, Option.ite_none_right_eq_some, Option.some.injEq] at hstep
      obtain ⟨_, rfl⟩ := hstep
      obtain ⟨hcount, hnum, _, hring, _⟩ :=
        afterCopy_counts (s := s) usrBuf usrBufNum usrRxNum copyFails
      obtain ⟨hover, hsome⟩ := not_or.mp hbad
      exact overcounted_of_taken hring rfl
        (account_afterCopy usrBuf usrBufNum usrRxNum copyFails) rfl hcount hnum
        (hexcess (not_not.mp hover)) fun hnone => absurd hnone hsome
  | clearBuf =>
      cases hstep
      have hover := not_not.mp hbad
      have hring := rxNum_of_overtaken hover
      have hmin := s.zcan.bufRxNum_min
      refine overcounted_of_taken (s := s) rfl rfl account_afterClear rfl (Nat.le_refl _)
        (s.zcan.rxNum_clearBufRx.trans (Nat.sub_self _).symm) (hexcess hover) ?_
      intro hnone
      unfold ZCAN_IP_MSG_MIN at hmin
      omega
  | testFull | writeSlot | storeTail | notify => exact absurd trivial hbad

/-- The receive ring loses and duplicates nothing in a run whose steps all meet
the condition, and in no other run that stops between two messages. -/
theorem rx_interleaving (zcan : ZynqCanRx) (labels : List RxStep) :
    (StepsMeet rxStep RxStepOk (RxState.init zcan) labels →
      Throughout rxStep RxSpec (RxState.init zcan) labels) ∧
    (∀ final, run rxStep (RxState.init zcan) labels = some final →
      final.producer.BetweenMessages →
      Throughout rxStep RxSpec (RxState.init zcan) labels →
      StepsMeet rxStep RxStepOk (RxState.init zcan) labels) := by
  constructor
  · intro hmeet
    exact (throughout_of_stepsMeet rxInv_step (rxInv_init zcan) hmeet).imp
      fun _ => rxInv_spec
  · intro final hrun hbetween
    refine stepsMeet_of_throughout rxInv_step overcounted_of_not_ok
      overcounted_step (rxInv_init zcan) hrun ?_
    intro hover hspec
    have hexcess := hover.excess
    have hconserved : final.pushed.length = final.account :=
      hspec.conserved hbetween
    have hpos := final.zcan.bufRxNum_pos
    omega

def pushSteps (msg : Msg) : List RxStep :=
  [.testFull, .writeSlot msg, .storeTail, .notify]

/-- The producer finds the ring full, a receiver takes all 255 messages, and
only then does the producer advance the head. -/
def overtakingRun : List RxStep :=
  (List.replicate 255 (pushSteps ⟨0, 0, 0, 0, 0, 0⟩)).flatten ++
    [.testFull, .copyToUser 1 255 0 fun _ => false, .incHead,
      .writeSlot ⟨0, 0, 0, 0, 0, 0⟩, .storeTail, .notify]

/-- 256 messages were pushed, but 255 delivered, 193 buffered and 64 dropped. -/
theorem overtakingRun_counts :
    (run rxStep (RxState.init smallestRing) overtakingRun).map (fun s =>
      (s.producer, s.pushed.length, s.delivered.length, s.zcan.rxNum, s.cleared,
        s.zcan.chanStatsRxDrop)) = some (.idle, 256, 255, 193, 0, 64) := by
  decide +kernel

theorem overtakingRun_not_rxSpec :
    ¬ Throughout rxStep RxSpec (RxState.init smallestRing) overtakingRun := by
  intro hall
  obtain ⟨final, hrun, hcounts⟩ :=
    Option.map_eq_some_iff.mp overtakingRun_counts
  simp only [Prod.mk.injEq] at hcounts
  obtain ⟨hproducer, hpushed, hdelivered, hnum, hcleared, hdrop⟩ := hcounts
  have hconserved := (hall.last hrun).conserved (hproducer ▸ trivial)
  omega

/-- A run in which one message is pushed and delivered. -/
theorem rx_interleaving_one :
    Throughout rxStep RxSpec (RxState.init smallestRing)
      (pushSteps ⟨0, 0, 0, 0, 0, 0⟩ ++ [.copyToUser 1 1 0 fun _ => false]) := by
  apply (rx_interleaving smallestRing _).1
  simp only [pushSteps, List.cons_append, List.nil_append, stepsMeet_cons,
    RxStepOk, true_and]
  intro tested htested written hwritten stored hstored notified hnotified
  refine ⟨Or.inl ?_, fun _ _ => stepsMeet_nil⟩
  have hrun : run rxStep (RxState.init smallestRing)
      (pushSteps ⟨0, 0, 0, 0, 0, 0⟩) = some notified := by
    simp only [pushSteps, run_cons, htested, hwritten, hstored, hnotified,
      Option.bind_some, run_nil]
  have hidle : (run rxStep (RxState.init smallestRing)
      (pushSteps ⟨0, 0, 0, 0, 0, 0⟩)).map RxState.producer = some .idle := by
    decide
  rw [hrun, Option.map_some, Option.some.injEq] at hidle
  exact fun hover => absurd hover.1 (hidle ▸ id)

end ApolloContrib.Can
