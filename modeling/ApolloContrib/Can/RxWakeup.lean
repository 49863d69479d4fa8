import ApolloContrib.Can.RxInterleaving

namespace ApolloContrib.Can

open ApolloContrib.Library

/-! A receiver that waits while only the producer runs: when it is woken, and
what its second copy finds. -/

def RxStep.ByProducer : RxStep → Prop
  | .testFull | .incHead | .writeSlot _ | .storeTail | .notify => True
  | .copyToUser .. | .clearBuf => False

def RxState.required (s : RxState) : Nat :=
  s.zcan.zcanUsrBufNum - s.zcan.zcanUsrRxNum

/-- A first copy left the ring empty and the request incomplete. The producer
may be anywhere in its loop. -/
structure Waiting (s : RxState) : Prop where
  drained : s.zcan.rxNum = 0
  usrBuf : s.zcan.zcanUsrBuf ≠ NULL
  incomplete : s.zcan.zcanUsrRxNum < s.zcan.zcanUsrBufNum
  reinit : s.zcan.zcanUsrRxComp = 0

/-- In `s`, reached from `start`, enough pushes have woken the receiver, and a
receiver that is woken gets all it asked for. -/
structure Served (start s : RxState) : Prop where
  woken : start.pushed.length + start.required ≤ s.pushed.length →
    s.producer ≠ .stored → 0 < s.zcan.zcanUsrRxComp
  complete : 0 < s.zcan.zcanUsrRxComp →
    (s.zcan.zcanCopyToUser fun _ => false).1 = .BCAN_OK
  noInternalError : 0 < s.zcan.zcanUsrRxComp →
    ∀ copyFails, (s.zcan.zcanCopyToUser copyFails).1 ≠ .BCAN_PARTIAL_OK

namespace ZynqCanRx

variable (zcan : ZynqCanRx)

theorem zcanCopyToUser_complete
    (henough : zcan.zcanUsrBufNum - zcan.zcanUsrRxNum ≤ zcan.rxNum) :
    (zcan.zcanCopyToUser fun _ => false).1 = .BCAN_OK := by
  have hlimit : zcan.copyLimit = zcan.zcanUsrBufNum - zcan.zcanUsrRxNum :=
    Nat.min_eq_left henough
  have hcount : zcan.copyCount (fun _ => false) = zcan.copyLimit :=
    copiedBeforeFault_eq_limit (fun _ => rfl) _ _
  rw [zcanCopyToUser_eq]
  dsimp only
  rw [hcount, if_neg (Nat.lt_irrefl _), hlimit, if_neg (by omega)]

theorem zcanCopyToUser_not_partial
    (henough : zcan.zcanUsrBufNum - zcan.zcanUsrRxNum ≤ zcan.rxNum)
    (copyFails : Nat → Bool) :
    (zcan.zcanCopyToUser copyFails).1 ≠ .BCAN_PARTIAL_OK := by
  have hlimit : zcan.copyLimit = zcan.zcanUsrBufNum - zcan.zcanUsrRxNum :=
    Nat.min_eq_left henough
  rw [zcanCopyToUser_eq]
  dsimp only
  split
  · simp
  · rw [if_neg (by omega)]
    simp

theorem zcanCopyToUser_partial
    (hless : zcan.rxNum < zcan.zcanUsrBufNum - zcan.zcanUsrRxNum) :
    (zcan.zcanCopyToUser fun _ => false).1 = .BCAN_PARTIAL_OK := by
  have hlimit : zcan.copyLimit = zcan.rxNum := Nat.min_eq_right (Nat.le_of_lt hless)
  have hcount : zcan.copyCount (fun _ => false) = zcan.copyLimit :=
    copiedBeforeFault_eq_limit (fun _ => rfl) _ _
  rw [zcanCopyToUser_eq]
  dsimp only
  rw [hcount, if_neg (Nat.lt_irrefl _), hlimit, if_pos (by omega)]

end ZynqCanRx

structure SameRequest (start s : RxState) : Prop where
  bufRxNum : s.zcan.zcanBufRxNum = start.zcan.zcanBufRxNum
  usrBuf : s.zcan.zcanUsrBuf = start.zcan.zcanUsrBuf
  required : s.required = start.required

theorem sameRequest_step {start s next : RxState} {label : RxStep}
    (hsame : SameRequest start s) (hby : label.ByProducer)
    (hstep : rxStep s label = some next) : SameRequest start next := by
  obtain ⟨hring, hbuf, hrequired⟩ := hsame
  cases label with
  | testFull | incHead | writeSlot | storeTail =>
      cases hproducer : s.producer <;> simp only [rxStep, hproducer] at hstep <;>
        cases hstep
      exact ⟨hring, hbuf, hrequired⟩
  | notify =>
      cases hproducer : s.producer <;> simp only [rxStep, hproducer] at hstep <;>
        cases hstep
      obtain ⟨comp, hcomp⟩ := s.zcan.zcanUsrRxComplete_frame
      unfold RxState.afterNotify
      rw [hcomp]
      exact ⟨hring, hbuf, hrequired⟩
  | copyToUser | clearBuf => exact absurd hby id

theorem comp_afterNotify (s : RxState) :
    s.afterNotify.zcan.zcanUsrRxComp =
      if s.zcan.zcanUsrBuf ≠ NULL ∧ 0 < s.zcan.rxNum ∧ s.required ≤ s.zcan.rxNum then
        s.zcan.zcanUsrRxComp + 1
      else s.zcan.zcanUsrRxComp := by
  unfold RxState.afterNotify ZynqCanRx.zcanUsrRxComplete RxState.required
  by_cases hbuf : s.zcan.zcanUsrBuf = NULL
  · simp [hbuf]
  · simp only [hbuf, if_false, ne_eq, not_false_eq_true, true_and, ge_iff_le,
      gt_iff_lt]
    split <;> rfl

theorem rxNum_afterNotify (s : RxState) :
    s.afterNotify.zcan.rxNum = s.zcan.rxNum := by
  obtain ⟨comp, hcomp⟩ := s.zcan.zcanUsrRxComplete_frame
  unfold RxState.afterNotify
  rw [hcomp]
  rfl

/-- The ring holds just what has been pushed since the wait began. -/
structure Counting (start s : RxState) : Prop where
  notWoken : s.zcan.zcanUsrRxComp = 0
  notFull : s.producer ≠ .full
  pushed : s.pushed.length = start.pushed.length + s.zcan.rxNum
  below : s.producer ≠ .stored → s.zcan.rxNum < start.required
  atMost : s.zcan.rxNum ≤ start.required

/-- The producer had found the ring full before the first copy drained it, and
has not finished the message of that test. -/
def Stale (start s : RxState) : Prop :=
  s.zcan.zcanUsrRxComp = 0 ∧
    match s.producer with
    | .full => s.pushed.length = start.pushed.length ∧ s.zcan.rxNum = 0
    | .ready | .written _ =>
        s.pushed.length = start.pushed.length ∧
          s.zcan.rxNum + ZCAN_IP_RXFIFO_MAX = s.zcan.zcanBufRxNum
    | .stored => s.zcan.rxNum + 63 = s.zcan.zcanBufRxNum
    | .idle => False

/-- The receiver has been woken and the ring still holds what it asks for. -/
structure Woken (start s : RxState) : Prop where
  woken : 0 < s.zcan.zcanUsrRxComp
  enough : start.required ≤ s.zcan.rxNum
  full : s.producer = .full → s.zcan.rxNum + 1 = s.zcan.zcanBufRxNum
  storing : s.producer.Storing → s.zcan.rxNum + 2 ≤ s.zcan.zcanBufRxNum

def LargeEnough (start : RxState) : Prop :=
  start.required + (ZCAN_IP_RXFIFO_MAX + 1) ≤ start.zcan.zcanBufRxNum

section Steps

variable {start s next : RxState} {label : RxStep}

theorem afterTest_full_iff :
    s.afterTest.producer = .full ↔ s.zcan.rxNum + 1 = s.zcan.zcanBufRxNum := by
  rw [← ZynqCanRx.zcanBufRxFull_iff]
  unfold RxState.afterTest
  cases s.zcan.zcanBufRxFull <;> simp

theorem rxNum_afterStoreTail (s : RxState) (msg : Msg)
    (hroom : s.zcan.rxNum + 2 ≤ s.zcan.zcanBufRxNum) :
    (s.afterStoreTail msg).zcan.rxNum = s.zcan.rxNum + 1 := by
  apply s.zcan.rxNum_storeTail
  rw [← Bool.not_eq_true, ZynqCanRx.zcanBufRxFull_iff]
  omega

theorem counting_step (hwait : Waiting start) (hlarge : LargeEnough start)
    (hsame : SameRequest start s) (hcounting : Counting start s)
    (hby : label.ByProducer) (hstep : rxStep s label = some next) :
    Counting start next ∨ Woken start next := by
  obtain ⟨hcomp, hnotFull, hpushed, hbelow, hatMost⟩ := hcounting
  obtain ⟨hring, hbuf, hrequired⟩ := hsame
  unfold LargeEnough ZCAN_IP_RXFIFO_MAX at hlarge
  cases label with
  | testFull =>
      cases hproducer : s.producer <;> simp only [rxStep, hproducer] at hstep <;>
        cases hstep
      left
      have hless := hbelow (by simp [hproducer])
      refine ⟨hcomp, ?_, hpushed, fun _ => hless, hatMost⟩
      rw [ne_eq, afterTest_full_iff]
      omega
  | incHead =>
      cases hproducer : s.producer <;> simp only [rxStep, hproducer] at hstep <;>
        cases hstep
      exact absurd hproducer hnotFull
  | writeSlot msg =>
      cases hproducer : s.producer <;> simp only [rxStep, hproducer] at hstep <;>
        cases hstep
      have hless := hbelow (by simp [hproducer])
      exact Or.inl ⟨hcomp, nofun, hpushed, fun _ => hless, hatMost⟩
  | storeTail =>
      cases hproducer : s.producer <;> simp only [rxStep, hproducer] at hstep <;>
        cases hstep
      left
      rename_i msg
      have hless := hbelow (by simp [hproducer])
      have hnum := rxNum_afterStoreTail s msg (by omega)
      refine ⟨hcomp, nofun, ?_, fun hstored => absurd rfl hstored, ?_⟩
      · rw [hnum]
        simp only [RxState.afterStoreTail, List.length_append, List.length_singleton]
        omega
      · omega
  | notify =>
      cases hproducer : s.producer <;> simp only [rxStep, hproducer] at hstep <;>
        cases hstep
      have hnum := rxNum_afterNotify s
      have hsignal := comp_afterNotify s
      have hasked := hwait.incomplete
      rw [hbuf, hrequired] at hsignal
      rcases Nat.lt_or_eq_of_le hatMost with hless | henough
      · left
        rw [if_neg (by omega)] at hsignal
        refine ⟨hsignal.trans hcomp, nofun, ?_, fun _ => ?_, ?_⟩
        · rw [hnum]
          exact hpushed
        · omega
        · omega
      · right
        have hpos : 0 < start.required := Nat.sub_pos_of_lt hasked
        rw [if_pos ⟨hwait.usrBuf, by omega, by omega⟩] at hsignal
        exact ⟨by omega, by omega, nofun, False.elim⟩
  | copyToUser | clearBuf => exact absurd hby id

theorem stale_step (hwait : Waiting start) (hlarge : LargeEnough start)
    (hsame : SameRequest start s) (hstale : Stale start s)
    (hby : label.ByProducer) (hstep : rxStep s label = some next) :
    Stale start next ∨ Woken start next := by
  obtain ⟨hcomp, hshape⟩ := hstale
  obtain ⟨hring, hbuf, hrequired⟩ := hsame
  have hmin : 256 ≤ s.zcan.zcanBufRxNum := s.zcan.bufRxNum_min
  have hfifo : ZCAN_IP_RXFIFO_MAX = 64 := rfl
  unfold LargeEnough at hlarge
  cases label with
  | testFull =>
      cases hproducer : s.producer <;> simp only [rxStep, hproducer] at hstep <;>
        cases hstep
      simp [hproducer] at hshape
  | incHead =>
      cases hproducer : s.producer <;> simp only [rxStep, hproducer] at hstep <;>
        cases hstep
      left
      simp only [hproducer] at hshape
      have hnum : s.afterIncHead.zcan.rxNum =
          s.zcan.zcanBufRxNum + s.zcan.rxNum - ZCAN_IP_RXFIFO_MAX :=
        s.zcan.rxNum_incHead_overtake (by omega) (by omega)
      refine ⟨hcomp, hshape.1, ?_⟩
      change s.afterIncHead.zcan.rxNum + _ = s.zcan.zcanBufRxNum
      omega
  | writeSlot msg =>
      cases hproducer : s.producer <;> simp only [rxStep, hproducer] at hstep <;>
        cases hstep
      simp only [hproducer] at hshape
      exact Or.inl ⟨hcomp, hshape⟩
  | storeTail =>
      cases hproducer : s.producer <;> simp only [rxStep, hproducer] at hstep <;>
        cases hstep
      left
      rename_i msg
      simp only [hproducer] at hshape
      have hnum := rxNum_afterStoreTail s msg (by omega)
      refine ⟨hcomp, ?_⟩
      change (s.afterStoreTail msg).zcan.rxNum + 63 = s.zcan.zcanBufRxNum
      omega
  | notify =>
      cases hproducer : s.producer <;> simp only [rxStep, hproducer] at hstep <;>
        cases hstep
      right
      simp only [hproducer] at hshape
      have hnum := rxNum_afterNotify s
      have hsignal := comp_afterNotify s
      rw [hbuf, hrequired, if_pos ⟨hwait.usrBuf, by omega, by omega⟩] at hsignal
      exact ⟨by omega, by omega, nofun, False.elim⟩
  | copyToUser | clearBuf => exact absurd hby id

theorem woken_step (hlarge : LargeEnough start) (hsame : SameRequest start s)
    (hwoken : Woken start s) (hby : label.ByProducer)
    (hstep : rxStep s label = some next) : Woken start next := by
  obtain ⟨hcomp, henough, hfull, hstoring⟩ := hwoken
  obtain ⟨hring, hbuf, hrequired⟩ := hsame
  have hlt := s.zcan.rxNum_lt
  have hmin : 256 ≤ s.zcan.zcanBufRxNum := s.zcan.bufRxNum_min
  have hfifo : ZCAN_IP_RXFIFO_MAX = 64 := rfl
  unfold LargeEnough at hlarge
  cases label with
  | testFull =>
      cases hproducer : s.producer <;> simp only [rxStep, hproducer] at hstep <;>
        cases hstep
      refine ⟨hcomp, henough, afterTest_full_iff.mp, ?_⟩
      intro hready
      have hne : s.afterTest.producer ≠ .full := by
        intro heq
        rw [heq] at hready
        exact hready
      rw [ne_eq, afterTest_full_iff] at hne
      change s.zcan.rxNum + 2 ≤ s.zcan.zcanBufRxNum
      omega
  | incHead =>
      cases hproducer : s.producer <;> simp only [rxStep, hproducer] at hstep <;>
        cases hstep
      have hcount := hfull hproducer
      have hnum : s.afterIncHead.zcan.rxNum = s.zcan.rxNum - ZCAN_IP_RXFIFO_MAX :=
        s.zcan.rxNum_incHead (by omega)
      refine ⟨hcomp, by omega, nofun, fun _ => ?_⟩
      change s.afterIncHead.zcan.rxNum + 2 ≤ s.zcan.zcanBufRxNum
      omega
  | writeSlot msg =>
      cases hproducer : s.producer <;> simp only [rxStep, hproducer] at hstep <;>
        cases hstep
      have hroom := hstoring (hproducer ▸ trivial)
      exact ⟨hcomp, henough, nofun, fun _ => hroom⟩
  | storeTail =>
      cases hproducer : s.producer <;> simp only [rxStep, hproducer] at hstep <;>
        cases hstep
      rename_i msg
      have hnum := rxNum_afterStoreTail s msg
        (hstoring (hproducer ▸ trivial))
      exact ⟨hcomp, by omega, nofun, False.elim⟩
  | notify =>
      cases hproducer : s.producer <;> simp only [rxStep, hproducer] at hstep <;>
        cases hstep
      have hnum := rxNum_afterNotify s
      have hsignal := comp_afterNotify s
      refine ⟨?_, by omega, nofun, False.elim⟩
      split at hsignal <;> omega
  | copyToUser | clearBuf => exact absurd hby id

end Steps

structure InWait (start s : RxState) : Prop where
  same : SameRequest start s
  shape : Counting start s ∨ Stale start s ∨ Woken start s

theorem inWait_start {start : RxState} (hwait : Waiting start) :
    InWait start start := by
  refine ⟨⟨rfl, rfl, rfl⟩, ?_⟩
  have hpos : 0 < start.required := Nat.sub_pos_of_lt hwait.incomplete
  have hnum := hwait.drained
  cases hproducer : start.producer with
  | full =>
      refine Or.inr (Or.inl ⟨hwait.reinit, ?_⟩)
      simp only [hproducer, hnum, and_self]
  | idle | ready | written | stored =>
      refine Or.inl ⟨hwait.reinit, by simp [hproducer], ?_, fun _ => ?_, ?_⟩ <;>
        omega

theorem inWait_step {start s next : RxState} {label : RxStep}
    (hwait : Waiting start) (hlarge : LargeEnough start) (hinv : InWait start s)
    (hby : label.ByProducer) (hstep : rxStep s label = some next) :
    InWait start next := by
  obtain ⟨hsame, hshape⟩ := hinv
  refine ⟨sameRequest_step hsame hby hstep, ?_⟩
  rcases hshape with hcounting | hstale | hwoken
  · rcases counting_step hwait hlarge hsame hcounting hby hstep with hnext | hnext
    · exact Or.inl hnext
    · exact Or.inr (Or.inr hnext)
  · exact Or.inr (stale_step hwait hlarge hsame hstale hby hstep)
  · exact Or.inr (Or.inr (woken_step hlarge hsame hwoken hby hstep))

theorem served_of_inWait {start s : RxState} (hwait : Waiting start)
    (hinv : InWait start s) : Served start s := by
  obtain ⟨⟨_, _, hrequired⟩, hshape⟩ := hinv
  have hpos : 0 < start.required := Nat.sub_pos_of_lt hwait.incomplete
  have henough : 0 < s.zcan.zcanUsrRxComp → s.required ≤ s.zcan.rxNum := by
    intro hcomp
    rcases hshape with hcounting | hstale | hwoken
    · exact absurd hcounting.notWoken (Nat.ne_of_gt hcomp)
    · exact absurd hstale.1 (Nat.ne_of_gt hcomp)
    · exact hrequired ▸ hwoken.enough
  refine ⟨?_, fun hcomp => s.zcan.zcanCopyToUser_complete (henough hcomp),
    fun hcomp => s.zcan.zcanCopyToUser_not_partial (henough hcomp)⟩
  intro hpushes hstored
  rcases hshape with hcounting | hstale | hwoken
  · have hless := hcounting.below hstored
    have hpushed := hcounting.pushed
    omega
  · obtain ⟨_, hshape⟩ := hstale
    cases hproducer : s.producer <;> simp_all
  · exact hwoken.woken

/-! The converse: the producer alone can bring a smaller ring to a state in
which the receiver is not served. -/

def Produces (s t : RxState) : Prop :=
  ∃ labels, (∀ label ∈ labels, RxStep.ByProducer label) ∧
    run rxStep s labels = some t

section Produces

variable {s t u : RxState}

theorem Produces.refl (s : RxState) : Produces s s :=
  ⟨[], fun _ hmem => absurd hmem List.not_mem_nil, rfl⟩

theorem Produces.step (label : RxStep) (t : RxState) (hby : label.ByProducer)
    (hstep : rxStep s label = some t) (hrest : Produces t u) : Produces s u := by
  obtain ⟨labels, hall, hrun⟩ := hrest
  refine ⟨label :: labels, List.forall_mem_cons.mpr ⟨hby, hall⟩, ?_⟩
  rw [run_cons, hstep]
  exact hrun

theorem Produces.trans (hfirst : Produces s t) (hsecond : Produces t u) :
    Produces s u := by
  obtain ⟨first, hall, hrun⟩ := hfirst
  obtain ⟨second, hall', hrun'⟩ := hsecond
  refine ⟨first ++ second, List.forall_mem_append.mpr ⟨hall, hall'⟩, ?_⟩
  rw [run_append_of_eq rxStep hrun, hrun']

theorem Produces.sameRequest (hproduces : Produces s t) : SameRequest s t := by
  obtain ⟨labels, hall, hrun⟩ := hproduces
  have hsame : Throughout rxStep (SameRequest s) s labels :=
    throughout_of_stepsMeet sameRequest_step ⟨rfl, rfl, rfl⟩
      (stepsMeet_of_forall hall)
  exact hsame.last hrun

theorem produces_idle_of_ready (hready : s.producer = .ready) (msg : Msg) :
    ∃ t, Produces s t ∧ t.producer = .idle ∧
      t.pushed.length = s.pushed.length + 1 ∧
      (s.zcan.zcanBufRxFull = false → t.zcan.rxNum = s.zcan.rxNum + 1) := by
  refine ⟨((s.afterWriteSlot msg).afterStoreTail msg).afterNotify, ?_, rfl, ?_, ?_⟩
  · refine Produces.step (.writeSlot msg) (s.afterWriteSlot msg) trivial
      (by simp only [rxStep, hready]) ?_
    refine Produces.step .storeTail _ trivial rfl ?_
    exact Produces.step .notify _ trivial rfl (Produces.refl _)
  · change (s.pushed ++ [msg]).length = _
    rw [List.length_append, List.length_singleton]
  · intro hroom
    rw [rxNum_afterNotify]
    exact (s.zcan.writeTail msg).rxNum_storeTail hroom

theorem produces_push (hidle : s.producer = .idle) (msg : Msg) :
    ∃ t, Produces s t ∧ t.producer = .idle ∧
      t.pushed.length = s.pushed.length + 1 ∧
      (s.zcan.zcanBufRxFull = false → t.zcan.rxNum = s.zcan.rxNum + 1) := by
  have htest : rxStep s .testFull = some s.afterTest := by
    simp only [rxStep, hidle]
  cases hfull : s.zcan.zcanBufRxFull with
  | false =>
      have hready : s.afterTest.producer = .ready := by
        simp [RxState.afterTest, hfull]
      obtain ⟨t, hproduces, hback, hpushed, hnum⟩ :=
        produces_idle_of_ready hready msg
      exact ⟨t, Produces.step .testFull _ trivial htest hproduces, hback,
        hpushed, fun _ => hnum hfull⟩
  | true =>
      have hinc : rxStep s.afterTest .incHead = some s.afterTest.afterIncHead := by
        simp [rxStep, RxState.afterTest, hfull]
      obtain ⟨t, hproduces, hback, hpushed, _⟩ :=
        produces_idle_of_ready (s := s.afterTest.afterIncHead) rfl msg
      exact ⟨t, Produces.step .testFull _ trivial htest
        (Produces.step .incHead _ trivial hinc hproduces), hback,
        hpushed, nofun⟩

theorem produces_idle (s : RxState) (msg : Msg) :
    ∃ t, Produces s t ∧ t.producer = .idle ∧ s.pushed.length ≤ t.pushed.length := by
  cases hproducer : s.producer with
  | idle => exact ⟨s, Produces.refl s, hproducer, Nat.le_refl _⟩
  | full =>
      obtain ⟨t, hproduces, hback, hpushed, _⟩ :=
        produces_idle_of_ready (s := s.afterIncHead) rfl msg
      exact ⟨t, Produces.step .incHead s.afterIncHead trivial
        (by simp only [rxStep, hproducer]) hproduces, hback,
        hpushed ▸ Nat.le_succ _⟩
  | ready =>
      obtain ⟨t, hproduces, hback, hpushed, _⟩ := produces_idle_of_ready hproducer msg
      exact ⟨t, hproduces, hback, hpushed ▸ Nat.le_succ _⟩
  | written staged =>
      refine ⟨(s.afterStoreTail staged).afterNotify, ?_, rfl, ?_⟩
      · refine Produces.step .storeTail (s.afterStoreTail staged) trivial
          (by simp only [rxStep, hproducer]) ?_
        exact Produces.step .notify _ trivial rfl (Produces.refl _)
      · change _ ≤ (s.pushed ++ [staged]).length
        rw [List.length_append]
        exact Nat.le_add_right _ _
  | stored =>
      exact ⟨s.afterNotify, Produces.step .notify s.afterNotify trivial
        (by simp only [rxStep, hproducer]) (Produces.refl _), rfl, Nat.le_refl _⟩

theorem produces_pushes (hidle : s.producer = .idle) (msg : Msg) (count : Nat) :
    ∃ t, Produces s t ∧ t.producer = .idle ∧
      t.pushed.length = s.pushed.length + count := by
  induction count with
  | zero => exact ⟨s, Produces.refl s, hidle, rfl⟩
  | succ count ih =>
      obtain ⟨t, hproduces, hback, hpushed⟩ := ih
      obtain ⟨u, hnext, hback', hpushed', _⟩ := produces_push hback msg
      exact ⟨u, hproduces.trans hnext, hback', by omega⟩

theorem produces_full (hidle : s.producer = .idle) (msg : Msg) :
    ∃ t, Produces s t ∧ t.producer = .idle ∧ t.zcan.zcanBufRxFull = true ∧
      s.pushed.length ≤ t.pushed.length := by
  generalize hfree : s.zcan.zcanBufRxNum - s.zcan.rxNum = free
  induction free generalizing s with
  | zero =>
      have hlt := s.zcan.rxNum_lt
      omega
  | succ free ih =>
      cases hfull : s.zcan.zcanBufRxFull with
      | true => exact ⟨s, Produces.refl s, hidle, hfull, Nat.le_refl _⟩
      | false =>
          obtain ⟨t, hproduces, hback, hpushed, hnum⟩ := produces_push hidle msg
          have hnum := hnum hfull
          have hring := hproduces.sameRequest.bufRxNum
          obtain ⟨u, hnext, hback', hfull', hpushed'⟩ := ih hback (by omega)
          exact ⟨u, hproduces.trans hnext, hback', hfull', by omega⟩

end Produces

/-- In a ring that is too small some run of the producer leaves the receiver
asleep, or wakes it to an incomplete copy. -/
theorem unserved_of_not_largeEnough (start : RxState)
    (hsmall : ¬ LargeEnough start) :
    ∃ s, Produces start s ∧ ¬ Served start s := by
  let msg : Msg := ⟨0, 0, 0, 0, 0, 0⟩
  obtain ⟨s₁, hto₁, hidle₁, hpushed₁⟩ := produces_idle start msg
  obtain ⟨s₂, hto₂, hidle₂, hpushed₂⟩ :=
    produces_pushes hidle₁ msg start.required
  obtain ⟨s₃, hto₃, hidle₃, hfull₃, hpushed₃⟩ := produces_full hidle₂ msg
  have hto := (hto₁.trans hto₂).trans hto₃
  obtain ⟨hring, _, hrequired⟩ := hto.sameRequest
  rcases Nat.eq_zero_or_pos s₃.zcan.zcanUsrRxComp with hasleep | hwoken
  · refine ⟨s₃, hto, fun hserved => ?_⟩
    have hcomp := hserved.woken (by omega) (by simp [hidle₃])
    omega
  · refine ⟨s₃.afterTest.afterIncHead, hto.trans ?_, fun hserved => ?_⟩
    · refine Produces.step .testFull s₃.afterTest trivial
        (by simp only [rxStep, hidle₃]) ?_
      exact Produces.step .incHead s₃.afterTest.afterIncHead trivial
        (by simp [rxStep, RxState.afterTest, hfull₃]) (Produces.refl _)
    · have hnum : s₃.afterTest.afterIncHead.zcan.rxNum =
          s₃.zcan.rxNum - ZCAN_IP_RXFIFO_MAX :=
        s₃.zcan.rxNum_incHead (s₃.zcan.rxFifoMax_le_rxNum hfull₃)
      have hfull := s₃.zcan.zcanBufRxFull_iff.mp hfull₃
      have hmin : 256 ≤ s₃.zcan.zcanBufRxNum := s₃.zcan.bufRxNum_min
      have hfifo : ZCAN_IP_RXFIFO_MAX = 64 := rfl
      have hless : s₃.afterTest.afterIncHead.zcan.rxNum < s₃.required := by
        unfold LargeEnough at hsmall
        omega
      have hok := hserved.complete hwoken
      rw [ZynqCanRx.zcanCopyToUser_partial _ hless] at hok
      cases hok

/-- A waiting receiver is always served exactly when the ring has room for the
rest of its request and 65 messages more. -/
theorem wakeup_iff (start : RxState) (hwait : Waiting start) :
    (∀ labels, (∀ label ∈ labels, RxStep.ByProducer label) →
      Throughout rxStep (Served start) start labels) ↔
    LargeEnough start := by
  constructor
  · intro hserved
    by_contra hsmall
    obtain ⟨s, ⟨labels, hby, hrun⟩, hunserved⟩ :=
      unserved_of_not_largeEnough start hsmall
    exact hunserved ((hserved labels hby).last hrun)
  · intro hlarge labels hby
    have hinv : Throughout rxStep (InWait start) start labels :=
      throughout_of_stepsMeet (inWait_step hwait hlarge) (inWait_start hwait)
        (stepsMeet_of_forall hby)
    exact hinv.imp fun _ => served_of_inWait hwait

/-- A receiver asking for `n` messages of the smallest ring, nothing pushed yet. -/
def askingSmallest (n : Nat) : RxState :=
  { RxState.init smallestRing with
    zcan := { smallestRing with zcanUsrBuf := 1, zcanUsrBufNum := n } }

/-- A full batch of 256 messages never fits the smallest ring. -/
theorem askingSmallest_unserved :
    ¬ ∀ labels, (∀ label ∈ labels, RxStep.ByProducer label) →
      Throughout rxStep (Served (askingSmallest 256)) (askingSmallest 256) labels := by
  intro hserved
  obtain ⟨s, ⟨labels, hby, hrun⟩, hunserved⟩ :=
    unserved_of_not_largeEnough (askingSmallest 256) (by
      unfold LargeEnough
      decide)
  exact hunserved ((hserved labels hby).last hrun)

/-- A request for 191 messages is served, here while one message comes in. -/
theorem askingSmallest_served :
    Throughout rxStep (Served (askingSmallest 191)) (askingSmallest 191)
      [.testFull, .writeSlot ⟨0, 0, 0, 0, 0, 0⟩, .storeTail, .notify] := by
  refine (wakeup_iff (askingSmallest 191)
    ⟨by decide, by decide, by decide, rfl⟩).mpr ?_ _ ?_
  · unfold LargeEnough
    decide
  · simp [RxStep.ByProducer]

end ApolloContrib.Can
