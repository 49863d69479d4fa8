import ApolloContrib.Intr.Tasklet
import ApolloContrib.Library.Bits

namespace ApolloContrib.Intr

open ApolloContrib.Library

/-! Which events the acknowledging writes lose: those raised after the tasklet has
read the bit or begun the call, and before it clears the bit. -/

def ChanProc.bit (ch : Nat) : ChanProc → Nat
  | .tx | .rx => ch
  | .txErr | .rxErr => ch + 16

section Bits

variable {ch ch' : Nat} {p q : ChanProc} {reg : BitVec 32}

theorem ChanProc.mask_eq (p : ChanProc) (ch : Nat) : p.mask ch = 1#32 <<< p.bit ch := by
  cases p <;> rfl

theorem ChanProc.bit_lt (hch : ch < ZYNQ_CHAN_MAX) : p.bit ch < 32 := by
  unfold ZYNQ_CHAN_MAX at hch
  cases p <;> simp only [ChanProc.bit] <;> omega

theorem ChanProc.bit_inj (hch : ch < ZYNQ_CHAN_MAX) (hch' : ch' < ZYNQ_CHAN_MAX)
    (hbit : p.bit ch = q.bit ch') : ch = ch' := by
  unfold ZYNQ_CHAN_MAX at hch hch'
  cases p <;> cases q <;> simp only [ChanProc.bit] at hbit <;> omega

theorem and_mask_ne_zero_iff (hch : ch < ZYNQ_CHAN_MAX) :
    reg &&& p.mask ch ≠ 0 ↔ reg.getLsbD (p.bit ch) = true := by
  rw [p.mask_eq, and_one_shiftLeft_ne_zero_iff _ (ChanProc.bit_lt hch)]

theorem getLsbD_mask (hch : ch < ZYNQ_CHAN_MAX) (i : Nat) :
    (p.mask ch).getLsbD i = decide (i = p.bit ch) := by
  have hbit : p.bit ch < 32 := ChanProc.bit_lt hch
  rw [p.mask_eq, ← BitVec.twoPow_eq, BitVec.getLsbD_twoPow]
  simp only [hbit, decide_true, Bool.true_and, eq_comm]

theorem getLsbD_ack_chan (hch : ch < ZYNQ_CHAN_MAX) (dir : IntrDir) {i : Nat}
    (hset : (Tasklet.ack dir reg (.chan ch)).getLsbD i = true) :
    ∃ p : ChanProc, p.dir = dir ∧ p.bit ch = i := by
  unfold Tasklet.ack at hset
  dsimp only at hset
  split at hset
  next => simp at hset
  next =>
    have htx := getLsbD_mask (p := .tx) hch i
    have htxErr := getLsbD_mask (p := .txErr) hch i
    cases dir with
    | tx =>
        rw [ZYNQ_INTR_CH_TX_ALL, BitVec.getLsbD_or] at hset
        rcases Bool.or_eq_true_iff.mp hset with hdata | herr
        · exact ⟨.tx, rfl, (of_decide_eq_true (htx.symm.trans hdata)).symm⟩
        · exact ⟨.txErr, rfl, (of_decide_eq_true (htxErr.symm.trans herr)).symm⟩
    | rx =>
        rw [ZYNQ_INTR_CH_RX_ALL, BitVec.getLsbD_or] at hset
        rcases Bool.or_eq_true_iff.mp hset with hdata | herr
        · exact ⟨.rx, rfl, (of_decide_eq_true (htx.symm.trans hdata)).symm⟩
        · exact ⟨.rxErr, rfl, (of_decide_eq_true (htxErr.symm.trans herr)).symm⟩

end Bits

/-- What was read of the register that is still to be written back. -/
def TaskletPc.read (dir : IntrDir) : TaskletPc → Option (BitVec 32)
  | .idle | .ackPs _ => none
  | .readRx rdIntr => match dir with
      | .tx => some rdIntr
      | .rx => none
  | .readPs rdIntr wrIntr => match dir with
      | .tx => some rdIntr
      | .rx => some wrIntr
  | .proc intr _ | .ackTx intr => some (intr.reg dir)
  | .ackRx intr => match dir with
      | .tx => none
      | .rx => some intr.wrIntr

/-- The call, if the bit asks for it, has not begun. -/
def TaskletPc.ahead (call : ProcCall) : TaskletPc → Prop
  | .idle | .readRx _ | .readPs _ _ => True
  | .proc _ calls => call ∈ calls
  | .ackTx _ | .ackRx _ | .ackPs _ => False

def Tasklet.Clears (t : Tasklet) (reg : BitVec 32) (ch : Nat) (p : ChanProc) : Prop :=
  (t.ack p.dir reg).getLsbD (p.bit ch) = true

/-- Every tasklet that is going to clear the bit has read it as set and has the call
ahead of it. -/
def IntrSystem.InTime (s : IntrSystem) (ch : Nat) (p : ChanProc) : Prop :=
  ∀ t reg, (s.pc t).read p.dir = some reg → t.Clears reg ch p →
    reg.getLsbD (p.bit ch) = true ∧ (s.pc t).ahead (p.call ch)

def IntrSystem.RaisedInTime (s : IntrSystem) : IntrEvent → Prop
  | .raise ch p => s.InTime ch p
  | _ => True

def IntrConfig.taskletOf (cfg : IntrConfig) (ch : Nat) : Tasklet :=
  if cfg.perChan then .chan ch else .dev

structure NoEventLost (cfg : IntrConfig) (s : IntrSystem) : Prop where
  handled : ∀ ch, ch < cfg.chanCnt → ∀ p : ChanProc, s.pc (cfg.taskletOf ch) = .idle →
    s.status p.dir &&& p.mask ch = 0 → s.handled ch p = s.raised ch p
  onlyRead : s.clearedUnread = false

structure IntrInv (cfg : IntrConfig) (s : IntrSystem) : Prop where
  runs : ∀ t, (∃ dir reg, (s.pc t).read dir = some reg) → cfg.runs t
  handled_le : ∀ ch p, s.handled ch p ≤ s.raised ch p
  pending : ∀ ch, ch < cfg.chanCnt → ∀ p, s.handled ch p < s.raised ch p →
    (s.status p.dir).getLsbD (p.bit ch) = true ∧ s.InTime ch p
  seen : ∀ ch, ch < cfg.chanCnt → ∀ p : ChanProc,
    (s.status p.dir).getLsbD (p.bit ch) = true →
      ∀ t reg, (s.pc t).read p.dir = some reg → t.Clears reg ch p →
        reg.getLsbD (p.bit ch) = true
  onlyRead : s.clearedUnread = false

section Inv

variable {cfg : IntrConfig} {s next : IntrSystem} {ch : Nat} {p : ChanProc}

theorem IntrConfig.lt_max (cfg : IntrConfig) (hch : ch < cfg.chanCnt) : ch < ZYNQ_CHAN_MAX :=
  hch.trans_le cfg.chanCnt_le

theorem intrInv_init : IntrInv cfg IntrSystem.init where
  runs := by
    rintro t ⟨dir, reg, hread⟩
    cases hread
  handled_le := fun _ _ => le_rfl
  pending := fun _ _ _ hless => absurd hless (Nat.lt_irrefl 0)
  seen := fun _ _ _ hset => by simp [IntrSystem.init] at hset
  onlyRead := rfl

theorem IntrInv.noEventLost (hinv : IntrInv cfg s) : NoEventLost cfg s := by
  refine ⟨fun ch hch p _ hclear => ?_, hinv.onlyRead⟩
  rcases (hinv.handled_le ch p).lt_or_eq with hless | heq
  · have hset := (and_mask_ne_zero_iff (cfg.lt_max hch)).mpr (hinv.pending ch hch p hless).1
    exact absurd hclear hset
  · exact heq

theorem ChanProc.eq_of_bit {ch' : Nat} {q : ChanProc} (hch : ch < ZYNQ_CHAN_MAX)
    (hch' : ch' < ZYNQ_CHAN_MAX) (hdir : p.dir = q.dir) (hbit : p.bit ch = q.bit ch') :
    ch = ch' ∧ p = q := by
  have hsame := ChanProc.bit_inj hch hch' hbit
  refine ⟨hsame, ?_⟩
  subst hsame
  cases p <;> cases q <;> simp_all [ChanProc.dir, ChanProc.bit]

theorem IntrSystem.getLsbD_raise {ch' : Nat} {q : ChanProc} (hch : ch < ZYNQ_CHAN_MAX)
    (hch' : ch' < ZYNQ_CHAN_MAX) :
    ((s.raise ch p).status q.dir).getLsbD (q.bit ch') = true ↔
      (s.status q.dir).getLsbD (q.bit ch') = true ∨ ch' = ch ∧ q = p := by
  unfold IntrSystem.raise
  dsimp only
  by_cases hdir : q.dir = p.dir
  · rw [hdir, Function.update_self, BitVec.getLsbD_or, Bool.or_eq_true, getLsbD_mask hch,
      decide_eq_true_iff]
    refine or_congr_right ⟨ChanProc.eq_of_bit hch' hch hdir, ?_⟩
    rintro ⟨rfl, rfl⟩
    rfl
  · rw [Function.update_of_ne hdir]
    refine (or_iff_left ?_).symm
    rintro ⟨_, rfl⟩
    exact hdir rfl

theorem IntrSystem.raised_raise (ch' : Nat) (q : ChanProc) (hother : ¬ (ch' = ch ∧ q = p)) :
    (s.raise ch p).raised ch' q = s.raised ch' q := by
  unfold IntrSystem.raise
  dsimp only
  by_cases hch : ch' = ch
  · subst hch
    have hq : q ≠ p := fun heq => hother ⟨rfl, heq⟩
    rw [Function.update_self, Function.update_of_ne hq]
  · rw [Function.update_of_ne hch]

theorem IntrSystem.raised_le_raise (ch' : Nat) (q : ChanProc) :
    s.raised ch' q ≤ (s.raise ch p).raised ch' q := by
  by_cases hsame : ch' = ch ∧ q = p
  · obtain ⟨rfl, rfl⟩ := hsame
    simp [IntrSystem.raise]
  · rw [IntrSystem.raised_raise ch' q hsame]

theorem IntrInv.raise (hinv : IntrInv cfg s) (hch : ch < cfg.chanCnt)
    (hintime : s.InTime ch p) : IntrInv cfg (s.raise ch p) where
  runs := hinv.runs
  handled_le := fun ch' q => (hinv.handled_le ch' q).trans (IntrSystem.raised_le_raise ch' q)
  pending := by
    intro ch' hch' q hless
    rw [IntrSystem.getLsbD_raise (cfg.lt_max hch) (cfg.lt_max hch')]
    by_cases hsame : ch' = ch ∧ q = p
    · obtain ⟨rfl, rfl⟩ := hsame
      exact ⟨Or.inr ⟨rfl, rfl⟩, hintime⟩
    · rw [IntrSystem.raised_raise ch' q hsame] at hless
      obtain ⟨hset, hold⟩ := hinv.pending ch' hch' q hless
      exact ⟨Or.inl hset, hold⟩
  seen := by
    intro ch' hch' q hset t reg hread hclears
    rcases (IntrSystem.getLsbD_raise (cfg.lt_max hch) (cfg.lt_max hch')).mp hset with
      hold | ⟨rfl, rfl⟩
    · exact hinv.seen ch' hch' q hold t reg hread hclears
    · exact (hintime t reg hread hclears).1
  onlyRead := hinv.onlyRead

/-- A tasklet goes on, and what it is still to clear it has read and will handle. -/
theorem IntrInv.goto (hinv : IntrInv cfg s) {t : Tasklet} {pc : TaskletPc}
    (hruns : cfg.runs t)
    (hpending : ∀ ch, ch < cfg.chanCnt → ∀ p, s.handled ch p < s.raised ch p →
      (s.status p.dir).getLsbD (p.bit ch) = true → ∀ reg, pc.read p.dir = some reg →
        t.Clears reg ch p → pc.ahead (p.call ch))
    (hseen : ∀ ch, ch < cfg.chanCnt → ∀ p : ChanProc,
      (s.status p.dir).getLsbD (p.bit ch) = true → ∀ reg, pc.read p.dir = some reg →
        t.Clears reg ch p → reg.getLsbD (p.bit ch) = true) :
    IntrInv cfg (s.goto t pc) := by
  have hpc : ∀ other, other ≠ t → (s.goto t pc).pc other = s.pc other :=
    fun other hother => Function.update_of_ne hother _ _
  have hself : (s.goto t pc).pc t = pc := Function.update_self _ _ _
  refine ⟨?_, hinv.handled_le, ?_, ?_, hinv.onlyRead⟩
  · intro other hread
    by_cases hother : other = t
    · rw [hother]
      exact hruns
    · rw [hpc other hother] at hread
      exact hinv.runs other hread
  · intro ch hch p hless
    obtain ⟨hset, hold⟩ := hinv.pending ch hch p hless
    refine ⟨hset, fun other reg hread hclears => ?_⟩
    by_cases hother : other = t
    · subst hother
      rw [hself] at hread ⊢
      exact ⟨hseen ch hch p hset reg hread hclears,
        hpending ch hch p hless hset reg hread hclears⟩
    · rw [hpc other hother] at hread ⊢
      exact hold other reg hread hclears
  · intro ch hch p hset other reg hread hclears
    by_cases hother : other = t
    · subst hother
      rw [hself] at hread
      exact hseen ch hch p hset reg hread hclears
    · rw [hpc other hother] at hread
      exact hinv.seen ch hch p hset other reg hread hclears

theorem IntrInv.advance (hinv : IntrInv cfg s) {t : Tasklet} {pc : TaskletPc}
    (hruns : cfg.runs t)
    (hread : ∀ dir reg, pc.read dir = some reg → (s.pc t).read dir = some reg)
    (hahead : ∀ ch p, s.handled ch p < s.raised ch p → (s.pc t).ahead (p.call ch) →
      pc.ahead (p.call ch)) : IntrInv cfg (s.goto t pc) := by
  refine hinv.goto hruns ?_ ?_
  · intro ch hch p hless _ reg hreg hclears
    exact hahead ch p hless ((hinv.pending ch hch p hless).2 t reg (hread _ _ hreg) hclears).2
  · intro ch hch p hset reg hreg hclears
    exact hinv.seen ch hch p hset t reg (hread _ _ hreg) hclears

theorem IntrInv.process (hinv : IntrInv cfg s) (call : ProcCall) :
    IntrInv cfg (s.process call) := by
  have hhandled : ∀ ch p, s.handled ch p ≤ (s.process call).handled ch p := by
    intro ch p
    simp only [IntrSystem.process]
    split
    next => exact hinv.handled_le ch p
    next => exact le_rfl
  refine ⟨hinv.runs, ?_, ?_, hinv.seen, hinv.onlyRead⟩
  · intro ch p
    simp only [IntrSystem.process]
    split
    next => exact le_rfl
    next => exact hinv.handled_le ch p
  · intro ch hch p hless
    exact hinv.pending ch hch p ((hhandled ch p).trans_lt hless)

theorem IntrInv.and_not_read (hinv : IntrInv cfg s) {t : Tasklet} {dir : IntrDir}
    {reg : BitVec 32} (hread : (s.pc t).read dir = some reg) :
    s.status dir &&& t.ack dir reg &&& ~~~reg = 0 := by
  apply BitVec.eq_of_getLsbD_eq
  intro i hi
  simp only [BitVec.getLsbD_and, BitVec.getLsbD_not, hi, decide_true, Bool.true_and]
  refine (Bool.eq_false_iff.mpr fun hset => ?_).trans BitVec.getLsbD_zero.symm
  simp only [Bool.and_eq_true, Bool.not_eq_true'] at hset
  obtain ⟨⟨hstatus, hmask⟩, hunread⟩ := hset
  cases t with
  | dev => exact absurd (hmask.symm.trans hunread) (by decide)
  | chan ch =>
      have hch : ch < cfg.chanCnt := (hinv.runs _ ⟨dir, reg, hread⟩).2
      obtain ⟨p, rfl, rfl⟩ := getLsbD_ack_chan (cfg.lt_max hch) dir hmask
      have hseen := hinv.seen ch hch p hstatus _ reg hread hmask
      exact absurd (hseen.symm.trans hunread) (by decide)

theorem IntrInv.write (hinv : IntrInv cfg s) {t : Tasklet} {dir : IntrDir} {reg : BitVec 32}
    (hread : (s.pc t).read dir = some reg) (hdone : ∀ call, ¬ (s.pc t).ahead call) :
    IntrInv cfg (s.write dir (t.ack dir reg) reg) := by
  have hkeeps : ∀ (q : ChanProc) (i : Nat),
      ((s.write dir (t.ack dir reg) reg).status q.dir).getLsbD i = true →
        (s.status q.dir).getLsbD i = true := by
    intro q i hset
    simp only [IntrSystem.write] at hset
    by_cases hdir : q.dir = dir
    · rw [hdir, Function.update_self, BitVec.getLsbD_and, Bool.and_eq_true] at hset
      rw [hdir]
      exact hset.1
    · rwa [Function.update_of_ne hdir] at hset
  refine ⟨hinv.runs, hinv.handled_le, ?_, ?_, ?_⟩
  · intro ch hch p hless
    obtain ⟨hset, hintime⟩ := hinv.pending ch hch p hless
    refine ⟨?_, hintime⟩
    simp only [IntrSystem.write]
    by_cases hdir : p.dir = dir
    · subst hdir
      have hkept : (t.ack p.dir reg).getLsbD (p.bit ch) = false := by
        refine Bool.eq_false_iff.mpr fun hclears => ?_
        exact hdone _ (hintime t reg hread hclears).2
      rw [Function.update_self, BitVec.getLsbD_and, hset, BitVec.getLsbD_not, hkept]
      simp [ChanProc.bit_lt (cfg.lt_max hch)]
    · rw [Function.update_of_ne hdir]
      exact hset
  · intro ch hch p hset
    exact hinv.seen ch hch p (hkeeps p _ hset)
  · simp [IntrSystem.write, hinv.onlyRead, hinv.and_not_read hread]

theorem mem_zynqChanProc {status : ChanProc → Bool} (hstatus : status p = true) :
    p.call ch ∈ zynqChanProc ch status := by
  cases p <;> simp [zynqChanProc, ChanProc.call, hstatus]

theorem Tasklet.call_mem {t : Tasklet} {intr : IntrRead} (hruns : cfg.runs t)
    (hch : ch < cfg.chanCnt) (hset : (intr.reg p.dir).getLsbD (p.bit ch) = true)
    (hclears : t.Clears (intr.reg p.dir) ch p) : p.call ch ∈ t.calls cfg.chanCnt intr := by
  have hstatus : intr.status ch p = true :=
    decide_eq_true ((and_mask_ne_zero_iff (cfg.lt_max hch)).mpr hset)
  cases t with
  | dev =>
      refine List.mem_append_right _ (List.mem_flatMap.mpr ⟨ch, List.mem_range.mpr hch, ?_⟩)
      exact mem_zynqChanProc hstatus
  | chan own =>
      have hown := cfg.lt_max hruns.2
      obtain ⟨q, _, hbit⟩ := getLsbD_ack_chan hown p.dir hclears
      obtain rfl := ChanProc.bit_inj hown (cfg.lt_max hch) hbit
      exact List.mem_append_right _ (mem_zynqChanProc hstatus)

theorem IntrInv.afterReads (hinv : IntrInv cfg s) {t : Tasklet} (hruns : cfg.runs t)
    {intr : IntrRead}
    (hseen : ∀ ch, ch < cfg.chanCnt → ∀ p : ChanProc,
      (s.status p.dir).getLsbD (p.bit ch) = true → t.Clears (intr.reg p.dir) ch p →
        (intr.reg p.dir).getLsbD (p.bit ch) = true) :
    IntrInv cfg (s.afterReads cfg.chanCnt t intr) := by
  refine hinv.goto hruns ?_ ?_
  · intro ch hch p _ hset reg hread hclears
    obtain rfl := Option.some.inj hread
    exact Tasklet.call_mem hruns hch (hseen ch hch p hset hclears) hclears
  · intro ch hch p hset reg hread hclears
    obtain rfl := Option.some.inj hread
    exact hseen ch hch p hset hclears

theorem IntrInv.readTx (hinv : IntrInv cfg s) {t : Tasklet} (hruns : cfg.runs t) :
    IntrInv cfg (s.goto t (.readRx (s.status .tx))) := by
  refine hinv.goto hruns (fun _ _ _ _ _ _ _ _ => trivial) ?_
  intro ch hch p hset reg hreg _
  cases hdir : p.dir with
  | tx =>
      rw [hdir] at hreg hset
      obtain rfl := Option.some.inj hreg
      exact hset
  | rx =>
      rw [hdir] at hreg
      cases hreg

theorem IntrInv.seen_both (hinv : IntrInv cfg s) {t : Tasklet} {rdIntr : BitVec 32}
    (hpc : s.pc t = .readRx rdIntr) (psIntr : BitVec 32) (hch : ch < cfg.chanCnt)
    (hset : (s.status p.dir).getLsbD (p.bit ch) = true)
    (hclears : t.Clears ((IntrRead.mk rdIntr (s.status .rx) psIntr).reg p.dir) ch p) :
    ((IntrRead.mk rdIntr (s.status .rx) psIntr).reg p.dir).getLsbD (p.bit ch) = true := by
  cases hdir : p.dir with
  | tx =>
      have hread : (s.pc t).read p.dir = some rdIntr := by
        rw [hpc, hdir]
        rfl
      rw [hdir] at hclears
      exact hinv.seen ch hch p hset t rdIntr hread hclears
  | rx =>
      rw [hdir] at hset
      exact hset

theorem IntrInv.readRx (hinv : IntrInv cfg s) {t : Tasklet} {rdIntr : BitVec 32}
    (hruns : cfg.runs t) (hpc : s.pc t = .readRx rdIntr) :
    IntrInv cfg (s.goto t (.readPs rdIntr (s.status .rx))) := by
  refine hinv.goto hruns (fun _ _ _ _ _ _ _ _ => trivial) ?_
  intro ch hch p hset reg hreg hclears
  have hregister : reg = (IntrRead.mk rdIntr (s.status .rx) 0).reg p.dir := by
    cases hdir : p.dir <;> rw [hdir] at hreg <;> exact (Option.some.inj hreg).symm
  subst hregister
  exact hinv.seen_both hpc 0 hch hset hclears

theorem IntrInv.readPs (hinv : IntrInv cfg s) {t : Tasklet} {rdIntr wrIntr : BitVec 32}
    (hruns : cfg.runs t) (hpc : s.pc t = .readPs rdIntr wrIntr) (psIntr : BitVec 32) :
    IntrInv cfg (s.afterReads cfg.chanCnt t ⟨rdIntr, wrIntr, psIntr⟩) := by
  refine hinv.afterReads hruns fun ch hch p hset hclears => ?_
  refine hinv.seen ch hch p hset t _ ?_ hclears
  rw [hpc]
  cases p.dir <;> rfl

theorem IntrInv.call (hinv : IntrInv cfg s) {t : Tasklet} {intr : IntrRead} {call : ProcCall}
    {calls : List ProcCall} (hruns : cfg.runs t) (hpc : s.pc t = .proc intr (call :: calls)) :
    IntrInv cfg ((s.process call).goto t (.proc intr calls)) := by
  have hnow : (s.process call).pc t = .proc intr (call :: calls) := hpc
  refine (hinv.process call).advance hruns (fun dir reg hreg => ?_) fun ch p hless hahead => ?_
  · rw [hnow]
    exact hreg
  · have hother : p.call ch ≠ call := by
      intro heq
      simp [IntrSystem.process, heq] at hless
    rw [hnow] at hahead
    exact (List.mem_cons.mp hahead).resolve_left hother

theorem IntrInv.ack (hinv : IntrInv cfg s) {t : Tasklet} {dir : IntrDir} {reg : BitVec 32}
    {pc : TaskletPc} (hruns : cfg.runs t) (hread : (s.pc t).read dir = some reg)
    (hdone : ∀ call, ¬ (s.pc t).ahead call)
    (hnext : ∀ dir reg, pc.read dir = some reg → (s.pc t).read dir = some reg) :
    IntrInv cfg ((s.write dir (t.ack dir reg) reg).goto t pc) :=
  (hinv.write hread hdone).advance hruns hnext fun _ _ _ hahead => absurd hahead (hdone _)

theorem IntrInv.access (hinv : IntrInv cfg s) {t : Tasklet} (hruns : cfg.runs t) :
    IntrInv cfg (s.access cfg.chanCnt t) := by
  cases hpc : s.pc t with
  | idle =>
      simp only [IntrSystem.access, hpc]
      exact hinv.readTx hruns
  | readRx rdIntr =>
      simp only [IntrSystem.access, hpc]
      split
      next => exact hinv.readRx hruns hpc
      next => exact hinv.afterReads hruns fun ch hch p hset => hinv.seen_both hpc 0 hch hset
  | readPs rdIntr wrIntr =>
      simp only [IntrSystem.access, hpc]
      split
      next => exact hinv.advance hruns nofun fun _ _ _ _ => trivial
      next => exact hinv.readPs hruns hpc s.statusPs
  | proc intr calls =>
      cases calls with
      | nil =>
          simp only [IntrSystem.access, hpc]
          refine hinv.advance hruns (fun dir reg hreg => ?_) fun ch p _ hahead => ?_
          · rw [hpc]
            exact hreg
          · rw [hpc] at hahead
            cases hahead
      | cons call calls =>
          simp only [IntrSystem.access, hpc]
          exact hinv.call hruns hpc
  | ackTx intr =>
      simp only [IntrSystem.access, hpc]
      refine hinv.ack hruns (by rw [hpc]; rfl) (by rw [hpc]; exact fun _ => id) ?_
      intro dir reg hreg
      rw [hpc]
      cases dir with
      | tx => cases hreg
      | rx => exact hreg
  | ackRx intr =>
      simp only [IntrSystem.access, hpc]
      exact hinv.ack hruns (by rw [hpc]; rfl) (by rw [hpc]; exact fun _ => id) nofun
  | ackPs intr =>
      simp only [IntrSystem.access, hpc]
      have hidle : IntrInv cfg (s.goto t .idle) :=
        hinv.advance hruns nofun fun _ _ _ _ => trivial
      exact ⟨hidle.runs, hidle.handled_le, hidle.pending, hidle.seen, hidle.onlyRead⟩

theorem IntrInv.step (hinv : IntrInv cfg s) {event : IntrEvent} (hok : s.RaisedInTime event)
    (hstep : intrStep cfg s event = some next) : IntrInv cfg next := by
  cases event with
  | raise ch p =>
      simp only [intrStep] at hstep
      split at hstep
      next hch =>
        obtain rfl := Option.some.inj hstep
        exact hinv.raise hch hok
      next => cases hstep
  | raisePs bits =>
      obtain rfl := Option.some.inj hstep
      exact ⟨hinv.runs, hinv.handled_le, hinv.pending, hinv.seen, hinv.onlyRead⟩
  | tasklet t =>
      simp only [intrStep] at hstep
      split at hstep
      next hruns =>
        obtain rfl := Option.some.inj hstep
        exact hinv.access hruns
      next => cases hstep

end Inv

/-- No event is lost in a run whose events are all raised in time. -/
theorem noEventLost_of_raisedInTime (cfg : IntrConfig) (events : List IntrEvent)
    (hmeet : StepsMeet (intrStep cfg) IntrSystem.RaisedInTime IntrSystem.init events) :
    Throughout (intrStep cfg) (NoEventLost cfg) IntrSystem.init events := by
  have hall := throughout_of_stepsMeet
    (fun hinv hok hstep => IntrInv.step hinv hok hstep) intrInv_init hmeet
  exact hall.imp fun _ hinv => hinv.noEventLost

def IntrConfig.card (perChan : Bool) (chanCnt : Nat) (hle : chanCnt ≤ ZYNQ_CHAN_MAX) :
    IntrConfig :=
  ⟨chanCnt, perChan, hle⟩

theorem noEventLost_two_channels :
    Throughout (intrStep (.card false 2 (by decide))) (NoEventLost (.card false 2 (by decide)))
      IntrSystem.init
      ([.raise 0 .rx, .raise 1 .rxErr] ++ List.replicate 9 (.tasklet .dev)) := by
  refine noEventLost_of_raisedInTime _ _ (stepsMeet_cons.mpr ⟨nofun, fun next hnext => ?_⟩)
  obtain rfl := Option.some.inj hnext
  refine stepsMeet_cons.mpr ⟨nofun, fun next hnext => ?_⟩
  obtain rfl := Option.some.inj hnext
  intro before label hprefix reached _
  have hmem : label ∈ List.replicate 9 (IntrEvent.tasklet .dev) :=
    hprefix.subset (by simp)
  obtain rfl := List.eq_of_mem_replicate hmem
  trivial

/-- `zynq_tasklet` clears the bit of a message that came after the call began, and
the tasklet of channel 1 clears a bit that it never read as set, for the bit of
channel 0. -/
theorem noEventLost_fails :
    ¬ Throughout (intrStep (.card false 1 (by decide)))
        (NoEventLost (.card false 1 (by decide))) IntrSystem.init
        ([.raise 0 .rx] ++ List.replicate 4 (.tasklet .dev) ++ [.raise 0 .rx] ++
          List.replicate 4 (.tasklet .dev)) ∧
    ¬ Throughout (intrStep (.card true 2 (by decide)))
        (NoEventLost (.card true 2 (by decide))) IntrSystem.init
        ([.raise 0 .rx] ++ List.replicate 2 (.tasklet (.chan 1)) ++ [.raise 1 .rx] ++
          List.replicate 4 (.tasklet (.chan 1))) := by
  constructor
  · intro hall
    have hlast := (hall.last rfl).handled 0 (by decide) .rx rfl (by decide)
    exact absurd hlast (by decide)
  · intro hall
    have hlast := (hall.last rfl).handled 1 (by decide) .rx rfl (by decide)
    exact absurd hlast (by decide)

end ApolloContrib.Intr
