import ApolloContrib.Trigger.Timestamp

namespace ApolloContrib.Trigger

/-! Which settings of a camera give well-formed time stamps. -/

namespace Timeval

variable {tv tv' : Timeval}

def Normal (tv : Timeval) : Prop := 0 ≤ tv.tvUsec ∧ tv.tvUsec < 1000000

def total (tv : Timeval) : Int := tv.tvSec * 1000000 + tv.tvUsec

/-- The time `usec` microseconds after second `sec`. -/
def normalised (sec usec : Int) : Timeval := ⟨sec + usec / 1000000, usec % 1000000⟩

theorem eq_normalised (htv : tv.Normal) {sec usec : Int}
    (htotal : tv.total = sec * 1000000 + usec) : tv = normalised sec usec := by
  obtain ⟨tvSec, tvUsec⟩ := tv
  obtain ⟨hnonneg, hlt⟩ := htv
  dsimp only [total] at hnonneg hlt htotal
  rw [normalised, Timeval.mk.injEq]
  constructor <;> omega

theorem total_tvSub (tv : Timeval) (usec : BitVec 32) :
    (tv.tvSub usec).total = tv.total - usec.toNat := by
  unfold tvSub total USEC_PER_SEC
  split <;> dsimp only <;> omega

theorem total_tvAdd (tv : Timeval) (usec : BitVec 32) :
    (tv.tvAdd usec).total = tv.total + usec.toNat := by
  unfold tvAdd total USEC_PER_SEC
  dsimp only
  split <;> dsimp only <;> omega

theorem normal_tvSub (htv : tv.Normal) {usec : BitVec 32}
    (hborrow : usec.toNat ≤ tv.tvUsec + 1000000) : (tv.tvSub usec).Normal := by
  obtain ⟨hnonneg, hlt⟩ := htv
  unfold tvSub Normal USEC_PER_SEC
  split <;> dsimp only <;> omega

theorem tvUsec_tvSub_of_lt (htv : tv.Normal) {usec : BitVec 32}
    (hborrow : tv.tvUsec + 1000000 < usec.toNat) :
    tv.tvSub usec = ⟨tv.tvSec - 1, tv.tvUsec + 1000000 - usec.toNat⟩ := by
  obtain ⟨hnonneg, hlt⟩ := htv
  unfold tvSub USEC_PER_SEC
  dsimp only
  rw [if_pos (by omega)]
  rfl

theorem normal_tvAdd_iff (tv : Timeval) (usec : BitVec 32) :
    (tv.tvAdd usec).Normal ↔
      0 ≤ tv.tvUsec + usec.toNat ∧ tv.tvUsec + usec.toNat < 2000000 := by
  unfold tvAdd Normal USEC_PER_SEC
  dsimp only
  split <;> dsimp only <;> omega

theorem tvUsec_tvSub_lt (htv : tv.Normal) (usec : BitVec 32) :
    (tv.tvSub usec).tvUsec < 1000000 := by
  obtain ⟨hnonneg, hlt⟩ := htv
  unfold tvSub USEC_PER_SEC
  split <;> dsimp only <;> omega

theorem total_normalised (sec usec : Int) :
    (normalised sec usec).total = sec * 1000000 + usec := by
  unfold normalised total
  dsimp only
  omega

theorem tvUsec_of_normal (htv : tv.Normal) : tv.tvUsec = tv.total % 1000000 := by
  obtain ⟨hnonneg, hlt⟩ := htv
  unfold total
  omega

end Timeval

/-- A rate and its timing, as a request to enable the trigger sets them. -/
structure ZynqVideo.Rated (v : ZynqVideo) : Prop where
  pos : 1 ≤ v.fps
  le : v.fps ≤ 20
  frameInterval : v.frameInterval = 1000000 / v.fps
  frameUsecMax : v.frameUsecMax = v.frameInterval * v.fps

theorem ZynqVideo.rated_setTiming (v : ZynqVideo) {fps : BitVec 8} (hpos : 1 ≤ fps.toNat)
    (hle : fps.toNat ≤ 20) : (v.setTiming fps).Rated :=
  ⟨hpos, hle, rfl, rfl⟩

section Grid

variable {v : ZynqVideo}

namespace ZynqVideo.Rated

theorem frameUsecMax_le (hrated : v.Rated) : v.frameUsecMax ≤ 1000000 := by
  rw [hrated.frameUsecMax, hrated.frameInterval]
  exact Nat.div_mul_le_self _ _

theorem lt_frameUsecMax_add (hrated : v.Rated) : 1000000 < v.frameUsecMax + 21 := by
  have hlt : 1000000 < 1000000 / v.fps * v.fps + v.fps := Nat.lt_div_mul_add hrated.pos
  have hle := hrated.le
  rw [hrated.frameUsecMax, hrated.frameInterval]
  omega

theorem le_frameInterval (hrated : v.Rated) : 50000 ≤ v.frameInterval := by
  have hle := hrated.le
  rw [hrated.frameInterval, Nat.le_div_iff_mul_le hrated.pos]
  omega

theorem frameInterval_le (hrated : v.Rated) : v.frameInterval ≤ 1000000 := by
  rw [hrated.frameInterval]
  exact Nat.div_le_self _ _

theorem lt_frameUsecMax (hrated : v.Rated) {k r : Nat} (hk : k < v.fps)
    (hr : r < v.frameInterval) : k * v.frameInterval + r < v.frameUsecMax := by
  have hmul : (k + 1) * v.frameInterval ≤ v.fps * v.frameInterval := Nat.mul_le_mul_right _ hk
  rw [hrated.frameUsecMax, Nat.mul_comm v.frameInterval]
  rw [Nat.succ_mul] at hmul
  omega

theorem toNat_frameUsecMax_sub (hrated : v.Rated) :
    (BitVec.ofNat 32 v.frameUsecMax - 100).toNat = v.frameUsecMax - 100 := by
  have hle := hrated.frameUsecMax_le
  have hlt := hrated.lt_frameUsecMax_add
  have hmod : (BitVec.ofNat 32 v.frameUsecMax).toNat = v.frameUsecMax := by
    rw [BitVec.toNat_ofNat]
    omega
  have h100 : (100 : BitVec 32) ≤ BitVec.ofNat 32 v.frameUsecMax := by
    rw [BitVec.le_def, hmod, show (100 : BitVec 32).toNat = 100 from rfl]
    omega
  rw [BitVec.toNat_sub_of_le h100, hmod]
  rfl

end ZynqVideo.Rated

theorem roundToTrigger_pulse (hrated : v.Rated) (sec : Int) {k r : Nat} (hk : k < v.fps)
    (hr : r < v.frameInterval) :
    roundToTrigger v ⟨sec, (k * v.frameInterval + r : Nat)⟩ =
      some ⟨sec, (k * v.frameInterval : Nat)⟩ := by
  have hbig := hrated.le_frameInterval
  have hlast := hrated.lt_frameUsecMax hk (r := v.frameInterval - 1) (by omega)
  have hmod : ((k * v.frameInterval + r : Nat) : Int).tmod v.frameInterval = (r : Int) := by
    rw [← Int.ofNat_tmod, Nat.mul_add_mod_of_lt hr]
  unfold roundToTrigger
  rw [if_neg (by omega)]
  dsimp only
  rw [hmod, hrated.toNat_frameUsecMax_sub, if_neg (by push_cast; omega)]
  push_cast
  rw [Int.add_sub_cancel]

theorem roundToTrigger_last (hrated : v.Rated) (sec : Int) {usec : Nat}
    (hle : v.frameUsecMax ≤ usec) (hlt : usec < 1000000) :
    roundToTrigger v ⟨sec, usec⟩ = some ⟨sec + 1, 0⟩ := by
  have hbig := hrated.le_frameInterval
  have hnear := hrated.lt_frameUsecMax_add
  have hmod : ((usec : Nat) : Int).tmod v.frameInterval =
      ((usec - v.frameUsecMax : Nat) : Int) := by
    obtain ⟨rest, rfl⟩ := Nat.exists_eq_add_of_le hle
    rw [Nat.add_sub_cancel_left, hrated.frameUsecMax, Nat.mul_comm, ← Int.ofNat_tmod,
      Nat.mul_add_mod_of_lt (by omega)]
  unfold roundToTrigger
  rw [if_neg (by omega)]
  dsimp only
  rw [hmod, hrated.toNat_frameUsecMax_sub, if_pos (by omega)]

theorem roundToTrigger_neg (hrated : v.Rated) (sec : Int) (j : Nat) {r : Nat}
    (hr : r < v.frameInterval) :
    roundToTrigger v ⟨sec, -((j * v.frameInterval + r : Nat) : Int)⟩ =
      some ⟨sec, -((j * v.frameInterval : Nat) : Int)⟩ := by
  have hbig := hrated.le_frameInterval
  have hnear := hrated.lt_frameUsecMax_add
  have hmod : (-((j * v.frameInterval + r : Nat) : Int)).tmod v.frameInterval = -(r : Int) := by
    rw [Int.neg_tmod, ← Int.ofNat_tmod, Nat.mul_add_mod_of_lt hr]
  unfold roundToTrigger
  rw [if_neg (by omega)]
  dsimp only
  rw [hmod, hrated.toNat_frameUsecMax_sub]
  generalize j * v.frameInterval = grid
  rw [if_neg (by omega), Nat.cast_add, neg_add, sub_neg_eq_add, neg_add_cancel_right]

/-- The times of a second that a time goes to when `taken` microseconds are taken off
it: the pulses, or, when more than a second is taken off, the grid below 0. -/
def RoundsTo (v : ZynqVideo) (taken : Nat) (usec : Int) : Prop :=
  (∃ k, k < v.fps ∧ usec = (k * v.frameInterval : Nat)) ∨
    ∃ j, j * v.frameInterval ≤ taken - 1000000 ∧ usec = -((j * v.frameInterval : Nat) : Int)

theorem roundToTrigger_below (hrated : v.Rated) {tv : Timeval} (htv : tv.Normal)
    {usec : BitVec 32} (hlt : tv.tvUsec + 1000000 < usec.toNat) :
    ∃ below : Nat, tv.tvUsec + 1000000 + below = usec.toNat ∧
      roundToTrigger v (tv.tvSub usec) =
        some ⟨tv.tvSec - 1, -((below / v.frameInterval * v.frameInterval : Nat) : Int)⟩ := by
  have hbig := hrated.le_frameInterval
  obtain ⟨below, hbelow⟩ := Int.eq_ofNat_of_zero_le
    (show 0 ≤ (usec.toNat : Int) - 1000000 - tv.tvUsec by omega)
  have hgrid := Nat.div_add_mod' below v.frameInterval
  refine ⟨below, by omega, ?_⟩
  rw [Timeval.tvUsec_tvSub_of_lt htv hlt,
    show tv.tvUsec + 1000000 - usec.toNat = -(below : Int) by omega]
  nth_rewrite 1 [← hgrid]
  exact roundToTrigger_neg hrated _ _ (Nat.mod_lt _ (by omega))

theorem roundToTrigger_tvSub (hrated : v.Rated) {tv : Timeval} (htv : tv.Normal)
    (usec : BitVec 32) :
    ∃ sec rounded, roundToTrigger v (tv.tvSub usec) = some ⟨sec, rounded⟩ ∧
      RoundsTo v usec.toNat rounded := by
  have hbig := hrated.le_frameInterval
  by_cases hborrow : usec.toNat ≤ tv.tvUsec + 1000000
  · obtain ⟨hnonneg, hlt⟩ := Timeval.normal_tvSub htv hborrow
    generalize tv.tvSub usec = before at hnonneg hlt ⊢
    obtain ⟨sec, left⟩ := before
    dsimp only at hnonneg hlt
    obtain ⟨left, rfl⟩ := Int.eq_ofNat_of_zero_le hnonneg
    rcases Nat.lt_or_ge left v.frameUsecMax with hbelow | habove
    · have hpulse := Nat.div_add_mod' left v.frameInterval
      have hk : left / v.frameInterval < v.fps := by
        rw [hrated.frameUsecMax, Nat.mul_comm] at hbelow
        exact Nat.div_lt_of_lt_mul (by rwa [Nat.mul_comm])
      rw [← hpulse, roundToTrigger_pulse hrated sec hk (Nat.mod_lt _ (by omega))]
      exact ⟨sec, _, rfl, .inl ⟨_, hk, rfl⟩⟩
    · rw [roundToTrigger_last hrated sec habove (by simpa using hlt)]
      exact ⟨sec + 1, _, rfl, .inl ⟨0, hrated.pos, by rw [Nat.zero_mul]; rfl⟩⟩
  · obtain ⟨below, hbelow, hround⟩ := roundToTrigger_below hrated htv (not_le.mp hborrow)
    refine ⟨_, _, hround, .inr ⟨below / v.frameInterval, ?_, rfl⟩⟩
    have hnonneg := htv.1
    have hle := Nat.div_mul_le_self below v.frameInterval
    omega

theorem tmod_interval (usec : Int) (interval : Nat) :
    0 ≤ usec ∧ 0 ≤ usec.tmod interval ∨ usec ≤ usec.tmod interval := by
  rcases Int.le_total 0 usec with hnonneg | hneg
  · exact .inl ⟨hnonneg, Int.tmod_nonneg _ hnonneg⟩
  · obtain ⟨below, hbelow⟩ := Int.eq_ofNat_of_zero_le (Int.neg_nonneg_of_nonpos hneg)
    have hle := Nat.mod_le below interval
    obtain rfl : usec = -(below : Int) := by omega
    rw [Int.neg_tmod, ← Int.ofNat_tmod]
    exact .inr (by omega)

theorem total_roundToTrigger (hrated : v.Rated) {tv tv' : Timeval} (hlt : tv.tvUsec < 1000000)
    (hround : roundToTrigger v tv = some tv') :
    tv'.total < tv.total + v.frameInterval ∧ tv.total < tv'.total + v.frameInterval := by
  have hbig := hrated.le_frameInterval
  have hnear := hrated.lt_frameUsecMax_add
  have hpos : (0 : Int) < v.frameInterval := by omega
  have hmod := Int.tmod_lt_of_pos tv.tvUsec hpos
  have hmod' := Int.lt_tmod_of_pos tv.tvUsec hpos
  have hsign := tmod_interval tv.tvUsec v.frameInterval
  unfold roundToTrigger at hround
  rw [if_neg (by omega)] at hround
  dsimp only at hround
  rw [hrated.toNat_frameUsecMax_sub] at hround
  obtain rfl := Option.some.inj hround
  unfold Timeval.total
  split <;> dsimp only <;> omega

end Grid

/-- What is asked of the time stamps of a camera, over every time. A frame comes within an
interval after pulse `k` of second `sec` and what its first line takes. -/
structure StampsWellFormed (v : ZynqVideo) (m : CamMeta) : Prop where
  fpgaToTrigger : ∀ ext : ExtTime, ext.tv.Normal →
    ∃ tv, fpgaToTrigger v m ext = some tv ∧ tv.Normal
  fpgaToFormation : ∀ ext : ExtTime, ext.tv.Normal →
    ∃ tv, fpgaToFormation v m ext = some tv ∧ tv.Normal
  hostToTrigger : ∀ tvIntr : Timeval, tvIntr.Normal →
    ∃ tv, hostToTrigger v { m with tvIntr := tvIntr } = some tv ∧ tv.Normal
  hostToFormation : ∀ tvIntr : Timeval, tvIntr.Normal →
    ∃ tv, hostToFormation v { m with tvIntr := tvIntr } = some tv ∧ tv.Normal
  exact : ∀ (ext : ExtTime) (sec k after : Nat), ext.tv.Normal → k < v.fps →
    after < v.frameInterval →
    ext.tv.total = sec * 1000000 + k * v.frameInterval +
      (m.tFirst.toNat + m.lastTrigDelay.toNat) + after →
    Trigger.fpgaToTrigger v m ext =
      some (.normalised sec (k * v.frameInterval + m.lastTrigDelay.toNat : Nat))

def CamMeta.toMiddle (m : CamMeta) : Nat := (m.tMiddle - m.lastExpTime / 2).toNat

/-- The settings whose time stamps need one borrow and one carry. -/
structure StampsFit (v : ZynqVideo) (m : CamMeta) : Prop where
  fpga : m.tFirst.toNat + m.lastTrigDelay.toNat + v.frameUsecMax ≤ 2000000
  host : ((m.tLast + m.lastTrigDelay).toNat - 1000000) / v.frameInterval * v.frameInterval ≤
    m.lastTrigDelay.toNat
  formation : ∀ k, k < v.fps →
    (k * v.frameInterval + m.lastTrigDelay.toNat) % 1000000 + m.toMiddle < 2000000
  hostFormation : ∀ j, j * v.frameInterval ≤ (m.tLast + m.lastTrigDelay).toNat - 1000000 →
    (m.lastTrigDelay.toNat - j * v.frameInterval) % 1000000 + m.toMiddle < 2000000

section Fit

variable {v : ZynqVideo} {m : CamMeta}

theorem RoundsTo.bounds (hrated : v.Rated) {delay taken : Nat} {usec : Int}
    (hdelay : delay + v.frameUsecMax ≤ 2000000)
    (hgrid : (taken - 1000000) / v.frameInterval * v.frameInterval ≤ delay)
    (hround : RoundsTo v taken usec) : 0 ≤ usec + delay ∧ usec + delay < 2000000 := by
  have hbig := hrated.le_frameInterval
  have hnear := hrated.lt_frameUsecMax_add
  rcases hround with ⟨k, hk, rfl⟩ | ⟨j, hj, rfl⟩
  · have hlt := hrated.lt_frameUsecMax hk (r := 0) (by omega)
    omega
  · have hle : j * v.frameInterval ≤ (taken - 1000000) / v.frameInterval * v.frameInterval :=
      Nat.mul_le_mul_right _ ((Nat.le_div_iff_mul_le (by omega)).mpr hj)
    omega

theorem toTrigger_of_round {tv rounded : Timeval} {t : BitVec 32}
    (hround : roundToTrigger v (tv.tvSub (t + m.lastTrigDelay)) = some rounded) :
    toTrigger v m tv t = some (rounded.tvAdd m.lastTrigDelay) := by
  rw [toTrigger, hround]
  rfl

theorem toTrigger_normal (hrated : v.Rated) {tv : Timeval} (htv : tv.Normal) {t : BitVec 32}
    (hdelay : m.lastTrigDelay.toNat + v.frameUsecMax ≤ 2000000)
    (hgrid : ((t + m.lastTrigDelay).toNat - 1000000) / v.frameInterval * v.frameInterval ≤
      m.lastTrigDelay.toNat) :
    ∃ sec usec, RoundsTo v (t + m.lastTrigDelay).toNat usec ∧
      toTrigger v m tv t = some ((Timeval.mk sec usec).tvAdd m.lastTrigDelay) ∧
      ((Timeval.mk sec usec).tvAdd m.lastTrigDelay).Normal := by
  obtain ⟨sec, usec, hround, hrounds⟩ :=
    roundToTrigger_tvSub hrated htv (t + m.lastTrigDelay)
  refine ⟨sec, usec, hrounds, toTrigger_of_round hround, ?_⟩
  rw [Timeval.normal_tvAdd_iff]
  exact hrounds.bounds hrated hdelay hgrid

theorem tvUsec_tvAdd {tv : Timeval} {usec : BitVec 32} (hnormal : (tv.tvAdd usec).Normal) :
    (tv.tvAdd usec).tvUsec = (tv.tvUsec + usec.toNat) % 1000000 := by
  rw [Timeval.tvUsec_of_normal hnormal, Timeval.total_tvAdd]
  unfold Timeval.total
  omega

namespace StampsFit

theorem delay_le (hfit : StampsFit v m) :
    m.lastTrigDelay.toNat + v.frameUsecMax ≤ 2000000 := by
  have hle := hfit.fpga
  omega

theorem toNat_first (hfit : StampsFit v m) :
    (m.tFirst + m.lastTrigDelay).toNat = m.tFirst.toNat + m.lastTrigDelay.toNat := by
  have hle := hfit.fpga
  rw [BitVec.toNat_add, Nat.mod_eq_of_lt (by omega)]

theorem fpgaGrid (hfit : StampsFit v m) (hrated : v.Rated) :
    ((m.tFirst + m.lastTrigDelay).toNat - 1000000) / v.frameInterval = 0 := by
  have hbig := hrated.le_frameInterval
  have hnear := hrated.lt_frameUsecMax_add
  have hle := hfit.fpga
  rw [hfit.toNat_first, Nat.div_eq_of_lt (by omega)]

theorem fpgaToTrigger_normal (hfit : StampsFit v m) (hrated : v.Rated) {ext : ExtTime}
    (hext : ext.tv.Normal) :
    ∃ sec usec, RoundsTo v (m.tFirst + m.lastTrigDelay).toNat usec ∧
      fpgaToTrigger v m ext = some ((Timeval.mk sec usec).tvAdd m.lastTrigDelay) ∧
      ((Timeval.mk sec usec).tvAdd m.lastTrigDelay).Normal := by
  refine toTrigger_normal hrated hext hfit.delay_le ?_
  rw [hfit.fpgaGrid hrated, Nat.zero_mul]
  exact Nat.zero_le _

theorem formation_normal (hfit : StampsFit v m) {taken : Nat} {usec sec : Int}
    (hcover : ∀ j, j * v.frameInterval ≤ taken - 1000000 →
      j * v.frameInterval ≤ m.lastTrigDelay.toNat ∧
        (m.lastTrigDelay.toNat - j * v.frameInterval) % 1000000 + m.toMiddle < 2000000)
    (hrounds : RoundsTo v taken usec)
    (hnormal : ((Timeval.mk sec usec).tvAdd m.lastTrigDelay).Normal) :
    (((Timeval.mk sec usec).tvAdd m.lastTrigDelay).tvAdd
      (m.tMiddle - m.lastExpTime / 2)).Normal := by
  rw [Timeval.normal_tvAdd_iff, tvUsec_tvAdd hnormal]
  dsimp only
  rw [show (m.tMiddle - m.lastExpTime / 2).toNat = m.toMiddle from rfl]
  rcases hrounds with ⟨k, hk, rfl⟩ | ⟨j, hj, rfl⟩
  · have hlt := hfit.formation k hk
    omega
  · obtain ⟨hle, hlt⟩ := hcover j hj
    omega

theorem fpgaCover (hfit : StampsFit v m) (hrated : v.Rated) {j : Nat}
    (hj : j * v.frameInterval ≤ (m.tFirst + m.lastTrigDelay).toNat - 1000000) :
    j * v.frameInterval ≤ m.lastTrigDelay.toNat ∧
      (m.lastTrigDelay.toNat - j * v.frameInterval) % 1000000 + m.toMiddle < 2000000 := by
  have hbig := hrated.le_frameInterval
  have hzero : j = 0 := by
    have hdiv := (Nat.le_div_iff_mul_le (by omega)).mpr hj
    rw [hfit.fpgaGrid hrated] at hdiv
    exact Nat.le_zero.mp hdiv
  have hformation := hfit.formation 0 hrated.pos
  rw [Nat.zero_mul, Nat.zero_add] at hformation
  rw [hzero, Nat.zero_mul, Nat.sub_zero]
  exact ⟨Nat.zero_le _, hformation⟩

theorem hostCover (hfit : StampsFit v m) (hrated : v.Rated) {j : Nat}
    (hj : j * v.frameInterval ≤ (m.tLast + m.lastTrigDelay).toNat - 1000000) :
    j * v.frameInterval ≤ m.lastTrigDelay.toNat ∧
      (m.lastTrigDelay.toNat - j * v.frameInterval) % 1000000 + m.toMiddle < 2000000 := by
  have hbig := hrated.le_frameInterval
  refine ⟨le_trans ?_ hfit.host, hfit.hostFormation j hj⟩
  exact Nat.mul_le_mul_right _ ((Nat.le_div_iff_mul_le (by omega)).mpr hj)

theorem fpgaToTrigger_exact (hfit : StampsFit v m) (hrated : v.Rated) {ext : ExtTime}
    {sec k after : Nat} (hext : ext.tv.Normal) (hk : k < v.fps)
    (hafter : after < v.frameInterval)
    (htotal : ext.tv.total = sec * 1000000 + k * v.frameInterval +
      (m.tFirst.toNat + m.lastTrigDelay.toNat) + after) :
    fpgaToTrigger v m ext =
      some (.normalised sec (k * v.frameInterval + m.lastTrigDelay.toNat : Nat)) := by
  have hbig := hrated.le_frameInterval
  have hle := hfit.fpga
  have hdelay := hfit.delay_le
  have hfirst := hfit.toNat_first
  have hmax := hrated.frameUsecMax_le
  have hwithin := hrated.lt_frameUsecMax hk hafter
  have htotal' := Timeval.total_tvSub ext.tv (m.tFirst + m.lastTrigDelay)
  have hborrow : ((m.tFirst + m.lastTrigDelay).toNat : Int) ≤ ext.tv.tvUsec + 1000000 := by
    obtain ⟨hnonneg, hlt⟩ := hext
    rw [hfirst]
    unfold Timeval.total at htotal
    omega
  have hbefore : ext.tv.tvSub (m.tFirst + m.lastTrigDelay) =
      ⟨sec, (k * v.frameInterval + after : Nat)⟩ := by
    rw [Timeval.eq_normalised (Timeval.normal_tvSub hext hborrow)
      (show _ = (sec : Int) * 1000000 + (k * v.frameInterval + after : Nat) by omega)]
    rw [Timeval.normalised, Timeval.mk.injEq]
    constructor <;> omega
  have hround := roundToTrigger_pulse hrated sec hk hafter
  rw [← hbefore] at hround
  rw [fpgaToTrigger, toTrigger_of_round hround]
  have hnormal : ((Timeval.mk sec (k * v.frameInterval : Nat)).tvAdd m.lastTrigDelay).Normal := by
    rw [Timeval.normal_tvAdd_iff]
    dsimp only
    omega
  refine congrArg some (Timeval.eq_normalised hnormal ?_)
  rw [Timeval.total_tvAdd]
  unfold Timeval.total
  dsimp only
  omega

theorem wellFormed (hfit : StampsFit v m) (hrated : v.Rated) : StampsWellFormed v m where
  fpgaToTrigger ext hext := by
    obtain ⟨sec, usec, -, hstamp, hnormal⟩ := hfit.fpgaToTrigger_normal hrated hext
    exact ⟨_, hstamp, hnormal⟩
  fpgaToFormation ext hext := by
    obtain ⟨sec, usec, hrounds, hstamp, hnormal⟩ := hfit.fpgaToTrigger_normal hrated hext
    rw [fpgaToFormation, hstamp]
    exact ⟨_, rfl, hfit.formation_normal (fun j hj => hfit.fpgaCover hrated hj) hrounds hnormal⟩
  hostToTrigger tvIntr htv := by
    obtain ⟨sec, usec, -, hstamp, hnormal⟩ :=
      toTrigger_normal (m := { m with tvIntr := tvIntr }) hrated htv hfit.delay_le hfit.host
    exact ⟨_, hstamp, hnormal⟩
  hostToFormation tvIntr htv := by
    obtain ⟨sec, usec, hrounds, hstamp, hnormal⟩ :=
      toTrigger_normal (m := { m with tvIntr := tvIntr }) hrated htv hfit.delay_le hfit.host
    have hhost : hostToTrigger v { m with tvIntr := tvIntr } = _ := hstamp
    rw [hostToFormation, hhost]
    exact ⟨_, rfl, hfit.formation_normal (fun j hj => hfit.hostCover hrated hj) hrounds hnormal⟩
  exact ext sec k after hext hk hafter htotal :=
    hfit.fpgaToTrigger_exact hrated hext hk hafter htotal

end StampsFit

def extAt (usecs : Nat) : ExtTime :=
  ⟨BitVec.ofNat 32 (usecs / 1000000), BitVec.ofNat 20 (usecs % 1000000)⟩

theorem tv_extAt {usecs : Nat} (hlt : usecs < 4294967296000000) :
    (extAt usecs).tv = ⟨(usecs / 1000000 : Nat), (usecs % 1000000 : Nat)⟩ := by
  rw [ExtTime.tv, extAt, BitVec.toNat_ofNat, BitVec.toNat_ofNat, Nat.mod_eq_of_lt (by omega),
    Nat.mod_eq_of_lt (by omega)]

theorem normal_extAt {usecs : Nat} (hlt : usecs < 4294967296000000) :
    (extAt usecs).tv.Normal := by
  rw [tv_extAt hlt]
  unfold Timeval.Normal
  dsimp only
  omega

theorem total_extAt {usecs : Nat} (hlt : usecs < 4294967296000000) :
    (extAt usecs).tv.total = usecs := by
  rw [tv_extAt hlt]
  unfold Timeval.total
  dsimp only
  omega

theorem round_of_toTrigger {tv stamp : Timeval} {t : BitVec 32}
    (hstamp : toTrigger v m tv t = some stamp) :
    ∃ rounded, roundToTrigger v (tv.tvSub (t + m.lastTrigDelay)) = some rounded ∧
      rounded.tvAdd m.lastTrigDelay = stamp :=
  Option.map_eq_some_iff.mp hstamp

namespace StampsWellFormed

/-- A frame that comes `after` later than pulse `k` of second 0. -/
theorem pulse (hwell : StampsWellFormed v m) (hrated : v.Rated) {k after : Nat}
    (hk : k < v.fps) (hafter : after < v.frameInterval) :
    ∃ (ext : ExtTime) (rounded : Timeval), ext.tv.Normal ∧
      ext.tv.total = (k * v.frameInterval + after + m.tFirst.toNat + m.lastTrigDelay.toNat : Nat) ∧
      Trigger.fpgaToTrigger v m ext = some (rounded.tvAdd m.lastTrigDelay) ∧
      roundToTrigger v (ext.tv.tvSub (m.tFirst + m.lastTrigDelay)) = some rounded ∧
      rounded.tvAdd m.lastTrigDelay =
        .normalised 0 (k * v.frameInterval + m.lastTrigDelay.toNat : Nat) := by
  have hwithin := hrated.lt_frameUsecMax hk hafter
  have hmax := hrated.frameUsecMax_le
  have hfirst := m.tFirst.isLt
  have hdelay := m.lastTrigDelay.isLt
  have hlt : k * v.frameInterval + after + m.tFirst.toNat + m.lastTrigDelay.toNat <
      4294967296000000 := by omega
  have hstamp := hwell.exact (extAt _) 0 k after (normal_extAt hlt) hk hafter (by
    rw [total_extAt hlt]
    push_cast
    omega)
  obtain ⟨rounded, hround, hadd⟩ := round_of_toTrigger hstamp
  rw [← hadd] at hstamp
  exact ⟨extAt _, rounded, normal_extAt hlt, total_extAt hlt, hstamp, hround, hadd⟩

theorem toNat_first (hwell : StampsWellFormed v m) (hrated : v.Rated) :
    (m.tFirst + m.lastTrigDelay).toNat = m.tFirst.toNat + m.lastTrigDelay.toNat := by
  have hbig := hrated.le_frameInterval
  have hinterval := hrated.frameInterval_le
  obtain ⟨ext, rounded, hext, htotal, -, hround, hadd⟩ :=
    hwell.pulse hrated hrated.pos (show 0 < v.frameInterval by omega)
  have hsub := Timeval.total_tvSub ext.tv (m.tFirst + m.lastTrigDelay)
  have hnear := total_roundToTrigger hrated (Timeval.tvUsec_tvSub_lt hext _) hround
  have hrounded := Timeval.total_tvAdd rounded m.lastTrigDelay
  rw [hadd, Timeval.total_normalised] at hrounded
  rw [Nat.zero_mul] at htotal hrounded
  have hfirst := m.tFirst.isLt
  have hdelay := m.lastTrigDelay.isLt
  rw [BitVec.toNat_add] at hsub ⊢
  omega

theorem fpga (hwell : StampsWellFormed v m) (hrated : v.Rated) :
    m.tFirst.toNat + m.lastTrigDelay.toNat + v.frameUsecMax ≤ 2000000 := by
  have hbig := hrated.le_frameInterval
  have hmax := hrated.frameUsecMax_le
  have hpos := hrated.pos
  obtain ⟨ext, rounded, hext, htotal, -, hround, hadd⟩ :=
    hwell.pulse hrated (show v.fps - 1 < v.fps by omega)
      (show v.frameInterval - 1 < v.frameInterval by omega)
  have hfirst := hwell.toNat_first hrated
  have hlast : (v.fps - 1) * v.frameInterval + v.frameInterval = v.frameUsecMax := by
    rw [hrated.frameUsecMax, ← Nat.succ_mul, Nat.succ_eq_add_one, Nat.sub_add_cancel hpos,
      Nat.mul_comm]
  by_contra hover
  obtain ⟨hnonneg, hlt⟩ := hext
  have hbelow : ext.tv.tvUsec + 1000000 < (m.tFirst + m.lastTrigDelay).toNat := by
    unfold Timeval.total at htotal
    omega
  obtain ⟨below, hsum, hround'⟩ := roundToTrigger_below hrated ⟨hnonneg, hlt⟩ hbelow
  obtain rfl := Option.some.inj (hround.symm.trans hround')
  have hrounded := Timeval.total_tvAdd
    ⟨ext.tv.tvSec - 1, -((below / v.frameInterval * v.frameInterval : Nat) : Int)⟩
    m.lastTrigDelay
  rw [hadd, Timeval.total_normalised] at hrounded
  have hle := Nat.div_mul_le_self below v.frameInterval
  unfold Timeval.total at hrounded htotal
  dsimp only at hrounded
  omega

theorem hostToTrigger_below (hrated : v.Rated) {usec : Nat} (husec : usec < 1000000)
    {below : Nat} (hbelow : 0 < below)
    (hsum : usec + 1000000 + below = (m.tLast + m.lastTrigDelay).toNat) :
    Trigger.hostToTrigger v { m with tvIntr := ⟨0, usec⟩ } =
      some ((Timeval.mk (-1) (-((below / v.frameInterval * v.frameInterval : Nat) : Int))).tvAdd
        m.lastTrigDelay) := by
  have hnormal : (Timeval.mk 0 usec).Normal := by
    unfold Timeval.Normal
    dsimp only
    omega
  obtain ⟨below', hsum', hround⟩ := roundToTrigger_below hrated hnormal
    (show (usec : Int) + 1000000 < (m.tLast + m.lastTrigDelay).toNat by omega)
  obtain rfl : below' = below := by
    dsimp only at hsum'
    omega
  exact toTrigger_of_round (m := { m with tvIntr := ⟨0, usec⟩ }) hround

theorem host (hwell : StampsWellFormed v m) (hrated : v.Rated) :
    ((m.tLast + m.lastTrigDelay).toNat - 1000000) / v.frameInterval * v.frameInterval ≤
      m.lastTrigDelay.toNat := by
  rcases Nat.eq_zero_or_pos ((m.tLast + m.lastTrigDelay).toNat - 1000000) with hzero | hpos
  · rw [hzero, Nat.zero_div, Nat.zero_mul]
    exact Nat.zero_le _
  · obtain ⟨tv, hstamp, hnormal⟩ := hwell.hostToTrigger ⟨0, (0 : Nat)⟩ ⟨le_rfl, by decide⟩
    rw [hostToTrigger_below hrated (by decide) hpos (by omega)] at hstamp
    obtain rfl := Option.some.inj hstamp
    have hle := ((Timeval.normal_tvAdd_iff _ _).mp hnormal).1
    dsimp only at hle
    omega

theorem formation (hwell : StampsWellFormed v m) (hrated : v.Rated) {k : Nat}
    (hk : k < v.fps) :
    (k * v.frameInterval + m.lastTrigDelay.toNat) % 1000000 + m.toMiddle < 2000000 := by
  have hbig := hrated.le_frameInterval
  obtain ⟨ext, rounded, hext, -, hstamp, -, hadd⟩ :=
    hwell.pulse hrated hk (show 0 < v.frameInterval by omega)
  obtain ⟨tv, hformation, hnormal⟩ := hwell.fpgaToFormation ext hext
  rw [Trigger.fpgaToFormation, hstamp, hadd] at hformation
  obtain rfl := Option.some.inj hformation
  rw [Timeval.normal_tvAdd_iff] at hnormal
  have hlt := hnormal.2
  rw [Timeval.normalised] at hlt
  dsimp only at hlt
  rw [show (m.tMiddle - m.lastExpTime / 2).toNat = m.toMiddle from rfl] at hlt
  omega

theorem hostFormation (hwell : StampsWellFormed v m) (hrated : v.Rated) {j : Nat}
    (hj : j * v.frameInterval ≤ (m.tLast + m.lastTrigDelay).toNat - 1000000) :
    (m.lastTrigDelay.toNat - j * v.frameInterval) % 1000000 + m.toMiddle < 2000000 := by
  rcases Nat.eq_zero_or_pos j with rfl | hpos
  · have hzero := hwell.formation hrated hrated.pos
    rw [Nat.zero_mul, Nat.zero_add] at hzero
    rw [Nat.zero_mul, Nat.sub_zero]
    exact hzero
  · have hbig := hrated.le_frameInterval
    have hnear := hrated.lt_frameUsecMax_add
    have hfpga := hwell.fpga hrated
    have hhost := hwell.host hrated
    have hfirst : v.frameInterval ≤ j * v.frameInterval := Nat.le_mul_of_pos_left _ hpos
    have hlast := Nat.lt_div_mul_add (a := (m.tLast + m.lastTrigDelay).toNat - 1000000)
      (b := v.frameInterval) (by omega)
    obtain ⟨usec, husec⟩ : ∃ usec : Nat, usec = (m.tLast + m.lastTrigDelay).toNat - 1000000 -
      j * v.frameInterval - (v.frameInterval - 1) := ⟨_, rfl⟩
    obtain ⟨below, hsum⟩ := Nat.exists_eq_add_of_le
      (show usec + 1000000 ≤ (m.tLast + m.lastTrigDelay).toNat by omega)
    have hlt : usec < 1000000 := by omega
    have hdiv : below / v.frameInterval = j := by
      refine Nat.div_eq_of_lt_le (by omega) ?_
      rw [Nat.succ_mul]
      omega
    have hnormal : (Timeval.mk 0 usec).Normal := by
      unfold Timeval.Normal
      dsimp only
      omega
    have hstamp := hostToTrigger_below hrated hlt (m := m) (show 0 < below by omega) hsum.symm
    obtain ⟨tv, hstamp', htrigger⟩ := hwell.hostToTrigger ⟨0, usec⟩ hnormal
    obtain rfl := Option.some.inj (hstamp.symm.trans hstamp')
    obtain ⟨tv, hformation, hmiddle⟩ := hwell.hostToFormation ⟨0, usec⟩ hnormal
    rw [Trigger.hostToFormation, hstamp] at hformation
    obtain rfl := Option.some.inj hformation
    have hmiddle := ((Timeval.normal_tvAdd_iff _ _).mp hmiddle).2
    rw [tvUsec_tvAdd htrigger, hdiv] at hmiddle
    dsimp only at hmiddle
    rw [show (m.tMiddle - m.lastExpTime / 2).toNat = m.toMiddle from rfl] at hmiddle
    rw [hdiv] at htrigger
    have hle := ((Timeval.normal_tvAdd_iff _ _).mp htrigger).1
    dsimp only at hle
    omega

theorem fit (hwell : StampsWellFormed v m) (hrated : v.Rated) : StampsFit v m where
  fpga := hwell.fpga hrated
  host := hwell.host hrated
  formation _ hk := hwell.formation hrated hk
  hostFormation _ hj := hwell.hostFormation hrated hj

end StampsWellFormed

end Fit

/-- The time stamps of a camera are well formed just for the settings that fit. -/
theorem stampsWellFormed_iff (v : ZynqVideo) (m : CamMeta) (hrated : v.Rated) :
    StampsWellFormed v m ↔ StampsFit v m :=
  ⟨fun hwell => hwell.fit hrated, fun hfit => hfit.wellFormed hrated⟩

def tenFps : ZynqVideo :=
  (ZynqVideo.mk 0 0 2 2 false true true false false 0 0 0 0 0 none false).setTiming 10

def defaultCam : CamMeta := (quietCam.capsDefaults.zcamInitTimeParams).getD quietCam

theorem stampsFit_tenFps : StampsFit tenFps defaultCam where
  fpga := by decide +kernel
  host := by decide +kernel
  formation := by decide +kernel
  hostFormation j _ := by
    have hdelay : defaultCam.lastTrigDelay.toNat = 0 := by decide +kernel
    have hmiddle : defaultCam.toMiddle < 2000000 := by decide +kernel
    rw [hdelay, Nat.zero_sub, Nat.zero_mod, Nat.zero_add]
    exact hmiddle

theorem stampsWellFormed_tenFps : StampsWellFormed tenFps defaultCam :=
  (stampsWellFormed_iff tenFps defaultCam
    (ZynqVideo.rated_setTiming _ (by decide) (by decide))).mpr stampsFit_tenFps

/-- With a delay of three seconds a time keeps 1000000 microseconds. -/
theorem stamps_overflow :
    ¬ StampsWellFormed tenFps (defaultCam.zvideoTriggerDelaySet 3000000) := by
  intro hwell
  obtain ⟨tv, hstamp, hnormal⟩ := hwell.fpgaToTrigger ⟨1500000000, 999999⟩
    ⟨by decide, by decide⟩
  have hvalue : fpgaToTrigger tenFps (defaultCam.zvideoTriggerDelaySet 3000000)
      ⟨1500000000, 999999⟩ = some ⟨1500000000, 1000000⟩ := by
    decide +kernel
  obtain rfl := Option.some.inj (hvalue.symm.trans hstamp)
  exact absurd hnormal.2 (by decide)

end ApolloContrib.Trigger
