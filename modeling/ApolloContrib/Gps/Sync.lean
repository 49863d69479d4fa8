import ApolloContrib.Gps.FpgaInit

namespace ApolloContrib.Gps

open ApolloContrib.Library

/-! The synchronisation of the system time with the GPS time, and its high water mark. -/

def USEC_PER_SEC : Nat := 1000000

/-- The device, the clock of the system, which stands still during a call, and what the
driver keeps of the synchronisations. -/
structure GpsSync where
  dev : GpsDev
  sysTime : Timespec
  zdevGpsTsFirst : Timespec
  zdevGpsTs : Timespec
  zdevGpsSmoothing : BitVec 32
  zdevGpsCnt : BitVec 32
  zdevSysDrift : BitVec 64

/-- The factors of the water marks, and the functions of the kernel. `doSettimeofday` is
its return value; the time is set if it is 0. -/
structure GpsEnv where
  highFactor : BitVec 32
  lowFactor : BitVec 32
  mktime : Mktime
  doSettimeofday : Timespec → Int

inductive GpsWarning where
  | abnormalJump
  | high (diff thresh : BitVec 32)
  | low (diff thresh : BitVec 32)
deriving DecidableEq

def Timespec.usecFrom (ts from' : Timespec) : Int :=
  (ts.tvSec - from'.tvSec) * USEC_PER_SEC + (ts.tvNsec - from'.tvNsec).tdiv NSEC_PER_USEC

/-- `diff` is further from 0 than `thresh`, all in `int`. -/
def exceedsThresh (diff thresh : BitVec 32) : Bool := thresh.slt diff || diff.slt (-thresh)

namespace GpsSync

variable (env : GpsEnv) (sync : GpsSync)

def checkMarks (diff delay : BitVec 32) : Option GpsWarning :=
  if delay.slt 0 then some .abnormalJump
  else if exceedsThresh diff (env.highFactor * delay) then
    some (.high diff (env.highFactor * delay))
  else if exceedsThresh diff (env.lowFactor * delay) then
    some (.low diff (env.lowFactor * delay))
  else none

/-- The check of a GPS time that has been read; every case of it returns 0. -/
def checkTs (ts : Timespec) : GpsSync × Option GpsWarning :=
  let diff : BitVec 32 := BitVec.ofInt 32 (sync.sysTime.usecFrom ts)
  let checked : GpsSync :=
    if sync.zdevGpsTsFirst.tvSec ≠ 0 then
      { sync with zdevSysDrift := sync.zdevSysDrift + diff.signExtend 64 }
    else sync
  (checked,
    if sync.zdevGpsSmoothing ≠ 0 then none
    else if sync.zdevGpsTs = ⟨0, 0⟩ then none
    else checkMarks env diff (BitVec.ofInt 32 (ts.tvSec - sync.zdevGpsTs.tvSec)))

/-- `none` is the return of -1. -/
def zynqGpsTsCheck : GpsSync × Option (Timespec × Option GpsWarning) :=
  let (dev, gpsVal) := sync.dev.zynqGetGpsTime
  let read : GpsSync := { sync with dev := dev }
  match gpsVal with
  | none => (read, none)
  | some gpsVal =>
      let ts := zynqGpsTimeTs env.mktime gpsVal
      let (checked, warning) := read.checkTs env ts
      (checked, some (ts, warning))

def setTime (ts : Timespec) : GpsSync :=
  { sync with
    sysTime := ts
    zdevGpsTsFirst := if sync.zdevGpsTsFirst.tvSec = 0 then ts else sync.zdevGpsTsFirst
    zdevGpsTs := ts
    zdevGpsCnt := sync.zdevGpsCnt + 1 }

def zynqDoGpsSync : GpsSync × Int × Option GpsWarning :=
  match sync.zynqGpsTsCheck env with
  | (checked, none) => (checked, -1, none)
  | (checked, some (ts, warning)) =>
      let ret := env.doSettimeofday ts
      if ret ≠ 0 then (checked, ret, warning) else (checked.setTime ts, 0, warning)

end GpsSync

/-- What an integer is when it is stored in an `int`. -/
def asInt (x : Int) : Int := x.bmod (2 ^ 32)

theorem asInt_of_lt {x : Int} (hlow : -(2 ^ 31) ≤ x) (hhigh : x < 2 ^ 31) : asInt x = x := by
  unfold asInt
  exact Int.bmod_eq_of_le (by omega) (by omega)

theorem toInt_ofInt_eq_asInt (x : Int) : (BitVec.ofInt 32 x).toInt = asInt x :=
  BitVec.toInt_ofInt x

namespace GpsSync

variable (env : GpsEnv) (sync : GpsSync) (ts : Timespec)

def gap : Int := sync.sysTime.usecFrom ts

def delay : Int := ts.tvSec - sync.zdevGpsTs.tvSec

def highThresh : Int := env.highFactor.toNat * sync.delay ts

def Exceeds : Prop := sync.highThresh env ts < |sync.gap ts|

/-- The gap is over the mark where everything is an `int`. -/
def IntExceeds : Prop :=
  0 ≤ asInt (sync.delay ts) ∧
    (asInt (sync.highThresh env ts) < asInt (sync.gap ts) ∨
      asInt (sync.gap ts) < asInt (-sync.highThresh env ts))

/-- A GPS time `ts` is read, there is no smoothing, and there has been a synchronisation
no later than it. -/
structure Checked : Prop where
  gpsVal : ∃ gpsVal, sync.dev.zynqGetGpsTime.2 = some gpsVal ∧
    zynqGpsTimeTs env.mktime gpsVal = ts
  smoothing : sync.zdevGpsSmoothing = 0
  previous : sync.zdevGpsTs ≠ ⟨0, 0⟩
  delay : 0 ≤ sync.delay ts

/-- A gap over the mark fails the synchronisation, any other sets the time, and the mark
is compared exactly. -/
structure HighMarkKept : Prop where
  kept : sync.Exceeds env ts →
    (sync.zynqDoGpsSync env).1.sysTime = sync.sysTime ∧
      (sync.zynqDoGpsSync env).1.zdevGpsTs = sync.zdevGpsTs ∧
      (sync.zynqDoGpsSync env).1.zdevGpsCnt = sync.zdevGpsCnt
  set : ¬ sync.Exceeds env ts → (sync.zynqDoGpsSync env).1.sysTime = ts
  exact : (∃ diff thresh, (sync.zynqDoGpsSync env).2.2 = some (.high diff thresh)) ↔
    sync.Exceeds env ts

/-- The comparison does not overflow, and the time can be set just when it should be. -/
structure MarkFits : Prop where
  compare : sync.IntExceeds env ts ↔ sync.Exceeds env ts
  time : sync.Exceeds env ts ∧ env.doSettimeofday ts ≠ 0 ∨
    ¬ sync.Exceeds env ts ∧ (env.doSettimeofday ts = 0 ∨ sync.sysTime = ts)

end GpsSync

section Mark

variable {env : GpsEnv} {sync : GpsSync} {ts : Timespec}

theorem slt_ofInt (x y : Int) :
    (BitVec.ofInt 32 x).slt (BitVec.ofInt 32 y) = true ↔ asInt x < asInt y := by
  rw [BitVec.slt_iff_toInt_lt, toInt_ofInt_eq_asInt, toInt_ofInt_eq_asInt]

theorem factor_mul_ofInt (factor : BitVec 32) (x : Int) :
    factor * BitVec.ofInt 32 x = BitVec.ofInt 32 (factor.toNat * x) := by
  rw [BitVec.ofInt_mul, BitVec.ofInt_natCast, BitVec.ofNat_toNat, BitVec.setWidth_eq]

theorem exceedsThresh_ofInt (diff thresh : Int) :
    exceedsThresh (BitVec.ofInt 32 diff) (BitVec.ofInt 32 thresh) = true ↔
      asInt thresh < asInt diff ∨ asInt diff < asInt (-thresh) := by
  rw [exceedsThresh, Bool.or_eq_true, ← BitVec.ofInt_neg, slt_ofInt, slt_ofInt]

theorem checkMarks_high_iff (diff delay : Int) :
    (∃ d t, GpsSync.checkMarks env (BitVec.ofInt 32 diff) (BitVec.ofInt 32 delay) =
        some (.high d t)) ↔
      0 ≤ asInt delay ∧ (asInt (env.highFactor.toNat * delay) < asInt diff ∨
        asInt diff < asInt (-(env.highFactor.toNat * delay))) := by
  have hslt : (BitVec.ofInt 32 delay).slt 0 = true ↔ asInt delay < 0 := slt_ofInt delay 0
  have hhigh := exceedsThresh_ofInt diff (env.highFactor.toNat * delay)
  rw [← factor_mul_ofInt] at hhigh
  unfold GpsSync.checkMarks
  rw [← hhigh, ← not_lt, ← hslt]
  split
  next hneg =>
    constructor
    · rintro ⟨d, t, hjump⟩
      cases hjump
    · rintro ⟨hpos, -⟩
      exact absurd hneg hpos
  next hpos =>
    split
    next hover => exact ⟨fun _ => ⟨hpos, hover⟩, fun _ => ⟨_, _, rfl⟩⟩
    next hwithin =>
      constructor
      · rintro ⟨d, t, hlow⟩
        split at hlow <;> cases hlow
      · rintro ⟨-, hover⟩
        exact absurd hover hwithin

namespace GpsSync

theorem checkTs_same (env : GpsEnv) (sync : GpsSync) (ts : Timespec) :
    (sync.checkTs env ts).1.sysTime = sync.sysTime ∧
      (sync.checkTs env ts).1.zdevGpsTs = sync.zdevGpsTs ∧
      (sync.checkTs env ts).1.zdevGpsCnt = sync.zdevGpsCnt := by
  unfold checkTs
  dsimp only
  split <;> exact ⟨rfl, rfl, rfl⟩

theorem zynqDoGpsSync_of_read {gpsVal : GpsVal}
    (hread : sync.dev.zynqGetGpsTime.2 = some gpsVal)
    (hts : zynqGpsTimeTs env.mktime gpsVal = ts) :
    sync.zynqDoGpsSync env =
      (let read : GpsSync := { sync with dev := sync.dev.zynqGetGpsTime.1 }
      if env.doSettimeofday ts ≠ 0 then
        ((read.checkTs env ts).1, env.doSettimeofday ts, (read.checkTs env ts).2)
      else ((read.checkTs env ts).1.setTime ts, 0, (read.checkTs env ts).2)) := by
  unfold zynqDoGpsSync zynqGpsTsCheck
  rw [← hts]
  generalize hget : sync.dev.zynqGetGpsTime = get at hread ⊢
  obtain ⟨dev, val⟩ := get
  obtain rfl := hread
  rfl

theorem warning_eq (hchecked : sync.Checked env ts) :
    (sync.zynqDoGpsSync env).2.2 = checkMarks env (BitVec.ofInt 32 (sync.gap ts))
      (BitVec.ofInt 32 (sync.delay ts)) := by
  obtain ⟨⟨gpsVal, hread, hts⟩, hsmooth, hprevious, -⟩ := hchecked
  rw [zynqDoGpsSync_of_read hread hts]
  dsimp only
  unfold checkTs
  dsimp only
  rw [if_neg (not_not.mpr hsmooth), if_neg hprevious]
  split <;> rfl

theorem exact_iff (hchecked : sync.Checked env ts) :
    (∃ diff thresh, (sync.zynqDoGpsSync env).2.2 = some (.high diff thresh)) ↔
      sync.IntExceeds env ts := by
  rw [warning_eq hchecked]
  exact checkMarks_high_iff (sync.gap ts) (sync.delay ts)

theorem synced (hchecked : sync.Checked env ts) (hset : env.doSettimeofday ts = 0) :
    (sync.zynqDoGpsSync env).1.sysTime = ts ∧
      (sync.zynqDoGpsSync env).1.zdevGpsCnt = sync.zdevGpsCnt + 1 := by
  obtain ⟨⟨gpsVal, hread, hts⟩, -, -, -⟩ := hchecked
  rw [zynqDoGpsSync_of_read hread hts]
  dsimp only
  rw [if_neg (not_not.mpr hset)]
  obtain ⟨-, -, hcnt⟩ := checkTs_same env { sync with dev := sync.dev.zynqGetGpsTime.1 } ts
  exact ⟨rfl, congrArg (· + 1) hcnt⟩

theorem not_synced (hchecked : sync.Checked env ts) (hset : env.doSettimeofday ts ≠ 0) :
    (sync.zynqDoGpsSync env).1.sysTime = sync.sysTime ∧
      (sync.zynqDoGpsSync env).1.zdevGpsTs = sync.zdevGpsTs ∧
      (sync.zynqDoGpsSync env).1.zdevGpsCnt = sync.zdevGpsCnt := by
  obtain ⟨⟨gpsVal, hread, hts⟩, -, -, -⟩ := hchecked
  rw [zynqDoGpsSync_of_read hread hts]
  dsimp only
  rw [if_pos hset]
  exact checkTs_same env { sync with dev := sync.dev.zynqGetGpsTime.1 } ts

end GpsSync

end Mark

/-- The high water mark is kept just when the gap compares as it should and the kernel
refuses the time exactly when the gap is over the mark. -/
theorem highMarkKept_iff (env : GpsEnv) (sync : GpsSync) (ts : Timespec)
    (hchecked : sync.Checked env ts) :
    sync.HighMarkKept env ts ↔ sync.MarkFits env ts := by
  have hexact := GpsSync.exact_iff hchecked
  constructor
  · rintro ⟨hkept, hset, hcompare⟩
    refine ⟨hexact.symm.trans hcompare, ?_⟩
    by_cases hover : sync.Exceeds env ts
    · refine .inl ⟨hover, fun hzero => ?_⟩
      -- a time that is set is counted
      obtain ⟨-, -, hcnt⟩ := hkept hover
      rw [(GpsSync.synced hchecked hzero).2] at hcnt
      exact absurd hcnt (by simp)
    · refine .inr ⟨hover, ?_⟩
      by_cases hzero : env.doSettimeofday ts = 0
      · exact .inl hzero
      · exact .inr ((GpsSync.not_synced hchecked hzero).1.symm.trans (hset hover))
  · rintro ⟨hcompare, ⟨hover, hrefused⟩ | ⟨hwithin, htime⟩⟩
    · exact ⟨fun _ => GpsSync.not_synced hchecked hrefused, fun hwithin => absurd hover hwithin,
        hexact.trans hcompare⟩
    · refine ⟨fun hover => absurd hover hwithin, fun _ => ?_, hexact.trans hcompare⟩
      by_cases hzero : env.doSettimeofday ts = 0
      · exact (GpsSync.synced hchecked hzero).1
      · exact (GpsSync.not_synced hchecked hzero).1.trans (htime.resolve_left hzero)

theorem intExceeds_iff_of_lt (env : GpsEnv) (sync : GpsSync) (ts : Timespec)
    (hdelay : 0 ≤ sync.delay ts ∧ sync.delay ts < 2 ^ 31)
    (hthresh : sync.highThresh env ts < 2 ^ 31) (hgap : |sync.gap ts| < 2 ^ 31) :
    sync.IntExceeds env ts ↔ sync.Exceeds env ts := by
  have hnonneg : 0 ≤ sync.highThresh env ts :=
    Int.mul_nonneg (Int.natCast_nonneg _) hdelay.1
  obtain ⟨hlow, hhigh⟩ := abs_lt.mp hgap
  unfold GpsSync.IntExceeds GpsSync.Exceeds
  rw [asInt_of_lt (by omega) hdelay.2, asInt_of_lt (by omega) hthresh,
    asInt_of_lt (by omega) hhigh, asInt_of_lt (by omega) (by omega), and_iff_right hdelay.1,
    lt_abs, lt_neg]

def defaultEnv : GpsEnv := ⟨100000, 100, gregorian, fun _ => 0⟩

def minuteDev : GpsDev :=
  ⟨⟨0x00000001, 0x000C0000, 0x00110912, 0, 0, 0, 0, 0⟩, false, true, true⟩

def minuteSync (sysTime : Timespec) : GpsSync where
  dev := minuteDev
  sysTime := sysTime
  zdevGpsTsFirst := ⟨1537185480, 0⟩
  zdevGpsTs := ⟨1537185540, 0⟩
  zdevGpsSmoothing := 0
  zdevGpsCnt := 2
  zdevSysDrift := 0

theorem checked_minuteSync (sysTime : Timespec) :
    (minuteSync sysTime).Checked defaultEnv ⟨1537185600, 0⟩ where
  gpsVal := by
    have hread : minuteDev.zynqGetGpsTime.2 = some ⟨0x00000001, 0x000C0000, 0x00110912⟩ := by
      decide
    exact ⟨_, hread, by decide⟩
  smoothing := rfl
  previous := show Timespec.mk 1537185540 0 ≠ ⟨0, 0⟩ by decide
  delay := show (0 : Int) ≤ 1537185600 - 1537185540 by decide

theorem highMarkKept_minuteSync :
    (minuteSync ⟨1537185600, 2000⟩).HighMarkKept defaultEnv ⟨1537185600, 0⟩ := by
  refine (highMarkKept_iff defaultEnv _ _ (checked_minuteSync _)).mpr ⟨?_, .inr ⟨?_, .inl rfl⟩⟩
  · exact intExceeds_iff_of_lt _ _ _ ⟨by decide, by decide⟩ (by decide) (by decide)
  · exact not_lt.mpr (by decide)

/-- A system time 10 seconds off is set, past a mark of 6 seconds. -/
theorem highMark_ignored :
    ¬ (minuteSync ⟨1537185610, 0⟩).HighMarkKept defaultEnv ⟨1537185600, 0⟩ := by
  intro hmark
  have hover : (minuteSync ⟨1537185610, 0⟩).Exceeds defaultEnv ⟨1537185600, 0⟩ := by
    unfold GpsSync.Exceeds
    decide
  have hkept := (hmark.kept hover).2.2
  rw [(GpsSync.synced (checked_minuteSync _) rfl).2] at hkept
  exact absurd hkept (by decide)

end ApolloContrib.Gps
