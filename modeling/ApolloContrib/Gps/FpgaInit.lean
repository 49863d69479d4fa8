import Mathlib.Data.Int.ConditionallyCompleteOrder
import ApolloContrib.Gps.Time

namespace ApolloContrib.Gps

open ApolloContrib.Library

/-! What the time that is set for the FPGA reads back as. -/

structure Tm.Valid (t : Tm) : Prop where
  sec : 0 ≤ t.tmSec ∧ t.tmSec < 60
  min : 0 ≤ t.tmMin ∧ t.tmMin < 60
  hour : 0 ≤ t.tmHour ∧ t.tmHour < 24
  mday : 1 ≤ t.tmMday ∧ t.tmMday ≤ 31
  mon : 0 ≤ t.tmMon ∧ t.tmMon < 12

/-- A date is later the larger its numbers are, also past the end of a month or a year. -/
def Mktime.Later (mktime : Mktime) : Prop :=
  ∀ {year mon day year' mon' day' : Nat} (hour min sec : Nat), 1970 ≤ year → 1 ≤ mon →
    year ≤ year' → mon ≤ mon' → day ≤ day' → (year, mon, day) ≠ (year', mon', day') →
      mktime year mon day hour min sec < mktime year' mon' day' hour min sec

/-- What is assumed of the calendar functions of the kernel at a time. -/
structure CalendarAt (time64ToTm : Int → Tm) (mktime : Mktime) (sec : Int) : Prop where
  valid : (time64ToTm sec).Valid
  inverse : mktime (1900 + (time64ToTm sec).tmYear).toNat ((time64ToTm sec).tmMon + 1).toNat
    (time64ToTm sec).tmMday.toNat (time64ToTm sec).tmHour.toNat (time64ToTm sec).tmMin.toNat
    (time64ToTm sec).tmSec.toNat = sec
  later : mktime.Later

theorem toNat_ofInt_of_lt {width : Nat} {x : Int} (hnonneg : 0 ≤ x) (hlt : x < 2 ^ width) :
    (BitVec.ofInt width x).toNat = x.toNat := by
  rw [BitVec.toNat_ofInt, Int.emod_eq_of_lt hnonneg]
  push_cast
  exact hlt

theorem bitField_setBits (width : Nat) (word : BitVec 32) {offset : Nat} (data : Int)
    (hfits : offset + width ≤ 32) :
    bitField (setBits width word offset data) offset width = BitVec.ofInt width data :=
  bitField_setBitField _ _ _ hfits

theorem bitField_setBits_of_disjoint (width : Nat) (word : BitVec 32) {offset offset' width' : Nat}
    (data : Int) (hfits : offset' + width' ≤ 32)
    (hdisjoint : offset' + width' ≤ offset ∨ offset + width ≤ offset') :
    bitField (setBits width word offset data) offset' width' = bitField word offset' width' :=
  bitField_setBitField_of_disjoint _ _ hfits hdisjoint

/-- A byte that is set in one part of an OR keeps the bits that the other parts leave. -/
theorem byte_dateInit_day (val : BitVec 32) (t : Tm) :
    bitField (dateInit val t) ZYNQ_GPS_TIME_DAY_OFFSET 8 =
      BitVec.ofInt 8 t.tmMday ||| bitField val ZYNQ_GPS_TIME_DAY_OFFSET 8 := by
  unfold dateInit
  rw [bitField_or, bitField_or, bitField_or, bitField_setBits _ _ _ (by decide),
    bitField_setBits_of_disjoint _ _ _ (by decide) (by decide),
    bitField_setBits_of_disjoint _ _ _ (by decide) (by decide),
    bitField_setBits_of_disjoint _ _ _ (by decide) (by decide), BitVec.or_assoc, BitVec.or_assoc,
    BitVec.or_self, BitVec.or_self]

theorem byte_dateInit_mon (val : BitVec 32) (t : Tm) :
    bitField (dateInit val t) ZYNQ_GPS_TIME_MON_OFFSET 8 =
      BitVec.ofInt 8 (t.tmMon + 1) ||| bitField val ZYNQ_GPS_TIME_MON_OFFSET 8 := by
  unfold dateInit
  rw [bitField_or, bitField_or, bitField_or, bitField_setBits _ _ _ (by decide),
    bitField_setBits_of_disjoint _ _ _ (by decide) (by decide),
    bitField_setBits_of_disjoint _ _ _ (by decide) (by decide),
    bitField_setBits_of_disjoint _ _ _ (by decide) (by decide), BitVec.or_assoc, BitVec.or_assoc,
    BitVec.or_self, BitVec.or_comm, BitVec.or_assoc, BitVec.or_self]

theorem byte_dateInit_year (val : BitVec 32) (t : Tm) :
    bitField (dateInit val t) ZYNQ_GPS_TIME_YEAR_OFFSET 8 =
      BitVec.ofInt 8 (t.tmYear - 100) ||| bitField val ZYNQ_GPS_TIME_YEAR_OFFSET 8 := by
  unfold dateInit
  rw [bitField_or, bitField_or, bitField_or, bitField_setBits _ _ _ (by decide),
    bitField_setBits_of_disjoint _ _ _ (by decide) (by decide),
    bitField_setBits_of_disjoint _ _ _ (by decide) (by decide),
    bitField_setBits_of_disjoint _ _ _ (by decide) (by decide), BitVec.or_self, BitVec.or_comm,
    ← BitVec.or_assoc, BitVec.or_self, BitVec.or_comm]

theorem byte_hiInit (t : Tm) :
    bitField (hiInit t) ZYNQ_GPS_TIME_SEC_OFFSET 8 = BitVec.ofInt 8 t.tmSec ∧
      bitField (hiInit t) ZYNQ_GPS_TIME_MIN_OFFSET 8 = BitVec.ofInt 8 t.tmMin ∧
      bitField (hiInit t) ZYNQ_GPS_TIME_HOUR_OFFSET 8 = BitVec.ofInt 8 t.tmHour := by
  unfold hiInit
  refine ⟨?_, ?_, ?_⟩ <;>
    rw [bitField_or, bitField_or, bitField_setBits _ _ _ (by decide),
      bitField_setBits_of_disjoint _ _ _ (by decide) (by decide),
      bitField_setBits_of_disjoint _ _ _ (by decide) (by decide)] <;>
    simp [bitField]

theorem field_loInit (tvNsec : Int) :
    bitField (loInit tvNsec) ZYNQ_GPS_TIME_NSEC_OFFSET 7 =
        BitVec.ofInt 7 ((tvNsec.tmod NSEC_PER_USEC).shiftRight 3) ∧
      bitField (loInit tvNsec) ZYNQ_GPS_TIME_USEC_OFFSET 12 =
        BitVec.ofInt 12 ((tvNsec.tdiv NSEC_PER_USEC).tmod USEC_PER_MSEC) ∧
      bitField (loInit tvNsec) ZYNQ_GPS_TIME_MSEC_OFFSET 12 =
        BitVec.ofInt 12 (tvNsec.tdiv NSEC_PER_MSEC) := by
  unfold loInit
  refine ⟨?_, ?_, ?_⟩ <;>
    rw [bitField_or, bitField_or, bitField_or, bitField_setBits _ _ _ (by decide),
      bitField_setBits_of_disjoint _ _ _ (by decide) (by decide),
      bitField_setBits_of_disjoint _ _ _ (by decide) (by decide)] <;>
    simp [bitField, ZYNQ_GPS_TIME_VALID, ZYNQ_GPS_TIME_NSEC_OFFSET, ZYNQ_GPS_TIME_USEC_OFFSET,
      ZYNQ_GPS_TIME_MSEC_OFFSET]

theorem toNat_bytes (word : BitVec 32) :
    (word &&& 0xff).toNat = (bitField word 0 8).toNat ∧
      ((word &&& 0xff00) >>> 8).toNat = (bitField word 8 8).toNat ∧
      ((word &&& 0xff0000) >>> 16).toNat = (bitField word 16 8).toNat := by
  have hlow : (0xff : BitVec 32) = (BitVec.allOnes 8).setWidth 32 := by decide
  have hmiddle : (0xff00 : BitVec 32) = (BitVec.allOnes 8).setWidth 32 <<< 8 := by decide
  have hhigh : (0xff0000 : BitVec 32) = (BitVec.allOnes 8).setWidth 32 <<< 16 := by decide
  rw [hlow, hmiddle, hhigh]
  exact ⟨toNat_ushiftRight_and word (show 0 + 8 ≤ 32 by decide),
    toNat_and_ushiftRight word (show 8 + 8 ≤ 32 by decide),
    toNat_and_ushiftRight word (show 16 + 8 ≤ 32 by decide)⟩

theorem zynqGpsTimeTs_eq (mktime : Mktime) (gpsVal : GpsVal) :
    zynqGpsTimeTs mktime gpsVal =
      ⟨mktime (2000 + (bitField gpsVal.date ZYNQ_GPS_TIME_YEAR_OFFSET 8).toNat)
          (bitField gpsVal.date ZYNQ_GPS_TIME_MON_OFFSET 8).toNat
          (bitField gpsVal.date ZYNQ_GPS_TIME_DAY_OFFSET 8).toNat
          (bitField gpsVal.hi ZYNQ_GPS_TIME_HOUR_OFFSET 8).toNat
          (bitField gpsVal.hi ZYNQ_GPS_TIME_MIN_OFFSET 8).toNat
          (bitField gpsVal.hi ZYNQ_GPS_TIME_SEC_OFFSET 8).toNat,
        (bitField gpsVal.lo ZYNQ_GPS_TIME_NSEC_OFFSET 7).toNat * 8 +
          (bitField gpsVal.lo ZYNQ_GPS_TIME_USEC_OFFSET 12).toNat * NSEC_PER_USEC +
          (bitField gpsVal.lo ZYNQ_GPS_TIME_MSEC_OFFSET 12).toNat * NSEC_PER_MSEC⟩ := by
  obtain ⟨hyear, hmon, hday⟩ := toNat_bytes gpsVal.date
  obtain ⟨hsec, hmin, hhour⟩ := toNat_bytes gpsVal.hi
  have husec : (gpsVal.lo >>> 8 &&& 0xfff).toNat = _ :=
    toNat_ushiftRight_and gpsVal.lo (show ZYNQ_GPS_TIME_USEC_OFFSET + 12 ≤ 32 by decide)
  have hmsec : (gpsVal.lo >>> 20 &&& 0xfff).toNat = _ :=
    toNat_ushiftRight_and gpsVal.lo (show ZYNQ_GPS_TIME_MSEC_OFFSET + 12 ≤ 32 by decide)
  have hnsec : (gpsVal.lo &&& 0xfe).toNat = _ :=
    toNat_and_fieldMask gpsVal.lo (show ZYNQ_GPS_TIME_NSEC_OFFSET + 7 ≤ 32 by decide)
  have hshift : ((gpsVal.lo &&& 0xfe) <<< 2).toNat =
      (bitField gpsVal.lo ZYNQ_GPS_TIME_NSEC_OFFSET 7).toNat * 8 := by
    have hlt := (bitField gpsVal.lo ZYNQ_GPS_TIME_NSEC_OFFSET 7).isLt
    rw [BitVec.toNat_shiftLeft, hnsec, Nat.shiftLeft_eq]
    unfold ZYNQ_GPS_TIME_NSEC_OFFSET at hlt ⊢
    omega
  rw [zynqGpsTimeTs, hyear, hmon, hday, hhour, hmin, hsec, husec, hmsec, hshift]
  push_cast
  rfl

def GpsRegs.readBack (regs : GpsRegs) : GpsVal where
  lo := regs.gpsTimeLoInit
  hi := regs.gpsTimeHiInit
  date := regs.gpsConfig2 &&& 0x00ffffff

structure DateCovers (val : BitVec 32) (t : Tm) : Prop where
  day : BitVec.ofInt 8 t.tmMday ||| bitField val ZYNQ_GPS_TIME_DAY_OFFSET 8 =
    BitVec.ofInt 8 t.tmMday
  mon : BitVec.ofInt 8 (t.tmMon + 1) ||| bitField val ZYNQ_GPS_TIME_MON_OFFSET 8 =
    BitVec.ofInt 8 (t.tmMon + 1)
  year : BitVec.ofInt 8 (t.tmYear - 100) ||| bitField val ZYNQ_GPS_TIME_YEAR_OFFSET 8 =
    BitVec.ofInt 8 (t.tmYear - 100)

theorem loInit_nsec {tvNsec : Int} (hnonneg : 0 ≤ tvNsec) (hlt : tvNsec < 1000000000) :
    ((bitField (loInit tvNsec) ZYNQ_GPS_TIME_NSEC_OFFSET 7).toNat * 8 +
      (bitField (loInit tvNsec) ZYNQ_GPS_TIME_USEC_OFFSET 12).toNat * NSEC_PER_USEC +
      (bitField (loInit tvNsec) ZYNQ_GPS_TIME_MSEC_OFFSET 12).toNat * NSEC_PER_MSEC : Int) =
        tvNsec / 8 * 8 := by
  obtain ⟨hnsec, husec, hmsec⟩ := field_loInit tvNsec
  obtain ⟨nsec, rfl⟩ := Int.eq_ofNat_of_zero_le hnonneg
  have htmod : ((nsec : Int).tmod NSEC_PER_USEC) = (nsec % 1000 : Nat) := rfl
  have hshift : ((nsec % 1000 : Nat) : Int).shiftRight 3 = (nsec % 1000 / 8 : Nat) :=
    congrArg Nat.cast (Nat.shiftRight_eq_div_pow (nsec % 1000) 3)
  have husec' : ((nsec : Int).tdiv NSEC_PER_USEC).tmod USEC_PER_MSEC =
      (nsec / 1000 % 1000 : Nat) := rfl
  have hmsec' : (nsec : Int).tdiv NSEC_PER_MSEC = (nsec / 1000000 : Nat) := rfl
  rw [hnsec, husec, hmsec, htmod, hshift, husec', hmsec',
    toNat_ofInt_of_lt (Int.natCast_nonneg _) (by omega),
    toNat_ofInt_of_lt (Int.natCast_nonneg _) (by omega),
    toNat_ofInt_of_lt (Int.natCast_nonneg _) (by omega)]
  unfold NSEC_PER_USEC NSEC_PER_MSEC
  omega

section RoundTrip

variable {time64ToTm : Int → Tm} {mktime : Mktime} {dev dev' : GpsDev} {ts : Timespec}

theorem regs_zynqGetGpsTime (dev : GpsDev) : dev.zynqGetGpsTime.1.regs = dev.regs := by
  have hcheck : dev.checkValidOnce.regs = dev.regs := by
    unfold GpsDev.checkValidOnce
    split
    · split <;> rfl
    · rfl
  unfold GpsDev.zynqGetGpsTime
  dsimp only
  split
  · rfl
  · split
    · split <;> exact hcheck
    · rfl

theorem zynqGpsInitFpgaTime_regs
    (hinit : zynqGpsInitFpgaTime time64ToTm dev ts = (dev', 0)) :
    dev'.regs.gpsConfig2 = dateInit dev.regs.gpsConfig2 (time64ToTm ts.tvSec) ∧
      dev'.regs.gpsTimeHiInit = hiInit (time64ToTm ts.tvSec) ∧
      dev'.regs.gpsTimeLoInit = loInit ts.tvNsec := by
  unfold zynqGpsInitFpgaTime at hinit
  dsimp only at hinit
  split at hinit
  · cases hinit
  · split at hinit
    · cases hinit
    · obtain rfl := congrArg Prod.fst hinit
      rw [regs_zynqGetGpsTime]
      exact ⟨rfl, rfl, rfl⟩

theorem toNat_covered (old : BitVec 8) {x : Int} (hnonneg : 0 ≤ x) (hlt : x < 256) :
    x.toNat ≤ (BitVec.ofInt 8 x ||| old).toNat ∧
      (BitVec.ofInt 8 x ||| old = BitVec.ofInt 8 x ↔
        x.toNat = (BitVec.ofInt 8 x ||| old).toNat) := by
  have hvalue : (BitVec.ofInt 8 x).toNat = x.toNat := toNat_ofInt_of_lt hnonneg hlt
  rw [← BitVec.toNat_inj, hvalue, BitVec.toNat_or, hvalue]
  exact ⟨Nat.left_le_or, eq_comm⟩

/-- The time reads back exactly when the old date leaves no bits. -/
theorem zynqGpsInitFpgaTime_roundTrip_iff (hcal : CalendarAt time64ToTm mktime ts.tvSec)
    (hyear : 100 ≤ (time64ToTm ts.tvSec).tmYear ∧ (time64ToTm ts.tvSec).tmYear ≤ 355)
    (hnsec : 0 ≤ ts.tvNsec ∧ ts.tvNsec < 1000000000)
    (hinit : zynqGpsInitFpgaTime time64ToTm dev ts = (dev', 0)) :
    zynqGpsTimeTs mktime dev'.regs.readBack = ⟨ts.tvSec, ts.tvNsec / 8 * 8⟩ ↔
      DateCovers dev.regs.gpsConfig2 (time64ToTm ts.tvSec) := by
  obtain ⟨hdate, hhi, hlo⟩ := zynqGpsInitFpgaTime_regs hinit
  obtain ⟨⟨hsec, hmin, hhour, hmday, hmon⟩, hinverse, hlater⟩ := hcal
  generalize time64ToTm ts.tvSec = t at *
  obtain ⟨hbsec, hbmin, hbhour⟩ := byte_hiInit t
  have hmask (offset : Nat) (hfull : bitField (0x00ffffff : BitVec 32) offset 8 =
      BitVec.allOnes 8) : bitField dev'.regs.readBack.date offset 8 =
        bitField (dateInit dev.regs.gpsConfig2 t) offset 8 := by
    rw [GpsRegs.readBack, hdate, bitField_and, hfull, BitVec.and_allOnes]
  obtain ⟨hday, hdayEq⟩ := toNat_covered
    (bitField dev.regs.gpsConfig2 ZYNQ_GPS_TIME_DAY_OFFSET 8)
    (show 0 ≤ t.tmMday by omega) (by omega)
  obtain ⟨hmonth, hmonthEq⟩ := toNat_covered
    (bitField dev.regs.gpsConfig2 ZYNQ_GPS_TIME_MON_OFFSET 8)
    (show 0 ≤ t.tmMon + 1 by omega) (by omega)
  obtain ⟨hyears, hyearsEq⟩ := toNat_covered
    (bitField dev.regs.gpsConfig2 ZYNQ_GPS_TIME_YEAR_OFFSET 8)
    (show 0 ≤ t.tmYear - 100 by omega) (by omega)
  have hread : zynqGpsTimeTs mktime dev'.regs.readBack =
      ⟨mktime (2000 + (BitVec.ofInt 8 (t.tmYear - 100) |||
            bitField dev.regs.gpsConfig2 ZYNQ_GPS_TIME_YEAR_OFFSET 8).toNat)
          (BitVec.ofInt 8 (t.tmMon + 1) |||
            bitField dev.regs.gpsConfig2 ZYNQ_GPS_TIME_MON_OFFSET 8).toNat
          (BitVec.ofInt 8 t.tmMday |||
            bitField dev.regs.gpsConfig2 ZYNQ_GPS_TIME_DAY_OFFSET 8).toNat
          t.tmHour.toNat t.tmMin.toNat t.tmSec.toNat, ts.tvNsec / 8 * 8⟩ := by
    rw [zynqGpsTimeTs_eq, hmask _ (by decide), hmask _ (by decide), hmask _ (by decide),
      byte_dateInit_day, byte_dateInit_mon, byte_dateInit_year, GpsRegs.readBack, hhi, hlo,
      hbsec, hbmin, hbhour, loInit_nsec hnsec.1 hnsec.2,
      toNat_ofInt_of_lt hsec.1 (by omega), toNat_ofInt_of_lt hmin.1 (by omega),
      toNat_ofInt_of_lt hhour.1 (by omega)]
  have hbase : (1900 + t.tmYear).toNat = 2000 + (t.tmYear - 100).toNat := by omega
  rw [hread, Timespec.mk.injEq, and_iff_left rfl]
  rw [hbase] at hinverse
  constructor
  · intro hsame
    by_contra hstale
    have hdates : (2000 + (t.tmYear - 100).toNat, (t.tmMon + 1).toNat, t.tmMday.toNat) ≠
        (2000 + (BitVec.ofInt 8 (t.tmYear - 100) |||
            bitField dev.regs.gpsConfig2 ZYNQ_GPS_TIME_YEAR_OFFSET 8).toNat,
          (BitVec.ofInt 8 (t.tmMon + 1) |||
            bitField dev.regs.gpsConfig2 ZYNQ_GPS_TIME_MON_OFFSET 8).toNat,
          (BitVec.ofInt 8 t.tmMday |||
            bitField dev.regs.gpsConfig2 ZYNQ_GPS_TIME_DAY_OFFSET 8).toNat) := by
      intro heq
      rw [Prod.mk.injEq, Prod.mk.injEq] at heq
      obtain ⟨hy, hm, hd⟩ := heq
      exact hstale ⟨hdayEq.mpr hd, hmonthEq.mpr hm, hyearsEq.mpr (Nat.add_left_cancel hy)⟩
    have hlt := hlater t.tmHour.toNat t.tmMin.toNat t.tmSec.toNat (by omega) (by omega)
      (Nat.add_le_add_left hyears 2000) hmonth hday hdates
    omega
  · rintro ⟨hd, hm, hy⟩
    rw [← hyearsEq.mp hy, ← hmonthEq.mp hm, ← hdayEq.mp hd]
    exact hinverse

end RoundTrip

def leapDays (year : Nat) : Int := year / 4 - year / 100 + year / 400

theorem leapDays_mono : Monotone leapDays := by
  refine monotone_nat_of_le_succ fun year => ?_
  unfold leapDays
  omega

/-- The days of a date since 1970. The year begins in March. -/
def daysOf (year mon day : Nat) : Int :=
  if mon ≤ 2 then
    leapDays (year - 1) + (367 * (mon + 10) / 12 : Nat) + day + (year - 1 : Nat) * 365 - 719499
  else leapDays year + (367 * (mon - 2) / 12 : Nat) + day + year * 365 - 719499

def gregorian : Mktime := fun year mon day hour min sec =>
  ((daysOf year mon day * 24 + hour) * 60 + min) * 60 + sec

theorem gregorian_later : gregorian.Later := by
  intro year mon day year' mon' day' hour min sec hyear hmon hyears hmons hdays hne
  have hleap := leapDays_mono hyears
  have hleap' := leapDays_mono (Nat.sub_le_sub_right hyears 1)
  have hnext := leapDays_mono (show year - 1 ≤ year' by omega)
  have hlt : daysOf year mon day < daysOf year' mon' day' := by
    rw [Ne, Prod.mk.injEq, Prod.mk.injEq] at hne
    unfold daysOf
    split <;> split <;> omega
  unfold gregorian
  omega

def noon : Tm := ⟨0, 0, 12, 17, 8, 118⟩

theorem calendarAt_noon : CalendarAt (fun _ => noon) gregorian 1537185600 where
  valid := ⟨by decide, by decide, by decide, by decide, by decide⟩
  inverse := by decide
  later := gregorian_later

def freshDev (val : BitVec 32) : GpsDev := ⟨⟨0, 0, 0, 0, 0, val, 0, 0⟩, false, true, false⟩

def noonTs : Timespec := ⟨1537185600, 123456789⟩

def noonDev (val : BitVec 32) : GpsDev :=
  (zynqGpsInitFpgaTime (fun _ => noon) (freshDev val) noonTs).1

theorem init_noonDev (val : BitVec 32) :
    zynqGpsInitFpgaTime (fun _ => noon) (freshDev val) noonTs = (noonDev val, 0) := by
  have hget : (freshDev val).zynqGetGpsTime.1 = freshDev val := by
    simp [GpsDev.zynqGetGpsTime, GpsDev.checkValidOnce, freshDev]
  have hsucceeds : (zynqGpsInitFpgaTime (fun _ => noon) (freshDev val) noonTs).2 = 0 := by
    rw [zynqGpsInitFpgaTime, if_neg (by simp [freshDev]), hget]
    rfl
  exact Prod.ext rfl hsucceeds

theorem zynqGpsInitFpgaTime_roundTrip_noon :
    zynqGpsTimeTs gregorian (noonDev 0).regs.readBack = ⟨1537185600, 123456784⟩ :=
  (zynqGpsInitFpgaTime_roundTrip_iff calendarAt_noon ⟨by decide, by decide⟩
    ⟨by decide, by decide⟩ (init_noonDev 0)).mpr ⟨by decide, by decide, by decide⟩

/-- Over the last day of 2017, the 17th of September 2018 reads back as day 31 of a month
13 of 2019. -/
theorem zynqGpsInitFpgaTime_keeps_old_date :
    zynqGpsTimeTs gregorian (noonDev 0x001F0C11).regs.readBack ≠ ⟨1537185600, 123456784⟩ := by
  decide

end ApolloContrib.Gps
