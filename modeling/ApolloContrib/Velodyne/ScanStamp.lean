import ApolloContrib.Velodyne.Driver

namespace ApolloContrib.Velodyne.Driver

open ApolloContrib.Ros

/-! The stamp of a scan is the middle of its capture. -/

abbrev HOUR : Nat := 3600 * 10 ^ 6

/-- A packet, and when it was captured, in microseconds since 1970. -/
structure Capture where
  time : Nat
  data : Data
  carries : micros data = time % HOUR

structure Scan where
  captures : List Capture
  first : Capture
  last : Capture
  head : captures.head? = some first
  getLast : captures.getLast? = some last
  ordered : first.time ≤ last.time
  short : last.time < first.time + 10 ^ 6

/-- What `poll` meets: the packets of the scan, and then the clock, in seconds. -/
structure Reading (scan : Scan) where
  input : List Input
  packets : input.filterMap Input.packet? = scan.captures.map (·.data)
  noEnd : .endOfFile ∉ input
  now : ℚ
  after : scan.last.time < now * 10 ^ 6
  soon : now * 10 ^ 6 < scan.last.time + 10 ^ 6

def StampRight (ros : RosTime) (scan : Scan) (reading : Reading scan) : Prop :=
  ∃ stamp, poll ros scan.captures.length reading.input reading.now = .ok stamp ∧
    ros.toNSec stamp = (scan.first.time + scan.last.time) * 1000 / 2

/-- The first packet is of the hour of the clock, and the middle is before 2038-01-19. -/
def InOneHour (scan : Scan) (reading : Reading scan) : Prop :=
  ((scan.first.time / HOUR : Nat) : Int) = ⌊reading.now⌋ / 3600 ∧
    (scan.first.time + scan.last.time) / (2 * 10 ^ 6) < 2 ^ 31

section Stamp

/-- The offsets of the first and of the last packet, in half microseconds. -/
def Scan.offset (scan : Scan) : Nat := scan.first.time % HOUR + scan.last.time % HOUR

theorem toInt_bind {α : Type} {x : Int} {f : Int → Except Stop α} {Q : α → Prop} :
    (∃ a, (toInt x >>= f) = .ok a ∧ Q a) ↔
      (-2 ^ 31 ≤ x ∧ x < 2 ^ 31) ∧ ∃ a, f x = .ok a ∧ Q a := by
  unfold toInt
  by_cases hx : -2 ^ 31 ≤ x ∧ x < 2 ^ 31
  · rw [if_pos hx, and_iff_right hx]
    rfl
  · rw [if_neg hx]
    exact ⟨nofun, fun h => absurd h.1 hx⟩

theorem floor_mean (offset : Nat) :
    ⌊((offset : ℚ) / 2000000)⌋ = ((offset / 2000000 : Nat) : Int) ∧
      ⌊((offset : ℚ) / 2000000 - ⌊((offset : ℚ) / 2000000)⌋) * 10 ^ 9⌋ =
        ((offset % 2000000 * 500 : Nat) : Int) := by
  have hfloor : ⌊((offset : ℚ) / 2000000)⌋ = ((offset / 2000000 : Nat) : Int) := by
    have hdiv := Rat.floor_natCast_div_natCast offset 2000000
    simpa using hdiv
  refine ⟨hfloor, ?_⟩
  have hrest : ((offset : ℚ) / 2000000 - ((offset / 2000000 : Nat) : Int)) * 10 ^ 9 =
      ((offset % 2000000 * 500 : Nat) : Int) := by
    have hmod : (offset : ℚ) = 2000000 * (offset / 2000000 : Nat) + (offset % 2000000 : Nat) := by
      exact_mod_cast (Nat.div_add_mod offset 2000000).symm
    rw [Int.cast_natCast, Int.cast_natCast, Nat.cast_mul, hmod]
    ring
  rw [hfloor, hrest, Int.floor_intCast]

variable {ros : RosTime} {scan : Scan} {reading : Reading scan}

theorem poll_eq (ros : RosTime) (reading : Reading scan) :
    poll ros scan.captures.length reading.input reading.now =
      meanStamp ros ((scan.first.time % HOUR : Nat) / 1000000)
        ((scan.last.time % HOUR : Nat) / 1000000) reading.now := by
  have hread := readPackets_eq reading.packets reading.noEnd
  rw [List.length_map] at hread
  have hfirst : (scan.captures.map (·.data))[0]? = some scan.first.data := by
    rw [List.getElem?_map, ← List.head?_eq_getElem?, scan.head]
    rfl
  have hlast : (scan.captures.map (·.data))[scan.captures.length - 1]? =
      some scan.last.data := by
    rw [List.getElem?_map, ← List.getLast?_eq_getElem?, scan.getLast]
    rfl
  rw [poll, hread]
  change (computeTimeStamp _ 0 >>= _) = _
  rw [computeTimeStamp_eq hfirst, scan.first.carries]
  change (computeTimeStamp _ _ >>= _) = _
  rw [computeTimeStamp_eq hlast, scan.last.carries]
  rfl

/-- The hour of the clock, as an `int`. -/
def Reading.hour (reading : Reading scan) : Int := (⌊reading.now⌋ / 3600).bmod (2 ^ 32)

theorem poll_iff {Q : ros.Time → Prop} :
    (∃ stamp, poll ros scan.captures.length reading.input reading.now = .ok stamp ∧ Q stamp) ↔
      (-2 ^ 31 ≤ reading.hour * 3600 ∧ reading.hour * 3600 < 2 ^ 31) ∧
      (-2 ^ 31 ≤ reading.hour * 3600 + (scan.offset / 2000000 : Nat) ∧
        reading.hour * 3600 + (scan.offset / 2000000 : Nat) < 2 ^ 31) ∧
      Q (ros.make (BitVec.ofInt 32 (reading.hour * 3600 + (scan.offset / 2000000 : Nat)))
        (BitVec.ofInt 32 (scan.offset % 2000000 * 500 : Nat))) := by
  have hmean : (((scan.first.time % HOUR : Nat) : ℚ) / 1000000 +
      (scan.last.time % HOUR : Nat) / 1000000) / 2 = (scan.offset : ℚ) / 2000000 := by
    rw [Scan.offset]
    push_cast
    ring
  obtain ⟨hfloor, hrest⟩ := floor_mean scan.offset
  have hnano : -2 ^ 31 ≤ ((scan.offset % 2000000 * 500 : Nat) : Int) ∧
      ((scan.offset % 2000000 * 500 : Nat) : Int) < 2 ^ 31 := by omega
  rw [poll_eq, meanStamp, hmean, hrest, hfloor, toInt_bind]
  refine and_congr Iff.rfl ?_
  rw [toInt_bind]
  refine and_congr Iff.rfl ?_
  rw [toInt_bind, and_iff_right hnano]
  exact ⟨fun ⟨_, hstamp, hQ⟩ => Except.ok.inj hstamp ▸ hQ, fun hQ => ⟨_, rfl, hQ⟩⟩

theorem floor_now (reading : Reading scan) :
    (scan.last.time / 10 ^ 6 : Nat) ≤ ⌊reading.now⌋ ∧
      ⌊reading.now⌋ ≤ (scan.last.time / 10 ^ 6 : Nat) + 1 := by
  have hafter := reading.after
  have hsoon := reading.soon
  have hle : (⌊reading.now⌋ : ℚ) ≤ reading.now := Int.floor_le _
  have hlt : reading.now < ⌊reading.now⌋ + 1 := Int.lt_floor_add_one _
  have hlow : ((scan.last.time : Int) : ℚ) < ((⌊reading.now⌋ + 1) * 10 ^ 6 : Int) := by
    push_cast
    linarith
  have hhigh : ((⌊reading.now⌋ * 10 ^ 6 : Int) : ℚ) < (scan.last.time + 10 ^ 6 : Int) := by
    push_cast
    linarith
  have hlow := Int.cast_lt.mp hlow
  have hhigh := Int.cast_lt.mp hhigh
  omega

theorem offset_eq (scan : Scan) :
    scan.offset + HOUR * (scan.first.time / HOUR + scan.last.time / HOUR) =
      scan.first.time + scan.last.time := by
  unfold Scan.offset HOUR
  omega

/-- While the hour fits into an `int`, it is that of the clock. -/
theorem hour_eq (reading : Reading scan) (hnow : 0 ≤ ⌊reading.now⌋)
    (hless : ⌊reading.now⌋ / 3600 < 2 ^ 31) : reading.hour = ⌊reading.now⌋ / 3600 := by
  rw [Reading.hour, Int.bmod_def]
  omega

theorem toNat_gpsSeconds {seconds : Int} (h : 0 ≤ seconds) (hless : seconds < 2 ^ 31) :
    ((BitVec.ofInt 32 seconds).toNat : Int) = seconds := by
  rw [BitVec.toNat_ofInt]
  omega

theorem toNSec_make (seconds : Int) (offset : Nat) :
    ros.toNSec (ros.make (BitVec.ofInt 32 seconds)
      (BitVec.ofInt 32 (offset % 2000000 * 500 : Nat))) =
      (BitVec.ofInt 32 seconds).toNat * 10 ^ 9 + offset % 2000000 * 500 := by
  have hnano : (BitVec.ofInt 32 (offset % 2000000 * 500 : Nat)).toNat =
      offset % 2000000 * 500 := by
    rw [BitVec.toNat_ofInt]
    omega
  rw [ros.toNSec_make _ _ (by omega), hnano]

end Stamp

/-- What is published is the middle with the clock's hour for those of the two packets. -/
theorem scanStamp_iff (ros : RosTime) (scan : Scan) (reading : Reading scan) :
    StampRight ros scan reading ↔ InOneHour scan reading := by
  obtain ⟨hclock, hsoon⟩ := floor_now reading
  have hordered := scan.ordered
  have hshort := scan.short
  have hoffset := offset_eq scan
  rw [StampRight, poll_iff, InOneHour, toNSec_make]
  unfold HOUR at hoffset ⊢
  constructor
  · rintro ⟨-, hgps, hstamp⟩
    have hbits := (BitVec.ofInt 32 (reading.hour * 3600 + (scan.offset / 2000000 : Nat))).isLt
    have hmiddle : (scan.first.time + scan.last.time) / 2000000 < 2 ^ 32 := by omega
    have hhour := hour_eq reading (by omega) (by omega)
    have htoNat := toNat_gpsSeconds (by omega) hgps.2
    omega
  · rintro ⟨hhour, hmiddle⟩
    have hhour' := hour_eq reading (by omega) (by omega)
    have hgps : reading.hour * 3600 + (scan.offset / 2000000 : Nat) < 2 ^ 31 := by omega
    have htoNat := toNat_gpsSeconds (by omega) hgps
    omega

def offsetData (byte0 byte1 byte2 byte3 : BitVec 8) : Data := fun i =>
  if i = 1200 then byte0 else if i = 1201 then byte1 else if i = 1202 then byte2
  else if i = 1203 then byte3 else 0

/-- From two microseconds before an hour begins to two microseconds after. -/
def acrossHours : Scan where
  captures := [⟨1577840400 * 10 ^ 6 - 2, offsetData 0xFE 0xA3 0x93 0xD6, by decide⟩,
    ⟨1577840400 * 10 ^ 6 + 2, offsetData 2 0 0 0, by decide⟩]
  first := ⟨1577840400 * 10 ^ 6 - 2, offsetData 0xFE 0xA3 0x93 0xD6, by decide⟩
  last := ⟨1577840400 * 10 ^ 6 + 2, offsetData 2 0 0 0, by decide⟩
  head := rfl
  getLast := rfl
  ordered := by decide
  short := by decide

def acrossHoursRead : Reading acrossHours where
  input := [.full (offsetData 0xFE 0xA3 0x93 0xD6), .full (offsetData 2 0 0 0)]
  packets := rfl
  noEnd := by simp
  now := 1577840400 + 1 / 2
  after := by norm_num [acrossHours]
  soon := by norm_num [acrossHours]

/-- The stamp is half an hour late. -/
theorem scanStamp_fails : ¬ StampRight nanoseconds acrossHours acrossHoursRead := by
  have hfloor : ⌊acrossHoursRead.now⌋ = 1577840400 := by
    norm_num [acrossHoursRead, Int.floor_eq_iff]
  have hhour : acrossHoursRead.hour = 438289 := by
    rw [hour_eq _ (by omega) (by omega), hfloor]
    rfl
  rw [StampRight, poll_iff, toNSec_make, hhour]
  decide

end ApolloContrib.Velodyne.Driver
