import ApolloContrib.Auth.Manager
import ApolloContrib.Library.Access
import ApolloContrib.Library.Calendar
import Mathlib.Data.List.TakeWhile
import Mathlib.Data.Nat.Digits.Lemmas

namespace ApolloContrib.Auth

open ApolloContrib.Library
open ApolloContrib.Security (Bytes)

/-! Time stamps as texts: `ToDecString`, `CurrentTime`, and back. -/

inductive Fault where
  /-- A buffer on the stack is written past its end. -/
  | overflow
deriving DecidableEq

def digitsOf : Nat → Nat → Bytes
  | 0, _ => []
  | count + 1, n => digitsOf count (n / 10) ++ [BitVec.ofNat 8 (0x30 + n % 10)]

def digitCount (n : Nat) : Nat := max 1 (Nat.digits 10 n).length

/-- `%0<width>d`. -/
def printInt (width : Nat) (input : Int) : Bytes :=
  if input < 0 then 0x2D :: digitsOf (max (width - 1) (digitCount input.natAbs)) input.natAbs
  else digitsOf (max width (digitCount input.natAbs)) input.natAbs

def sprintf (buffer : Bytes) (start : Nat) (text : Bytes) : Except Fault Bytes :=
  writeFrom Fault.overflow buffer start (text ++ [0])

/-- What an `int` is printed to with a format that was put together. -/
def printAs (format : Bytes) (input : Int) : Bytes :=
  match format.takeWhile (· ≠ 0) with
  | [0x25, 0x30, width, 0x64] => printInt (width - 0x30).toNat input
  | _ => []

/-- What is read of `format` and `tmp` has been written before. -/
def toDecString (input : Int) (size : Nat) : Except Fault Bytes := do
  let size := if size > 6 then 6 else size
  let format ← sprintf (List.replicate 5 0) 0 [0x25]
  let format ← sprintf format 1 (printInt 0 0)
  let format ← sprintf format 2 (printInt 0 size)
  let format ← sprintf format 3 [0x64]
  let format := format.set 4 0
  let tmp ← sprintf (List.replicate 6 0) 0 (printAs format input)
  return tmp.take size

/-- `localtime` and `mktime` of a zone without daylight saving. -/
structure LocalTime where
  localtime : Int → Tm
  mktime : Tm → Int
  inverse : ∀ sec, mktime (localtime sec) = sec
  mon : ∀ sec, 0 ≤ (localtime sec).mon ∧ (localtime sec).mon ≤ 11
  mday : ∀ sec, 1 ≤ (localtime sec).mday ∧ (localtime sec).mday ≤ 31
  hour : ∀ sec, 0 ≤ (localtime sec).hour ∧ (localtime sec).hour ≤ 23
  min : ∀ sec, 0 ≤ (localtime sec).min ∧ (localtime sec).min ≤ 59
  sec : ∀ sec, 0 ≤ (localtime sec).sec ∧ (localtime sec).sec ≤ 60

/-- `now` is what `gettimeofday` gives. -/
def currentTime (zone : LocalTime) (now : TimeVal) : Except Fault Bytes := do
  let ctm := zone.localtime now.sec
  let year ← toDecString (ctm.year + 1900) 4
  let mon ← toDecString (ctm.mon + 1) 2
  let mday ← toDecString ctm.mday 2
  let hour ← toDecString ctm.hour 2
  let min ← toDecString ctm.min 2
  let sec ← toDecString ctm.sec 2
  let msec ← toDecString (now.usec / 1000) 3
  return year ++ mon ++ mday ++ hour ++ min ++ sec ++ msec

structure TimeVal.Valid (t : TimeVal) : Prop where
  usec : 0 ≤ t.usec ∧ t.usec < 1000000

def TimeVal.micros (t : TimeVal) : Int := t.sec * 1000000 + t.usec

def TimeVal.truncated (t : TimeVal) : TimeVal := ⟨t.sec, t.usec / 1000 * 1000⟩

structure StampsRight (zone : LocalTime) (t u : TimeVal) (input : Int) (size : Nat) : Prop where
  parsed : t.Valid → 1000 ≤ (zone.localtime t.sec).year + 1900 →
    (zone.localtime t.sec).year + 1900 ≤ 9999 → ∃ text, currentTime zone t = .ok text ∧
      parseStringTime zone.mktime text = t.truncated
  checked : t.Valid → u.Valid → 1000 ≤ (zone.localtime t.sec).year + 1900 →
    (zone.localtime t.sec).year + 1900 ≤ 9999 → ∃ text, currentTime zone t = .ok text ∧
      (checkValidTime (parseStringTime zone.mktime text) u = true ↔ u.micros < t.truncated.micros)
  contained : 1 ≤ size → size ≤ 6 → digitCount input.natAbs ≤ size →
    Stays (toDecString input size)

section Digits

@[simp] theorem length_digitsOf (count n : Nat) : (digitsOf count n).length = count := by
  induction count generalizing n with
  | zero => rfl
  | succ count ih => rw [digitsOf, List.length_append, ih, List.length_singleton]

theorem isDigit_digit : ∀ d : Nat, d < 10 → isDigit (BitVec.ofNat 8 (0x30 + d)) = true ∧
    ((BitVec.ofNat 8 (0x30 + d)) - 0x30 : BitVec 8).toNat = d := by
  decide

theorem isDigit_digitsOf {count n : Nat} : ∀ c ∈ digitsOf count n, isDigit c = true := by
  induction count generalizing n with
  | zero => nofun
  | succ count ih =>
      rw [digitsOf]
      intro c hc
      rcases List.mem_append.mp hc with hbefore | hlast
      · exact ih c hbefore
      · obtain rfl := List.mem_singleton.mp hlast
        exact (isDigit_digit (n % 10) (Nat.mod_lt n (by decide))).1

theorem decimal_digitsOf {count n : Nat} (h : n < 10 ^ count) :
    decimal (digitsOf count n) = n := by
  induction count generalizing n with
  | zero =>
      obtain rfl : n = 0 := Nat.lt_one_iff.mp h
      rfl
  | succ count ih =>
      have hrest : n / 10 < 10 ^ count := by
        rw [Nat.pow_succ] at h
        omega
      have hdigit := (isDigit_digit (n % 10) (Nat.mod_lt n (by decide))).2
      have hprefix := ih hrest
      unfold decimal at hprefix ⊢
      rw [digitsOf, List.foldl_append, hprefix, List.foldl_cons, List.foldl_nil, hdigit]
      omega

theorem digitCount_le_iff {n count : Nat} (hcount : 1 ≤ count) :
    digitCount n ≤ count ↔ n < 10 ^ count := by
  rw [digitCount, max_le_iff, and_iff_right hcount, Nat.digits_length_le_iff (by decide)]

theorem isDigit_apart : ∀ c : BitVec 8, isDigit c = true →
    isSpace c = false ∧ ¬ (c = 0x2B ∨ c = 0x2D) ∧ c ≠ 0 := by
  decide +kernel

theorem scanInt_digitsOf {width n : Nat} (hwidth : 1 ≤ width) (h : n < 10 ^ width)
    (rest : Bytes) : scanInt width (digitsOf width n ++ rest) = some ((n : Int), rest) := by
  obtain ⟨c, digits, hdigits⟩ : ∃ c digits, digitsOf width n = c :: digits :=
    List.exists_cons_of_length_pos (by rw [length_digitsOf]; exact hwidth)
  have hc : isDigit c = true := isDigit_digitsOf c (hdigits ▸ List.mem_cons_self)
  obtain ⟨hspace, hsign, -⟩ := isDigit_apart c hc
  have hlength : (c :: digits).length = width := hdigits ▸ length_digitsOf width n
  have hskip : (digitsOf width n ++ rest).dropWhile isSpace = c :: digits ++ rest := by
    rw [hdigits, List.cons_append, List.dropWhile_cons_of_neg (by simpa using hspace)]
  have hfield : (c :: digits ++ rest).take width = c :: digits := by
    rw [← hlength, List.take_left]
  have hsigns : ((c :: digits).take 1).filter (fun c => c = 0x2B || c = 0x2D) = [] := by
    simpa using hsign
  have hall : (c :: digits).takeWhile isDigit = c :: digits :=
    List.takeWhile_eq_self_iff.mpr fun d hd => isDigit_digitsOf d (hdigits ▸ hd)
  unfold scanInt
  dsimp only
  rw [hskip, hfield, hsigns]
  simp only [List.length_nil, List.drop_zero]
  rw [hall, if_neg (List.cons_ne_nil c digits), if_neg (by decide), ← hdigits,
    decimal_digitsOf h, Nat.zero_add, length_digitsOf, List.drop_left' (length_digitsOf width n)]

end Digits

section ToDecString

variable {input : Int} {size : Nat}

theorem one_le_digitCount (n : Nat) : 1 ≤ digitCount n := Nat.le_max_left _ _

theorem printInt_digit {digit : Nat} (h : digit < 10) :
    printInt 0 digit = [BitVec.ofNat 8 (0x30 + digit)] := by
  have hcount : digitCount digit = 1 :=
    Nat.le_antisymm ((digitCount_le_iff le_rfl).mpr (by omega)) (one_le_digitCount digit)
  rw [printInt, if_neg (by omega), Int.natAbs_natCast, hcount]
  change [BitVec.ofNat 8 (0x30 + digit % 10)] = _
  rw [Nat.mod_eq_of_lt h]

theorem toDecString_eq (hsize : size ≤ 6) : toDecString input size = do
    let tmp ← sprintf (List.replicate 6 0) 0 (printInt size input)
    return tmp.take size := by
  have hzero : printInt 0 0 = [0x30] := printInt_digit (by decide)
  have hdigit : printInt 0 size = [BitVec.ofNat 8 (0x30 + size)] := printInt_digit (by omega)
  unfold toDecString
  dsimp only
  rw [if_neg (by omega), hzero, hdigit]
  interval_cases size <;> rfl

theorem stays_toDecString (hsize : size ≤ 6) :
    Stays (toDecString input size) ↔ (printInt size input).length ≤ 5 := by
  rw [toDecString_eq hsize, stays_bind_pure, sprintf, stays_writeFrom,
    or_iff_right (List.append_ne_nil_of_right_ne_nil _ (List.cons_ne_nil _ _)),
    List.length_append, List.length_replicate, List.length_singleton]
  omega

theorem toDecString_of_lt {n : Nat} (hsize : 1 ≤ size ∧ size ≤ 5) (hn : n < 10 ^ size) :
    toDecString n size = .ok (digitsOf size n) := by
  have hprint : printInt size n = digitsOf size n := by
    rw [printInt, if_neg (by omega), Int.natAbs_natCast,
      max_eq_left ((digitCount_le_iff hsize.1).mpr hn)]
  rw [toDecString_eq (by omega), hprint, sprintf, writeFrom_eq (by simp; omega)]
  change Except.ok ((_ ++ (digitsOf size n ++ [0]) ++ _).take size) = _
  rw [List.take_zero, List.nil_append, List.append_assoc,
    List.take_left' (length_digitsOf size n)]

theorem stays_toDecString_iff (hsize : 1 ≤ size ∧ size ≤ 6)
    (hdigits : digitCount input.natAbs ≤ size) :
    Stays (toDecString input size) ↔
      size ≤ 5 ∧ (input < 0 → digitCount input.natAbs ≤ 4) := by
  rw [stays_toDecString hsize.2, printInt]
  split
  next hneg =>
    rw [imp_iff_right hneg, List.length_cons, length_digitsOf]
    omega
  next hnonneg =>
    rw [length_digitsOf, max_eq_left hdigits]
    exact (and_iff_left fun hneg => absurd hneg hnonneg).symm

end ToDecString

section Time

variable {zone : LocalTime} {t u : TimeVal}

def fields (zone : LocalTime) (t : TimeVal) : List (Nat × Int) :=
  let ctm := zone.localtime t.sec
  [(4, ctm.year + 1900), (2, ctm.mon + 1), (2, ctm.mday), (2, ctm.hour), (2, ctm.min), (2, ctm.sec),
    (3, t.usec / 1000)]

def Fits (field : Nat × Int) : Prop :=
  (1 ≤ field.1 ∧ field.1 ≤ 5) ∧ 0 ≤ field.2 ∧ field.2.toNat < 10 ^ field.1

theorem toDecString_of_fits {field : Nat × Int} (h : Fits field) :
    toDecString field.2 field.1 = .ok (digitsOf field.1 field.2.toNat) := by
  have hprinted := toDecString_of_lt h.1 h.2.2
  rwa [Int.toNat_of_nonneg h.2.1] at hprinted

theorem scanInts_of_fits {numbers : List (Nat × Int)} (h : ∀ field ∈ numbers, Fits field) :
    scanInts (numbers.map Prod.fst)
        (numbers.flatMap fun field => digitsOf field.1 field.2.toNat) =
      numbers.map Prod.snd := by
  induction numbers with
  | nil => rfl
  | cons field numbers ih =>
      obtain ⟨hfield, hnumbers⟩ := List.forall_mem_cons.mp h
      rw [List.map_cons, List.flatMap_cons, List.map_cons, scanInts,
        scanInt_digitsOf hfield.1.1 hfield.2.2, Int.toNat_of_nonneg hfield.2.1]
      exact congrArg _ (ih hnumbers)

theorem fits_fields (ht : t.Valid) (hyear : 1000 ≤ (zone.localtime t.sec).year + 1900)
    (hyearLe : (zone.localtime t.sec).year + 1900 ≤ 9999) :
    ∀ field ∈ fields zone t, Fits field := by
  obtain ⟨husec, husecLess⟩ := ht.usec
  have hmon := zone.mon t.sec
  have hmday := zone.mday t.sec
  have hhour := zone.hour t.sec
  have hmin := zone.min t.sec
  have hsec := zone.sec t.sec
  simp only [fields, List.forall_mem_cons, Fits]
  refine ⟨?_, ?_, ?_, ?_, ?_, ?_, ?_, nofun⟩
  all_goals omega

theorem currentTime_of_fits (h : ∀ field ∈ fields zone t, Fits field) :
    currentTime zone t =
      .ok ((fields zone t).flatMap fun field => digitsOf field.1 field.2.toNat) := by
  simp only [fields, List.forall_mem_cons] at h
  obtain ⟨hyear, hmon, hmday, hhour, hmin, hsec, hmsec, -⟩ := h
  rw [currentTime, toDecString_of_fits hyear, toDecString_of_fits hmon,
    toDecString_of_fits hmday, toDecString_of_fits hhour, toDecString_of_fits hmin, toDecString_of_fits hsec,
    toDecString_of_fits hmsec]
  simp only [fields, List.flatMap_cons, List.flatMap_nil, List.append_nil, List.append_assoc]
  rfl

theorem parseStringTime_currentTime (ht : t.Valid)
    (hyear : 1000 ≤ (zone.localtime t.sec).year + 1900)
    (hyearLe : (zone.localtime t.sec).year + 1900 ≤ 9999) :
    ∃ text, currentTime zone t = .ok text ∧ parseStringTime zone.mktime text = t.truncated := by
  have hfits := fits_fields ht hyear hyearLe
  refine ⟨_, currentTime_of_fits hfits, ?_⟩
  have hdigits : ((fields zone t).flatMap fun field => digitsOf field.1 field.2.toNat).takeWhile
      (· ≠ 0) = (fields zone t).flatMap fun field => digitsOf field.1 field.2.toNat := by
    refine List.takeWhile_eq_self_iff.mpr fun c hc => ?_
    obtain ⟨field, -, hdigit⟩ := List.mem_flatMap.mp hc
    exact decide_eq_true (isDigit_apart c (isDigit_digitsOf c hdigit)).2.2
  rw [parseStringTime, hdigits]
  have hscan := scanInts_of_fits hfits
  change scanInts [4, 2, 2, 2, 2, 2, 3] _ = _ at hscan
  rw [hscan]
  change TimeVal.mk (zone.mktime ⟨(zone.localtime t.sec).year + 1900 - 1900,
    (zone.localtime t.sec).mon + 1 - 1, (zone.localtime t.sec).mday, (zone.localtime t.sec).hour,
    (zone.localtime t.sec).min, (zone.localtime t.sec).sec⟩) (t.usec / 1000 * 1000) = _
  rw [Int.add_sub_cancel, Int.add_sub_cancel, zone.inverse]
  rfl

theorem checkValidTime_truncated (ht : t.Valid) (hu : u.Valid) :
    checkValidTime t.truncated u = true ↔ u.micros < t.truncated.micros := by
  obtain ⟨husec, husecLess⟩ := ht.usec
  obtain ⟨hclock, hclockLess⟩ := hu.usec
  rw [checkValidTime_iff]
  simp only [After, TimeVal.truncated, TimeVal.micros]
  omega

end Time

/-- The stamps are right, and no buffer overflows exactly where five characters are enough. -/
theorem stamps_iff (zone : LocalTime) (t u : TimeVal) (input : Int) (size : Nat) :
    StampsRight zone t u input size ↔
      (1 ≤ size → size ≤ 6 → digitCount input.natAbs ≤ size →
        size ≤ 5 ∧ (input < 0 → digitCount input.natAbs ≤ 4)) := by
  constructor
  · intro h hsize hsizeLe hdigits
    exact (stays_toDecString_iff ⟨hsize, hsizeLe⟩ hdigits).mp (h.contained hsize hsizeLe hdigits)
  · intro h
    refine ⟨fun ht hyear hyearLe => parseStringTime_currentTime ht hyear hyearLe, ?_, ?_⟩
    · intro ht hu hyear hyearLe
      obtain ⟨text, htext, hparsed⟩ := parseStringTime_currentTime ht hyear hyearLe
      exact ⟨text, htext, hparsed ▸ checkValidTime_truncated ht hu⟩
    · intro hsize hsizeLe hdigits
      exact (stays_toDecString_iff ⟨hsize, hsizeLe⟩ hdigits).mpr (h hsize hsizeLe hdigits)

def LocalTime.utc : LocalTime where
  localtime sec :=
    let time := CivilTime.ofSeconds sec
    ⟨time.date.year - 1900, time.date.month - 1, time.date.day, time.hour, time.minute,
      time.second⟩
  mktime tm :=
    CivilTime.seconds ⟨⟨tm.year + 1900, tm.mon + 1, tm.mday⟩, tm.hour, tm.min, tm.sec⟩
  inverse sec := by
    dsimp only
    simp only [Int.sub_add_cancel]
    exact CivilTime.seconds_ofSeconds sec
  mon sec := by
    have h := (CivilTime.valid_ofSeconds sec).date.month
    dsimp only
    omega
  mday sec := (CivilTime.valid_ofSeconds sec).date.day
  hour sec := (CivilTime.valid_ofSeconds sec).hour
  min sec := (CivilTime.valid_ofSeconds sec).minute
  sec sec := by
    have h := (CivilTime.valid_ofSeconds sec).second
    dsimp only
    omega

/-- Six digits and the 0 behind them are seven bytes. -/
theorem stamps_fails :
    ¬ ∀ zone t u input size, StampsRight zone t u input size := by
  intro h
  have hstays := (h LocalTime.utc ⟨0, 0⟩ ⟨0, 0⟩ 123456 6).contained (by decide) (by decide)
    ((digitCount_le_iff (by decide)).mpr (by decide))
  have hroom := (stays_toDecString_iff (by decide)
    ((digitCount_le_iff (by decide)).mpr (by decide))).mp hstays
  exact absurd hroom.1 (by decide)

end ApolloContrib.Auth
