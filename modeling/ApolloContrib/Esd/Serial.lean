import ApolloContrib.Auth.Stamp
import ApolloContrib.Library.Bits

namespace ApolloContrib.Esd

open ApolloContrib.Library
open ApolloContrib.Auth (printInt digitsOf digitCount isDigit decimal)
open ApolloContrib.Security (Bytes)

/-! Serial numbers as texts: what `IOCTL_ESDCAN_GET_INFO` prints, and
`osif_make_ntcan_serial`, which reads them. -/

def snprintf (size : Nat) (text : Bytes) : Bytes := text.take (size - 1) ++ [0]

/-- `'A' + (x & 0x0F)`. -/
def letter (x : BitVec 32) : BitVec 8 := 0x41 + (x &&& 0x0F).setWidth 8

/-- `info.serial_string` where the board layer left it empty: `"%c%c%06ld"`, or `"N/A"`. -/
def serialString (serial : BitVec 32) : Bytes :=
  if serial ≠ 0 then
    snprintf 16 (letter (serial >>> 28) :: letter (serial >>> 24) ::
      printInt 6 (serial &&& 0x00FFFFFF).toNat)
  else snprintf 16 [0x4E, 0x2F, 0x41]

def isLetter (c : BitVec 8) : Bool := 0x41 ≤ c && c ≤ 0x50

/-- The digits at the start of the text, as an `unsigned long`. -/
def simpleStrtoul (text : Bytes) : BitVec 64 := BitVec.ofInt 64 (decimal (text.takeWhile isDigit))

def osifMakeNtcanSerial : Bytes → BitVec 32
  | first :: second :: rest =>
      if isLetter first && isLetter second then
        let lTemp := ((first - 0x41).setWidth 32) <<< 28 ||| ((second - 0x41).setWidth 32) <<< 24
        (simpleStrtoul rest).setWidth 32 ||| lTemp
      else 0
  | _ => 0

section Digits

/-- A number that fits in its field or not is read back up to the end of the text. -/
theorem takeWhile_digitsOf (count n : Nat) :
    (digitsOf count n ++ [0]).takeWhile isDigit = digitsOf count n := by
  rw [List.takeWhile_append_of_pos Auth.isDigit_digitsOf]
  exact List.append_nil _

theorem simpleStrtoul_printInt {n : Nat} (hn : n < 2 ^ 64) :
    simpleStrtoul (printInt 6 n ++ [0]) = BitVec.ofNat 64 n := by
  have hwidth : n < 10 ^ max 6 (digitCount n) :=
    (Auth.digitCount_le_iff (Nat.le_trans (by omega) (Nat.le_max_left 6 _))).mp
      (Nat.le_max_right 6 _)
  have hprint : printInt 6 n = digitsOf (max 6 (digitCount n)) n := by
    rw [printInt, if_neg (by omega), Int.natAbs_natCast]
  rw [simpleStrtoul, hprint, takeWhile_digitsOf, Auth.decimal_digitsOf hwidth]
  rfl

theorem length_printInt {n : Nat} (hn : n < 2 ^ 24) : (printInt 6 n).length ≤ 8 := by
  have hcount : digitCount n ≤ 8 := (Auth.digitCount_le_iff (by omega)).mpr (by omega)
  rw [printInt, if_neg (by omega), Int.natAbs_natCast, Auth.length_digitsOf]
  omega

end Digits

section Letters

theorem letter_nibble : ∀ x : BitVec 4, isLetter (0x41 + x.setWidth 8) = true ∧
    (0x41 + x.setWidth 8 - 0x41 : BitVec 8) = x.setWidth 8 := by
  decide

theorem nibble_eq (x : BitVec 32) : (x &&& 0x0F).setWidth 8 = (x.setWidth 4).setWidth 8 := by
  ext i hi
  have hmask : (0x0F : BitVec 32).getLsbD i = decide (i < 4) := by
    have := getLsbD_lowMask (n := 32) (k := 4) (by omega) i
    simpa using this
  simp only [BitVec.getElem_setWidth, BitVec.getLsbD_and, BitVec.getLsbD_setWidth, hmask]
  rw [Bool.and_comm]

theorem isLetter_letter (x : BitVec 32) : isLetter (letter x) = true := by
  rw [letter, nibble_eq]
  exact (letter_nibble _).1

theorem letter_sub (x : BitVec 32) : letter x - 0x41 = (x.setWidth 4).setWidth 8 := by
  rw [letter, nibble_eq]
  exact (letter_nibble _).2

theorem nibbles_or (serial : BitVec 32) :
    (serial &&& 0x00FFFFFF) |||
        (((((serial >>> 28).setWidth 4).setWidth 8).setWidth 32) <<< 28 |||
          ((((serial >>> 24).setWidth 4).setWidth 8).setWidth 32) <<< 24) = serial := by
  apply BitVec.eq_of_getLsbD_eq
  intro i hi
  have hmask : (16777215#32).getLsbD i = decide (i < 24) := by
    have := getLsbD_lowMask (n := 32) (k := 24) (by omega) i
    simpa using this
  simp only [BitVec.getLsbD_or, BitVec.getLsbD_and, BitVec.getLsbD_shiftLeft,
    BitVec.getLsbD_setWidth, BitVec.getLsbD_ushiftRight]
  rcases Nat.lt_or_ge i 24 with hlow | hge
  · simp [hlow, hmask, show i < 28 by omega]
  · rcases Nat.lt_or_ge i 28 with hmid | htop
    · simp [hi, hmid, show ¬ i < 24 by omega, show i - 24 < 4 by omega, show i - 24 < 8 by omega,
        show i - 24 < 32 by omega, show 24 + (i - 24) = i by omega]
      exact fun h _ => h
    · simp [hi, show ¬ i < 28 by omega, show ¬ i < 24 by omega, show i - 28 < 4 by omega,
        show i - 28 < 8 by omega, show i - 28 < 32 by omega, show ¬ i - 24 < 4 by omega,
        show 28 + (i - 28) = i by omega]
      exact fun h _ => h

end Letters

/-- Every serial number is read back from its text, and the text is not cut. -/
theorem osifMakeNtcanSerial_serialString (serial : BitVec 32) :
    osifMakeNtcanSerial (serialString serial) = serial ∧ (serialString serial).length ≤ 11 := by
  rw [serialString]
  split
  · next hserial =>
      obtain ⟨n, hn⟩ : ∃ n, n = (serial &&& 0x00FFFFFF).toNat := ⟨_, rfl⟩
      have hlt : n < 2 ^ 24 := by
        rw [hn, BitVec.toNat_and]
        exact Nat.lt_of_le_of_lt Nat.and_le_right (by decide)
      have hlength := length_printInt hlt
      have hwhole : snprintf 16 (letter (serial >>> 28) :: letter (serial >>> 24) ::
          printInt 6 n) = letter (serial >>> 28) :: letter (serial >>> 24) ::
            (printInt 6 n ++ [0]) := by
        rw [snprintf, List.take_of_length_le (by simp only [List.length_cons]; omega)]
        rfl
      rw [← hn, hwhole]
      constructor
      · rw [osifMakeNtcanSerial, isLetter_letter, isLetter_letter, letter_sub, letter_sub,
          simpleStrtoul_printInt (by omega)]
        have hwide : (BitVec.ofNat 64 n).setWidth 32 = serial &&& 0x00FFFFFF := by
          apply BitVec.eq_of_toNat_eq
          rw [BitVec.toNat_setWidth, BitVec.toNat_ofNat, ← hn]
          omega
        dsimp only
        rw [hwide]
        exact nibbles_or serial
      · simp only [List.length_cons, List.length_append, List.length_nil]
        omega
  · next hzero =>
      obtain rfl : serial = 0 := not_not.mp hzero
      exact ⟨by decide, by decide⟩

end ApolloContrib.Esd
