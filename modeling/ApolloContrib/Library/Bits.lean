import Mathlib.Data.BitVec
import Mathlib.Tactic.IntervalCases

namespace ApolloContrib.Library

/-! Bit fields of a machine word, counted from the least significant bit, as a
little-endian compiler lays them out. -/

variable {n width : Nat}

def bitField (word : BitVec n) (offset width : Nat) : BitVec width :=
  word.extractLsb' offset width

def setBitField (word : BitVec n) (offset : Nat) (value : BitVec width) :
    BitVec n :=
  (word &&& ~~~((BitVec.allOnes width).setWidth n <<< offset)) |||
    (value.setWidth n <<< offset)

theorem getLsbD_bitField (word : BitVec n) (offset width i : Nat) :
    (bitField word offset width).getLsbD i =
      (decide (i < width) && word.getLsbD (offset + i)) := by
  simp [bitField]

theorem getLsbD_of_bitField_eq {word : BitVec n} {offset width : Nat}
    {value : BitVec width} (hfield : bitField word offset width = value)
    {i : Nat} (hi : i < width) : word.getLsbD (offset + i) = value.getLsbD i := by
  rw [← hfield, getLsbD_bitField]
  simp [hi]

theorem getLsbD_setBitField (word : BitVec n) (offset : Nat)
    (value : BitVec width) {i : Nat} (hi : i < n) :
    (setBitField word offset value).getLsbD i =
      if offset ≤ i ∧ i < offset + width then value.getLsbD (i - offset)
      else word.getLsbD i := by
  simp only [setBitField, BitVec.getLsbD_or, BitVec.getLsbD_and,
    BitVec.getLsbD_not, BitVec.getLsbD_shiftLeft, BitVec.getLsbD_setWidth,
    BitVec.getLsbD_allOnes]
  by_cases hlow : i < offset
  · simp [hi, hlow, Nat.not_le.mpr hlow]
  · have hsub : i - offset < n := by omega
    by_cases hhigh : i < offset + width
    · have hwidth : i - offset < width := by omega
      simp [hi, hlow, hhigh, hsub, hwidth, Nat.not_lt.mp hlow]
    · have hwidth : ¬ i - offset < width := by omega
      have hvalue : value.getLsbD (i - offset) = false :=
        BitVec.getLsbD_of_ge value (i - offset) (by omega)
      simp [hi, hlow, hhigh, hsub, hwidth, hvalue]

theorem bitField_setBitField (word : BitVec n) (offset : Nat)
    (value : BitVec width) (hfits : offset + width ≤ n) :
    bitField (setBitField word offset value) offset width = value := by
  apply BitVec.eq_of_getLsbD_eq
  intro i hi
  rw [getLsbD_bitField, getLsbD_setBitField word offset value (by omega)]
  simp [hi]

theorem bitField_setBitField_of_disjoint (word : BitVec n) {offset offset' width' : Nat}
    (value : BitVec width) (hfits : offset' + width' ≤ n)
    (hdisjoint : offset' + width' ≤ offset ∨ offset + width ≤ offset') :
    bitField (setBitField word offset value) offset' width' = bitField word offset' width' := by
  apply BitVec.eq_of_getLsbD_eq
  intro i hi
  rw [getLsbD_bitField, getLsbD_bitField, getLsbD_setBitField word offset value (by omega),
    if_neg (by omega)]

theorem bitField_or (x y : BitVec n) (offset width : Nat) :
    bitField (x ||| y) offset width = bitField x offset width ||| bitField y offset width :=
  BitVec.extractLsb'_or

theorem bitField_and (x y : BitVec n) (offset width : Nat) :
    bitField (x &&& y) offset width = bitField x offset width &&& bitField y offset width :=
  BitVec.extractLsb'_and

theorem getLsbD_lowMask {k : Nat} (hk : k ≤ n) (i : Nat) :
    ((BitVec.allOnes k).setWidth n).getLsbD i = decide (i < k) := by
  rw [BitVec.getLsbD_setWidth, BitVec.getLsbD_allOnes]
  by_cases hi : i < k
  · simp [hi, Nat.lt_of_lt_of_le hi hk]
  · simp [hi]

/-- What a mask takes out of a word is a field of it, in its place. -/
theorem toNat_and_fieldMask (word : BitVec n) {offset width : Nat} (hfits : offset + width ≤ n) :
    (word &&& (BitVec.allOnes width).setWidth n <<< offset).toNat =
      (bitField word offset width).toNat * 2 ^ offset := by
  have heq : word &&& (BitVec.allOnes width).setWidth n <<< offset =
      (bitField word offset width).setWidth n <<< offset := by
    apply BitVec.eq_of_getLsbD_eq
    intro i hi
    rw [BitVec.getLsbD_and, BitVec.getLsbD_shiftLeft, BitVec.getLsbD_shiftLeft,
      getLsbD_lowMask (by omega), BitVec.getLsbD_setWidth, getLsbD_bitField]
    rcases Nat.lt_or_ge i offset with hlow | hhigh
    · simp [hlow]
    · have hsub : i - offset < n := by omega
      simp [hi, hsub, Nat.not_lt.mpr hhigh, Nat.add_sub_cancel' hhigh, Bool.and_comm]
  have hlt : (bitField word offset width).toNat * 2 ^ offset < 2 ^ n := by
    refine Nat.lt_of_lt_of_le ?_ (Nat.pow_le_pow_right Nat.two_pos hfits)
    rw [Nat.pow_add, Nat.mul_comm (2 ^ offset)]
    exact Nat.mul_lt_mul_of_pos_right (bitField word offset width).isLt (Nat.two_pow_pos _)
  rw [heq, BitVec.toNat_shiftLeft, BitVec.toNat_setWidth_of_le (by omega), Nat.shiftLeft_eq,
    Nat.mod_eq_of_lt hlt]

theorem toNat_and_ushiftRight (word : BitVec n) {offset width : Nat}
    (hfits : offset + width ≤ n) :
    ((word &&& (BitVec.allOnes width).setWidth n <<< offset) >>> offset).toNat =
      (bitField word offset width).toNat := by
  rw [BitVec.toNat_ushiftRight, toNat_and_fieldMask word hfits, Nat.shiftRight_eq_div_pow,
    Nat.mul_div_cancel _ (Nat.two_pow_pos _)]

theorem toNat_ushiftRight_and (word : BitVec n) {offset width : Nat}
    (hfits : offset + width ≤ n) :
    (word >>> offset &&& (BitVec.allOnes width).setWidth n).toNat =
      (bitField word offset width).toNat := by
  have hmask : ((BitVec.allOnes width).setWidth n <<< offset) >>> offset =
      (BitVec.allOnes width).setWidth n := by
    apply BitVec.eq_of_getLsbD_eq
    intro i hi
    rw [BitVec.getLsbD_ushiftRight, BitVec.getLsbD_shiftLeft, Nat.add_sub_cancel_left,
      getLsbD_lowMask (by omega)]
    rcases Nat.lt_or_ge i width with hin | hout
    · simp [hin, show offset + i < n by omega]
    · simp [Nat.not_lt.mpr hout]
  rw [← toNat_and_ushiftRight word hfits, BitVec.ushiftRight_and_distrib, hmask]

/-- Clearing the `k` lowest bits rounds down to a multiple of `2 ^ k`. -/
theorem toNat_and_not_lowMask (word : BitVec n) {k : Nat} (hk : k ≤ n) :
    (word &&& ~~~((BitVec.allOnes k).setWidth n)).toNat =
      word.toNat / 2 ^ k * 2 ^ k := by
  have hshift : word &&& ~~~((BitVec.allOnes k).setWidth n) =
      (word >>> k) <<< k := by
    apply BitVec.eq_of_getLsbD_eq
    intro i hi
    rw [BitVec.getLsbD_and, BitVec.getLsbD_not, getLsbD_lowMask hk,
      BitVec.getLsbD_shiftLeft, BitVec.getLsbD_ushiftRight]
    rcases Nat.lt_or_ge i k with hlow | hhigh
    · simp [hlow]
    · simp [hi, Nat.not_lt.mpr hhigh, Nat.add_sub_cancel' hhigh]
  have hlt : word.toNat / 2 ^ k * 2 ^ k < 2 ^ n :=
    Nat.lt_of_le_of_lt (Nat.div_mul_le_self _ _) word.isLt
  rw [hshift, BitVec.toNat_shiftLeft, BitVec.toNat_ushiftRight,
    Nat.shiftRight_eq_div_pow, Nat.shiftLeft_eq, Nat.mod_eq_of_lt hlt]

/-- The byte order reversal that `htonl` and `ntohl` perform on a little-endian
host. -/
def byteSwap (word : BitVec 32) : BitVec 32 :=
  bitField word 0 8 ++ bitField word 8 8 ++ bitField word 16 8 ++
    bitField word 24 8

theorem getLsbD_byteSwap (word : BitVec 32) {i : Nat} (hi : i < 32) :
    (byteSwap word).getLsbD i = word.getLsbD ((3 - i / 8) * 8 + i % 8) := by
  simp only [byteSwap, BitVec.getLsbD_append, getLsbD_bitField]
  interval_cases i <;> simp

@[simp] theorem byteSwap_byteSwap (word : BitVec 32) :
    byteSwap (byteSwap word) = word := by
  apply BitVec.eq_of_getLsbD_eq
  intro i hi
  have hbyte : i / 8 ≤ 3 := by omega
  have hsource : (3 - i / 8) * 8 + i % 8 < 32 := by omega
  rw [getLsbD_byteSwap _ hi, getLsbD_byteSwap _ hsource]
  congr 1
  omega

/-- The 1-based position of the most significant set bit, 0 for the zero word. -/
def fls (word : BitVec 32) : Nat :=
  if word = 0 then 0 else word.toNat.log2 + 1

section Masks

variable {w : Nat} {x bits mask : BitVec w}

theorem or_and_of_disjoint (hdisjoint : bits &&& mask = 0#w) :
    (x ||| bits) &&& mask = x &&& mask := by
  rw [BitVec.and_or_distrib_right, hdisjoint, BitVec.or_zero]

theorem and_not_and_of_disjoint (hdisjoint : bits &&& mask = 0#w) :
    (x &&& ~~~bits) &&& mask = x &&& mask := by
  apply BitVec.eq_of_getElem_eq
  intro i hi
  have hbit : (bits[i] && mask[i]) = false := by
    rw [← BitVec.getElem_and]
    simp only [hdisjoint, BitVec.getElem_zero]
  simp only [BitVec.getElem_and, BitVec.getElem_not]
  cases hmask : mask[i] with
  | false => simp only [Bool.and_false]
  | true =>
      rw [hmask, Bool.and_true] at hbit
      simp only [hbit, Bool.not_false, Bool.and_true]

theorem and_not_and_self : (x &&& ~~~mask) &&& mask = 0#w := by
  apply BitVec.eq_of_getElem_eq
  intro i hi
  simp

theorem or_and_self : (x ||| mask) &&& mask = mask := by
  apply BitVec.eq_of_getElem_eq
  intro i hi
  cases hmask : mask[i] <;> simp [hmask]

theorem and_one_shiftLeft_ne_zero_iff (x : BitVec w) {i : Nat} (hi : i < w) :
    x &&& 1#w <<< i ≠ 0 ↔ x.getLsbD i = true := by
  rw [← BitVec.twoPow_eq, BitVec.and_twoPow]
  cases hbit : x.getLsbD i with
  | false => simp
  | true =>
      simp only [if_true, ne_eq, iff_true]
      intro hzero
      have hset := congrArg (BitVec.getLsbD · i) hzero
      simp [hi] at hset

end Masks

section Ticks

variable {w : Nat} (now start ticks : BitVec w)

end Ticks

end ApolloContrib.Library
