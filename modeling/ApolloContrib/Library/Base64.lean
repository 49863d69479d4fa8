import Mathlib.Data.BitVec
import Mathlib.Data.List.Basic

namespace ApolloContrib.Library

/-! Base64 in lines of 64 characters, each with a line feed. -/

namespace Base64

abbrev LF : BitVec 8 := 0x0A

abbrev PAD : BitVec 8 := 0x3D

def encChar (x : BitVec 6) : BitVec 8 :=
  if x.toNat < 26 then BitVec.ofNat 8 (0x41 + x.toNat)
  else if x.toNat < 52 then BitVec.ofNat 8 (0x61 + (x.toNat - 26))
  else if x.toNat < 62 then BitVec.ofNat 8 (0x30 + (x.toNat - 52))
  else if x.toNat = 62 then 0x2B
  else 0x2F

def decChar (c : BitVec 8) : BitVec 6 :=
  if 0x41 ≤ c ∧ c ≤ 0x5A then (c - 0x41).setWidth 6
  else if 0x61 ≤ c ∧ c ≤ 0x7A then (c - 0x61).setWidth 6 + 26
  else if 0x30 ≤ c ∧ c ≤ 0x39 then (c - 0x30).setWidth 6 + 52
  else if c = 0x2B then 62
  else if c = 0x2F then 63
  else 0

def sextets (a b c : BitVec 8) : List (BitVec 6) :=
  let word := a ++ b ++ c
  [word.extractLsb' 18 6, word.extractLsb' 12 6, word.extractLsb' 6 6, word.extractLsb' 0 6]

def bytes (x y z t : BitVec 6) : List (BitVec 8) :=
  let word := x ++ y ++ z ++ t
  [word.extractLsb' 16 8, word.extractLsb' 8 8, word.extractLsb' 0 8]

def encGroup (a b c : BitVec 8) : List (BitVec 8) := (sextets a b c).map encChar

def encGroups : List (BitVec 8) → List (BitVec 8)
  | [] => []
  | [a] => (encGroup a 0 0).take 2 ++ [PAD, PAD]
  | [a, b] => (encGroup a b 0).take 3 ++ [PAD]
  | a :: b :: c :: data => encGroup a b c ++ encGroups data

/-- `col` characters stand on the line already. -/
def lines : Nat → List (BitVec 8) → List (BitVec 8)
  | col, [] => if col = 0 then [] else [LF]
  | col, c :: text => c :: if col = 63 then LF :: lines 0 text else lines (col + 1) text

def encode (data : List (BitVec 8)) : List (BitVec 8) := lines 0 (encGroups data)

def decGroups : List (BitVec 8) → List (BitVec 8)
  | x :: y :: z :: t :: text =>
      (bytes (decChar x) (decChar y) (decChar z) (decChar t)).take
        (3 - [z, t].count PAD) ++ decGroups text
  | _ => []

def decode (text : List (BitVec 8)) : List (BitVec 8) := decGroups (text.filter (· ≠ LF))

theorem decChar_encChar (x : BitVec 6) : decChar (encChar x) = x := by
  revert x
  decide

theorem encChar_alphabet (x : BitVec 6) :
    encChar x ≠ LF ∧ encChar x ≠ PAD ∧ encChar x ≠ 0x2D ∧ encChar x ≠ 0 := by
  revert x
  decide

theorem bytes_sextets (a b c : BitVec 8) :
    bytes ((a ++ b ++ c).extractLsb' 18 6) ((a ++ b ++ c).extractLsb' 12 6)
      ((a ++ b ++ c).extractLsb' 6 6) ((a ++ b ++ c).extractLsb' 0 6) = [a, b, c] := by
  unfold bytes
  refine congrArg₂ List.cons ?_ (congrArg₂ List.cons ?_ (congrArg₂ List.cons ?_ rfl))
  all_goals
    ext i hi
    simp only [BitVec.getElem_extractLsb', BitVec.getLsbD_append, BitVec.getLsbD_extractLsb']
    grind

theorem count_pad_encChar (x y : BitVec 6) : [encChar x, encChar y].count PAD = 0 :=
  List.count_eq_zero.mpr fun hmem => by
    rcases List.mem_pair.mp hmem with heq | heq
    · exact (encChar_alphabet x).2.1 heq.symm
    · exact (encChar_alphabet y).2.1 heq.symm

theorem decGroups_encGroup (a b c : BitVec 8) (text : List (BitVec 8)) :
    decGroups (encGroup a b c ++ text) = a :: b :: c :: decGroups text := by
  change decGroups (encChar _ :: encChar _ :: encChar _ :: encChar _ :: text) = _
  rw [decGroups, decChar_encChar, decChar_encChar, decChar_encChar, decChar_encChar,
    count_pad_encChar, bytes_sextets]
  rfl

theorem sextet_eq_zero (word : BitVec 16) :
    (word ++ (0 : BitVec 8)).extractLsb' 0 6 = 0 := by
  ext i hi
  simp only [BitVec.getElem_extractLsb', BitVec.getLsbD_append]
  grind

theorem decGroups_one (a : BitVec 8) :
    decGroups ((encGroup a 0 0).take 2 ++ [PAD, PAD]) = [a] := by
  revert a
  decide +kernel

theorem decGroups_two (a b : BitVec 8) :
    decGroups ((encGroup a b 0).take 3 ++ [PAD]) = [a, b] := by
  change decGroups [encChar _, encChar _, encChar _, PAD] = _
  have hcount (x : BitVec 6) : [encChar x, PAD].count PAD = 1 := by
    rw [List.count_cons_of_ne (encChar_alphabet x).2.1]
    rfl
  have hlast : decChar PAD = (a ++ b ++ (0 : BitVec 8)).extractLsb' 0 6 :=
    (sextet_eq_zero (a ++ b)).symm
  rw [decGroups, decChar_encChar, decChar_encChar, decChar_encChar, hcount, hlast, bytes_sextets]
  rfl

theorem decGroups_encGroups (data : List (BitVec 8)) : decGroups (encGroups data) = data := by
  fun_induction encGroups data with
  | case1 => rfl
  | case2 a => exact decGroups_one a
  | case3 a b => exact decGroups_two a b
  | case4 a b c data ih => rw [decGroups_encGroup, ih]

theorem encGroup_alphabet {a b c d : BitVec 8} (hd : d ∈ encGroup a b c) :
    d ≠ LF ∧ d ≠ 0x2D ∧ d ≠ 0 := by
  obtain ⟨x, -, rfl⟩ := List.mem_map.mp hd
  obtain ⟨hlf, -, hdash, hzero⟩ := encChar_alphabet x
  exact ⟨hlf, hdash, hzero⟩

theorem encGroups_alphabet {data : List (BitVec 8)} {c : BitVec 8} (hc : c ∈ encGroups data) :
    c ≠ LF ∧ c ≠ 0x2D ∧ c ≠ 0 := by
  have hpad {l : List (BitVec 8)} (hl : ∀ d ∈ l, d = PAD) (hmem : c ∈ l) :
      c ≠ LF ∧ c ≠ 0x2D ∧ c ≠ 0 := by
    rw [hl c hmem]
    decide
  fun_induction encGroups data with
  | case1 => cases hc
  | case2 a =>
      rcases List.mem_append.mp hc with hc | hc
      · exact encGroup_alphabet (List.mem_of_mem_take hc)
      · exact hpad (by simp) hc
  | case3 a b =>
      rcases List.mem_append.mp hc with hc | hc
      · exact encGroup_alphabet (List.mem_of_mem_take hc)
      · exact hpad (by simp) hc
  | case4 a b d data ih =>
      rcases List.mem_append.mp hc with hc | hc
      · exact encGroup_alphabet hc
      · exact ih hc

theorem length_encGroups (data : List (BitVec 8)) :
    (encGroups data).length = 4 * ((data.length + 2) / 3) := by
  fun_induction encGroups data with
  | case1 => rfl
  | case2 a => simp [encGroup, sextets]
  | case3 a b => simp [encGroup, sextets]
  | case4 a b c data ih =>
      rw [List.length_append, ih]
      change 4 + _ = 4 * ((data.length + 1 + 1 + 1 + 2) / 3)
      omega

theorem filter_lines {text : List (BitVec 8)} (htext : LF ∉ text) (col : Nat) :
    (lines col text).filter (· ≠ LF) = text := by
  induction text generalizing col with
  | nil =>
      rw [lines]
      split <;> rfl
  | cons c text ih =>
      obtain ⟨hc, hrest⟩ := not_or.mp (mt List.mem_cons.mpr htext)
      rw [lines, List.filter_cons_of_pos (by simpa using Ne.symm hc)]
      split
      · rw [List.filter_cons_of_neg (by simp), ih hrest]
      · rw [ih hrest]

theorem length_lines {col : Nat} (hcol : col < 64) (text : List (BitVec 8)) :
    (lines col text).length = text.length + (col + text.length + 63) / 64 := by
  induction text generalizing col with
  | nil =>
      rw [lines]
      split
      · next hzero => rw [hzero]; rfl
      · rw [List.length_singleton, List.length_nil]
        omega
  | cons c text ih =>
      rw [lines, List.length_cons, List.length_cons]
      split
      · rw [List.length_cons, ih (by decide)]
        omega
      · rw [ih (by omega)]
        omega

theorem mem_lines {col : Nat} {text : List (BitVec 8)} {c : BitVec 8} (hc : c ∈ lines col text) :
    c = LF ∨ c ∈ text := by
  induction text generalizing col with
  | nil =>
      rw [lines] at hc
      split at hc
      · cases hc
      · exact Or.inl (List.mem_singleton.mp hc)
  | cons d text ih =>
      rw [lines] at hc
      rcases List.mem_cons.mp hc with rfl | hc
      · exact Or.inr List.mem_cons_self
      · split at hc
        · rcases List.mem_cons.mp hc with rfl | hc
          · exact Or.inl rfl
          · exact (ih hc).imp_right (List.mem_cons_of_mem _)
        · exact (ih hc).imp_right (List.mem_cons_of_mem _)

theorem decode_encode (data : List (BitVec 8)) : decode (encode data) = data := by
  unfold decode encode
  rw [filter_lines fun hmem => (encGroups_alphabet hmem).1 rfl, decGroups_encGroups]

theorem length_encode (data : List (BitVec 8)) :
    (encode data).length =
      4 * ((data.length + 2) / 3) + ((data.length + 2) / 3 + 15) / 16 := by
  unfold encode
  rw [length_lines (by decide), length_encGroups]
  omega

theorem mem_encode {data : List (BitVec 8)} {c : BitVec 8} (hc : c ∈ encode data) :
    c ≠ 0x2D ∧ c ≠ 0 := by
  rcases mem_lines hc with rfl | hc
  · decide
  · exact (encGroups_alphabet hc).2

theorem length_decGroups (text : List (BitVec 8)) :
    4 * (decGroups text).length ≤ 3 * text.length := by
  fun_induction decGroups text with
  | case1 x y z t text ih =>
      have htake : ((bytes (decChar x) (decChar y) (decChar z) (decChar t)).take
          (3 - [z, t].count PAD)).length ≤ 3 := List.length_take_le' _ _
      rw [List.length_append]
      change _ ≤ 3 * (text.length + 1 + 1 + 1 + 1)
      omega
  | case2 => exact Nat.zero_le _

theorem length_decode (text : List (BitVec 8)) : 4 * (decode text).length ≤ 3 * text.length := by
  have hfilter := List.length_filter_le (fun c => decide (c ≠ LF)) text
  exact (length_decGroups _).trans (by omega)

end Base64

end ApolloContrib.Library
