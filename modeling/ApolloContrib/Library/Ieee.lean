import Mathlib.Algebra.Group.Nat.Defs
import Mathlib.Data.List.Induction
import Mathlib.Order.MinMax

namespace ApolloContrib.Library

/-! Numbers of the binary formats of IEEE 754 by their bits: what is no number, and the order of
the others, whose bits without the sign are ordered like their values. -/

namespace Ieee

/-- The bits of a number of `exponent + fraction` bits and a sign. -/
structure Format where
  exponent : Nat
  fraction : Nat

def single : Format := ⟨8, 23⟩

def double : Format := ⟨11, 52⟩

variable (format : Format)

def magnitude (bits : Nat) : Nat := bits % 2 ^ (format.exponent + format.fraction)

def infinity : Nat := (2 ^ format.exponent - 1) * 2 ^ format.fraction

def IsNan (bits : Nat) : Prop := infinity format < magnitude format bits

instance decidableIsNan (bits : Nat) : Decidable (IsNan format bits) :=
  inferInstanceAs (Decidable (_ < _))

/-- Zero has two forms of the same rank. -/
def rank (bits : Nat) : Int :=
  if bits / 2 ^ (format.exponent + format.fraction) % 2 = 1 then -(magnitude format bits : Int)
  else magnitude format bits

def lt (first second : Nat) : Bool :=
  !decide (IsNan format first) && !decide (IsNan format second) &&
    decide (rank format first < rank format second)

def Same (first second : Nat) : Prop :=
  ¬ IsNan format first ∧ ¬ IsNan format second ∧ rank format first = rank format second

instance decidableSame (first second : Nat) : Decidable (Same format first second) :=
  inferInstanceAs (Decidable (_ ∧ _))

def greatest : Nat := infinity format - 1

/-- The least and the greatest so far, with one more. -/
def widen (extremes : Nat × Nat) (bits : Nat) : Nat × Nat :=
  (if lt format bits extremes.1 then bits else extremes.1,
    if lt format extremes.2 bits then bits else extremes.2)

/-- The least of `ceiling` and the numbers of `values`, and the greatest of `bottom` and these. -/
structure Spans (ceiling bottom : Nat) (values : List Nat) (extremes : Nat × Nat) : Prop where
  leastIsNumber : ¬ IsNan format extremes.1
  greatestIsNumber : ¬ IsNan format extremes.2
  least_le_ceiling : rank format extremes.1 ≤ rank format ceiling
  bottom_le_greatest : rank format bottom ≤ rank format extremes.2
  least_le : ∀ bits ∈ values, ¬ IsNan format bits → rank format extremes.1 ≤ rank format bits
  le_greatest : ∀ bits ∈ values, ¬ IsNan format bits →
    rank format bits ≤ rank format extremes.2
  least : extremes.1 = ceiling ∨ extremes.1 ∈ values
  greatest : extremes.2 = bottom ∨ extremes.2 ∈ values

def AllOne (bottom ceiling : Nat) (values : List Nat) : Prop :=
  ∃ bits ∈ values, ¬ IsNan format bits ∧ rank format bottom ≤ rank format bits ∧
    rank format bits ≤ rank format ceiling ∧
    ∀ other ∈ values, ¬ IsNan format other → rank format other = rank format bits

section Rules

variable {format} {ceiling bottom : Nat} {values : List Nat} {extremes : Nat × Nat}

theorem lt_iff {first second : Nat} :
    lt format first second = true ↔
      ¬ IsNan format first ∧ ¬ IsNan format second ∧ rank format first < rank format second := by
  simp only [lt, Bool.and_eq_true, Bool.not_eq_true', decide_eq_false_iff_not, decide_eq_true_eq,
    and_assoc]

theorem spans_nil (hceiling : ¬ IsNan format ceiling) (hbottom : ¬ IsNan format bottom) :
    Spans format ceiling bottom [] (ceiling, bottom) :=
  ⟨hceiling, hbottom, le_rfl, le_rfl, nofun, nofun, Or.inl rfl, Or.inl rfl⟩

theorem Spans.least_append (h : Spans format ceiling bottom values extremes) (bits : Nat) :
    let least := if lt format bits extremes.1 then bits else extremes.1
    ¬ IsNan format least ∧ rank format least ≤ rank format extremes.1 ∧
      (¬ IsNan format bits → rank format least ≤ rank format bits) ∧
      (least = extremes.1 ∨ least = bits) := by
  dsimp only
  split
  next hlt =>
    obtain ⟨hnumber, -, hless⟩ := lt_iff.mp hlt
    exact ⟨hnumber, hless.le, fun _ => le_rfl, Or.inr rfl⟩
  next hlt =>
    refine ⟨h.leastIsNumber, le_rfl, fun hnumber => ?_, Or.inl rfl⟩
    exact not_lt.mp fun hless => hlt (lt_iff.mpr ⟨hnumber, h.leastIsNumber, hless⟩)

theorem Spans.greatest_append (h : Spans format ceiling bottom values extremes) (bits : Nat) :
    let greatest := if lt format extremes.2 bits then bits else extremes.2
    ¬ IsNan format greatest ∧ rank format extremes.2 ≤ rank format greatest ∧
      (¬ IsNan format bits → rank format bits ≤ rank format greatest) ∧
      (greatest = extremes.2 ∨ greatest = bits) := by
  dsimp only
  split
  next hlt =>
    obtain ⟨-, hnumber, hless⟩ := lt_iff.mp hlt
    exact ⟨hnumber, hless.le, fun _ => le_rfl, Or.inr rfl⟩
  next hlt =>
    refine ⟨h.greatestIsNumber, le_rfl, fun hnumber => ?_, Or.inl rfl⟩
    exact not_lt.mp fun hless => hlt (lt_iff.mpr ⟨h.greatestIsNumber, hnumber, hless⟩)

theorem Spans.widen (h : Spans format ceiling bottom values extremes) (bits : Nat) :
    Spans format ceiling bottom (values ++ [bits]) (widen format extremes bits) := by
  obtain ⟨hleast, hleastLe, hleastBits, hleastCases⟩ := h.least_append bits
  obtain ⟨hgreatest, hleGreatest, hbitsGreatest, hgreatestCases⟩ := h.greatest_append bits
  refine ⟨hleast, hgreatest, hleastLe.trans h.least_le_ceiling,
    h.bottom_le_greatest.trans hleGreatest, ?_, ?_, ?_, ?_⟩
  · intro other hother hnumber
    rcases List.mem_append.mp hother with hbefore | hlast
    · exact hleastLe.trans (h.least_le other hbefore hnumber)
    · obtain rfl := List.mem_singleton.mp hlast
      exact hleastBits hnumber
  · intro other hother hnumber
    rcases List.mem_append.mp hother with hbefore | hlast
    · exact (h.le_greatest other hbefore hnumber).trans hleGreatest
    · obtain rfl := List.mem_singleton.mp hlast
      exact hbitsGreatest hnumber
  · rcases hleastCases with heq | heq
    · rcases h.least with hstart | hmem
      · exact Or.inl (heq.trans hstart)
      · rw [← heq] at hmem
        exact Or.inr (List.mem_append_left _ hmem)
    · exact Or.inr (List.mem_append_right _ (List.mem_singleton.mpr heq))
  · rcases hgreatestCases with heq | heq
    · rcases h.greatest with hstart | hmem
      · exact Or.inl (heq.trans hstart)
      · rw [← heq] at hmem
        exact Or.inr (List.mem_append_left _ hmem)
    · exact Or.inr (List.mem_append_right _ (List.mem_singleton.mpr heq))

theorem spans_foldl_widen (hceiling : ¬ IsNan format ceiling) (hbottom : ¬ IsNan format bottom) :
    Spans format ceiling bottom values (values.foldl (Ieee.widen format) (ceiling, bottom)) := by
  induction values using List.reverseRecOn with
  | nil => exact spans_nil hceiling hbottom
  | append_singleton values bits ih =>
      rw [List.foldl_append]
      exact ih.widen bits

/-- From the wrong way round, the two meet where there is just one number. -/
theorem Spans.same_iff (h : Spans format ceiling bottom values extremes)
    (hcross : rank format bottom < rank format ceiling) :
    Same format extremes.1 extremes.2 ↔ AllOne format bottom ceiling values := by
  constructor
  · rintro ⟨-, -, hsame⟩
    have hmeet : ∀ bits, rank format bits = rank format extremes.1 →
        rank format bottom ≤ rank format bits ∧ rank format bits ≤ rank format ceiling ∧
          ∀ other ∈ values, ¬ IsNan format other → rank format other = rank format bits := by
      intro bits hbits
      refine ⟨hbits ▸ hsame ▸ h.bottom_le_greatest, hbits ▸ h.least_le_ceiling, ?_⟩
      intro other hother hnumber
      exact le_antisymm ((h.le_greatest other hother hnumber).trans (hbits ▸ hsame).ge)
        (hbits ▸ h.least_le other hother hnumber)
    rcases h.least with hleast | hleast
    · rcases h.greatest with hgreatest | hgreatest
      · rw [hleast, hgreatest] at hsame
        exact absurd hsame hcross.ne'
      · exact ⟨_, hgreatest, h.greatestIsNumber, hmeet _ hsame.symm⟩
    · exact ⟨_, hleast, h.leastIsNumber, hmeet _ rfl⟩
  · rintro ⟨bits, hbits, hnumber, hbottom, hceiling, hone⟩
    refine ⟨h.leastIsNumber, h.greatestIsNumber, ?_⟩
    have hleast : rank format extremes.1 = rank format bits := by
      refine le_antisymm (h.least_le bits hbits hnumber) ?_
      rcases h.least with heq | hmem
      · exact heq ▸ hceiling
      · exact (hone _ hmem h.leastIsNumber).ge
    have hgreatest : rank format extremes.2 = rank format bits := by
      refine le_antisymm ?_ (h.le_greatest bits hbits hnumber)
      rcases h.greatest with heq | hmem
      · exact heq ▸ hbottom
      · exact (hone _ hmem h.greatestIsNumber).le
    rw [hleast, hgreatest]

end Rules

end Ieee

end ApolloContrib.Library
