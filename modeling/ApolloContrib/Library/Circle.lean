import Mathlib.Algebra.Order.Field.Basic
import Mathlib.Tactic.LinearCombination
import Mathlib.Tactic.Ring
import Mathlib.Tactic.Linarith

namespace ApolloContrib.Library

/-! Angles of a circle, as numbers up to whole turns. -/

variable {K : Type*} [Field K] [LinearOrder K] [IsStrictOrderedRing K]

def InTurn (turn angle : K) : Prop := 0 ≤ angle ∧ angle < turn

def SameAngle (turn first second : K) : Prop := ∃ turns : ℤ, first = second + turns * turn

/-- From `start` to `next` it is `step` forward, the short way. -/
structure StepsTo (turn start next step : K) : Prop where
  forward : 0 ≤ step
  short : 2 * step < turn
  reaches : SameAngle turn next (start + step)

variable {turn : K}

omit [LinearOrder K] [IsStrictOrderedRing K] in
theorem SameAngle.refl (angle : K) : SameAngle turn angle angle := ⟨0, by simp⟩

/-- Two angles of one turn that are the same but for a number between minus one turn and one. -/
theorem turns_eq {turns : ℤ} {difference : K} (hturn : 0 < turn) (hlow : -turn < difference)
    (hhigh : difference < turn) (hshare : InTurn turn (difference - turns * turn)) :
    (turns = 0 ∧ 0 ≤ difference) ∨ (turns = -1 ∧ difference < 0) := by
  obtain ⟨hnonneg, hless⟩ := hshare
  have hupper : turns < 1 := by
    by_contra h
    have hcast : (1 : K) ≤ turns := by exact_mod_cast not_lt.mp h
    nlinarith
  have hlower : -2 < turns := by
    by_contra h
    have hcast : (turns : K) ≤ -2 := by exact_mod_cast not_lt.mp h
    nlinarith
  obtain rfl | rfl : turns = 0 ∨ turns = -1 := by omega
  · refine Or.inl ⟨rfl, ?_⟩
    simpa using hnonneg
  · refine Or.inr ⟨rfl, ?_⟩
    rw [Int.cast_neg, Int.cast_one] at hless
    linarith

/-- Where a part of the difference of two angles lies on the way from the first to the second,
the difference does not go over the end of the turn. -/
theorem le_of_part {start next step share part : K} (hstart : InTurn turn start)
    (hnext : InTurn turn next) (hsteps : StepsTo turn start next step) (hshare : 0 ≤ share)
    (hle : share ≤ step) (hpart : 0 < part) (hone : part < 1)
    (hsame : SameAngle turn (start + part * (next - start)) (start + share)) : start ≤ next := by
  have hturn : 0 < turn := hstart.1.trans_lt hstart.2
  have hshort : step < turn := by linarith [hsteps.forward, hsteps.short]
  obtain ⟨turns, hturns⟩ := hsteps.reaches
  obtain ⟨others, hothers⟩ := hsame
  have hdifference : next - start - turns * turn = step := by
    rw [hturns]
    ring
  have hlow : -turn < next - start := by linarith [hnext.1, hstart.2]
  have hhigh : next - start < turn := by linarith [hstart.1, hnext.2]
  have hmiddle : part * (next - start) - others * turn = share := by
    linear_combination hothers
  have hstep : InTurn turn (next - start - turns * turn) :=
    hdifference ▸ ⟨hsteps.forward, hshort⟩
  rcases turns_eq hturn hlow hhigh hstep with ⟨-, hnonneg⟩ | ⟨rfl, hneg⟩
  · exact sub_nonneg.mp hnonneg
  · have hback : next - start = step - turn := by
      rw [Int.cast_neg, Int.cast_one] at hdifference
      linarith
    rw [hback] at hmiddle
    have hpartLow : -turn < part * (step - turn) := by nlinarith [hsteps.forward]
    have hpartHigh : part * (step - turn) < 0 := by nlinarith
    have hpartStep : InTurn turn (part * (step - turn) - others * turn) :=
      hmiddle ▸ ⟨hshare, hle.trans_lt hshort⟩
    rcases turns_eq hturn hpartLow (hpartHigh.trans hturn) hpartStep with
      ⟨-, hnonneg⟩ | ⟨rfl, -⟩
    · exact absurd hpartHigh hnonneg.not_gt
    · rw [Int.cast_neg, Int.cast_one] at hmiddle
      nlinarith

end ApolloContrib.Library
