import Mathlib.Algebra.Group.Nat.Defs
import Mathlib.Data.Nat.Basic

namespace ApolloContrib.Library

/-! Division by shifting and subtracting: what is left of the dividend, and the quotient so
far, after the divisor was tried at each of `k` places, the highest first. -/

def divideFrom (divisor : Nat) : Nat → Nat × Nat → Nat × Nat
  | 0, state => state
  | k + 1, (rem, quotient) =>
      if divisor * 2 ^ k ≤ rem then
        divideFrom divisor k (rem - divisor * 2 ^ k, quotient + 2 ^ k)
      else divideFrom divisor k (rem, quotient)

variable {divisor k rem quotient : Nat}

/-- By induction on the places. -/
theorem divideFrom_eq (hless : rem < divisor * 2 ^ k) :
    divideFrom divisor k (rem, quotient) = (rem % divisor, quotient + rem / divisor) := by
  induction k generalizing rem quotient with
  | zero =>
      rw [Nat.pow_zero, Nat.mul_one] at hless
      rw [Nat.mod_eq_of_lt hless, Nat.div_eq_of_lt hless]
      rfl
  | succ k ih =>
      rw [divideFrom]
      split
      · next hfits =>
          have hrest : rem - divisor * 2 ^ k < divisor * 2 ^ k := by
            rw [Nat.pow_succ, ← Nat.mul_assoc] at hless
            omega
          have hpos : 0 < divisor := Nat.pos_of_ne_zero fun hzero => by simp [hzero] at hless
          obtain ⟨rest, rfl⟩ := Nat.exists_eq_add_of_le hfits
          rw [ih hrest, Nat.add_sub_cancel_left, Nat.mul_add_mod, Nat.mul_add_div hpos,
            Nat.add_assoc]
      · next hover => exact ih (not_le.mp hover)

theorem div_sub_multiple {m n : Nat} (hpos : 0 < divisor) (hfits : divisor * m ≤ n) :
    (n - divisor * m) % divisor = n % divisor ∧ m + (n - divisor * m) / divisor = n / divisor := by
  obtain ⟨rest, rfl⟩ := Nat.exists_eq_add_of_le hfits
  rw [Nat.add_sub_cancel_left, Nat.mul_add_mod, Nat.mul_add_div hpos]
  exact ⟨rfl, rfl⟩

end ApolloContrib.Library
