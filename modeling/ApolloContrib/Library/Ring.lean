import Mathlib.Data.List.Basic
import Mathlib.Data.List.Nodup
import Mathlib.Logic.Function.Basic

namespace ApolloContrib.Library

/-! Arithmetic of a ring of `num` slots that is read at `head` and written at
`tail`.  One slot stays free, so `head = tail` means empty. -/

variable {num head tail : Nat} {α : Type*}

/-- The number of slots from `head` up to `tail`. -/
def ringCount (num head tail : Nat) : Nat :=
  if head ≤ tail then tail - head else num + tail - head

theorem mod_of_lt_two_mul {x : Nat} (hx : x < 2 * num) :
    x % num = if x < num then x else x - num := by
  by_cases hlt : x < num
  · rw [if_pos hlt, Nat.mod_eq_of_lt hlt]
  · rw [if_neg hlt, Nat.mod_eq_sub_mod (by omega), Nat.mod_eq_of_lt (by omega)]

theorem ringCount_lt (hhead : head < num) (htail : tail < num) :
    ringCount num head tail < num := by
  unfold ringCount
  split <;> omega

@[simp] theorem ringCount_self : ringCount num head head = 0 := by
  simp [ringCount]

theorem ringCount_eq_zero_iff (hhead : head < num) :
    ringCount num head tail = 0 ↔ head = tail := by
  unfold ringCount
  split <;> omega

theorem head_add_ringCount (hhead : head < num) (htail : tail < num) :
    (head + ringCount num head tail) % num = tail := by
  rcases Nat.lt_or_ge tail head with hwrap | hle
  · rw [ringCount, if_neg (by omega), mod_of_lt_two_mul (by omega),
      if_neg (by omega)]
    omega
  · rw [ringCount, if_pos hle, Nat.mod_eq_of_lt (by omega)]
    omega

theorem ringCount_head_add {k : Nat} (hhead : head < num) (hk : k < num) :
    ringCount num head ((head + k) % num) = k := by
  rw [mod_of_lt_two_mul (by omega)]
  unfold ringCount
  split <;> split <;> omega

theorem ringCount_mod {i j : Nat} (hnum : 0 < num) (hle : i ≤ j) (hless : j < i + num) :
    ringCount num (i % num) (j % num) = j - i := by
  have hcount := ringCount_head_add (Nat.mod_lt i hnum) (show j - i < num by omega)
  rw [Nat.mod_add_mod, Nat.add_sub_cancel' hle] at hcount
  exact hcount

theorem next_eq_head_iff (hhead : head < num) (htail : tail < num) :
    (tail + 1) % num = head ↔ ringCount num head tail + 1 = num := by
  rw [mod_of_lt_two_mul (by omega)]
  unfold ringCount
  split <;> split <;> omega

theorem ringCount_next (hhead : head < num) (htail : tail < num)
    (hroom : ringCount num head tail + 1 < num) :
    ringCount num head ((tail + 1) % num) = ringCount num head tail + 1 := by
  rw [mod_of_lt_two_mul (by omega)]
  unfold ringCount at *
  split at hroom <;> split <;> split <;> omega

theorem ringCount_advance {k : Nat} (hhead : head < num) (htail : tail < num)
    (hk : k ≤ ringCount num head tail) :
    ringCount num ((head + k) % num) tail = ringCount num head tail - k := by
  have hcount := ringCount_lt hhead htail
  rw [mod_of_lt_two_mul (by omega)]
  unfold ringCount at *
  split at hk <;> split <;> split <;> omega

/-- Advancing the head past the tail makes the ring look nearly full. -/
theorem ringCount_overtake {k : Nat} (hhead : head < num) (htail : tail < num)
    (hk : ringCount num head tail < k) (hnum : k ≤ num) :
    ringCount num ((head + k) % num) tail = num + ringCount num head tail - k := by
  rw [mod_of_lt_two_mul (by omega)]
  unfold ringCount at *
  split at hk <;> split <;> split <;> omega

/-- The `n` slot indices from `head` on. -/
def ringIndices (num head n : Nat) : List Nat :=
  (List.range n).map fun i => (head + i) % num

@[simp] theorem length_ringIndices (n : Nat) :
    (ringIndices num head n).length = n := by
  simp [ringIndices]

@[simp] theorem ringIndices_zero : ringIndices num head 0 = [] := rfl

theorem ringIndices_append (a b : Nat) :
    ringIndices num head (a + b) =
      ringIndices num head a ++ ringIndices num ((head + a) % num) b := by
  simp only [ringIndices, List.range_add, List.map_append, List.map_map]
  congr 1
  apply List.map_congr_left
  intro i _
  simp only [Function.comp]
  rw [Nat.mod_add_mod, Nat.add_assoc]

theorem ringIndices_succ (hhead : head < num) (n : Nat) :
    ringIndices num head (n + 1) =
      head :: ringIndices num ((head + 1) % num) n := by
  rw [Nat.add_comm n 1, ringIndices_append]
  simp [ringIndices, Nat.mod_eq_of_lt hhead]

theorem ringIndices_succ_last (n : Nat) :
    ringIndices num head (n + 1) =
      ringIndices num head n ++ [(head + n) % num] := by
  rw [ringIndices_append]
  simp [ringIndices]

theorem drop_ringIndices {k n : Nat} (hk : k ≤ n) :
    (ringIndices num head n).drop k =
      ringIndices num ((head + k) % num) (n - k) := by
  obtain ⟨m, rfl⟩ := Nat.exists_eq_add_of_le hk
  rw [ringIndices_append, Nat.add_sub_cancel_left]
  exact List.drop_left' (length_ringIndices k)

theorem take_ringIndices {k n : Nat} (hk : k ≤ n) :
    (ringIndices num head n).take k = ringIndices num head k := by
  obtain ⟨m, rfl⟩ := Nat.exists_eq_add_of_le hk
  rw [ringIndices_append]
  exact List.take_left' (length_ringIndices k)

theorem mem_ringIndices {n i : Nat} :
    i ∈ ringIndices num head n ↔ ∃ k, k < n ∧ (head + k) % num = i := by
  simp [ringIndices]

theorem mem_ringIndices_iff {n i : Nat} (hhead : head < num) (hi : i < num)
    (hn : n ≤ num) :
    i ∈ ringIndices num head n ↔ ringCount num head i < n := by
  rw [mem_ringIndices]
  constructor
  · rintro ⟨k, hk, rfl⟩
    rw [ringCount_head_add hhead (by omega)]
    exact hk
  · intro hcount
    exact ⟨ringCount num head i, hcount, head_add_ringCount hhead hi⟩

theorem ringIndices_nodup {n : Nat} (hhead : head < num) (hn : n ≤ num) :
    (ringIndices num head n).Nodup := by
  refine List.Nodup.map_on ?_ List.nodup_range
  intro i hi j hj heq
  have hi := List.mem_range.mp hi
  have hj := List.mem_range.mp hj
  rw [← ringCount_head_add hhead (show i < num by omega), heq,
    ringCount_head_add hhead (by omega)]

end ApolloContrib.Library
