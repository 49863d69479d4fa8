import Mathlib.Data.List.Basic
import Mathlib.Data.List.Perm.Basic
import Mathlib.Data.Nat.ModEq

namespace ApolloContrib.Library

/-! Numbered items in the `n` slots of a circular table, and the windows of
consecutive numbers that a list of slot offsets can hold. -/

/-- The offset of the slot that item `k` falls into. -/
def slotAt (n size k : Nat) : Nat := k % n * size

section Slots

variable {n size : Nat}

theorem slotAt_of_lt {k : Nat} (hk : k < n) : slotAt n size k = k * size := by
  rw [slotAt, Nat.mod_eq_of_lt hk]

theorem slotAt_self (n size : Nat) : slotAt n size n = 0 := by
  rw [slotAt, Nat.mod_self, Nat.zero_mul]

theorem slotAt_add_le (hn : 0 < n) (k : Nat) : slotAt n size k + size ≤ n * size := by
  rw [slotAt, ← Nat.succ_mul]
  exact Nat.mul_le_mul_right _ (Nat.mod_lt k hn)

theorem slotAt_add (k j : Nat) :
    (slotAt n size k + j * size) % (n * size) = slotAt n size (k + j) := by
  rw [slotAt, ← Nat.add_mul, Nat.mul_mod_mul_right, Nat.mod_add_mod, slotAt]

theorem slotAt_succ (hn : 0 < n) (k : Nat) :
    (if slotAt n size k + size ≥ n * size then slotAt n size k + size - n * size
      else slotAt n size k + size) = slotAt n size (k + 1) := by
  have hle : slotAt n size k + size ≤ n * size := slotAt_add_le hn k
  have hnext : (slotAt n size k + 1 * size) % (n * size) = slotAt n size (k + 1) :=
    slotAt_add k 1
  rw [Nat.one_mul] at hnext
  rw [← hnext]
  split
  next hend =>
    have heq : slotAt n size k + size = n * size := le_antisymm hle hend
    rw [heq, Nat.sub_self, Nat.mod_self]
  next hless => exact (Nat.mod_eq_of_lt (not_le.mp hless)).symm

theorem mod_inj {j k : Nat} (hle : k ≤ j) (hless : j < k + n) (heq : j % n = k % n) :
    j = k := by
  have hmod : Nat.ModEq n j k := heq
  have hdvd : n ∣ j - k := (Nat.modEq_iff_dvd' hle).mp hmod.symm
  have hzero : j - k = 0 := Nat.eq_zero_of_dvd_of_lt hdvd (by omega)
  omega

theorem slotAt_inj {j k : Nat} (hsize : 0 < size) (hle : k ≤ j) (hless : j < k + n)
    (heq : slotAt n size j = slotAt n size k) : j = k :=
  mod_inj hle hless (Nat.eq_of_mul_eq_mul_right hsize heq)

end Slots

/-- The offsets are those of the items from `first` up to `last`. -/
structure Window (n size : Nat) (offs : List Nat) (first last : Nat) : Prop where
  le : first ≤ last
  slots : offs.Perm ((List.range' first (last - first)).map (slotAt n size))

namespace Window

variable {n size first last : Nat} {offs rest : List Nat}

theorem length_eq (hwindow : Window n size offs first last) :
    offs.length = last - first := by
  rw [hwindow.slots.length_eq, List.length_map, List.length_range']

theorem mem (hwindow : Window n size offs first last) {k : Nat} (hfirst : first ≤ k)
    (hlast : k < last) : slotAt n size k ∈ offs := by
  refine hwindow.slots.mem_iff.mpr (List.mem_map_of_mem ?_)
  exact List.mem_range'_1.mpr ⟨hfirst, by omega⟩

theorem take (hwindow : Window n size offs first last) (hless : first < last)
    (hperm : offs.Perm (slotAt n size first :: rest)) :
    Window n size rest (first + 1) last := by
  refine ⟨hless, ?_⟩
  have hslots := hperm.symm.trans hwindow.slots
  obtain ⟨m, hm⟩ : ∃ m, last - first = m + 1 := ⟨last - first - 1, by omega⟩
  rw [hm, List.range'_succ, List.map_cons] at hslots
  rw [show last - (first + 1) = m by omega]
  exact hslots.cons_inv

theorem publish (hwindow : Window n size offs first last) :
    Window n size (offs ++ [slotAt n size last]) first (last + 1) := by
  have hle := hwindow.le
  refine ⟨by omega, ?_⟩
  have hnext : first + (last - first) = last := by omega
  rw [show last + 1 - first = last - first + 1 by omega, List.range'_1_concat,
    List.map_append, hnext]
  exact hwindow.slots.append_right _

theorem full (hperm : offs.Perm ((List.range n).map (· * size))) :
    Window n size offs 0 n := by
  refine ⟨Nat.zero_le n, hperm.trans (.of_eq ?_)⟩
  rw [Nat.sub_zero, ← List.range_eq_range']
  refine List.map_congr_left fun k hk => ?_
  exact (slotAt_of_lt (List.mem_range.mp hk)).symm

theorem slots_from (hwindow : Window n size offs first last) :
    offs.Perm ((List.range offs.length).map
      fun k => (slotAt n size first + k * size) % (n * size)) := by
  rw [hwindow.length_eq]
  refine hwindow.slots.trans (.of_eq ?_)
  rw [List.range'_eq_map_range, List.map_map]
  refine List.map_congr_left fun k _ => ?_
  exact (slotAt_add first k).symm

end Window

end ApolloContrib.Library
