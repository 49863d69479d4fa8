import Mathlib.Data.List.Basic

namespace ApolloContrib.Library

/-! Items that are numbered when they enter a queue and lose their number when
they leave it. -/

variable {bound : Nat} {numbers rest : List (Option Nat)}

/-- Every item has a number below `bound`, and later items have larger ones. -/
def Increasing (bound : Nat) (numbers : List (Option Nat)) : Prop :=
  ∃ seqs : List Nat, numbers = seqs.map some ∧ seqs.Pairwise (· < ·) ∧
    ∀ seq ∈ seqs, seq < bound

theorem Increasing.nil : Increasing bound [] :=
  ⟨[], rfl, List.Pairwise.nil, fun _ hmem => absurd hmem List.not_mem_nil⟩

theorem Increasing.push (hinc : Increasing bound numbers) :
    Increasing (bound + 1) (numbers ++ [some bound]) := by
  obtain ⟨seqs, rfl, hpair, hlt⟩ := hinc
  refine ⟨seqs ++ [bound], by simp, ?_, ?_⟩
  · refine List.pairwise_append.mpr ⟨hpair, List.pairwise_singleton _ _, ?_⟩
    intro seq hseq last hlast
    obtain rfl := List.mem_singleton.mp hlast
    exact hlt seq hseq
  · intro seq hseq
    rcases List.mem_append.mp hseq with hold | hnew
    · exact Nat.lt_succ_of_lt (hlt seq hold)
    · obtain rfl := List.mem_singleton.mp hnew
      exact Nat.lt_succ_self _

theorem Increasing.sublist (hinc : Increasing bound numbers)
    (hsub : List.Sublist rest numbers) : Increasing bound rest := by
  obtain ⟨seqs, rfl, hpair, hlt⟩ := hinc
  obtain ⟨kept, hkept, rfl⟩ := List.sublist_map_iff.mp hsub
  exact ⟨kept, rfl, hpair.sublist hkept, fun seq hseq => hlt seq (hkept.subset hseq)⟩

end ApolloContrib.Library
