import Mathlib.Data.List.Induction
import Mathlib.Data.Prod.Lex
import Mathlib.Order.Bounds.Basic

namespace ApolloContrib.Library

/-! A search for the smallest of a list, the first on ties, by one pass that keeps the
smallest so far. -/

variable {D ι : Type*} [LinearOrder D]

def closer (best next : D × ι) : D × ι := if next.1 < best.1 then next else best

def ranked (found : List (D × ι)) : Set (D ×ₗ ι) := {rank | ofLex rank ∈ found}

def Indexed [LT ι] (found : List (D × ι)) : Prop :=
  found.Pairwise fun earlier later => earlier.2 < later.2

section Rules

variable [LinearOrder ι] {found : List (D × ι)}

omit [LinearOrder D] [LinearOrder ι] in
theorem ranked_append (found : List (D × ι)) (next : D × ι) :
    ranked (found ++ [next]) = insert (toLex next) (ranked found) := by
  ext rank
  unfold ranked
  rw [Set.mem_ofPred_eq, List.mem_append, List.mem_singleton, or_comm]
  rfl

/-- Something no smaller that comes later does not change the least. -/
theorem IsLeast.closer {best next : D × ι} (hbest : IsLeast (ranked found) (toLex best))
    (hindex : best.2 < next.2) :
    IsLeast (ranked (found ++ [next])) (toLex (closer best next)) := by
  rw [ranked_append]
  have hmin := hbest.insert (toLex next)
  unfold Library.closer
  split_ifs with hcloser
  · have hle : toLex next ≤ toLex best := Prod.Lex.toLex_le_toLex.mpr (Or.inl hcloser)
    rwa [min_eq_left hle] at hmin
  · have hle : toLex best ≤ toLex next :=
      Prod.Lex.toLex_le_toLex'.mpr ⟨not_lt.mp hcloser, fun _ => hindex.le⟩
    rwa [min_eq_right hle] at hmin

/-- The pass ends at the least, unless nothing is below where it starts. -/
theorem foldl_closer_cases (start : D × ι) (hindexed : Indexed found) :
    (∀ other ∈ found, start.1 ≤ other.1) ∧ found.foldl closer start = start ∨
      (found.foldl closer start).1 < start.1 ∧
        IsLeast (ranked found) (toLex (found.foldl closer start)) := by
  induction found using List.reverseRec with
  | nil => exact Or.inl ⟨nofun, rfl⟩
  | append_singleton found next ih =>
      obtain ⟨hearlier, -, hlater⟩ := List.pairwise_append.mp hindexed
      rw [List.foldl_append, List.foldl_cons, List.foldl_nil]
      rcases ih hearlier with ⟨hnone, hstart⟩ | ⟨hbelow, hleast⟩
      · rw [hstart]
        rcases lt_or_ge next.1 start.1 with hlt | hge
        · right
          rw [closer, if_pos hlt, ranked_append]
          refine ⟨hlt, Set.mem_insert _ _, ?_⟩
          rintro rank (rfl | hrank)
          · exact le_rfl
          · exact Prod.Lex.le_iff.mpr (Or.inl (hlt.trans_le (hnone _ hrank)))
        · left
          refine ⟨fun other hother => ?_, if_neg (not_lt.mpr hge)⟩
          rcases List.mem_append.mp hother with hother | hother
          · exact hnone other hother
          · rwa [List.mem_singleton.mp hother]
      · right
        refine ⟨?_, IsLeast.closer hleast (hlater _ hleast.1 next List.mem_cons_self)⟩
        unfold closer
        split_ifs with hcloser
        · exact hcloser.trans hbelow
        · exact hbelow

/-- Where the pass ends: at the least that is below `start`, at `start` when nothing is. -/
def Stands (ranks : Set (D ×ₗ ι)) (start : D × ι) (index : ι) : Prop :=
  (∃ least < start.1, IsLeast ranks (toLex (least, index))) ∨
    index = start.2 ∧ ∀ rank ∈ ranks, start.1 ≤ (ofLex rank).1

/-- Something is below `start`, or is at it. -/
def Within (ranks : Set (D ×ₗ ι)) (start : D × ι) : Prop :=
  (∃ rank ∈ ranks, (ofLex rank).1 < start.1) ∨ toLex start ∈ ranks

variable {ranks : Set (D ×ₗ ι)} {start : D × ι} {index other : ι}

theorem stands_foldl_closer (start : D × ι) (hindexed : Indexed found) :
    Stands (ranked found) start (found.foldl closer start).2 := by
  rcases foldl_closer_cases start hindexed with ⟨hnone, hstart⟩ | ⟨hbelow, hleast⟩
  · exact Or.inr ⟨congrArg Prod.snd hstart, fun rank hrank => hnone _ hrank⟩
  · exact Or.inl ⟨_, hbelow, hleast⟩

theorem Stands.unique (hindex : Stands ranks start index) (hother : Stands ranks start other) :
    index = other := by
  rcases hindex with ⟨least, hbelow, hleast⟩ | ⟨rfl, hnone⟩
  · rcases hother with ⟨least', hbelow', hleast'⟩ | ⟨-, hnone⟩
    · exact congrArg (fun rank => (ofLex rank).2) (hleast.unique hleast')
    · exact absurd (hnone _ hleast.1) (not_le.mpr hbelow)
  · rcases hother with ⟨least, hbelow, hleast⟩ | ⟨rfl, -⟩
    · exact absurd (hnone _ hleast.1) (not_le.mpr hbelow)
    · rfl

/-- The pass ends at the least, where the least is no farther than `start`. -/
theorem Stands.isLeast_iff (hstands : Stands ranks start index) (hfirst : ∀ i, start.2 ≤ i) :
    (∃ least ≤ start.1, IsLeast ranks (toLex (least, index))) ↔ Within ranks start := by
  rcases hstands with ⟨least, hbelow, hleast⟩ | ⟨rfl, hnone⟩
  · exact iff_of_true ⟨least, hbelow.le, hleast⟩ (Or.inl ⟨_, hleast.1, hbelow⟩)
  · constructor
    · rintro ⟨least, hle, hleast⟩
      obtain rfl : least = start.1 := le_antisymm hle (hnone _ hleast.1)
      exact Or.inr hleast.1
    · rintro (⟨rank, hrank, hbelow⟩ | hmem)
      · exact absurd (hnone rank hrank) (not_le.mpr hbelow)
      · refine ⟨start.1, le_rfl, hmem, fun rank hrank => ?_⟩
        exact Prod.Lex.le_iff'.mpr ⟨hnone rank hrank, fun _ => hfirst _⟩

end Rules

theorem foldlM_closer {α ε : Type*} {complete : α → Prop} {found : α → List (D × ι)}
    {round : D × ι → α → Except ε (D × ι)}
    (hround : ∀ best x, complete x → round best x = .ok ((found x).foldl closer best))
    {l : List α} (hl : ∀ x ∈ l, complete x) (start : D × ι) :
    l.foldlM round start = .ok ((l.flatMap found).foldl closer start) := by
  induction l generalizing start with
  | nil => rfl
  | cons x l ih =>
      obtain ⟨hx, hl⟩ := List.forall_mem_cons.mp hl
      rw [List.foldlM_cons, hround start x hx, List.flatMap_cons, List.foldl_append]
      exact ih hl _

end ApolloContrib.Library
