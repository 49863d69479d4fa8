import Mathlib.Data.List.SplitBy
import Mathlib.Logic.Function.Basic

namespace ApolloContrib.Library

/-! Lists that are split between elements that are not related, and how the split grows
with the list. -/

section Split

variable {α : Type*} (r : α → α → Bool)

/-- `rest` goes on from where `list` ends. -/
def Continues (list rest : List α) : Prop :=
  (list.getLast?.toList ++ rest).IsChain fun x y => r x y

variable {r}

theorem isChain_append_of_continues {list rest : List α} (hlist : list.IsChain fun x y => r x y)
    (hcontinues : Continues r list rest) : (list ++ rest).IsChain fun x y => r x y := by
  obtain ⟨_, hrest, hborder⟩ := List.isChain_append.mp hcontinues
  refine List.isChain_append.mpr ⟨hlist, hrest, fun x hx y hy => hborder x ?_ y hy⟩
  rw [Option.mem_def] at hx
  simp [hx]

theorem continues_of_isChain_append {list rest : List α}
    (hchain : (list ++ rest).IsChain fun x y => r x y) : Continues r list rest := by
  obtain ⟨_, hrest, hborder⟩ := List.isChain_append.mp hchain
  refine List.isChain_append.mpr ⟨?_, hrest, fun x hx y hy => hborder x ?_ y hy⟩
  · cases list.getLast? <;> simp
  · cases hlast : list.getLast? with
    | none => simp [hlast] at hx
    | some last => simpa [hlast] using hx

theorem splitBy_append_of_continues {list rest last : List α} {parts : List (List α)}
    (hsplit : list.splitBy r = parts ++ [last]) (hcontinues : Continues r list rest) :
    (list ++ rest).splitBy r = parts ++ [last ++ rest] := by
  obtain ⟨hflatten, hnil, hchains, hborders⟩ := List.splitBy_eq_iff.mp hsplit
  have hlast : last ≠ [] := fun hempty => hnil (by simp [hempty])
  have hgetLast : list.getLast? = last.getLast? := by
    rw [hflatten, List.flatten_append, List.flatten_singleton,
      List.getLast?_append_of_ne_nil _ hlast]
  refine List.splitBy_eq_iff.mpr ⟨by simp [hflatten], ?_, ?_, ?_⟩
  · simp only [List.mem_append, List.mem_singleton, not_or] at hnil ⊢
    exact ⟨hnil.1, fun hempty => hlast (List.append_eq_nil_iff.mp hempty.symm).1⟩
  · intro part hpart
    rcases List.mem_append.mp hpart with hold | hnew
    · exact hchains part (List.mem_append_left _ hold)
    · rw [List.mem_singleton.mp hnew]
      refine isChain_append_of_continues (hchains last (by simp)) ?_
      unfold Continues at hcontinues ⊢
      rwa [hgetLast] at hcontinues
  · obtain ⟨hparts, _, hborder⟩ := List.isChain_append.mp hborders
    refine List.isChain_append.mpr ⟨hparts, by simp, fun x hx y hy => ?_⟩
    obtain ⟨hx', hy', hbreak⟩ := hborder x hx last (by simp)
    simp only [List.head?_cons, Option.mem_def, Option.some.injEq] at hy
    subst hy
    exact ⟨hx', by simp [hlast], by rwa [List.head_append_of_ne_nil]⟩

theorem isChain_of_length_splitBy_le_one {list : List α} (hlength : (list.splitBy r).length ≤ 1) :
    list.IsChain fun x y => r x y := by
  obtain ⟨hflatten, _, hchains, _⟩ := List.splitBy_eq_iff.mp (rfl : list.splitBy r = _)
  match hparts : list.splitBy r, hlength with
  | [], _ =>
      rw [hparts] at hflatten
      rw [hflatten]
      simp
  | [part], _ =>
      rw [hparts] at hflatten hchains
      rw [hflatten, List.flatten_singleton]
      exact hchains part (by simp)

theorem length_splitBy_le_one {list : List α} (hchain : list.IsChain fun x y => r x y) :
    (list.splitBy r).length ≤ 1 := by
  by_cases hempty : list = []
  · simp [hempty]
  · rw [List.splitBy_of_isChain hempty hchain]
    exact Nat.le_refl 1

/-- `before` goes on from the list, and `after`, if there is any, is one part of its own. -/
structure BreaksAt (r : α → α → Bool) (list before after : List α) : Prop where
  continues : Continues r list before
  breaks : after ≠ [] → list ++ before ≠ [] ∧
    (∀ x ∈ (list ++ before).getLast?, ∀ y ∈ after.head?, r x y = false) ∧
    after.IsChain fun x y => r x y

variable {list before after : List α}

theorem BreaksAt.splitBy_of_isChain (hbreaks : BreaksAt r list before after)
    (hlist : list.IsChain fun x y => r x y) (hafter : after ≠ []) :
    (list ++ (before ++ after)).splitBy r = [list ++ before, after] := by
  obtain ⟨hne, hborder, hchain⟩ := hbreaks.breaks hafter
  rw [← List.append_assoc, List.splitBy_append hborder,
    List.splitBy_of_isChain hne (isChain_append_of_continues hlist hbreaks.continues),
    List.splitBy_of_isChain hafter hchain]
  rfl

theorem BreaksAt.splitBy (hbreaks : BreaksAt r list before after) {last : List α}
    {parts : List (List α)} (hsplit : list.splitBy r = parts ++ [last]) (hafter : after ≠ []) :
    (list ++ (before ++ after)).splitBy r = parts ++ [last ++ before] ++ [after] := by
  obtain ⟨_, hborder, hchain⟩ := hbreaks.breaks hafter
  rw [← List.append_assoc, List.splitBy_append hborder,
    splitBy_append_of_continues hsplit hbreaks.continues, List.splitBy_of_isChain hafter hchain]

theorem BreaksAt.not_continues (hbreaks : BreaksAt r list before after) (hafter : after ≠ []) :
    ¬ Continues r list (before ++ after) := by
  intro hcontinues
  obtain ⟨hne, hborder, _⟩ := hbreaks.breaks hafter
  have hlast : (list ++ before).getLast? ≠ none := mt List.getLast?_eq_none_iff.mp hne
  obtain ⟨x, hx⟩ := Option.ne_none_iff_exists'.mp hlast
  obtain ⟨y, rest, rfl⟩ := List.exists_cons_of_ne_nil hafter
  have hbreak := hborder x hx y rfl
  unfold Continues at hcontinues
  rw [← List.append_assoc] at hcontinues
  obtain ⟨_, _, hchain⟩ := List.isChain_append.mp hcontinues
  have hx' : x ∈ (list.getLast?.toList ++ before).getLast? := by
    rw [List.getLast?_append] at hx ⊢
    cases hlist : list.getLast? with
    | none => simpa [hlist] using hx
    | some last => simpa [hlist] using hx
  have hstays := hchain x hx' y rfl
  rw [hbreak] at hstays
  cases hstays

theorem breaksAt_of_splitBy {last : List α} {parts : List (List α)}
    (hlist : list = parts.flatten ++ last)
    (hlast : last ≠ [] ∨ parts = [])
    (hsplit : (list ++ (before ++ after)).splitBy r = parts ++ [last ++ before] ++ [after]) :
    BreaksAt r list before after := by
  obtain ⟨_, hnil, hchains, hborders⟩ := List.splitBy_eq_iff.mp hsplit
  have hpart : (last ++ before).IsChain fun x y => r x y := hchains _ (by simp)
  have hne : last ++ before ≠ [] := fun hempty => hnil (by simp [hempty])
  have hgetLast : (list ++ before).getLast? = (last ++ before).getLast? := by
    rw [hlist, List.append_assoc, List.getLast?_append_of_ne_nil _ hne]
  refine ⟨?_, fun _ => ⟨?_, ?_, hchains after (by simp)⟩⟩
  · have hcontinues := continues_of_isChain_append hpart
    unfold Continues at hcontinues ⊢
    rcases hlast with hlast | hparts
    · rwa [hlist, List.getLast?_append_of_ne_nil _ hlast]
    · rw [hlist, hparts]
      exact hcontinues
  · rw [hlist, List.append_assoc]
    exact List.append_ne_nil_of_right_ne_nil _ hne
  · intro x hx y hy
    rw [hgetLast] at hx
    obtain ⟨_, _, hborder⟩ := List.isChain_append.mp hborders
    obtain ⟨hx', hy', hbreak⟩ := hborder (last ++ before) (by simp) after (by simp)
    rw [List.getLast?_eq_getLast_of_ne_nil hx', Option.mem_def, Option.some.injEq] at hx
    rw [List.head?_eq_some_head hy', Option.mem_def, Option.some.injEq] at hy
    rwa [hx, hy] at hbreak

theorem length_splitBy_of_continues (hcontinues : Continues r list before)
    (hne : list ++ before ≠ [])
    (hborder : ∀ x ∈ (list ++ before).getLast?, ∀ y ∈ after.head?, r x y = false) :
    ((list.getLast?.toList ++ (before ++ after)).splitBy r).length =
      (after.splitBy r).length + 1 := by
  have hgetLast : (list.getLast?.toList ++ before).getLast? = (list ++ before).getLast? := by
    rw [List.getLast?_append, List.getLast?_append]
    cases list.getLast? <;> rfl
  have hstart : list.getLast?.toList ++ before ≠ [] := by
    intro hempty
    rw [hempty, List.getLast?_nil] at hgetLast
    exact hne (List.getLast?_eq_none_iff.mp hgetLast.symm)
  rw [← List.append_assoc, List.splitBy_append (hgetLast ▸ hborder),
    List.splitBy_of_isChain hstart hcontinues]
  simp

theorem continues_of_splitBy {rest last : List α} {parts : List (List α)}
    (hlist : list = parts.flatten ++ last) (hlast : last ≠ [])
    (hsplit : (list ++ rest).splitBy r = parts ++ [last ++ rest]) : Continues r list rest := by
  obtain ⟨_, _, hchains, _⟩ := List.splitBy_eq_iff.mp hsplit
  have hcontinues := continues_of_isChain_append (hchains (last ++ rest) (by simp))
  unfold Continues at hcontinues ⊢
  rwa [hlist, List.getLast?_append_of_ne_nil _ hlast]

end Split

section Update

variable {ι κ α : Type*} [DecidableEq κ] {g : ι → κ}

theorem foldl_update_of_notMem (f : ι → α → α) (hg : Function.Injective g) {indices : List ι}
    {i : ι} (hi : i ∉ indices) (start : κ → α) :
    indices.foldl (fun out j => Function.update out (g j) (f j (out (g j)))) start (g i) =
      start (g i) := by
  induction indices generalizing start with
  | nil => rfl
  | cons j indices ih =>
      rw [List.mem_cons, not_or] at hi
      rw [List.foldl_cons, ih hi.2, Function.update_of_ne (hg.ne hi.1)]

theorem foldl_update_of_mem (f : ι → α → α) (hg : Function.Injective g) {indices : List ι}
    (hnodup : indices.Nodup) {i : ι} (hi : i ∈ indices) (start : κ → α) :
    indices.foldl (fun out j => Function.update out (g j) (f j (out (g j)))) start (g i) =
      f i (start (g i)) := by
  induction indices generalizing start with
  | nil => cases hi
  | cons j indices ih =>
      obtain ⟨hj, hrest⟩ := List.nodup_cons.mp hnodup
      rw [List.foldl_cons]
      rcases List.mem_cons.mp hi with rfl | hi
      · rw [foldl_update_of_notMem f hg hj, Function.update_self]
      · have hne : i ≠ j := fun heq => hj (heq ▸ hi)
        rw [ih hrest hi, Function.update_of_ne (hg.ne hne)]

end Update

end ApolloContrib.Library
