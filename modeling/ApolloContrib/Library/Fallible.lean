import Mathlib.Data.List.Basic

namespace ApolloContrib.Library

/-! Loops over a list that end with an error at the first element they refuse. -/

variable {α β γ σ ε : Type*}

/-- The first in the list that is not `complete` is `bad`. -/
def FirstWrong (complete bad : α → Prop) : List α → Prop
  | [] => False
  | x :: l => (¬ complete x ∧ bad x) ∨ complete x ∧ FirstWrong complete bad l

instance decidableFirstWrong {complete bad : α → Prop} [DecidablePred complete]
    [DecidablePred bad] : DecidablePred (FirstWrong complete bad)
  | [] => isFalse id
  | _ :: l =>
      have : Decidable (FirstWrong complete bad l) := decidableFirstWrong l
      inferInstanceAs (Decidable (_ ∨ _))

section Rules

theorem bind_eq_ok {ρ τ : Type _} {x : Except ε ρ} {f : ρ → Except ε τ} {out : τ} :
    x >>= f = .ok out ↔ ∃ value, x = .ok value ∧ f value = .ok out := by
  cases x with
  | error error => exact iff_of_false nofun fun ⟨_, h, _⟩ => nomatch h
  | ok value => exact ⟨fun h => ⟨value, rfl, h⟩, fun ⟨_, h, hout⟩ => Except.ok.inj h ▸ hout⟩

variable {complete bad : α → Prop} {l : List α}

theorem firstWrong_of_forall (hl : ¬ ∀ x ∈ l, complete x) (hbad : ∀ x, bad x) :
    FirstWrong complete bad l := by
  induction l with
  | nil => exact hl fun _ => nofun
  | cons x l ih =>
      rcases Classical.em (complete x) with hx | hx
      · exact Or.inr ⟨hx, ih fun hall => hl (List.forall_mem_cons.mpr ⟨hx, hall⟩)⟩
      · exact Or.inl ⟨hx, hbad x⟩

theorem FirstWrong.not_forall (hwrong : FirstWrong complete bad l) : ¬ ∀ x ∈ l, complete x := by
  induction l with
  | nil => exact hwrong.elim
  | cons x l ih =>
      intro hall
      obtain ⟨hx, hl⟩ := List.forall_mem_cons.mp hall
      rcases hwrong with ⟨hnot, -⟩ | ⟨-, hrest⟩
      · exact hnot hx
      · exact ih hrest hl

theorem firstWrong_cons_of_complete {x : α} (hx : complete x) :
    FirstWrong complete bad (x :: l) ↔ FirstWrong complete bad l :=
  ⟨fun h => h.elim (fun hwrong => absurd hx hwrong.1) And.right, fun h => Or.inr ⟨hx, h⟩⟩

theorem firstWrong_cons_of_not {x : α} (hx : ¬ complete x) :
    FirstWrong complete bad (x :: l) ↔ bad x :=
  ⟨fun h => h.elim And.right fun hright => absurd hright.1 hx, fun h => Or.inl ⟨hx, h⟩⟩

section Fold

variable {round : σ → α → Except ε σ} {failure : ε → Prop}

theorem foldlM_error
    (hround : ∀ s x, complete x → ∃ next, round s x = .ok next)
    (hfails : ∀ s x, ¬ complete x →
      ∃ error, round s x = .error error ∧ (failure error ↔ bad x))
    (hl : ¬ ∀ x ∈ l, complete x) (start : σ) :
    ∃ error, l.foldlM round start = .error error ∧
      (failure error ↔ FirstWrong complete bad l) := by
  induction l generalizing start with
  | nil => exact absurd (fun _ => nofun) hl
  | cons x l ih =>
      rw [List.foldlM_cons]
      rcases Classical.em (complete x) with hx | hx
      · obtain ⟨next, hnext⟩ := hround start x hx
        rw [hnext, firstWrong_cons_of_complete hx]
        exact ih (fun hall => hl (List.forall_mem_cons.mpr ⟨hx, hall⟩)) next
      · obtain ⟨error, herror, hfailure⟩ := hfails start x hx
        rw [herror, firstWrong_cons_of_not hx]
        exact ⟨error, rfl, hfailure⟩

theorem foldlM_error_of_all
    (hround : ∀ s x, complete x → ∃ next, round s x = .ok next)
    (hfails : ∀ s x, ¬ complete x → ∃ error, round s x = .error error ∧ failure error)
    (hl : ¬ ∀ x ∈ l, complete x) (start : σ) :
    ∃ error, l.foldlM round start = .error error ∧ failure error := by
  have hiff (s : σ) (x : α) (hx : ¬ complete x) :
      ∃ error, round s x = .error error ∧ (failure error ↔ True) :=
    (hfails s x hx).imp fun error h => ⟨h.1, iff_true_intro h.2⟩
  obtain ⟨error, herror, hfailure⟩ := foldlM_error hround hiff hl start
  exact ⟨error, herror, hfailure.mpr (firstWrong_of_forall hl fun _ => trivial)⟩

end Fold

theorem foldlM_flatMap {round : σ → β → Except ε σ} {parts : α → List β} {start : σ} :
    (l.flatMap parts).foldlM round start =
      l.foldlM (fun s x => (parts x).foldlM round s) start := by
  induction l generalizing start with
  | nil => rfl
  | cons x l ih =>
      rw [List.flatMap_cons, List.foldlM_append, List.foldlM_cons]
      exact bind_congr fun _ => ih

/-- A loop that puts one value behind the other takes them all first. -/
theorem foldlM_push {ρ τ : Type _} {f : α → Except ε ρ} {push : τ → ρ → τ} {start : τ} :
    l.foldlM (fun s x => do return push s (← f x)) start =
      (do return (← l.mapM f).foldl push start : Except ε τ) := by
  induction l generalizing start with
  | nil => rfl
  | cons x l ih =>
      rw [List.foldlM_cons, List.mapM_cons]
      cases f x with
      | error error => rfl
      | ok y =>
          refine Eq.trans ih ?_
          cases l.mapM f <;> rfl

section Map

variable {f : α → Except ε β} {failure : ε → Prop}

theorem mapM_total (hf : ∀ x ∈ l, ∃ y, f x = .ok y) : ∃ out, l.mapM f = .ok out := by
  induction l with
  | nil => exact ⟨[], rfl⟩
  | cons x l ih =>
      obtain ⟨⟨y, hy⟩, hl⟩ := List.forall_mem_cons.mp hf
      obtain ⟨out, hout⟩ := ih hl
      refine ⟨y :: out, ?_⟩
      rw [List.mapM_cons, hy, hout]
      rfl

theorem mapM_error
    (hok : ∀ x, complete x → ∃ y, f x = .ok y)
    (hfails : ∀ x, ¬ complete x → ∃ error, f x = .error error ∧ (failure error ↔ bad x))
    (hl : ¬ ∀ x ∈ l, complete x) :
    ∃ error, l.mapM f = .error error ∧ (failure error ↔ FirstWrong complete bad l) := by
  induction l with
  | nil => exact absurd (fun _ => nofun) hl
  | cons x l ih =>
      rw [List.mapM_cons]
      rcases Classical.em (complete x) with hx | hx
      · obtain ⟨y, hy⟩ := hok x hx
        obtain ⟨error, herror, hfailure⟩ :=
          ih fun hall => hl (List.forall_mem_cons.mpr ⟨hx, hall⟩)
        rw [hy, herror, firstWrong_cons_of_complete hx]
        exact ⟨error, rfl, hfailure⟩
      · obtain ⟨error, herror, hfailure⟩ := hfails x hx
        rw [herror, firstWrong_cons_of_not hx]
        exact ⟨error, rfl, hfailure⟩

theorem mapM_forall₂ {out : List β} (hout : l.mapM f = .ok out) :
    List.Forall₂ (fun x y => f x = .ok y) l out := by
  induction l generalizing out with
  | nil =>
      cases hout
      exact List.Forall₂.nil
  | cons x l ih =>
      rw [List.mapM_cons] at hout
      cases hx : f x with
      | error error =>
          rw [hx] at hout
          exact nomatch hout
      | ok y =>
          cases hl : l.mapM f with
          | error error =>
              rw [hx, hl] at hout
              exact nomatch hout
          | ok ys =>
              rw [hx, hl] at hout
              cases hout
              exact List.Forall₂.cons hx (ih hl)

theorem mapM_ok_iff : (∃ out, l.mapM f = .ok out) ↔ ∀ x ∈ l, ∃ y, f x = .ok y := by
  refine ⟨?_, mapM_total⟩
  rintro ⟨out, hout⟩
  have hread := mapM_forall₂ hout
  clear hout
  induction hread with
  | nil => nofun
  | cons hx _ ih => exact List.forall_mem_cons.mpr ⟨⟨_, hx⟩, ih⟩

variable {out : List β}

theorem mapM_getElem? (hout : l.mapM f = .ok out) {i : Nat} {y : β} (hy : out[i]? = some y) :
    ∃ x, l[i]? = some x ∧ f x = .ok y := by
  have hread := mapM_forall₂ hout
  clear hout
  induction hread generalizing i with
  | nil => exact nomatch hy
  | cons hx _ ih =>
      cases i with
      | zero =>
          cases hy
          exact ⟨_, rfl, hx⟩
      | succ i => exact ih hy

theorem mapM_map_eq (hout : l.mapM f = .ok out) {g : α → γ} {h : β → γ}
    (hkept : ∀ x y, f x = .ok y → g x = h y) : l.map g = out.map h := by
  have hread := mapM_forall₂ hout
  clear hout
  induction hread with
  | nil => rfl
  | cons hx _ ih => rw [List.map_cons, List.map_cons, hkept _ _ hx, ih]

theorem mapM_find? (hout : l.mapM f = .ok out) {p : α → Bool} {q : β → Bool}
    (hkept : ∀ x y, f x = .ok y → p x = q y) :
    (l.find? p = none ∧ out.find? q = none) ∨
      ∃ x y, l.find? p = some x ∧ out.find? q = some y ∧ f x = .ok y := by
  have hread := mapM_forall₂ hout
  clear hout
  induction hread with
  | nil => exact Or.inl ⟨rfl, rfl⟩
  | cons hx _ ih =>
      rw [List.find?_cons, List.find?_cons, hkept _ _ hx]
      split
      · exact Or.inr ⟨_, _, rfl, rfl, hx⟩
      · exact ih

end Map

end Rules

end ApolloContrib.Library
