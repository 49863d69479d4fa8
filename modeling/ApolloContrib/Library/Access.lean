import Mathlib.Data.List.Basic
import ApolloContrib.Library.Fallible

namespace ApolloContrib.Library

/-! Computations that stop at the first access outside a block. -/

variable {α β ε : Type*}

def Stays (x : Except ε α) : Prop := ∃ out, x = .ok out

def readAt (fault : ε) (block : List α) (i : Nat) : Except ε α :=
  if h : i < block.length then .ok block[i] else .error fault

def writeFrom (fault : ε) : List α → Nat → List α → Except ε (List α)
  | block, _, [] => .ok block
  | block, i, value :: values =>
      if i < block.length then writeFrom fault (block.set i value) (i + 1) values
      else .error fault

section Rules

@[simp] theorem stays_ok (out : α) : Stays (.ok out : Except ε α) := ⟨out, rfl⟩

@[simp] theorem stays_pure (out : α) : Stays (pure out : Except ε α) := ⟨out, rfl⟩

@[simp] theorem not_stays_error (error : ε) : ¬ Stays (.error error : Except ε α) := nofun

theorem stays_bind {ρ τ : Type _} {x : Except ε ρ} {f : ρ → Except ε τ} :
    Stays (x >>= f) ↔ ∃ value, x = .ok value ∧ Stays (f value) := by
  cases x with
  | error error => exact iff_of_false (not_stays_error error) fun ⟨_, h, _⟩ => nomatch h
  | ok value => exact ⟨fun h => ⟨value, rfl, h⟩, fun ⟨_, h, hf⟩ => Except.ok.inj h ▸ hf⟩

theorem stays_bind_iff {ρ τ : Type _} {x : Except ε ρ} {f : ρ → Except ε τ} {after : Prop}
    (hf : ∀ value, x = .ok value → (Stays (f value) ↔ after)) :
    Stays (x >>= f) ↔ Stays x ∧ after := by
  rw [stays_bind]
  constructor
  · rintro ⟨value, hx, hstays⟩
    exact ⟨⟨value, hx⟩, (hf value hx).mp hstays⟩
  · rintro ⟨⟨value, hx⟩, hafter⟩
    exact ⟨value, hx, (hf value hx).mpr hafter⟩

theorem stays_bind_pure {ρ τ : Type _} {x : Except ε ρ} {g : ρ → τ} :
    Stays (x >>= fun value => pure (g value)) ↔ Stays x := by
  rw [stays_bind_iff fun value _ => iff_true_intro (stays_pure (g value)), and_true]

theorem stays_readAt {fault : ε} {block : List α} {i : Nat} :
    Stays (readAt fault block i) ↔ i < block.length := by
  unfold readAt
  split
  next h => exact iff_of_true (stays_ok _) h
  next h => exact iff_of_false (not_stays_error fault) h

theorem length_of_writeFrom {fault : ε} {block out values : List α} {i : Nat}
    (hout : writeFrom fault block i values = .ok out) : out.length = block.length := by
  induction values generalizing block i with
  | nil => cases hout; rfl
  | cons value values ih =>
      rw [writeFrom] at hout
      split at hout
      next => rw [ih hout, List.length_set]
      next => cases hout

theorem writeFrom_eq {fault : ε} {block values : List α} {i : Nat}
    (h : i + values.length ≤ block.length) :
    writeFrom fault block i values =
      .ok (block.take i ++ values ++ block.drop (i + values.length)) := by
  induction values generalizing block i with
  | nil =>
      rw [List.append_nil]
      exact congrArg Except.ok (List.take_append_drop i block).symm
  | cons value values ih =>
      rw [List.length_cons] at h ⊢
      have hi : i < block.length := by omega
      have hset : i < (block.set i value).length := by rwa [List.length_set]
      have htake : (block.set i value).take (i + 1) = block.take i ++ [value] := by
        rw [List.take_succ_eq_append_getElem hset, List.getElem_set_self,
          List.take_set_of_le (Nat.le_refl i)]
      rw [writeFrom, if_pos hi, ih (by rw [List.length_set]; omega), htake,
        List.drop_set_of_lt (by omega), Nat.add_right_comm, Nat.add_assoc, List.append_assoc _ [value]]
      rfl

theorem stays_writeFrom {fault : ε} {block values : List α} {i : Nat} :
    Stays (writeFrom fault block i values) ↔ values = [] ∨ i + values.length ≤ block.length := by
  induction values generalizing block i with
  | nil => exact iff_of_true (stays_ok block) (Or.inl rfl)
  | cons value values ih =>
      rw [writeFrom, or_iff_right (List.cons_ne_nil value values), List.length_cons]
      split
      next h =>
        rw [ih, List.length_set, ← List.length_eq_zero_iff]
        omega
      next h => exact iff_of_false (not_stays_error fault) (by omega)

section Fold

variable {σ : Type*} {round : σ → α → Except ε σ} (P : σ → Prop) {l : List α} {start : σ}

theorem foldlM_kept {out : σ}
    (hround : ∀ s x next, x ∈ l → P s → round s x = .ok next → P next)
    (hstart : P start) (hout : l.foldlM round start = .ok out) : P out := by
  induction l generalizing start with
  | nil => cases hout; exact hstart
  | cons x l ih =>
      rw [List.foldlM_cons] at hout
      obtain ⟨next, hnext, hout⟩ := bind_eq_ok.mp hout
      exact ih (fun s y after hy => hround s y after (List.mem_cons_of_mem x hy))
        (hround start x next List.mem_cons_self hstart hnext) hout

theorem stays_foldlM (hround : ∀ s, P s → ∀ x ∈ l, ∃ next, round s x = .ok next ∧ P next)
    (hstart : P start) : Stays (l.foldlM round start) := by
  induction l generalizing start with
  | nil => exact stays_pure start
  | cons x l ih =>
      obtain ⟨next, hnext, hkept⟩ := hround start hstart x List.mem_cons_self
      rw [List.foldlM_cons, hnext]
      exact ih (fun s hs y hy => hround s hs y (List.mem_cons_of_mem x hy)) hkept

/-- Where what a round needs does not depend on the state, as long as the state is good for what
is still to come. -/
theorem stays_foldlM_iff {ok : α → Prop} (Good : List α → σ → Prop)
    (hround : ∀ x rest s, Good (x :: rest) s → (Stays (round s x) ↔ ok x) ∧
      ∀ next, round s x = .ok next → Good rest next)
    (hstart : Good l start) : Stays (l.foldlM round start) ↔ ∀ x ∈ l, ok x := by
  induction l generalizing start with
  | nil => exact iff_of_true (stays_pure start) nofun
  | cons x l ih =>
      obtain ⟨hok, hgood⟩ := hround x l start hstart
      rw [List.foldlM_cons, List.forall_mem_cons, ← hok]
      exact stays_bind_iff fun next hnext => ih (hgood next hnext)

theorem foldlM_read {ρ τ : Type _} {read : α → Except ε ρ} {value : α → ρ} {f : τ → ρ → τ}
    {start : τ} (hread : ∀ x ∈ l, read x = .ok (value x)) :
    (l.foldlM (fun s x => do return f s (← read x)) start : Except ε τ) =
      .ok ((l.map value).foldl f start) := by
  induction l generalizing start with
  | nil => rfl
  | cons x l ih =>
      obtain ⟨hx, hl⟩ := List.forall_mem_cons.mp hread
      rw [List.foldlM_cons, hx]
      exact ih hl

end Fold

end Rules

end ApolloContrib.Library
