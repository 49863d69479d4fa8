import Mathlib.Algebra.BigOperators.Group.List.Basic
import Mathlib.Algebra.Order.Group.Multiset

namespace ApolloContrib.Library

/-! Programs that acquire resources and release them, and a logic of what they hold. -/

/-- The state is what is held; `none` is a release of something that is not. -/
abbrev Holding (R : Type) := StateT (Multiset R) Option

namespace Holding

variable {R α β : Type}

def acquire (r : R) : Holding R Unit := fun held => some ((), r ::ₘ held)

def release [DecidableEq R] (r : R) : Holding R Unit :=
  fun held => if r ∈ held then some ((), held.erase r) else none

def attempt (granted : Bool) (r : R) (yes no : α) : Holding R α :=
  if granted then do
    acquire r
    pure yes
  else pure no

/-- A counted loop that a round may leave: the counter at the end, and whether the loop went
through. -/
def forLoop (round : Nat → α → Holding R (Bool × α)) :
    Nat → Nat → α → Holding R (Nat × Bool × α)
  | 0, i, a => pure (i, true, a)
  | left + 1, i, a => do
      let (ok, a) ← round i a
      if ok then forLoop round left (i + 1) a else pure (i, false, a)

/-- Started with `own` and anything else, the program ends with `Q` of its result and of what
it then owns; the rest is left alone. -/
def Spec (own : Multiset R) (m : Holding R α) (Q : α → Multiset R → Prop) : Prop :=
  ∀ rest, ∃ a own', m (own + rest) = some (a, own' + rest) ∧ Q a own'

/-- The program releases what is owned, each once, and nothing else. -/
def Releases (own : Multiset R) (m : Holding R α) : Prop :=
  Spec own m fun _ left => left = 0

section Rules

variable {own own' more : Multiset R} {m : Holding R α} {f : α → Holding R β}
  {Q Q' : α → Multiset R → Prop} {P : β → Multiset R → Prop}

theorem Spec.pure {a : α} (h : Q a own) : Spec own (Pure.pure a : Holding R α) Q :=
  fun _ => ⟨a, own, rfl, h⟩

theorem Spec.bind (hm : Spec own m Q) (hf : ∀ a own', Q a own' → Spec own' (f a) P) :
    Spec own (m >>= f) P := by
  intro rest
  obtain ⟨a, own', hrun, hQ⟩ := hm rest
  obtain ⟨b, own'', hrest, hP⟩ := hf a own' hQ rest
  refine ⟨b, own'', ?_, hP⟩
  change (m (own + rest)).bind (fun p => f p.1 p.2) = _
  rw [hrun]
  exact hrest

theorem Spec.mono (hm : Spec own m Q) (h : ∀ a own', Q a own' → Q' a own') : Spec own m Q' := by
  intro rest
  obtain ⟨a, own', hrun, hQ⟩ := hm rest
  exact ⟨a, own', hrun, h a own' hQ⟩

theorem Spec.lift {x : Option α} {a : α} (hx : x = some a) (hf : Spec own (f a) P) :
    Spec own (liftM x >>= f) P := by
  subst hx
  exact hf

theorem Spec.and (hm : Spec own m Q) (hm' : Spec own m Q') :
    Spec own m fun a own' => Q a own' ∧ Q' a own' := by
  intro rest
  obtain ⟨a, left, hrun, hQ⟩ := hm rest
  obtain ⟨a', left', hrun', hQ'⟩ := hm' rest
  obtain ⟨rfl, hleft⟩ := Prod.mk.inj (Option.some.inj (hrun'.symm.trans hrun))
  exact ⟨a', left', hrun', add_right_cancel hleft ▸ hQ, hQ'⟩

/-- What is known of a program's start holds of what the whole program went through. -/
theorem Spec.bind_inv (hm : Spec own m Q) (hbind : Spec own (m >>= f) P) :
    ∃ a own', Q a own' ∧ ∃ b left, f a own' = some (b, left) ∧ P b left := by
  obtain ⟨a, own', hrun, hQ⟩ := hm 0
  obtain ⟨b, left, hall, hP⟩ := hbind 0
  refine ⟨a, own', hQ, b, left, ?_, hP⟩
  change (m (own + 0)).bind (fun p => f p.1 p.2) = _ at hall
  rw [hrun, add_zero, add_zero] at hall
  exact hall

theorem Spec.of_eq (hm : Spec own m Q) (h : own' = own) : Spec own' m Q := h ▸ hm

theorem Spec.frame (more : Multiset R) (hm : Spec own m Q) :
    Spec (own + more) m fun a left => ∃ own', Q a own' ∧ left = own' + more := by
  intro rest
  obtain ⟨a, own', hrun, hQ⟩ := hm (more + rest)
  refine ⟨a, own' + more, ?_, own', hQ, rfl⟩
  rw [add_assoc, hrun, add_assoc]

theorem Spec.call (hm : Spec 0 m Q) (hf : ∀ a left, Q a left → Spec (own + left) (f a) P) :
    Spec own (m >>= f) P := by
  have hframe := hm.frame own
  rw [zero_add] at hframe
  refine hframe.bind ?_
  rintro a _ ⟨left, hQ, rfl⟩
  exact (hf a left hQ).of_eq (add_comm _ _)

theorem spec_acquire (r : R) : Spec 0 (acquire r) fun _ left => left = {r} := by
  intro rest
  refine ⟨(), {r}, ?_, rfl⟩
  rw [zero_add, Multiset.singleton_add]
  rfl

theorem Spec.attempt {granted : Bool} {r : R} {yes no : α}
    (hyes : granted = true → Spec (own + {r}) (f yes) P)
    (hno : granted = false → Spec own (f no) P) :
    Spec own (Holding.attempt granted r yes no >>= f) P := by
  unfold Holding.attempt
  cases granted with
  | false => exact hno rfl
  | true =>
      rw [if_pos rfl, bind_assoc]
      refine Spec.call (spec_acquire r) ?_
      rintro _ _ rfl
      rw [pure_bind]
      exact hyes rfl

section Release

variable [DecidableEq R]

theorem releases_release (r : R) : Releases {r} (release r) := by
  intro rest
  refine ⟨(), 0, ?_, rfl⟩
  have hmem : r ∈ {r} + rest := Multiset.mem_add.mpr (Or.inl (Multiset.mem_singleton_self r))
  rw [release, if_pos hmem, Multiset.singleton_add, Multiset.erase_cons_head, zero_add]

end Release

theorem releases_pure (a : α) : Releases (0 : Multiset R) (Pure.pure a : Holding R α) :=
  Spec.pure rfl

/-- What was acquired last is released, and the program goes on with the rest. -/
theorem Releases.then (hm : Releases more m) (hf : ∀ a, Spec own (f a) P) :
    Spec (own + more) (m >>= f) P := by
  rw [add_comm]
  refine (hm.frame own).bind ?_
  rintro a left ⟨_, rfl, rfl⟩
  rw [zero_add]
  exact hf a

theorem Releases.done {b : β} (hm : Releases own m) (hP : P b 0) :
    Spec own (m >>= fun _ => Pure.pure b) P := by
  refine hm.bind ?_
  rintro a _ rfl
  exact Spec.pure hP

theorem releases_forM {ι : Type} {l : List ι} {g : ι → Holding R PUnit} {res : ι → Multiset R}
    (h : ∀ i ∈ l, Releases (res i) (g i)) : Releases (l.map res).sum (l.forM g) := by
  induction l with
  | nil => exact releases_pure _
  | cons i l ih =>
      obtain ⟨hi, hl⟩ := List.forall_mem_cons.mp h
      rw [List.map_cons, List.sum_cons, add_comm]
      exact hi.then fun _ => ih hl

/-- Whatever is held, the program does not end, or releases what it must not. -/
def Fails (m : Holding R α) : Prop := ∀ held, m held = none

theorem fails_failure : Fails (failure : Holding R α) := fun _ => rfl

theorem Fails.bind (hm : Fails m) : Fails (m >>= f) := by
  intro held
  change (m held).bind _ = none
  rw [hm held]
  rfl

theorem fails_bind (hf : ∀ a, Fails (f a)) : Fails (m >>= f) := by
  intro held
  change (m held).bind (fun p => f p.1 p.2) = none
  cases m held with
  | none => rfl
  | some p => exact hf p.1 p.2

theorem Spec.fails (hm : Spec 0 m Q) (hf : ∀ a own, Q a own → Fails (f a)) :
    Fails (m >>= f) := by
  intro held
  obtain ⟨a, own, hrun, hQ⟩ := hm held
  rw [zero_add] at hrun
  change (m held).bind (fun p => f p.1 p.2) = none
  rw [hrun]
  exact hf a own hQ _

theorem Fails.not_spec (hm : Fails m) : ¬ Spec own m Q := by
  intro hspec
  obtain ⟨a, left, hrun, -⟩ := hspec 0
  exact nomatch (hm _).symm.trans hrun

section Loop

variable {round : Nat → α → Holding R (Bool × α)} (Inv Left : Nat → α → Prop)
  (res : Nat → Multiset R) {last : Nat}

theorem spec_forLoop_from
    (hround : ∀ i a, i < last → Inv i a → Spec 0 (round i a) fun out left =>
      if out.1 then Inv (i + 1) out.2 ∧ left = res i else Left i out.2 ∧ left = 0)
    (n i : Nat) (a : α) (hlast : i + n = last) (hinv : Inv i a) :
    Spec 0 (forLoop round n i a) fun out left => i ≤ out.1 ∧
      (if out.2.1 then out.1 = last ∧ Inv out.1 out.2.2 else out.1 < last ∧ Left out.1 out.2.2) ∧
      left = ((List.range' i (out.1 - i)).map res).sum := by
  induction n generalizing i a with
  | zero => exact Spec.pure ⟨le_rfl, ⟨hlast, hinv⟩, by rw [Nat.sub_self]; rfl⟩
  | succ n ih =>
      have hi : i < last := by omega
      refine (hround i a hi hinv).bind ?_
      rintro ⟨ok, a⟩ left hout
      cases ok with
      | false =>
          obtain ⟨hleft, rfl⟩ := hout
          exact Spec.pure ⟨le_rfl, ⟨hi, hleft⟩, by rw [Nat.sub_self]; rfl⟩
      | true =>
          obtain ⟨hinv, rfl⟩ := hout
          have hrest := (ih (i + 1) a (by omega) hinv).frame (res i)
          rw [zero_add] at hrest
          refine hrest.mono ?_
          rintro ⟨j, ok, a⟩ _ ⟨_, ⟨hle, hend, rfl⟩, rfl⟩
          refine ⟨Nat.le_of_succ_le hle, hend, ?_⟩
          obtain ⟨k, rfl⟩ := Nat.exists_eq_add_of_le hle
          have hk : i + 1 + k - i = k + 1 := by omega
          dsimp only
          rw [hk, Nat.add_sub_cancel_left, List.range'_succ, List.map_cons, List.sum_cons,
            add_comm]

/-- A round that goes on keeps the invariant, one that does not has undone itself. -/
theorem spec_forLoop
    (hround : ∀ i a, i < last → Inv i a → Spec 0 (round i a) fun out left =>
      if out.1 then Inv (i + 1) out.2 ∧ left = res i else Left i out.2 ∧ left = 0)
    (a : α) (hinv : Inv 0 a) :
    Spec 0 (forLoop round last 0 a) fun out left =>
      (if out.2.1 then out.1 = last ∧ Inv out.1 out.2.2 else out.1 < last ∧ Left out.1 out.2.2) ∧
      left = ((List.range out.1).map res).sum := by
  refine (spec_forLoop_from Inv Left res hround last 0 a (Nat.zero_add last) hinv).mono ?_
  rintro out left ⟨-, hend, rfl⟩
  refine ⟨hend, ?_⟩
  rw [List.range_eq_range']
  rfl

end Loop

end Rules

end Holding

/-- The first `i` elements are as they are to be, the others are cleared. -/
structure FilledTo {β : Type} (full : Nat → β → Prop) (clear : β) (i : Nat) (a : Nat → β) :
    Prop where
  filled : ∀ k, k < i → full k (a k)
  cleared : ∀ k, i ≤ k → a k = clear

section Filled

variable {β : Type} {full : Nat → β → Prop} {clear : β} {i : Nat} {a : Nat → β}

theorem filledTo_zero : FilledTo full clear 0 fun _ => clear := ⟨nofun, fun _ _ => rfl⟩

theorem FilledTo.filled_update (hfilled : FilledTo full clear i a) (b : β) {k : Nat}
    (hk : k < i) : full k (Function.update a i b k) := by
  rw [Function.update_of_ne hk.ne]
  exact hfilled.filled k hk

theorem FilledTo.update (hfilled : FilledTo full clear i a) {b : β} (hb : full i b) :
    FilledTo full clear (i + 1) (Function.update a i b) := by
  refine ⟨fun k hk => ?_, fun k hk => ?_⟩
  · rcases Nat.lt_succ_iff_lt_or_eq.mp hk with hk | rfl
    · exact hfilled.filled_update b hk
    · rw [Function.update_self]
      exact hb
  · rw [Function.update_of_ne (Nat.lt_of_succ_le hk).ne']
    exact hfilled.cleared k (Nat.le_of_succ_le hk)

end Filled

section Sums

variable {M : Type} [AddCommMonoid M]

theorem sum_front (f : Nat → M) {i n : Nat} (hi : i ≤ n) :
    ((List.range n).map fun k => if k < i then f k else 0).sum = ((List.range i).map f).sum := by
  obtain ⟨m, rfl⟩ := Nat.exists_eq_add_of_le hi
  have hfront : ((List.range i).map fun k => if k < i then f k else 0) = (List.range i).map f :=
    List.map_congr_left fun k hk => if_pos (List.mem_range.mp hk)
  have hback : (((List.range m).map (i + ·)).map fun k => if k < i then f k else 0).sum = 0 := by
    refine List.sum_eq_zero fun x hx => ?_
    obtain ⟨k, hk, rfl⟩ := List.mem_map.mp hx
    obtain ⟨j, -, rfl⟩ := List.mem_map.mp hk
    exact if_neg (Nat.not_lt.mpr (Nat.le_add_right i j))
  rw [List.range_add, List.map_append, List.sum_append, hfront, hback, add_zero]

theorem sum_blocks (f : Nat → M) (b N n : Nat) :
    ((List.range n).map fun i =>
      ((List.range (min (N - b * i) b)).map fun j => f (b * i + j)).sum).sum =
      ((List.range (min N (b * n))).map f).sum := by
  induction n with
  | zero => simp
  | succ n ih =>
      rw [List.range_succ, List.map_append, List.sum_append, ih]
      simp only [List.map_cons, List.map_nil, List.sum_cons, List.sum_nil, add_zero]
      rcases Nat.le_total N (b * n) with hle | hle
      · have hnext : N ≤ b * (n + 1) := hle.trans (Nat.mul_le_mul_left b n.le_succ)
        rw [Nat.sub_eq_zero_of_le hle, min_eq_left hle, min_eq_left hnext]
        simp
      · have hsplit : min N (b * (n + 1)) = b * n + min (N - b * n) b := by
          rw [Nat.mul_succ]
          omega
        rw [min_eq_right hle, hsplit, List.range_add, List.map_append, List.sum_append,
          List.map_map]
        rfl

end Sums

end ApolloContrib.Library
