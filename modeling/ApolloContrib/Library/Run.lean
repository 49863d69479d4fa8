import Mathlib.Data.List.Basic

namespace ApolloContrib.Library

/-! Runs of a partial labelled step function, and the induction principles that
carry a fact about one step to a whole run. -/

variable {State Label : Type*}

def run (step : State → Label → Option State) :
    State → List Label → Option State
  | state, [] => some state
  | state, label :: labels => (step state label).bind fun next => run step next labels

section Rules

variable (step : State → Label → Option State)

@[simp] theorem run_nil (state : State) : run step state [] = some state := rfl

theorem run_cons (state : State) (label : Label) (labels : List Label) :
    run step state (label :: labels) =
      (step state label).bind fun next => run step next labels := rfl

theorem run_append (state : State) (first second : List Label) :
    run step state (first ++ second) =
      (run step state first).bind fun middle => run step middle second := by
  induction first generalizing state with
  | nil => rfl
  | cons label labels ih =>
      simp only [List.cons_append, run_cons]
      cases step state label with
      | none => rfl
      | some next => exact ih next

theorem run_append_of_eq {state middle : State} {first : List Label}
    (hfirst : run step state first = some middle) (second : List Label) :
    run step state (first ++ second) = run step middle second := by
  rw [run_append, hfirst]
  rfl

/-- Where the steps of one system are those of another seen through `f`, so are
the runs. -/
theorem run_map {State' : Type*} {step' : State' → Label → Option State'}
    (f : State → State')
    (hstep : ∀ state label, (step state label).map f = step' (f state) label)
    (state : State) (labels : List Label) :
    (run step state labels).map f = run step' (f state) labels := by
  induction labels generalizing state with
  | nil => rfl
  | cons label labels ih =>
      rw [run_cons, run_cons, ← hstep]
      cases step state label with
      | none => rfl
      | some next => exact ih next

/-- `P` holds of every state the run passes through, its first and last
included. -/
def Throughout (P : State → Prop) (state : State) (labels : List Label) : Prop :=
  ∀ before, before <+: labels →
    ∀ reached, run step state before = some reached → P reached

/-- Every step of the run is taken in a state that meets `ok`. -/
def StepsMeet (ok : State → Label → Prop) (state : State)
    (labels : List Label) : Prop :=
  ∀ before label, before ++ [label] <+: labels →
    ∀ reached, run step state before = some reached → ok reached label

variable {step}

theorem Throughout.last {P : State → Prop} {state final : State}
    {labels : List Label} (hall : Throughout step P state labels)
    (hrun : run step state labels = some final) : P final :=
  hall labels (List.prefix_refl labels) final hrun

theorem throughout_nil {P : State → Prop} {state : State} :
    Throughout step P state [] ↔ P state := by
  constructor
  · intro hall
    exact hall.last rfl
  · intro hP before hbefore reached hrun
    obtain rfl := List.prefix_nil.mp hbefore
    cases hrun
    exact hP

theorem throughout_cons {P : State → Prop} {state : State} {label : Label}
    {labels : List Label} :
    Throughout step P state (label :: labels) ↔
      P state ∧
        ∀ next, step state label = some next → Throughout step P next labels := by
  constructor
  · intro hall
    refine ⟨hall [] (List.nil_prefix) state rfl, ?_⟩
    intro next hstep before hbefore reached hrun
    apply hall (label :: before) (by simpa using hbefore) reached
    rw [run_cons, hstep]
    exact hrun
  · rintro ⟨hP, hrest⟩ before hbefore reached hrun
    cases before with
    | nil => cases hrun; exact hP
    | cons first before =>
        obtain ⟨rfl, htail⟩ := List.cons_prefix_cons.mp hbefore
        rw [run_cons] at hrun
        obtain ⟨next, hstep, hrun⟩ := Option.bind_eq_some_iff.mp hrun
        exact hrest next hstep before htail reached hrun

theorem stepsMeet_nil {ok : State → Label → Prop} {state : State} :
    StepsMeet step ok state [] := by
  intro before label hbefore
  simp at hbefore

theorem stepsMeet_cons {ok : State → Label → Prop} {state : State}
    {label : Label} {labels : List Label} :
    StepsMeet step ok state (label :: labels) ↔
      ok state label ∧
        ∀ next, step state label = some next → StepsMeet step ok next labels := by
  constructor
  · intro hmeet
    refine ⟨hmeet [] label (by simp) state rfl, ?_⟩
    intro next hstep before last hbefore reached hrun
    apply hmeet (label :: before) last (by simpa using hbefore) reached
    rw [run_cons, hstep]
    exact hrun
  · rintro ⟨hok, hrest⟩ before last hbefore reached hrun
    cases before with
    | nil =>
        cases hrun
        obtain ⟨rfl, _⟩ := List.cons_prefix_cons.mp hbefore
        exact hok
    | cons first before =>
        obtain ⟨rfl, htail⟩ := List.cons_prefix_cons.mp hbefore
        rw [run_cons] at hrun
        obtain ⟨next, hstep, hrun⟩ := Option.bind_eq_some_iff.mp hrun
        exact hrest next hstep before last htail reached hrun

theorem stepsMeet_append {ok : State → Label → Prop} {state : State}
    {first second : List Label} :
    StepsMeet step ok state (first ++ second) ↔
      StepsMeet step ok state first ∧
        ∀ middle, run step state first = some middle → StepsMeet step ok middle second := by
  induction first generalizing state with
  | nil => simp [stepsMeet_nil]
  | cons label labels ih =>
      rw [List.cons_append, stepsMeet_cons, stepsMeet_cons]
      cases hstep : step state label with
      | none => simp [run_cons, hstep]
      | some next => simp [run_cons, hstep, ih, and_assoc]

instance decidableStepsMeet {ok : State → Label → Prop}
    [∀ state label, Decidable (ok state label)] :
    ∀ state labels, Decidable (StepsMeet step ok state labels)
  | _, [] => isTrue stepsMeet_nil
  | state, label :: labels =>
      match hstep : step state label with
      | none =>
          decidable_of_iff (ok state label) (by simp [stepsMeet_cons, hstep])
      | some next =>
          have : Decidable (StepsMeet step ok next labels) := decidableStepsMeet next labels
          decidable_of_iff (ok state label ∧ StepsMeet step ok next labels)
            (by simp [stepsMeet_cons, hstep])

theorem stepsMeet_of_forall {p : Label → Prop} {state : State}
    {labels : List Label} (hall : ∀ label ∈ labels, p label) :
    StepsMeet step (fun _ label => p label) state labels := by
  intro before label hbefore reached _
  exact hall label (hbefore.subset (by simp))

theorem run_invariant {Inv : State → Prop}
    (hpreserved : ∀ {state label next},
      Inv state → step state label = some next → Inv next)
    {state final : State} {labels : List Label} (hinit : Inv state)
    (hrun : run step state labels = some final) : Inv final := by
  induction labels generalizing state with
  | nil => cases hrun; exact hinit
  | cons label labels ih =>
      rw [run_cons] at hrun
      obtain ⟨next, hstep, hrest⟩ := Option.bind_eq_some_iff.mp hrun
      exact ih (hpreserved hinit hstep) hrest

theorem stepsMeet_congr {meets ok : State → Label → Prop}
    (hiff : ∀ state label, meets state label ↔ ok state label) {state : State}
    {labels : List Label} :
    StepsMeet step meets state labels ↔ StepsMeet step ok state labels :=
  forall₂_congr fun _ _ => forall_congr' fun _ => forall₂_congr fun _ _ => hiff _ _

/-- Where a step from a good state adds just `ok` to what `P` says, `P` holds at the end of a
run when it holds at the start and every step meets `ok`. -/
theorem run_iff_stepsMeet {Inv P : State → Prop} {ok : State → Label → Prop}
    (hpreserved : ∀ {state label next},
      Inv state → step state label = some next → Inv next)
    (hadds : ∀ {state label next},
      Inv state → step state label = some next → (P next ↔ P state ∧ ok state label))
    {state final : State} {labels : List Label} (hinit : Inv state)
    (hrun : run step state labels = some final) :
    P final ↔ P state ∧ StepsMeet step ok state labels := by
  induction labels generalizing state with
  | nil =>
      cases hrun
      exact (and_iff_left stepsMeet_nil).symm
  | cons label labels ih =>
      rw [run_cons] at hrun
      obtain ⟨next, hstep, hrest⟩ := Option.bind_eq_some_iff.mp hrun
      rw [ih (hpreserved hinit hstep) hrest, hadds hinit hstep, stepsMeet_cons, and_assoc]
      refine and_congr_right fun _ => and_congr_right fun _ => ?_
      constructor
      · intro hmeet other hother
        obtain rfl := Option.some.inj (hstep.symm.trans hother)
        exact hmeet
      · intro hmeet
        exact hmeet next hstep

/-- An invariant that steps meeting `ok` preserve holds throughout a run made of
such steps. -/
theorem throughout_of_stepsMeet {Inv : State → Prop} {ok : State → Label → Prop}
    (hpreserved : ∀ {state label next},
      Inv state → ok state label → step state label = some next → Inv next)
    {state : State} {labels : List Label} (hinit : Inv state)
    (hmeet : StepsMeet step ok state labels) :
    Throughout step Inv state labels := by
  induction labels generalizing state with
  | nil => exact throughout_nil.mpr hinit
  | cons label labels ih =>
      obtain ⟨hok, hrest⟩ := stepsMeet_cons.mp hmeet
      exact throughout_cons.mpr ⟨hinit, fun next hstep =>
        ih (hpreserved hinit hok hstep) (hrest next hstep)⟩

/-- When every step that meets `ok` can be taken and keeps `Inv`, a run of such
steps gets to its end. -/
theorem run_total {Inv : State → Prop} {ok : State → Label → Prop}
    (htaken : ∀ {state label}, Inv state → ok state label →
      ∃ next, step state label = some next ∧ Inv next)
    {state : State} {labels : List Label} (hinit : Inv state)
    (hmeet : StepsMeet step ok state labels) :
    ∃ final, run step state labels = some final := by
  induction labels generalizing state with
  | nil => exact ⟨state, rfl⟩
  | cons label labels ih =>
      obtain ⟨hok, hrest⟩ := stepsMeet_cons.mp hmeet
      obtain ⟨next, hstep, hnext⟩ := htaken hinit hok
      obtain ⟨final, hrun⟩ := ih hnext (hrest next hstep)
      refine ⟨final, ?_⟩
      rw [run_cons, hstep]
      exact hrun

/-- Where a step that is due can be taken just when it meets `ok`, so can a run of them. -/
theorem exists_run_iff {Inv : State → Prop} {due ok : State → Label → Prop}
    (htaken : ∀ {state label}, Inv state → due state label → ok state label →
      ∃ next, step state label = some next ∧ Inv next)
    (honly : ∀ {state label next}, Inv state → due state label →
      step state label = some next → ok state label)
    {state : State} {labels : List Label} (hinit : Inv state)
    (hdue : StepsMeet step due state labels) :
    (∃ final, run step state labels = some final) ↔ StepsMeet step ok state labels := by
  induction labels generalizing state with
  | nil => exact iff_of_true ⟨state, rfl⟩ stepsMeet_nil
  | cons label labels ih =>
      obtain ⟨hlabel, hrest⟩ := stepsMeet_cons.mp hdue
      rw [stepsMeet_cons, run_cons]
      constructor
      · intro hfinal
        obtain ⟨final, hrun⟩ := hfinal
        obtain ⟨next, hstep, hlast⟩ := Option.bind_eq_some_iff.mp hrun
        have hok := honly hinit hlabel hstep
        obtain ⟨kept, hkept, hnext⟩ := htaken hinit hlabel hok
        obtain rfl := Option.some.inj (hkept.symm.trans hstep)
        refine ⟨hok, fun other hother => ?_⟩
        obtain rfl := Option.some.inj (hstep.symm.trans hother)
        exact (ih hnext (hrest _ hstep)).mp ⟨final, hlast⟩
      · intro hmeet
        obtain ⟨hok, hmeets⟩ := hmeet
        obtain ⟨next, hstep, hnext⟩ := htaken hinit hlabel hok
        rw [hstep]
        exact (ih hnext (hrest next hstep)).mpr (hmeets next hstep)

theorem Throughout.imp {P Q : State → Prop} (himp : ∀ state, P state → Q state)
    {state : State} {labels : List Label}
    (hall : Throughout step P state labels) : Throughout step Q state labels :=
  fun before hbefore reached hrun =>
    himp reached (hall before hbefore reached hrun)

/-- The converse of `throughout_of_stepsMeet`: a step that fails `ok` breaks the
state, no later step repairs it, and a broken final state fails `P`. -/
theorem stepsMeet_of_throughout {Inv P Broken : State → Prop}
    {ok : State → Label → Prop}
    (hpreserved : ∀ {state label next},
      Inv state → ok state label → step state label = some next → Inv next)
    (hbreaks : ∀ {state label next},
      Inv state → ¬ ok state label → step state label = some next → Broken next)
    (hpersists : ∀ {state label next},
      Broken state → step state label = some next → Broken next)
    {state final : State} {labels : List Label} (hinit : Inv state)
    (hrun : run step state labels = some final)
    (hfinal : Broken final → ¬ P final)
    (hall : Throughout step P state labels) :
    StepsMeet step ok state labels := by
  induction labels generalizing state with
  | nil => exact stepsMeet_nil
  | cons label labels ih =>
      rw [run_cons] at hrun
      obtain ⟨next, hstep, hrest⟩ := Option.bind_eq_some_iff.mp hrun
      have hnext := (throughout_cons.mp hall).2 next hstep
      by_cases hok : ok state label
      · refine stepsMeet_cons.mpr ⟨hok, fun other hother => ?_⟩
        obtain rfl := Option.some.inj (hstep.symm.trans hother)
        exact ih (hpreserved hinit hok hstep) hrest hnext
      · have hbroken : Broken final :=
          run_invariant hpersists (hbreaks hinit hok hstep) hrest
        exact absurd (hnext.last hrest) (hfinal hbroken)

/-- A run of steps that meet `ok` gets to its end, and keeps `Inv` all the way. -/
theorem throughout_and_total {Inv : State → Prop} {ok : State → Label → Prop}
    (htaken : ∀ {state label}, Inv state → ok state label →
      ∃ next, step state label = some next ∧ Inv next)
    {state : State} {labels : List Label} (hinit : Inv state)
    (hmeet : StepsMeet step ok state labels) :
    Throughout step Inv state labels ∧ ∃ final, run step state labels = some final := by
  refine ⟨throughout_of_stepsMeet ?_ hinit hmeet, run_total htaken hinit hmeet⟩
  intro before label next hbefore hok hstep
  obtain ⟨other, hother, hnext⟩ := htaken hbefore hok
  exact Option.some.inj (hstep.symm.trans hother) ▸ hnext

/-- Where a step either keeps `Inv` or, failing `ok`, cannot be taken or breaks
`P` at once, the runs that reach their end under `P` are those of steps that
meet `ok`. -/
theorem stepsMeet_iff_throughout {Inv P : State → Prop} {ok : State → Label → Prop}
    (himp : ∀ state, Inv state → P state)
    (htaken : ∀ {state label}, Inv state → ok state label →
      ∃ next, step state label = some next ∧ Inv next)
    (hbreaks : ∀ {state label next}, Inv state → ¬ ok state label →
      step state label = some next → ¬ P next)
    {state : State} {labels : List Label} (hinit : Inv state) :
    (Throughout step P state labels ∧ ∃ final, run step state labels = some final) ↔
      StepsMeet step ok state labels := by
  constructor
  · rintro ⟨hall, final, hrun⟩
    induction labels generalizing state with
    | nil => exact stepsMeet_nil
    | cons label labels ih =>
        rw [run_cons] at hrun
        obtain ⟨next, hstep, hrest⟩ := Option.bind_eq_some_iff.mp hrun
        have hnext := (throughout_cons.mp hall).2 next hstep
        have hP : P next := hnext [] List.nil_prefix next rfl
        have hok : ok state label :=
          Classical.byContradiction fun hfail => hbreaks hinit hfail hstep hP
        obtain ⟨kept, hkept, hinv⟩ := htaken hinit hok
        obtain rfl := Option.some.inj (hkept.symm.trans hstep)
        refine stepsMeet_cons.mpr ⟨hok, fun other hother => ?_⟩
        obtain rfl := Option.some.inj (hstep.symm.trans hother)
        exact ih hinv hnext hrest
  · intro hmeet
    obtain ⟨hall, hfinal⟩ := throughout_and_total htaken hinit hmeet
    exact ⟨hall.imp himp, hfinal⟩

/-- Where every step can be taken and adds just `ok` to what `P` says, `P` holds
throughout a run when it holds at the start and every step meets `ok`. -/
theorem throughout_iff_stepsMeet {P : State → Prop} {ok : State → Label → Prop}
    (htotal : ∀ state label, ∃ next, step state label = some next)
    (hadds : ∀ {state label next},
      step state label = some next → (P next ↔ P state ∧ ok state label))
    {state : State} {labels : List Label} :
    Throughout step P state labels ↔ P state ∧ StepsMeet step ok state labels := by
  induction labels generalizing state with
  | nil =>
      rw [throughout_nil]
      exact (and_iff_left stepsMeet_nil).symm
  | cons label labels ih =>
      obtain ⟨next, hstep⟩ := htotal state label
      rw [throughout_cons, stepsMeet_cons]
      constructor
      · rintro ⟨hP, hrest⟩
        obtain ⟨hnext, hmeet⟩ := ih.mp (hrest next hstep)
        refine ⟨hP, ((hadds hstep).mp hnext).2, fun other hother => ?_⟩
        obtain rfl := Option.some.inj (hstep.symm.trans hother)
        exact hmeet
      · rintro ⟨hP, hok, hrest⟩
        refine ⟨hP, fun other hother => ?_⟩
        exact ih.mpr ⟨(hadds hother).mpr ⟨hP, hok⟩, hrest other hother⟩

/-- Where a step from a good state keeps `P` and meets `meets` just when it meets `ok`,
so do runs. -/
theorem throughout_and_stepsMeet_iff {Inv P : State → Prop} {meets ok : State → Label → Prop}
    (htotal : ∀ state label, ∃ next, step state label = some next)
    (himp : ∀ state, Inv state → P state)
    (hiff : ∀ {state label next}, Inv state → step state label = some next →
      ((P next ∧ meets state label) ↔ ok state label))
    (hkept : ∀ {state label next}, Inv state → ok state label →
      step state label = some next → Inv next)
    {state : State} {labels : List Label} (hinit : Inv state) :
    (Throughout step P state labels ∧ StepsMeet step meets state labels) ↔
      StepsMeet step ok state labels := by
  induction labels generalizing state with
  | nil => exact ⟨fun _ => stepsMeet_nil, fun _ =>
      ⟨throughout_nil.mpr (himp _ hinit), stepsMeet_nil⟩⟩
  | cons label labels ih =>
      obtain ⟨next, hstep⟩ := htotal state label
      rw [throughout_cons, stepsMeet_cons, stepsMeet_cons, ← hiff hinit hstep]
      constructor
      · rintro ⟨⟨-, hrest⟩, hmeets, hmeet⟩
        have hP : P next := hrest next hstep [] List.nil_prefix next rfl
        refine ⟨⟨hP, hmeets⟩, fun other hother => ?_⟩
        obtain rfl := Option.some.inj (hstep.symm.trans hother)
        exact (ih (hkept hinit ((hiff hinit hstep).mp ⟨hP, hmeets⟩) hstep)).mp
          ⟨hrest _ hstep, hmeet _ hstep⟩
      · rintro ⟨hgood, hrest⟩
        have hnext := (ih (hkept hinit ((hiff hinit hstep).mp hgood) hstep)).mpr
          (hrest next hstep)
        refine ⟨⟨himp _ hinit, fun other hother => ?_⟩, hgood.2, fun other hother => ?_⟩
        · obtain rfl := Option.some.inj (hstep.symm.trans hother)
          exact hnext.1
        · obtain rfl := Option.some.inj (hstep.symm.trans hother)
          exact hnext.2

/-- Where each step that meets `ok` can be taken, and is matched by some moves of the other
system, so is a run of such steps. -/
theorem run_refines {State' Label' : Type*} {step' : State' → Label' → Option State'}
    {R : State → State' → Prop} {ok : State → Label → Prop}
    (hmatch : ∀ {state state' label}, R state state' → ok state label →
      ∃ next moves next', step state label = some next ∧
        run step' state' moves = some next' ∧ R next next')
    {state : State} {state' : State'} {labels : List Label} (hinit : R state state')
    (hmeet : StepsMeet step ok state labels) :
    ∃ final moves final', run step state labels = some final ∧
      run step' state' moves = some final' ∧ R final final' := by
  induction labels generalizing state state' with
  | nil => exact ⟨state, [], state', rfl, rfl, hinit⟩
  | cons label labels ih =>
      obtain ⟨hok, hrest⟩ := stepsMeet_cons.mp hmeet
      obtain ⟨next, moves, next', hstep, hmoves, hnext⟩ := hmatch hinit hok
      obtain ⟨final, others, final', hrun, hothers, hfinal⟩ := ih hnext (hrest next hstep)
      refine ⟨final, moves ++ others, final', ?_, ?_, hfinal⟩
      · rw [run_cons, hstep]
        exact hrun
      · rw [run_append_of_eq _ hmoves]
        exact hothers

/-- Where each step that is due is taken, and keeps `P` just when it meets `ok`, a run of such
steps keeps `P` all the way just when its steps meet `ok`. -/
theorem throughout_iff_of_due {Inv P : State → Prop} {due ok : State → Label → Prop}
    (htaken : ∀ {state label}, Inv state → due state label →
      ∃ next, step state label = some next ∧ Inv next ∧ (P state → (P next ↔ ok state label)))
    {state : State} {labels : List Label} (hinit : Inv state) (hP : P state)
    (hdue : StepsMeet step due state labels) :
    Throughout step P state labels ↔ StepsMeet step ok state labels := by
  induction labels generalizing state with
  | nil => exact iff_of_true (throughout_nil.mpr hP) stepsMeet_nil
  | cons label labels ih =>
      obtain ⟨hlabel, hrest⟩ := stepsMeet_cons.mp hdue
      obtain ⟨next, hstep, hnext, hiff⟩ := htaken hinit hlabel
      rw [throughout_cons, stepsMeet_cons, ← hiff hP]
      constructor
      · intro hall
        have hkept : P next := hall.2 next hstep [] List.nil_prefix next rfl
        refine ⟨hkept, fun other hother => ?_⟩
        obtain rfl := Option.some.inj (hstep.symm.trans hother)
        exact (ih hnext hkept (hrest _ hstep)).mp (hall.2 _ hstep)
      · intro hmeets
        refine ⟨hP, fun other hother => ?_⟩
        obtain rfl := Option.some.inj (hstep.symm.trans hother)
        exact (ih hnext hmeets.1 (hrest _ hstep)).mpr (hmeets.2 _ hstep)

/-- Where steps that meet `ok` keep `Inv`, and the others break `P` at once, a run keeps `P` all
the way just when all its labels meet `ok`. -/
theorem throughout_iff_forall {Inv P : State → Prop} {ok : Label → Prop}
    (himp : ∀ state, Inv state → P state)
    (hkept : ∀ {state label next}, Inv state → ok label → step state label = some next → Inv next)
    (hbreaks : ∀ {state label next}, Inv state → ¬ ok label → step state label = some next →
      ¬ P next)
    {state final : State} {labels : List Label} (hinit : Inv state)
    (hrun : run step state labels = some final) :
    Throughout step P state labels ↔ ∀ label ∈ labels, ok label := by
  induction labels generalizing state with
  | nil => exact iff_of_true (throughout_nil.mpr (himp _ hinit)) (by simp)
  | cons label labels ih =>
      rw [run_cons] at hrun
      obtain ⟨next, hstep, hrest⟩ := Option.bind_eq_some_iff.mp hrun
      rw [throughout_cons, List.forall_mem_cons]
      constructor
      · intro hall
        have hnext := hall.2 next hstep
        have hok : ok label := Classical.byContradiction fun hfail =>
          hbreaks hinit hfail hstep (hnext [] List.nil_prefix next rfl)
        exact ⟨hok, (ih (hkept hinit hok hstep) hrest).mp hnext⟩
      · intro hok
        refine ⟨himp _ hinit, fun other hother => ?_⟩
        obtain rfl := Option.some.inj (hstep.symm.trans hother)
        exact (ih (hkept hinit hok.1 hstep) hrest).mpr hok.2

end Rules

end ApolloContrib.Library
