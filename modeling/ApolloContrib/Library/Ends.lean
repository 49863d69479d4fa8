import Mathlib.Data.Nat.Basic

namespace ApolloContrib.Library

/-! How a computation on a state ends, when it may end with an error, and the rules
of correctness for it. -/

variable {ε σ α β τ : Type}

/-- A value leaves `done`, and an error leaves `failed`. -/
def Ends (action : EStateM ε σ α) (state : σ) (done : α → σ → Prop)
    (failed : ε → σ → Prop) : Prop :=
  match action state with
  | .ok value next => done value next
  | .error error next => failed error next

/-- `for (i = first; …; i++)` with `left` rounds. -/
def forLoop (body : Nat → EStateM ε σ Unit) : Nat → Nat → EStateM ε σ Unit
  | 0, _ => pure ()
  | left + 1, i => do
      body i
      forLoop body left (i + 1)

/-- `while (cond) body` on local variables, `none` when `fuel` rounds are not enough. -/
def whileM (cond : τ → Bool) (body : τ → EStateM ε σ τ) :
    Nat → τ → EStateM ε σ (Option τ)
  | 0, _ => pure none
  | fuel + 1, vars =>
      if cond vars then do
        let vars ← body vars
        whileM cond body fuel vars
      else pure (some vars)

section Rules

variable {action : EStateM ε σ α} {state : σ} {done done' : α → σ → Prop}
  {failed failed' : ε → σ → Prop}

@[simp] theorem ends_pure {value : α} :
    Ends (pure value) state done failed ↔ done value state := Iff.rfl

@[simp] theorem ends_throw {error : ε} :
    Ends (throw error : EStateM ε σ α) state done failed ↔ failed error state := Iff.rfl

theorem ends_true : Ends action state (fun _ _ => True) fun _ _ => True := by
  unfold Ends
  cases action state <;> trivial

theorem ends_bind {next : α → EStateM ε σ β} {done : β → σ → Prop} :
    Ends (action >>= next) state done failed ↔
      Ends action state (fun value middle => Ends (next value) middle done failed) failed := by
  change (match EStateM.bind action next state with | .ok .. => _ | .error .. => _) ↔
    match action state with | .ok .. => _ | .error .. => _
  unfold EStateM.bind
  cases action state <;> rfl

theorem Ends.imp (hends : Ends action state done failed)
    (hdone : ∀ value next, done value next → done' value next)
    (hfailed : ∀ error next, failed error next → failed' error next) :
    Ends action state done' failed' := by
  unfold Ends at *
  cases hresult : action state with
  | ok value next =>
      rw [hresult] at hends
      exact hdone value next hends
  | error error next =>
      rw [hresult] at hends
      exact hfailed error next hends

theorem Ends.and (hends : Ends action state done failed)
    (hends' : Ends action state done' failed') :
    Ends action state (fun value next => done value next ∧ done' value next)
      (fun error next => failed error next ∧ failed' error next) := by
  unfold Ends at *
  cases hresult : action state with
  | ok value next =>
      rw [hresult] at hends hends'
      exact ⟨hends, hends'⟩
  | error error next =>
      rw [hresult] at hends hends'
      exact ⟨hends, hends'⟩

/-- One computation after the other, from what the first is known to leave. -/
theorem Ends.bind {next : α → EStateM ε σ β} {post : β → σ → Prop}
    (hfirst : Ends action state done failed')
    (hnext : ∀ value middle, done value middle → Ends (next value) middle post failed)
    (hfailed : ∀ error middle, failed' error middle → failed error middle) :
    Ends (action >>= next) state post failed :=
  ends_bind.mpr (hfirst.imp hnext hfailed)

theorem Ends.tryCatch {handler : ε → EStateM ε σ α} (haction : Ends action state done failed')
    (hhandler : ∀ error middle, failed' error middle → Ends (handler error) middle done failed) :
    Ends (MonadExcept.tryCatch action handler) state done failed := by
  change match EStateM.tryCatch action handler state with | .ok .. => _ | .error .. => _
  unfold Ends at haction
  unfold EStateM.tryCatch
  cases hresult : action state with
  | ok value next =>
      rw [hresult] at haction
      exact haction
  | error error next =>
      rw [hresult] at haction
      exact hhandler error next haction

theorem Ends.last {next : α → EStateM ε σ β} {done : β → Prop}
    (hnext : ∀ value middle, Ends (next value) middle (fun out _ => done out) fun _ _ => True) :
    Ends (action >>= next) state (fun out _ => done out) fun _ _ => True :=
  ends_true.bind (fun value middle _ => hnext value middle) fun _ _ => id

theorem ends_forLoop {body : Nat → EStateM ε σ Unit} {Inv : Nat → σ → Prop}
    {first left : Nat}
    (hround : ∀ i state, first ≤ i → i < first + left → Inv i state →
      Ends (body i) state (fun _ => Inv (i + 1)) failed)
    (hinv : Inv first state) :
    Ends (forLoop body left first) state (fun _ => Inv (first + left)) failed := by
  induction left generalizing first state with
  | zero => exact hinv
  | succ left ih =>
      rw [forLoop]
      refine (hround first state (le_refl first) (by omega) hinv).bind ?_ fun _ _ => id
      intro _ middle hmiddle
      rw [← Nat.add_assoc, Nat.add_right_comm]
      exact ih (fun i state hfrom hto => hround i state (by omega) (by omega)) hmiddle

/-- A round keeps the invariant and lowers the variant, or fails; so the loop ends. -/
theorem ends_whileM {cond : τ → Bool} {body : τ → EStateM ε σ τ} {Inv : τ → σ → Prop}
    (variant : τ → Nat)
    (hround : ∀ vars state, Inv vars state → cond vars = true →
      Ends (body vars) state
        (fun vars' next => Inv vars' next ∧ variant vars' < variant vars) failed)
    {fuel : Nat} {vars : τ} (hinv : Inv vars state) (hfuel : variant vars < fuel) :
    Ends (whileM cond body fuel vars) state
      (fun out next => ∃ vars', out = some vars' ∧ Inv vars' next ∧ cond vars' = false)
      failed := by
  induction fuel generalizing vars state with
  | zero => omega
  | succ fuel ih =>
      rw [whileM]
      cases hcond : cond vars with
      | false => exact ⟨vars, rfl, hinv, hcond⟩
      | true =>
          refine (hround vars state hinv hcond).bind ?_ fun _ _ => id
          rintro vars' next ⟨hinv', hless⟩
          exact ih hinv' (by omega)

end Rules

end ApolloContrib.Library
