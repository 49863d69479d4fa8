import Mathlib.Data.Nat.Basic

namespace ApolloContrib.Library

/-! `while` and `do` loops with a bound on the number of rounds, and the rules of
correctness for them. -/

variable {σ : Type*}

/-- `while (cond) body`, `none` when `fuel` rounds are not enough. -/
def whileLoop (cond : σ → Bool) (body : σ → σ) : Nat → σ → Option σ
  | 0, state => if cond state then none else some state
  | fuel + 1, state =>
      if cond state then whileLoop cond body fuel (body state) else some state

variable {cond : σ → Bool} {body : σ → σ}

theorem whileLoop_done {state : σ} (hdone : cond state = false) (fuel : Nat) :
    whileLoop cond body fuel state = some state := by
  cases fuel <;> simp [whileLoop, hdone]

theorem whileLoop_round {state : σ} (hround : cond state = true) (fuel : Nat) :
    whileLoop cond body (fuel + 1) state = whileLoop cond body fuel (body state) := by
  simp [whileLoop, hround]

theorem whileLoop_partial {Inv : σ → Prop}
    (hround : ∀ state, Inv state → cond state = true → Inv (body state))
    {fuel : Nat} {state final : σ} (hinv : Inv state)
    (hloop : whileLoop cond body fuel state = some final) :
    Inv final ∧ cond final = false := by
  induction fuel generalizing state with
  | zero =>
      cases hcond : cond state with
      | false =>
          rw [whileLoop_done hcond] at hloop
          exact Option.some.inj hloop ▸ ⟨hinv, hcond⟩
      | true => simp [whileLoop, hcond] at hloop
  | succ fuel ih =>
      cases hcond : cond state with
      | false =>
          rw [whileLoop_done hcond] at hloop
          exact Option.some.inj hloop ▸ ⟨hinv, hcond⟩
      | true =>
          rw [whileLoop_round hcond] at hloop
          exact ih (hround state hinv hcond) hloop

/-- A round keeps the invariant and lowers the variant, so the loop ends, with
the invariant and without the condition. -/
theorem whileLoop_total {Inv : σ → Prop} (variant : σ → Nat)
    (hround : ∀ state, Inv state → cond state = true →
      Inv (body state) ∧ variant (body state) < variant state)
    {fuel : Nat} {state : σ} (hinv : Inv state) (hfuel : variant state ≤ fuel) :
    ∃ final, whileLoop cond body fuel state = some final ∧ Inv final ∧
      cond final = false := by
  induction fuel generalizing state with
  | zero =>
      cases hcond : cond state with
      | false => exact ⟨state, whileLoop_done hcond 0, hinv, hcond⟩
      | true =>
          have hless := (hround state hinv hcond).2
          omega
  | succ fuel ih =>
      cases hcond : cond state with
      | false => exact ⟨state, whileLoop_done hcond _, hinv, hcond⟩
      | true =>
          obtain ⟨hnext, hless⟩ := hround state hinv hcond
          obtain ⟨final, hloop, hfinal⟩ := ih hnext (by omega)
          exact ⟨final, (whileLoop_round hcond fuel).trans hloop, hfinal⟩

/-- `while (cond) body` with a body that can fail. -/
def whileSome (cond : σ → Bool) (body : σ → Option σ) : Nat → σ → Option σ
  | 0, state => if cond state then none else some state
  | fuel + 1, state =>
      if cond state then (body state).bind (whileSome cond body fuel) else some state

theorem whileSome_done {cond : σ → Bool} {body : σ → Option σ} {state : σ}
    (hdone : cond state = false) (fuel : Nat) :
    whileSome cond body fuel state = some state := by
  cases fuel <;> simp [whileSome, hdone]

theorem whileSome_partial {cond : σ → Bool} {body : σ → Option σ} {Inv : σ → Prop}
    (hround : ∀ state next, Inv state → cond state = true → body state = some next → Inv next)
    {fuel : Nat} {state final : σ} (hinv : Inv state)
    (hloop : whileSome cond body fuel state = some final) :
    Inv final ∧ cond final = false := by
  induction fuel generalizing state with
  | zero =>
      cases hcond : cond state with
      | false =>
          rw [whileSome_done hcond] at hloop
          exact Option.some.inj hloop ▸ ⟨hinv, hcond⟩
      | true => simp [whileSome, hcond] at hloop
  | succ fuel ih =>
      cases hcond : cond state with
      | false =>
          rw [whileSome_done hcond] at hloop
          exact Option.some.inj hloop ▸ ⟨hinv, hcond⟩
      | true =>
          rw [whileSome, if_pos hcond] at hloop
          obtain ⟨next, hbody, hloop⟩ := Option.bind_eq_some_iff.mp hloop
          exact ih (hround state next hinv hcond hbody) hloop

theorem whileSome_total {cond : σ → Bool} {body : σ → Option σ} {Inv : σ → Prop}
    (variant : σ → Nat)
    (hround : ∀ state, Inv state → cond state = true →
      ∃ next, body state = some next ∧ Inv next ∧ variant next < variant state)
    {fuel : Nat} {state : σ} (hinv : Inv state) (hfuel : variant state ≤ fuel) :
    ∃ final, whileSome cond body fuel state = some final ∧ Inv final ∧
      cond final = false := by
  induction fuel generalizing state with
  | zero =>
      cases hcond : cond state with
      | false => exact ⟨state, whileSome_done hcond 0, hinv, hcond⟩
      | true =>
          obtain ⟨next, -, -, hless⟩ := hround state hinv hcond
          omega
  | succ fuel ih =>
      cases hcond : cond state with
      | false => exact ⟨state, whileSome_done hcond _, hinv, hcond⟩
      | true =>
          obtain ⟨next, hbody, hnext, hless⟩ := hround state hinv hcond
          obtain ⟨final, hloop, hfinal⟩ := ih hnext (by omega)
          refine ⟨final, ?_, hfinal⟩
          rw [whileSome, if_pos hcond, hbody, Option.bind_some, hloop]

/-- `do body while (cond)` with a body that can fail. -/
def doWhile (cond : σ → Bool) (body : σ → Option σ) : Nat → σ → Option σ
  | 0, _ => none
  | fuel + 1, state =>
      (body state).bind fun next =>
        if cond next then doWhile cond body fuel next else some next

/-- A round either ends the loop with `Post`, or keeps the invariant and lowers the
variant. -/
theorem doWhile_total {cond : σ → Bool} {body : σ → Option σ} {Inv Post : σ → Prop}
    (variant : σ → Nat)
    (hround : ∀ state, Inv state → ∃ next, body state = some next ∧
      (cond next = true → Inv next ∧ variant next < variant state) ∧
      (cond next = false → Post next))
    {fuel : Nat} {state : σ} (hinv : Inv state) (hfuel : variant state < fuel) :
    ∃ final, doWhile cond body fuel state = some final ∧ Post final := by
  induction fuel generalizing state with
  | zero => omega
  | succ fuel ih =>
      obtain ⟨next, hbody, hagain, hend⟩ := hround state hinv
      rw [doWhile, hbody, Option.bind_some]
      cases hcond : cond next with
      | false => exact ⟨next, rfl, hend hcond⟩
      | true =>
          obtain ⟨hnext, hless⟩ := hagain hcond
          exact ih hnext (by omega)

end ApolloContrib.Library
