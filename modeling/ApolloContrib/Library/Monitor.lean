import ApolloContrib.Library.Run

namespace ApolloContrib.Library

/-! Threads that wait in a monitor for items and are signalled one at a time. -/

/-- The items that are there, the threads that sleep, and those that were signalled and have
yet to look. -/
structure Monitor where
  items : Nat
  asleep : Nat
  awake : Nat

inductive Monitor.Action
  /-- An item comes, `lost` others go, and a sleeper is signalled if there is one. -/
  | put (lost : Nat)
  /-- Somebody who did not sleep finds an item, or none and goes to sleep. -/
  | arrive
  /-- Somebody takes an item if there is one, and never sleeps. -/
  | take
  /-- A thread that was signalled looks. -/
  | look
  /-- A sleeper wakes by itself. -/
  | stir
  deriving DecidableEq

namespace Monitor

def step (m : Monitor) : Action → Option Monitor
  | .put lost =>
      if m.asleep = 0 then some { m with items := m.items + 1 - lost }
      else some ⟨m.items + 1 - lost, m.asleep - 1, m.awake + 1⟩
  | .arrive =>
      if m.items = 0 then some { m with asleep := m.asleep + 1 }
      else some { m with items := m.items - 1 }
  | .take => some { m with items := m.items - 1 }
  | .look =>
      if m.awake = 0 then none
      else if m.items = 0 then some { m with asleep := m.asleep + 1, awake := m.awake - 1 }
      else some { m with items := m.items - 1, awake := m.awake - 1 }
  | .stir =>
      if m.asleep = 0 then none
      else some { m with asleep := m.asleep - 1, awake := m.awake + 1 }

/-- While anybody sleeps, every item has a thread that is on its way to it. -/
def Signalled (m : Monitor) : Prop := m.asleep ≠ 0 → m.items ≤ m.awake

variable {m next : Monitor} {action : Action}

theorem Signalled.step (hsignalled : Signalled m) (hstep : m.step action = some next) :
    Signalled next := by
  unfold Signalled at *
  cases action with
  | put lost =>
      simp only [Monitor.step] at hstep
      split at hstep
      · next hnone =>
          obtain rfl := Option.some.inj hstep
          exact fun hsleeps => absurd hnone hsleeps
      · next hsome =>
          obtain rfl := Option.some.inj hstep
          have := hsignalled hsome
          intro _
          dsimp only
          omega
  | arrive =>
      simp only [Monitor.step] at hstep
      split at hstep
      · next hempty =>
          obtain rfl := Option.some.inj hstep
          intro _
          dsimp only
          omega
      · obtain rfl := Option.some.inj hstep
        exact fun hsleeps => Nat.le_trans (Nat.sub_le _ _) (hsignalled hsleeps)
  | take =>
      obtain rfl := Option.some.inj hstep
      exact fun hsleeps => Nat.le_trans (Nat.sub_le _ _) (hsignalled hsleeps)
  | look =>
      simp only [Monitor.step] at hstep
      split at hstep
      · cases hstep
      · split at hstep
        · next hempty =>
            obtain rfl := Option.some.inj hstep
            intro _
            dsimp only
            omega
        · obtain rfl := Option.some.inj hstep
          exact fun hsleeps => Nat.sub_le_sub_right (hsignalled hsleeps) 1
  | stir =>
      simp only [Monitor.step] at hstep
      split at hstep
      · cases hstep
      · next hsome =>
          obtain rfl := Option.some.inj hstep
          have := hsignalled hsome
          intro _
          dsimp only
          omega

/-- When all that were signalled have looked, nothing is left or nobody waits. -/
theorem Signalled.settles (hsignalled : Signalled m) {count : Nat} (hcount : count = m.awake) :
    ∃ final, run Monitor.step m (List.replicate count .look) = some final ∧
      (final.items = 0 ∨ final.asleep = 0) := by
  induction count generalizing m with
  | zero =>
      refine ⟨m, rfl, ?_⟩
      by_cases hsleeps : m.asleep = 0
      · exact .inr hsleeps
      · exact .inl (by have := hsignalled hsleeps; omega)
  | succ count ih =>
      obtain ⟨next, hstep, hawake⟩ : ∃ next, m.step .look = some next ∧
          count = next.awake := by
        simp only [Monitor.step]
        rw [if_neg (by omega)]
        split
        · exact ⟨_, rfl, by dsimp only; omega⟩
        · exact ⟨_, rfl, by dsimp only; omega⟩
      obtain ⟨final, hrun, hend⟩ := ih (hsignalled.step hstep) hawake
      refine ⟨final, ?_, hend⟩
      rw [List.replicate_succ, run_cons, hstep]
      exact hrun

end Monitor

end ApolloContrib.Library
