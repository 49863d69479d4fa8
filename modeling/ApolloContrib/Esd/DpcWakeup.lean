import ApolloContrib.Esd.DpcRefinement

namespace ApolloContrib.Esd

open ApolloContrib.Library Function

/-! The sleep of the thread: what is triggered is called, and when the request to stop is
not heard. -/

universe u

variable {Var Addr Func : Type u} [DecidableEq Var] [DecidableEq Addr]
  {s next : State Var Addr Func} {q : WorkQueue Var Func} {dpc : Var} {a : Addr}

/-- The list is empty when the thread makes up its mind, and a thread that sleeps over a list
that is not is about to be woken. -/
structure Wakeful (s : State Var Addr Func) : Prop where
  marked : s.worker = .choose → s.first = none
  asleep : s.worker = .schedule → s.interruptible = true → s.first ≠ none →
    s.counting + s.waking ≠ 0
  exited : s.worker = .exited → s.destroy = true

namespace Wakeful

omit [DecidableEq Var] [DecidableEq Addr] in
theorem congr (hwake : Wakeful s) (hworker : next.worker = s.worker)
    (hinterruptible : next.interruptible = s.interruptible) (hfirst : next.first = s.first)
    (hdestroy : next.destroy = s.destroy)
    (hcalls : next.counting + next.waking = s.counting + s.waking) : Wakeful next where
  marked h := by
    rw [hfirst]
    exact hwake.marked (hworker ▸ h)
  asleep h hasleep hlist := by
    rw [hcalls]
    exact hwake.asleep (hworker ▸ h) (hinterruptible ▸ hasleep) (hfirst ▸ hlist)
  exited h := by
    rw [hdestroy]
    exact hwake.exited (hworker ▸ h)

theorem post (hwake : Wakeful s) (hrel : Refines s q) (hdue : Due s (.post dpc))
    (hstep : step s (.post dpc) = some next) : Wakeful next := by
  obtain ⟨hchecked, hfree⟩ := hdue
  obtain ⟨a, howns⟩ := hrel.checked dpc hchecked
  have hmem := hrel.owns_live howns
  let left : State Var Addr Func := { s with checked := s.checked.erase dpc }
  have hleft : step s (.post dpc) = left.osifDpcTrigger dpc := if_pos ⟨hchecked, hfree⟩
  rw [hleft] at hstep
  cases hdestroy : (s.obj a).destroy with
  | true =>
      rw [State.osifDpcTrigger_destroy (s := left) howns.1 hmem hdestroy] at hstep
      cases hstep
      exact hwake.congr rfl rfl rfl rfl rfl
  | false =>
      cases hlinked : (s.obj a).linked with
      | true =>
          rw [State.osifDpcTrigger_linked (s := left) howns.1 hmem hdestroy hlinked] at hstep
          cases hstep
          exact hwake.congr rfl rfl rfl rfl rfl
      | false =>
          have hagrees := hrel.agrees dpc a howns
          have hflag := hagrees.linked (hagrees.closed.symm.trans hdestroy)
          have hqueue : dpc ∉ q.queue := fun h => by simp [hflag.mpr h] at hlinked
          obtain ⟨first, obj, hnew, -, -⟩ := State.osifDpcTrigger_new (s := left)
            howns.1 hmem hdestroy hlinked hrel.queue ((hrel.mem_addrs_iff howns).not.mpr hqueue)
          rw [hnew] at hstep
          cases hstep
          exact ⟨fun h => absurd h hfree, fun _ _ _ => by simp, hwake.exited⟩

theorem unlink (hwake : Wakeful s) (hrel : Refines s q) (hdue : Due s (.unlink dpc))
    (hstep : step s (.unlink dpc) = some next) : Wakeful next := by
  obtain ⟨hentered, hfree⟩ := hdue
  obtain ⟨a, howns⟩ := hrel.owns_of_removal hentered (by simp)
  obtain ⟨first, obj, hdestroy, hspell, -⟩ :=
    State.osifDpcDestroy_linked howns.1 (hrel.owns_live howns) hrel.queue
  have hunlink : step s (.unlink dpc) = s.osifDpcDestroy dpc := if_pos ⟨hentered, hfree⟩
  rw [hunlink, hdestroy] at hstep
  cases hstep
  refine ⟨fun h => absurd h hfree, fun h hasleep hlist => ?_, hwake.exited⟩
  refine hwake.asleep h hasleep fun hnone => hlist ?_
  -- nothing is left of an empty list
  have hempty : q.queue.filterMap s.handle = [] :=
    List.head?_eq_none_iff.mp (hrel.queue.head.symm.trans hnone)
  rw [hempty] at hspell
  exact hspell

omit [DecidableEq Var] in
theorem ofTakeFirst (hrel : Refines s q) (hidle : q.running = none)
    (hstep : s.takeFirst = some next) : Wakeful next := by
  cases hqueue : q.queue with
  | nil =>
      have hfirst := hrel.first_none hqueue
      rw [State.takeFirst_none hfirst] at hstep
      cases hstep
      exact ⟨fun _ => hfirst, nofun, nofun⟩
  | cons dpc queue =>
      obtain ⟨a, -, htake, -⟩ := hrel.start hidle hqueue
      rw [htake] at hstep
      cases hstep
      exact ⟨nofun, nofun, nofun⟩

theorem thread (hwake : Wakeful s) (hrel : Refines s q)
    (hstep : step s .thread = some next) : Wakeful next := by
  change s.threadStep = some next at hstep
  cases hworker : s.worker with
  | test =>
      rw [State.threadStep_test hworker] at hstep
      cases hstep
      cases hdestroy : s.destroy with
      | false => exact ⟨nofun, nofun, nofun⟩
      | true => exact ⟨nofun, nofun, fun _ => rfl⟩
  | clear =>
      rw [State.threadStep_clear hworker] at hstep
      have hfewer : Refines { s with trig := s.trig - 1 } q := { hrel with }
      exact ofTakeFirst hfewer (hrel.running_eq_none (by simp [hworker])) hstep
  | call a =>
      obtain ⟨dpc, -, hfinish, hreturn⟩ := hrel.returns hworker
      exact ofTakeFirst hfinish rfl (hreturn.symm.trans hstep)
  | choose =>
      rw [State.threadStep_choose hworker] at hstep
      split at hstep
      · cases hstep
        exact ⟨nofun, fun _ _ hlist => absurd (hwake.marked hworker) hlist, nofun⟩
      · cases hstep
        exact ⟨nofun, nofun, nofun⟩
  | schedule =>
      rw [State.threadStep_schedule hworker] at hstep
      split at hstep
      · cases hstep
      · cases hstep
        exact ⟨nofun, nofun, nofun⟩
  | exited =>
      rw [State.threadStep, hworker] at hstep
      cases hstep

theorem preserved (hwake : Wakeful s) (hrel : Refines s q) {label : Label Var Addr Func}
    (hdue : Due s label) (hstep : step s label = some next) : Wakeful next := by
  cases label with
  | create dpc malloc func =>
      have hfresh : malloc ∉ s.live := hdue
      rw [step, if_neg hfresh] at hstep
      cases hstep
      exact hwake.congr rfl rfl rfl rfl rfl
  | trigger dpc =>
      cases hhandle : s.handle dpc with
      | none =>
          simp only [step, hhandle] at hstep
          cases hstep
          exact hwake.congr rfl rfl rfl rfl rfl
      | some a =>
          simp only [step, hhandle] at hstep
          cases hstep
          exact hwake.congr rfl rfl rfl rfl rfl
  | post dpc => exact hwake.post hrel hdue hstep
  | count =>
      have hcounting : s.counting ≠ 0 := hdue
      rw [step, if_neg hcounting] at hstep
      cases hstep
      exact hwake.congr rfl rfl rfl rfl (by dsimp only; omega)
  | wake =>
      have hwaking : s.waking ≠ 0 := hdue
      rw [step, if_neg hwaking] at hstep
      cases hstep
      exact ⟨hwake.marked, by simp, hwake.exited⟩
  | destroy dpc =>
      cases hhandle : s.handle dpc with
      | none =>
          simp only [step, hhandle] at hstep
          cases hstep
          exact hwake.congr rfl rfl rfl rfl rfl
      | some a =>
          simp only [step, hhandle] at hstep
          cases hstep
          exact hwake.congr rfl rfl rfl rfl rfl
  | unlink dpc => exact hwake.unlink hrel hdue hstep
  | poll dpc =>
      have hready : s.removal dpc = some .waiting ∧ s.worker ≠ .choose := hdue
      obtain ⟨a, howns⟩ := hrel.owns_of_removal hready.1 (by simp)
      rw [step, if_pos hready, State.testRunning_of_mem howns.1 (hrel.owns_live howns)] at hstep
      cases hstep
      exact hwake.congr rfl rfl rfl rfl rfl
  | free dpc =>
      have hready : s.removal dpc = some .idle := hdue
      obtain ⟨a, howns⟩ := hrel.owns_of_removal hready (by simp)
      rw [step, if_pos hready, howns.1, Option.bind_eq_bind, Option.bind_some,
        State.deref_of_mem (hrel.owns_live howns)] at hstep
      cases hstep
      exact hwake.congr rfl rfl rfl rfl rfl
  | forget dpc =>
      have hready : s.removal dpc = some .freed := hdue
      rw [step, if_pos hready] at hstep
      cases hstep
      exact hwake.congr rfl rfl rfl rfl rfl
  | stop =>
      cases hstep
      exact ⟨hwake.marked, fun _ _ _ => by simp, fun _ => rfl⟩
  | thread => exact hwake.thread hrel hstep

omit [DecidableEq Var] [DecidableEq Addr] in
theorem init (garbage : Addr → Dpc Addr Func) :
    Wakeful (State.init garbage : State Var Addr Func) :=
  ⟨nofun, nofun, nofun⟩

end Wakeful

theorem careful_run_wakeful {garbage : Addr → Dpc Addr Func} {labels : List (Label Var Addr Func)}
    (hmeet : StepsMeet step (fun s label => Due s label ∧ Careful s label) (State.init garbage)
      labels) (hrun : run step (State.init garbage) labels = some s) :
    Wakeful s ∧ ∃ q, Refines s q := by
  have hinit : Wakeful (State.init garbage : State Var Addr Func) ∧
      ∃ q, Refines (State.init garbage : State Var Addr Func) q :=
    ⟨Wakeful.init garbage, _, Refines.init garbage⟩
  have hall : Throughout step (fun s => Wakeful s ∧ ∃ q, Refines s q) (State.init garbage)
      labels := throughout_of_stepsMeet ?_ hinit hmeet
  · exact hall.last hrun
  rintro s label next ⟨hwake, q, hrel⟩ hdue hstep
  obtain ⟨next', moves, q', hnext', -, hrel'⟩ := hrel.matched hdue
  obtain rfl := Option.some.inj (hnext'.symm.trans hstep)
  exact ⟨hwake.preserved hrel hdue.1 hstep, q', hrel'⟩

/-! The calls under way get to their end, then only the thread runs. -/

theorem run_counts (s : State Var Addr Func) :
    run step s (List.replicate s.counting .count) = some { s with
      trig := s.trig + s.counting, counting := 0, waking := s.waking + s.counting } := by
  induction hcounting : s.counting generalizing s with
  | zero =>
      cases s
      cases hcounting
      rfl
  | succ counting ih =>
      have hstep : step s .count = some { s with
          trig := s.trig + 1, counting := s.counting - 1, waking := s.waking + 1 } :=
        if_neg (by simp [hcounting])
      rw [List.replicate_succ, run_cons, hstep, Option.bind_some, ih _ (by simp [hcounting])]
      simp [Nat.add_comm, Nat.add_left_comm]

theorem run_wakes (s : State Var Addr Func) :
    run step s (List.replicate s.waking .wake) = some { s with
      interruptible := s.interruptible && s.waking == 0, waking := 0 } := by
  induction hwaking : s.waking generalizing s with
  | zero =>
      cases s
      cases hwaking
      simp
  | succ waking ih =>
      have hstep : step s .wake = some { s with
          interruptible := false, waking := s.waking - 1 } :=
        if_neg (by simp [hwaking])
      rw [List.replicate_succ, run_cons, hstep, Option.bind_some, ih _ (by simp [hwaking])]
      simp

/-- The thread has called all that waited, in the order of the queue, and is about to make up
its mind. -/
structure Drained (s : State Var Addr Func) (q : WorkQueue Var Func)
    (final : State Var Addr Func) : Prop where
  worker : final.worker = .choose
  first : final.first = none
  interruptible : final.interruptible = true
  trig : final.trig = s.trig
  destroy : final.destroy = s.destroy
  trace : final.trace = s.trace ++ q.queue.filterMap fun dpc => (q.job dpc).map .called

/-- By induction on the queue: one call for each job of it. -/
theorem Refines.drain (hrel : Refines s q) (hidle : q.running = none) :
    ∃ next final, s.takeFirst = some next ∧
      run step next (List.replicate q.queue.length .thread) = some final ∧
      Drained s q final := by
  induction hqueue : q.queue generalizing s q with
  | nil =>
      have hfirst := hrel.first_none hqueue
      refine ⟨_, _, State.takeFirst_none hfirst, rfl, rfl, hfirst, rfl, rfl, rfl, ?_⟩
      simp [hqueue]
  | cons dpc queue ih =>
      obtain ⟨a, hjob, htake, hstart⟩ := hrel.start hidle hqueue
      obtain ⟨_, -, hfinish, hreturn⟩ := hstart.returns rfl
      obtain ⟨next, final, hnext, hrun, hdrained⟩ := ih hfinish rfl rfl
      refine ⟨_, final, htake, ?_, hdrained.worker, hdrained.first, hdrained.interruptible,
        hdrained.trig, hdrained.destroy, ?_⟩
      · rw [List.length_cons, List.replicate_succ, run_cons, step, hreturn, hnext]
        exact hrun
      · rw [hdrained.trace, hqueue, List.filterMap_cons_some (by rw [hjob]; rfl)]
        exact List.append_assoc ..

section Drains

variable (hrel : Refines s q)

include hrel

theorem Refines.drain_clear (hworker : s.worker = .clear) :
    ∃ final, run step s (List.replicate (q.queue.length + 1) .thread) = some final ∧
      Drained { s with trig := s.trig - 1 } q final := by
  have hfewer : Refines { s with trig := s.trig - 1 } q := { hrel with }
  obtain ⟨next, final, hnext, hrun, hdrained⟩ :=
    hfewer.drain (hrel.running_eq_none (by simp [hworker]))
  refine ⟨final, ?_, hdrained⟩
  rw [List.replicate_succ, run_cons, step, State.threadStep_clear hworker, hnext]
  exact hrun

theorem Refines.drain_call (hworker : s.worker = .call a) :
    ∃ final, run step s (List.replicate (q.queue.length + 1) .thread) = some final ∧
      Drained s q final := by
  obtain ⟨_, -, hfinish, hreturn⟩ := hrel.returns hworker
  obtain ⟨next, final, hnext, hrun, hdrained⟩ := hfinish.drain rfl
  refine ⟨final, ?_, hdrained.worker, hdrained.first, hdrained.interruptible, hdrained.trig,
    hdrained.destroy, hdrained.trace⟩
  rw [List.replicate_succ, run_cons, step, hreturn, hnext]
  exact hrun

theorem Refines.drain_test (hworker : s.worker = .test) (hdestroy : s.destroy = false) :
    ∃ final, run step s (List.replicate (q.queue.length + 2) .thread) = some final ∧
      Drained { s with trig := s.trig - 1 } q final := by
  have hstep : step s .thread = some { s with worker := .clear } := by
    rw [step, State.threadStep_test hworker, hdestroy]
    rfl
  have hclear : Refines { s with worker := .clear } q := hrel.ofWorker (by simp [hworker]) (by simp)
  obtain ⟨final, hrun, hdrained⟩ := hclear.drain_clear rfl
  refine ⟨final, ?_, hdrained.worker, hdrained.first, hdrained.interruptible, hdrained.trig,
    hdrained.destroy, hdrained.trace⟩
  rw [List.replicate_succ, run_cons, hstep]
  exact hrun

theorem Refines.drain_schedule (hworker : s.worker = .schedule)
    (hawake : s.interruptible = false) (hdestroy : s.destroy = false) :
    ∃ final, run step s (List.replicate (q.queue.length + 3) .thread) = some final ∧
      Drained { s with trig := s.trig - 1 } q final := by
  have hstep : step s .thread = some { s with worker := .test } := by
    rw [step, State.threadStep_schedule hworker, hawake]
    rfl
  have htest : Refines { s with worker := .test } q := hrel.ofWorker (by simp [hworker]) (by simp)
  obtain ⟨final, hrun, hdrained⟩ := htest.drain_test rfl hdestroy
  refine ⟨final, ?_, hdrained.worker, hdrained.first, hdrained.interruptible, hdrained.trig,
    hdrained.destroy, hdrained.trace⟩
  rw [List.replicate_succ, run_cons, hstep]
  exact hrun

/-- The thread alone calls what waits, when nobody else has anything left to do. -/
theorem Wakeful.drain (hwake : Wakeful s) (hdestroy : s.destroy = false)
    (hcalls : s.counting + s.waking = 0) :
    ∃ n final, n ≤ q.queue.length + 3 ∧
      run step s (List.replicate n .thread) = some final ∧ final.first = none ∧
      final.trace = s.trace ++ q.queue.filterMap fun dpc => (q.job dpc).map .called := by
  have hstays : s.first = none → ∃ n final, n ≤ q.queue.length + 3 ∧
      run step s (List.replicate n .thread) = some final ∧ final.first = none ∧
      final.trace = s.trace ++ q.queue.filterMap fun dpc => (q.job dpc).map .called := by
    intro hfirst
    have hqueue : q.queue = [] := by
      have hempty := List.head?_eq_none_iff.mp (hrel.queue.head.symm.trans hfirst)
      by_contra hne
      obtain ⟨dpc, hmem⟩ := List.exists_mem_of_ne_nil _ hne
      obtain ⟨a, howns⟩ := hrel.queued dpc hmem
      have haddr := (hrel.mem_addrs_iff howns).mpr hmem
      rw [hempty] at haddr
      cases haddr
    exact ⟨0, s, by omega, rfl, hfirst, by simp [hqueue]⟩
  cases hworker : s.worker with
  | test =>
      obtain ⟨final, hrun, hdrained⟩ := hrel.drain_test hworker hdestroy
      exact ⟨_, final, by omega, hrun, hdrained.first, hdrained.trace⟩
  | clear =>
      obtain ⟨final, hrun, hdrained⟩ := hrel.drain_clear hworker
      exact ⟨_, final, by omega, hrun, hdrained.first, hdrained.trace⟩
  | call a =>
      obtain ⟨final, hrun, hdrained⟩ := hrel.drain_call hworker
      exact ⟨_, final, by omega, hrun, hdrained.first, hdrained.trace⟩
  | choose => exact hstays (hwake.marked hworker)
  | schedule =>
      cases hawake : s.interruptible with
      | false =>
          obtain ⟨final, hrun, hdrained⟩ := hrel.drain_schedule hworker hawake hdestroy
          exact ⟨_, final, by omega, hrun, hdrained.first, hdrained.trace⟩
      | true =>
          -- asleep with nobody to wake it: the list is empty
          refine hstays ?_
          by_contra hlist
          exact hwake.asleep hworker hawake hlist hcalls
  | exited =>
      rw [hwake.exited hworker] at hdestroy
      cases hdestroy

end Drains

/-- The triggers under way count and wake, and the thread then calls all that waits. -/
theorem triggered_jobs_called {garbage : Addr → Dpc Addr Func}
    {labels : List (Label Var Addr Func)}
    (hmeet : StepsMeet step (fun s label => Due s label ∧ Careful s label) (State.init garbage)
      labels) (hrun : run step (State.init garbage) labels = some s) (hdestroy : s.destroy = false) :
    ∃ q n final, Refines s q ∧ n ≤ q.queue.length + 3 ∧
      run step s (List.replicate s.counting .count ++
        List.replicate (s.waking + s.counting) .wake ++ List.replicate n .thread) = some final ∧
      final.first = none ∧
      final.trace = s.trace ++ q.queue.filterMap fun dpc => (q.job dpc).map .called := by
  obtain ⟨hwake, q, hrel⟩ := careful_run_wakeful hmeet hrun
  let counted : State Var Addr Func := { s with
    trig := s.trig + s.counting, counting := 0, waking := s.waking + s.counting }
  let settled : State Var Addr Func := { counted with
    interruptible := counted.interruptible && counted.waking == 0, waking := 0 }
  have hsettled : run step s (List.replicate s.counting .count ++
      List.replicate (s.waking + s.counting) .wake) = some settled := by
    rw [run_append_of_eq _ (run_counts s)]
    exact run_wakes counted
  have hstill : Wakeful settled := by
    refine ⟨hwake.marked, fun hworker hasleep hlist => ?_, hwake.exited⟩
    -- whoever still sleeps was not woken, so nobody was about to wake it
    have hcalls : s.interruptible = true ∧ s.waking = 0 ∧ s.counting = 0 := by
      simpa [settled, counted] using hasleep
    have hpending := hwake.asleep hworker hcalls.1 hlist
    omega
  have hsame : Refines settled q := { hrel with }
  obtain ⟨n, final, hn, hthread, hdone⟩ := hstill.drain hsame hdestroy rfl
  refine ⟨q, n, final, hrel, hn, ?_, hdone⟩
  rw [run_append_of_eq _ hsettled]
  exact hthread

def asleepLabels : List (Label Nat Nat Nat) :=
  [.create 0 7 100, .thread, .thread, .thread, .trigger 0, .post 0]

theorem triggered_jobs_called_asleep :
    ∃ s, run step (State.init fun _ => ⟨none, true, true, true, 0⟩) asleepLabels = some s ∧
      s.worker = .schedule ∧ s.interruptible = true ∧
      ∃ q n final, Refines s q ∧ n ≤ q.queue.length + 3 ∧
        run step s (List.replicate s.counting .count ++
          List.replicate (s.waking + s.counting) .wake ++ List.replicate n .thread) = some final ∧
        final.first = none ∧
        final.trace = s.trace ++ q.queue.filterMap fun dpc => (q.job dpc).map .called := by
  have hsome : (run step (State.init fun _ => ⟨none, true, true, true, 0⟩) asleepLabels).isSome := by
    decide
  obtain ⟨s, hs⟩ := Option.isSome_iff_exists.mp hsome
  have hstate : (run step (State.init fun _ => ⟨none, true, true, true, 0⟩) asleepLabels).map
      (fun s => (s.worker, s.interruptible, s.destroy)) = some (.schedule, true, false) := by
    decide
  rw [hs, Option.map_some] at hstate
  obtain ⟨hworker, hasleep, hdestroy⟩ := by simpa using hstate
  exact ⟨s, hs, hworker, hasleep, triggered_jobs_called (by decide) hs hdestroy⟩

/-- The thread has looked at `destroy`, and the triggers under way are too few to make it look
again before it sleeps. -/
def Missed (s : State Var Addr Func) : Prop :=
  s.worker = .clear ∧ s.trig + s.counting ≤ 1 ∨
    (∃ a, s.worker = .call a) ∧ s.trig + s.counting = 0

/-- What is left where no trigger gets to the list any more. -/
def Label.Finishes : Label Var Addr Func → Prop
  | .count | .wake | .thread => True
  | .create .. | .trigger _ | .post _ | .destroy _ | .unlink _ | .poll _ | .free _ | .forget _
  | .stop => False

/-- All have counted and woken, and the thread has returned or sleeps. -/
structure AtRest (s : State Var Addr Func) : Prop where
  counting : s.counting = 0
  waking : s.waking = 0
  thread : s.worker = .exited ∨ s.worker = .schedule ∧ s.interruptible = true

/-- The thread is going to look at `destroy`. -/
structure Hears (s : State Var Addr Func) : Prop where
  destroy : s.destroy = true
  clear : s.worker = .clear → 1 < s.trig + s.counting
  call : ∀ a, s.worker = .call a → s.trig + s.counting ≠ 0
  choose : s.worker = .choose → s.interruptible = true → s.trig + s.counting + s.waking ≠ 0
  schedule : s.worker = .schedule → s.interruptible = true → s.counting + s.waking ≠ 0

omit [DecidableEq Var] in
theorem State.takeFirst_keeps (htake : s.takeFirst = some next) :
    (next.worker = .choose ∨ ∃ a, next.worker = .call a) ∧ next.trig = s.trig ∧
      next.counting = s.counting ∧ next.waking = s.waking ∧ next.destroy = s.destroy := by
  cases hfirst : s.first with
  | none =>
      rw [State.takeFirst_none hfirst] at htake
      cases htake
      exact ⟨.inl rfl, rfl, rfl, rfl, rfl⟩
  | some a =>
      by_cases hmem : a ∈ s.live
      · rw [State.takeFirst_some hfirst hmem] at htake
        cases htake
        exact ⟨.inr ⟨a, rfl⟩, rfl, rfl, rfl, rfl⟩
      · rw [State.takeFirst, hfirst] at htake
        dsimp only at htake
        rw [State.deref, if_neg hmem] at htake
        cases htake

theorem thread_keeps (hrel : Refines s q) (hstep : step s .thread = some next) :
    next.counting = s.counting ∧ next.waking = s.waking := by
  change s.threadStep = some next at hstep
  cases hworker : s.worker with
  | test =>
      rw [State.threadStep_test hworker] at hstep
      cases hstep
      exact ⟨rfl, rfl⟩
  | clear =>
      rw [State.threadStep_clear hworker] at hstep
      obtain ⟨-, -, hcounting, hwaking, -⟩ := State.takeFirst_keeps hstep
      exact ⟨hcounting, hwaking⟩
  | call a =>
      obtain ⟨_, -, -, hreturn⟩ := hrel.returns hworker
      rw [hreturn] at hstep
      obtain ⟨-, -, hcounting, hwaking, -⟩ := State.takeFirst_keeps hstep
      exact ⟨hcounting, hwaking⟩
  | choose =>
      rw [State.threadStep_choose hworker] at hstep
      split at hstep <;> cases hstep <;> exact ⟨rfl, rfl⟩
  | schedule =>
      rw [State.threadStep_schedule hworker] at hstep
      split at hstep <;> cases hstep
      exact ⟨rfl, rfl⟩
  | exited =>
      rw [State.threadStep, hworker] at hstep
      cases hstep

theorem Label.Finishes.due {label : Label Var Addr Func} (hfinishes : label.Finishes)
    (hstep : step s label = some next) : Due s label ∧ Careful s label := by
  cases label with
  | count =>
      refine ⟨fun hnone => ?_, trivial⟩
      rw [step, if_pos hnone] at hstep
      cases hstep
  | wake =>
      refine ⟨fun hnone => ?_, trivial⟩
      rw [step, if_pos hnone] at hstep
      cases hstep
  | thread =>
      change s.threadStep = some next at hstep
      refine ⟨⟨fun hworker => ?_, fun hworker => ?_⟩, trivial⟩
      · rw [State.threadStep, hworker] at hstep
        cases hstep
      · rw [State.threadStep_schedule hworker] at hstep
        split at hstep
        · cases hstep
        · rwa [Bool.not_eq_true] at *
  | create | trigger | post | destroy | unlink | poll | free | forget | stop =>
      exact hfinishes.elim

theorem Hears.preserved (hhears : Hears s) (hrel : Refines s q) {label : Label Var Addr Func}
    (hfinishes : label.Finishes) (hstep : step s label = some next) : Hears next := by
  cases label with
  | count =>
      have hcounting : s.counting ≠ 0 := (hfinishes.due hstep).1
      rw [step, if_neg hcounting] at hstep
      cases hstep
      refine ⟨hhears.destroy, fun h => ?_, fun a h => ?_, fun _ _ => ?_, fun _ _ => ?_⟩
      · have hmany := hhears.clear h
        dsimp only
        omega
      all_goals
        dsimp only
        omega
  | wake =>
      have hwaking : s.waking ≠ 0 := (hfinishes.due hstep).1
      rw [step, if_neg hwaking] at hstep
      cases hstep
      exact ⟨hhears.destroy, hhears.clear, hhears.call, by simp, by simp⟩
  | thread =>
      change s.threadStep = some next at hstep
      cases hworker : s.worker with
      | test =>
          rw [State.threadStep_test hworker, if_pos hhears.destroy] at hstep
          cases hstep
          exact ⟨hhears.destroy, by simp, by simp, by simp, by simp⟩
      | clear =>
          have hmany := hhears.clear hworker
          rw [State.threadStep_clear hworker] at hstep
          obtain ⟨hplace, htrig, hcounting, -, hdestroy⟩ := State.takeFirst_keeps hstep
          dsimp only at htrig hcounting
          refine ⟨hdestroy.trans hhears.destroy, fun h => ?_, fun _ _ => by omega,
            fun _ _ => by omega, fun h => ?_⟩
          · simp [h] at hplace
          · simp [h] at hplace
      | call a =>
          have hsome := hhears.call a hworker
          obtain ⟨_, -, -, hreturn⟩ := hrel.returns hworker
          rw [hreturn] at hstep
          obtain ⟨hplace, htrig, hcounting, -, hdestroy⟩ := State.takeFirst_keeps hstep
          have hsum : next.trig + next.counting = s.trig + s.counting := by
            rw [htrig, hcounting]
            rfl
          refine ⟨hdestroy.trans hhears.destroy, fun h => ?_, fun _ _ => by omega,
            fun _ _ => by omega, fun h => ?_⟩
          · simp [h] at hplace
          · simp [h] at hplace
      | choose =>
          rw [State.threadStep_choose hworker] at hstep
          split at hstep
          next htrig =>
            cases hstep
            refine ⟨hhears.destroy, by simp, by simp, by simp, fun _ hasleep => ?_⟩
            have hcalls := hhears.choose hworker hasleep
            dsimp only
            omega
          next =>
            cases hstep
            exact ⟨hhears.destroy, by simp, by simp, by simp, by simp⟩
      | schedule =>
          rw [State.threadStep_schedule hworker] at hstep
          split at hstep
          · cases hstep
          · cases hstep
            exact ⟨hhears.destroy, by simp, by simp, by simp, by simp⟩
      | exited =>
          rw [State.threadStep, hworker] at hstep
          cases hstep
  | create | trigger | post | destroy | unlink | poll | free | forget | stop =>
      exact hfinishes.elim

omit [DecidableEq Var] [DecidableEq Addr] in
theorem Hears.exited (hhears : Hears s) (hrest : AtRest s) : s.worker = .exited := by
  refine hrest.thread.resolve_right fun ⟨hschedule, hasleep⟩ => ?_
  have hcalls := hhears.schedule hschedule hasleep
  rw [hrest.counting, hrest.waking] at hcalls
  exact hcalls rfl

theorem Hears.of_run {rest : List (Label Var Addr Func)} {final : State Var Addr Func}
    (hhears : Hears s) (hrel : Refines s q) (hrest : ∀ label ∈ rest, label.Finishes)
    (hrun : run step s rest = some final) (hstill : AtRest final) : final.worker = .exited := by
  have hall : Throughout step (fun s => Hears s ∧ ∃ q, Refines s q) s rest :=
    throughout_of_stepsMeet ?_ ⟨hhears, q, hrel⟩ (stepsMeet_of_forall hrest)
  · exact (hall.last hrun).1.exited hstill
  rintro s label next ⟨hhears, q, hrel⟩ hfinishes hstep
  obtain ⟨next', moves, q', hnext', -, hrel'⟩ := hrel.matched (hfinishes.due hstep)
  obtain rfl := Option.some.inj (hnext'.symm.trans hstep)
  exact ⟨hhears.preserved hrel hfinishes hstep, q', hrel'⟩

section Stop

theorem run_test (hworker : s.worker = .test) (hdestroy : s.destroy = true) :
    ∃ final, run step s (List.replicate 1 .thread) = some final ∧ final.worker = .exited := by
  refine ⟨{ s with worker := .exited }, ?_, rfl⟩
  rw [List.replicate_one, run_cons, step, State.threadStep_test hworker, if_pos hdestroy]
  rfl

theorem run_schedule (hworker : s.worker = .schedule) (hawake : s.interruptible = false)
    (hdestroy : s.destroy = true) :
    ∃ final, run step s (List.replicate 2 .thread) = some final ∧ final.worker = .exited := by
  have hstep : step s .thread = some { s with worker := .test } := by
    rw [step, State.threadStep_schedule hworker, hawake]
    rfl
  rw [List.replicate_succ, run_cons, hstep]
  exact run_test (s := { s with worker := .test }) rfl hdestroy

theorem run_choose (hworker : s.worker = .choose) (hdestroy : s.destroy = true)
    (hheard : s.trig ≠ 0 ∨ s.interruptible = false) :
    ∃ n final, run step s (List.replicate n .thread) = some final ∧ final.worker = .exited := by
  by_cases htrig : s.trig = 0
  · have hawake := hheard.resolve_left (not_not.mpr htrig)
    have hstep : step s .thread = some { s with worker := .schedule } := by
      rw [step, State.threadStep_choose hworker, if_pos htrig]
    obtain ⟨final, hrun, hexited⟩ := run_schedule (s := { s with worker := .schedule })
      rfl hawake hdestroy
    refine ⟨3, final, ?_, hexited⟩
    rw [List.replicate_succ, run_cons, hstep]
    exact hrun
  · have hstep : step s .thread = some { s with worker := .test, interruptible := false } := by
      rw [step, State.threadStep_choose hworker, if_neg htrig]
    obtain ⟨final, hrun, hexited⟩ := run_test (s := { s with
      worker := .test, interruptible := false }) rfl hdestroy
    refine ⟨2, final, ?_, hexited⟩
    rw [List.replicate_succ, run_cons, hstep]
    exact hrun

/-- A thread that is done with the list hears of the stop where `trig` is not zero, and goes to
sleep where it is. -/
theorem rests_after {middle : State Var Addr Func} {m : Nat} (hdestroy : middle.destroy = true)
    (hworker : middle.worker = .choose) (hasleep : middle.interruptible = true)
    (hrun : run step s (List.replicate m .thread) = some middle) :
    ∃ n final, run step s (List.replicate n .thread) = some final ∧
      (final.worker = .exited ∨ final.worker = .schedule ∧ final.interruptible = true) ∧
      (final.worker = .exited ↔ middle.trig ≠ 0) := by
  by_cases htrig : middle.trig = 0
  · have hstep : step middle .thread = some { middle with worker := .schedule } := by
      rw [step, State.threadStep_choose hworker, if_pos htrig]
    refine ⟨m + 1, { middle with worker := .schedule }, ?_, .inr ⟨rfl, hasleep⟩, by simp [htrig]⟩
    rw [List.replicate_succ', run_append_of_eq _ hrun, run_cons, hstep]
    rfl
  · obtain ⟨n, final, hfinal, hexited⟩ := run_choose hworker hdestroy (.inl htrig)
    refine ⟨m + n, final, ?_, .inl hexited, iff_of_true hexited htrig⟩
    rw [List.replicate_add, run_append_of_eq _ hrun]
    exact hfinal

theorem rests (hrel : Refines s q) (hdestroy : s.destroy = true) (hcounting : s.counting = 0)
    (hawake : s.interruptible = false) :
    ∃ n final, run step s (List.replicate n .thread) = some final ∧
      (final.worker = .exited ∨ final.worker = .schedule ∧ final.interruptible = true) ∧
      (final.worker = .exited ↔ ¬ Missed s) := by
  have hexits {n : Nat} {final : State Var Addr Func}
      (hrun : run step s (List.replicate n .thread) = some final) (hexited : final.worker = .exited)
      (hheard : ¬ Missed s) :
      ∃ n final, run step s (List.replicate n .thread) = some final ∧
        (final.worker = .exited ∨ final.worker = .schedule ∧ final.interruptible = true) ∧
        (final.worker = .exited ↔ ¬ Missed s) :=
    ⟨n, final, hrun, .inl hexited, iff_of_true hexited hheard⟩
  cases hworker : s.worker with
  | test =>
      obtain ⟨final, hrun, hexited⟩ := run_test hworker hdestroy
      exact hexits hrun hexited (by simp [Missed, hworker])
  | clear =>
      obtain ⟨middle, hmiddle, hdrained⟩ := hrel.drain_clear hworker
      obtain ⟨n, final, hrun, hstuck, hiff⟩ := rests_after (hdrained.destroy.trans hdestroy)
        hdrained.worker hdrained.interruptible hmiddle
      refine ⟨n, final, hrun, hstuck, hiff.trans ?_⟩
      have hmissed : Missed s ↔ s.trig ≤ 1 := by simp [Missed, hworker, hcounting]
      rw [hdrained.trig, hmissed]
      dsimp only
      omega
  | call a =>
      obtain ⟨middle, hmiddle, hdrained⟩ := hrel.drain_call hworker
      obtain ⟨n, final, hrun, hstuck, hiff⟩ := rests_after (hdrained.destroy.trans hdestroy)
        hdrained.worker hdrained.interruptible hmiddle
      refine ⟨n, final, hrun, hstuck, hiff.trans ?_⟩
      rw [hdrained.trig]
      simp [Missed, hworker, hcounting]
  | choose =>
      obtain ⟨n, final, hrun, hexited⟩ := run_choose hworker hdestroy (.inr hawake)
      exact hexits hrun hexited (by simp [Missed, hworker])
  | schedule =>
      obtain ⟨final, hrun, hexited⟩ := run_schedule hworker hawake hdestroy
      exact hexits hrun hexited (by simp [Missed, hworker])
  | exited => exact hexits (n := 0) rfl hworker (by simp [Missed, hworker])

theorem run_thread_keeps {n : Nat} {final : State Var Addr Func} (hrel : Refines s q)
    (hrun : run step s (List.replicate n .thread) = some final) :
    final.counting = s.counting ∧ final.waking = s.waking := by
  have hall : Throughout step (fun other => (∃ q, Refines other q) ∧
      other.counting = s.counting ∧ other.waking = s.waking) s (List.replicate n .thread) :=
    throughout_of_stepsMeet ?_ ⟨⟨q, hrel⟩, rfl, rfl⟩
      (stepsMeet_of_forall (p := fun label => label = .thread) fun _ => List.eq_of_mem_replicate)
  · exact (hall.last hrun).2
  rintro s label next ⟨⟨q, hrel⟩, hcounting, hwaking⟩ rfl hstep
  have hfinishes : (Label.thread : Label Var Addr Func).Finishes := trivial
  obtain ⟨next', moves, q', hnext', -, hrel'⟩ := hrel.matched (hfinishes.due hstep)
  obtain rfl := Option.some.inj (hnext'.symm.trans hstep)
  obtain ⟨hsame, hsame'⟩ := thread_keeps hrel hstep
  exact ⟨⟨q', hrel'⟩, hsame.trans hcounting, hsame'.trans hwaking⟩

end Stop

/-- The thread and the triggers under way come to rest, and `osif_dpc_root_destroy` has its answer
then in whatever order they go on, unless its request can be missed. -/
theorem stop_heard_iff {garbage : Addr → Dpc Addr Func} {labels : List (Label Var Addr Func)}
    (hmeet : StepsMeet step (fun s label => Due s label ∧ Careful s label) (State.init garbage)
      labels) (hrun : run step (State.init garbage) labels = some s) :
    (∃ rest final, (∀ label ∈ rest, label.Finishes) ∧
        run step s (.stop :: rest) = some final ∧ AtRest final) ∧
      ((∀ rest final, (∀ label ∈ rest, label.Finishes) →
        run step s (.stop :: rest) = some final → AtRest final → final.worker = .exited) ↔
      ¬ Missed s) := by
  obtain ⟨-, q, hrel⟩ := careful_run_wakeful hmeet hrun
  let stopped : State Var Addr Func := { s with destroy := true, waking := s.waking + 1 }
  let counted : State Var Addr Func := { stopped with
    trig := s.trig + s.counting, counting := 0, waking := s.waking + 1 + s.counting }
  let told : State Var Addr Func := { counted with
    interruptible := counted.interruptible && counted.waking == 0, waking := 0 }
  have hsame : Refines told q := { hrel with }
  have htold : run step stopped (List.replicate stopped.counting .count ++
      List.replicate counted.waking .wake) = some told := by
    rw [run_append_of_eq _ (run_counts stopped)]
    exact run_wakes counted
  have hawake : told.interruptible = false := by
    change (s.interruptible && s.waking + 1 + s.counting == 0) = false
    simp
  have hmissed : Missed told ↔ Missed s := Iff.rfl
  obtain ⟨n, final, hthread, hstuck, hiff⟩ := rests hsame rfl rfl hawake
  obtain ⟨hcounting, hwaking⟩ := run_thread_keeps hsame hthread
  have hstill : AtRest final := ⟨hcounting, hwaking, hstuck⟩
  have hfinal : run step s (.stop :: ((List.replicate stopped.counting .count ++
      List.replicate counted.waking .wake) ++ List.replicate n .thread)) = some final := by
    rw [run_cons]
    change run step stopped _ = some final
    rw [run_append_of_eq _ htold]
    exact hthread
  have hfinishes : ∀ label ∈ (List.replicate stopped.counting .count ++
      List.replicate counted.waking .wake) ++ List.replicate n .thread,
      (label : Label Var Addr Func).Finishes := by
    intro label hmem
    simp only [List.mem_append, List.mem_replicate] at hmem
    obtain (⟨-, rfl⟩ | ⟨-, rfl⟩) | ⟨-, rfl⟩ := hmem <;> trivial
  rw [hmissed] at hiff
  refine ⟨⟨_, final, hfinishes, hfinal, hstill⟩, ?_⟩
  constructor
  · intro hall
    exact hiff.mp (hall _ final hfinishes hfinal hstill)
  · intro hheard rest final hrest hrun hstill
    have hstopped : Refines stopped q := { hrel with }
    have hhears : Hears stopped := by
      refine ⟨rfl, fun h => ?_, fun a h hnone => ?_, fun _ _ => ?_, fun _ _ => ?_⟩
      · exact Nat.not_le.mp fun hle => hheard (.inl ⟨h, hle⟩)
      · exact hheard (.inr ⟨⟨a, h⟩, hnone⟩)
      · exact Nat.succ_ne_zero _
      · exact Nat.succ_ne_zero _
    rw [run_cons] at hrun
    exact hhears.of_run hstopped hrest hrun hstill

/-- A trigger is under way when the thread clears, and saves the stop or not. -/
def clearingLabels : List (Label Nat Nat Nat) := [.create 0 7 100, .thread, .trigger 0, .post 0]

theorem stop_heard_iff_clearing :
    ∃ s, run step (State.init fun _ => ⟨none, true, true, true, 0⟩) clearingLabels = some s ∧
      (∃ rest final, (∀ label ∈ rest, label.Finishes) ∧
        run step s (.stop :: rest) = some final ∧ AtRest final) ∧
      ((∀ rest final, (∀ label ∈ rest, label.Finishes) →
        run step s (.stop :: rest) = some final → AtRest final → final.worker = .exited) ↔
      ¬ Missed s) := by
  have hsome : (run step (State.init fun _ => ⟨none, true, true, true, 0⟩)
      clearingLabels).isSome := by
    decide
  obtain ⟨s, hs⟩ := Option.isSome_iff_exists.mp hsome
  exact ⟨s, hs, stop_heard_iff (by decide) hs⟩

end ApolloContrib.Esd
