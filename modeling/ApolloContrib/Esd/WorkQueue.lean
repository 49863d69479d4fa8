import ApolloContrib.Esd.Dpc
import ApolloContrib.Library.Run

namespace ApolloContrib.Esd

open ApolloContrib.Library Function

/-! What the DPCs are for: a queue of jobs that are called one at a time, first come first
served, each at most once in it. -/

universe u

variable {Var Addr Func : Type u}

structure WorkQueue (Var Func : Type u) where
  job : Var → Option Func
  closed : Var → Bool
  queue : List Var
  running : Option Var
  trace : List (Event Var Func)

inductive Move (Var Func : Type u)
  | create (dpc : Var) (func : Func)
  | trigger (dpc : Var)
  | post (dpc : Var)
  | start
  | finish
  | destroy (dpc : Var)
  | close (dpc : Var)
  | free (dpc : Var)
  | forget (dpc : Var)

namespace WorkQueue

def init : WorkQueue Var Func :=
  { job := fun _ => none, closed := fun _ => false, queue := [], running := none, trace := [] }

def log (q : WorkQueue Var Func) (event : Event Var Func) : WorkQueue Var Func :=
  { q with trace := q.trace ++ [event] }

variable [DecidableEq Var]

/-- A job that waits is not put in again, one that is closed is taken out and never started,
and a job is given up only when it neither waits nor runs. -/
def step (q : WorkQueue Var Func) : Move Var Func → Option (WorkQueue Var Func)
  | .create dpc func =>
      match q.job dpc with
      | some _ => none
      | none => some { q with
          job := update q.job dpc (some func), closed := update q.closed dpc false }
  | .trigger dpc =>
      match q.job dpc with
      | some _ => none
      | none => some (q.log (.triggered dpc .efault))
  | .post dpc =>
      match q.job dpc with
      | none => none
      | some _ =>
          if q.closed dpc then some (q.log (.triggered dpc .enoent))
          else some { q.log (.triggered dpc .success) with
            queue := if dpc ∈ q.queue then q.queue else q.queue ++ [dpc] }
  | .start =>
      match q.running, q.queue with
      | none, dpc :: queue =>
          match q.job dpc with
          | none => none
          | some func => some { q.log (.called func) with running := some dpc, queue }
      | _, _ => none
  | .finish =>
      match q.running with
      | none => none
      | some _ => some { q with running := none }
  | .destroy dpc =>
      match q.job dpc with
      | some _ => none
      | none => some (q.log (.destroyed dpc .efault))
  | .close dpc =>
      match q.job dpc with
      | none => none
      | some _ => some { q with
          closed := update q.closed dpc true, queue := q.queue.erase dpc }
  | .free dpc =>
      match q.job dpc with
      | none => none
      | some _ =>
          if q.closed dpc ∧ dpc ∉ q.queue ∧ q.running ≠ some dpc then
            some { q with job := update q.job dpc none }
          else none
  | .forget dpc =>
      match q.job dpc with
      | some _ => none
      | none => some (q.log (.destroyed dpc .success))

section Steps

variable {q : WorkQueue Var Func} {dpc : Var} {func : Func} {queue : List Var}

theorem step_create (func : Func) (hjob : q.job dpc = none) :
    q.step (.create dpc func) = some { q with
      job := update q.job dpc (some func), closed := update q.closed dpc false } := by
  simp only [step, hjob]

theorem step_trigger (hjob : q.job dpc = none) :
    q.step (.trigger dpc) = some (q.log (.triggered dpc .efault)) := by
  simp only [step, hjob]

theorem step_post_closed (hjob : q.job dpc = some func) (hclosed : q.closed dpc = true) :
    q.step (.post dpc) = some (q.log (.triggered dpc .enoent)) := by
  simp only [step, hjob, hclosed, if_true]

theorem step_post_open (hjob : q.job dpc = some func) (hopen : q.closed dpc = false) :
    q.step (.post dpc) = some { q.log (.triggered dpc .success) with
      queue := if dpc ∈ q.queue then q.queue else q.queue ++ [dpc] } := by
  simp only [step, hjob, hopen, Bool.false_eq_true, if_false]

theorem step_start (hrunning : q.running = none) (hqueue : q.queue = dpc :: queue)
    (hjob : q.job dpc = some func) :
    q.step .start = some { q.log (.called func) with running := some dpc, queue } := by
  simp only [step, hrunning, hqueue, hjob]

theorem step_finish (hrunning : q.running = some dpc) :
    q.step .finish = some { q with running := none } := by
  simp only [step, hrunning]

theorem step_destroy (hjob : q.job dpc = none) :
    q.step (.destroy dpc) = some (q.log (.destroyed dpc .efault)) := by
  simp only [step, hjob]

theorem step_close (hjob : q.job dpc = some func) :
    q.step (.close dpc) = some { q with
      closed := update q.closed dpc true, queue := q.queue.erase dpc } := by
  simp only [step, hjob]

theorem step_free (hjob : q.job dpc = some func) (hclosed : q.closed dpc = true)
    (hqueue : dpc ∉ q.queue) (hrunning : q.running ≠ some dpc) :
    q.step (.free dpc) = some { q with job := update q.job dpc none } := by
  simp only [step, hjob]
  exact if_pos ⟨hclosed, hqueue, hrunning⟩

theorem step_forget (hjob : q.job dpc = none) :
    q.step (.forget dpc) = some (q.log (.destroyed dpc .success)) := by
  simp only [step, hjob]

end Steps

end WorkQueue

/-- The variable holds the address of a DPC that is not freed. -/
def State.Owns (s : State Var Addr Func) (dpc : Var) (a : Addr) : Prop :=
  s.handle dpc = some a ∧ s.removal dpc ≠ some .freed

structure Agrees (q : WorkQueue Var Func) (dpc : Var) (object : Dpc Addr Func) : Prop where
  job : q.job dpc = some object.func
  closed : object.destroy = q.closed dpc
  running : object.running ↔ q.running = some dpc
  linked : q.closed dpc = false → (object.linked ↔ dpc ∈ q.queue)

variable [DecidableEq Addr]

/-- The state of the driver and the queue of jobs it stands for. The links from
`dpc_root.first` spell the queue. -/
structure Refines (s : State Var Addr Func) (q : WorkQueue Var Func) : Prop where
  live : ∀ a, a ∈ s.live ↔ ∃ dpc, s.Owns dpc a
  nodup : s.live.Nodup
  owner : ∀ dpc other a, s.Owns dpc a → s.Owns other a → dpc = other
  agrees : ∀ dpc a, s.Owns dpc a → Agrees q dpc (s.obj a)
  noJob : ∀ dpc, (∀ a, ¬ s.Owns dpc a) → q.job dpc = none
  queue : Linked s.next s.first (q.queue.filterMap s.handle)
  queued : ∀ dpc ∈ q.queue, ∃ a, s.Owns dpc a
  waits : ∀ dpc ∈ q.queue, q.closed dpc = false
  worker : ∀ dpc, q.running = some dpc → ∃ a, s.Owns dpc a ∧ s.worker = .call a
  called : ∀ a, s.worker = .call a → ∃ dpc, s.Owns dpc a ∧ q.running = some dpc
  waiting : ∀ dpc, s.removal dpc = some .waiting → q.closed dpc
  idle : ∀ dpc, s.removal dpc = some .idle → q.closed dpc ∧ q.running ≠ some dpc
  removal : ∀ dpc, s.removal dpc ≠ none → s.handle dpc ≠ none
  checked : ∀ dpc ∈ s.checked, ∃ a, s.Owns dpc a
  trace : s.trace = q.trace

/-- The step is taken, and the queue follows it by moves of its own. -/
def Matched [DecidableEq Var] (s : State Var Addr Func) (q : WorkQueue Var Func)
    (label : Label Var Addr Func) : Prop :=
  ∃ next moves q', step s label = some next ∧ run WorkQueue.step q moves = some q' ∧
    Refines next q'

section Matched

variable [DecidableEq Var] {s next : State Var Addr Func} {q q' : WorkQueue Var Func}
  {label : Label Var Addr Func} {move : Move Var Func}

theorem Matched.still (hstep : step s label = some next) (hrel : Refines next q) :
    Matched s q label :=
  ⟨next, [], q, hstep, rfl, hrel⟩

theorem Matched.moves (hstep : step s label = some next) (hmove : q.step move = some q')
    (hrel : Refines next q') : Matched s q label := by
  refine ⟨next, [move], q', hstep, ?_, hrel⟩
  rw [run_cons, hmove]
  rfl

end Matched

end ApolloContrib.Esd
