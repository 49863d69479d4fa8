import ApolloContrib.Library.LinkedQueue

namespace ApolloContrib.Esd

open ApolloContrib.Library Function

/-! The deferred procedure calls of the CAN driver: `dpc_root` with its thread, and the
callers of `osif_dpc_create`, `osif_dpc_trigger` and `osif_dpc_destroy`, each at any point of
its call. A section under `dpc_root.spinlock` is one step. -/

universe u

inductive Status
  | success
  | efault
  | enoent
  deriving DecidableEq

variable {Var Addr Func : Type u}

/-- `struct _OSIF_DPC`, `func` with its `arg`. -/
structure Dpc (Addr Func : Type u) where
  next : Option Addr
  linked : Bool
  running : Bool
  destroy : Bool
  func : Func

inductive Worker (Addr : Type u)
  | test
  | clear
  | call (dpc : Addr)
  | choose
  | schedule
  | exited
  deriving DecidableEq

/-- Where a call of `osif_dpc_destroy` is. -/
inductive Removal
  | entered
  | waiting
  | idle
  | freed
  deriving DecidableEq

inductive Event (Var Func : Type u)
  | triggered (dpc : Var) (status : Status)
  | destroyed (dpc : Var) (status : Status)
  | called (func : Func)
  deriving DecidableEq

/-- The variables that hold an `OSIF_DPC`, the memory behind them, `dpc_root`, and the calls
under way: triggers past their first test, triggers and stops that have yet to count or to
wake, and the destroys. -/
structure State (Var Addr Func : Type u) where
  handle : Var → Option Addr
  live : List Addr
  obj : Addr → Dpc Addr Func
  first : Option Addr
  destroy : Bool
  worker : Worker Addr
  interruptible : Bool
  trig : Nat
  checked : List Var
  counting : Nat
  waking : Nat
  removal : Var → Option Removal
  trace : List (Event Var Func)

inductive Label (Var Addr Func : Type u)
  | create (dpc : Var) (malloc : Addr) (func : Func)
  | trigger (dpc : Var)
  | post (dpc : Var)
  | count
  | wake
  | destroy (dpc : Var)
  | unlink (dpc : Var)
  | poll (dpc : Var)
  | free (dpc : Var)
  | forget (dpc : Var)
  | stop
  | thread

variable [DecidableEq Var] [DecidableEq Addr]

namespace State

/-- After `osif_dpc_root_create`. -/
def init (garbage : Addr → Dpc Addr Func) : State Var Addr Func :=
  { handle := fun _ => none, live := [], obj := garbage, first := none, destroy := false,
    worker := .test, interruptible := false, trig := 0, checked := [], counting := 0,
    waking := 0, removal := fun _ => none, trace := [] }

variable (s : State Var Addr Func)

/-- `none` for memory that is not allocated. -/
def deref (a : Addr) : Option (Dpc Addr Func) :=
  if a ∈ s.live then some (s.obj a) else none

def next (a : Addr) : Option (Option Addr) := (s.deref a).map Dpc.next

def setFirst (first : Option Addr) : State Var Addr Func := { s with first }

def setObj (a : Addr) (dpc : Dpc Addr Func) : State Var Addr Func :=
  { s with obj := update s.obj a dpc }

def store (a : Addr) (f : Dpc Addr Func → Dpc Addr Func) : Option (State Var Addr Func) :=
  (s.deref a).map fun dpc => s.setObj a (f dpc)

def log (event : Event Var Func) : State Var Addr Func :=
  { s with trace := s.trace ++ [event] }

/-- The inner loop of `osif_dpc_thread`, up to its next call or its end. -/
def takeFirst : Option (State Var Addr Func) :=
  match s.first with
  | none => some { s with interruptible := true, worker := .choose }
  | some a => do
      let dpc ← s.deref a
      let s ← (s.setFirst dpc.next).store a fun dpc =>
        { dpc with linked := false, running := true }
      some { s.log (.called dpc.func) with worker := .call a }

def threadStep : Option (State Var Addr Func) :=
  match s.worker with
  | .test => some { s with worker := if s.destroy then .exited else .clear }
  | .clear => { s with trig := s.trig - 1 }.takeFirst
  | .call a => (s.store a fun dpc => { dpc with running := false }).bind takeFirst
  | .choose =>
      if s.trig = 0 then some { s with worker := .schedule }
      else some { s with worker := .test, interruptible := false }
  | .schedule => if s.interruptible then none else some { s with worker := .test }
  | .exited => none

/-- `dpc_root.first` or the last `next` becomes `a`. -/
def append (a : Addr) : Option (State Var Addr Func) :=
  match s.first with
  | none => some (s.setFirst (some a))
  | some first => do
      let last ← lastFrom s.next s.live.length first
      s.store last fun dpc => { dpc with next := some a }

/-- `osif_dpc_trigger`, what it does under the lock. -/
def osifDpcTrigger (dpc : Var) : Option (State Var Addr Func) := do
  let a ← s.handle dpc
  let object ← s.deref a
  if object.destroy then
    some (s.log (.triggered dpc .enoent))
  else if object.linked then
    some (s.log (.triggered dpc .success))
  else do
    let s ← s.append a
    let s ← s.store a fun dpc => { dpc with next := none, linked := true }
    some { s.log (.triggered dpc .success) with counting := s.counting + 1 }

/-- `*dpc` is taken off the list, if it is there. -/
def linkOut (a : Addr) : Option (State Var Addr Func) := do
  let object ← s.deref a
  if s.first = some a then
    (s.setFirst object.next).store a fun dpc => { dpc with next := none }
  else
    match ← linkTo s.next a s.live.length s.first with
    | none => some s
    | some dpc2 => do
        let s ← s.store dpc2 fun dpc => { dpc with next := object.next }
        s.store a fun dpc => { dpc with next := none }

def testRunning (dpc : Var) : Option (State Var Addr Func) := do
  let a ← s.handle dpc
  let object ← s.deref a
  some { s with
    removal := update s.removal dpc (some (if object.running then .waiting else .idle)) }

/-- `osif_dpc_destroy`, from its taking the lock to its first test of `running`. -/
def osifDpcDestroy (dpc : Var) : Option (State Var Addr Func) := do
  let a ← s.handle dpc
  let s ← s.store a fun dpc => { dpc with destroy := true }
  let s ← s.linkOut a
  s.testRunning dpc

end State

open State

/-- A step that cannot be taken at this point, touches memory that is not allocated or walks
without end is `none`. -/
def step (s : State Var Addr Func) : Label Var Addr Func → Option (State Var Addr Func)
  | .create dpc malloc func =>
      if malloc ∈ s.live then none
      else some { s with
        handle := update s.handle dpc (some malloc)
        live := malloc :: s.live
        obj := update s.obj malloc ⟨none, false, false, false, func⟩ }
  | .trigger dpc =>
      match s.handle dpc with
      | none => some (s.log (.triggered dpc .efault))
      | some _ => some { s with checked := dpc :: s.checked }
  | .post dpc =>
      if dpc ∈ s.checked ∧ s.worker ≠ .choose then
        { s with checked := s.checked.erase dpc }.osifDpcTrigger dpc
      else none
  | .count =>
      if s.counting = 0 then none
      else some { s with
        trig := s.trig + 1, counting := s.counting - 1, waking := s.waking + 1 }
  | .wake =>
      if s.waking = 0 then none
      else some { s with interruptible := false, waking := s.waking - 1 }
  | .destroy dpc =>
      match s.handle dpc with
      | none => some (s.log (.destroyed dpc .efault))
      | some _ => some { s with removal := update s.removal dpc (some .entered) }
  | .unlink dpc =>
      if s.removal dpc = some .entered ∧ s.worker ≠ .choose then s.osifDpcDestroy dpc else none
  | .poll dpc =>
      if s.removal dpc = some .waiting ∧ s.worker ≠ .choose then s.testRunning dpc else none
  | .free dpc =>
      if s.removal dpc = some .idle then do
        let a ← s.handle dpc
        let _ ← s.deref a
        some { s with
          live := s.live.erase a, removal := update s.removal dpc (some .freed) }
      else none
  | .forget dpc =>
      if s.removal dpc = some .freed then
        some { s.log (.destroyed dpc .success) with
          handle := update s.handle dpc none, removal := update s.removal dpc none }
      else none
  | .stop => some { s with destroy := true, waking := s.waking + 1 }
  | .thread => s.threadStep

/-- The step is the next one of its call: a wait has ended and the lock is free. -/
def Due (s : State Var Addr Func) : Label Var Addr Func → Prop
  | .create _ malloc _ => malloc ∉ s.live
  | .trigger _ | .destroy _ | .stop => True
  | .post dpc => dpc ∈ s.checked ∧ s.worker ≠ .choose
  | .count => s.counting ≠ 0
  | .wake => s.waking ≠ 0
  | .unlink dpc => s.removal dpc = some .entered ∧ s.worker ≠ .choose
  | .poll dpc => s.removal dpc = some .waiting ∧ s.worker ≠ .choose
  | .free dpc => s.removal dpc = some .idle
  | .forget dpc => s.removal dpc = some .freed
  | .thread => s.worker ≠ .exited ∧ (s.worker = .schedule → s.interruptible = false)

/-- What the callers see to: a variable is filled when it is empty, nobody triggers or destroys
a DPC while its destroy is between the free and the `NULL`, it is destroyed once at a time, and
no trigger that has read its handle is still on the way when it is freed. -/
def Careful (s : State Var Addr Func) : Label Var Addr Func → Prop
  | .create dpc .. => s.handle dpc = none
  | .trigger dpc => s.removal dpc ≠ some .freed
  | .destroy dpc => s.removal dpc = none
  | .free dpc => dpc ∉ s.checked
  | .post _ | .count | .wake | .unlink _ | .poll _ | .forget _ | .stop | .thread => True

instance decidableDue (s : State Var Addr Func) : DecidablePred (Due s)
  | .create _ malloc _ => inferInstanceAs (Decidable (malloc ∉ s.live))
  | .trigger _ | .destroy _ | .stop => inferInstanceAs (Decidable True)
  | .post dpc => inferInstanceAs (Decidable (dpc ∈ s.checked ∧ s.worker ≠ .choose))
  | .count => inferInstanceAs (Decidable (s.counting ≠ 0))
  | .wake => inferInstanceAs (Decidable (s.waking ≠ 0))
  | .unlink dpc =>
      inferInstanceAs (Decidable (s.removal dpc = some .entered ∧ s.worker ≠ .choose))
  | .poll dpc =>
      inferInstanceAs (Decidable (s.removal dpc = some .waiting ∧ s.worker ≠ .choose))
  | .free dpc => inferInstanceAs (Decidable (s.removal dpc = some .idle))
  | .forget dpc => inferInstanceAs (Decidable (s.removal dpc = some .freed))
  | .thread => inferInstanceAs
      (Decidable (s.worker ≠ .exited ∧ (s.worker = .schedule → s.interruptible = false)))

instance decidableCareful (s : State Var Addr Func) : DecidablePred (Careful s)
  | .create dpc .. => inferInstanceAs (Decidable (s.handle dpc = none))
  | .trigger dpc => inferInstanceAs (Decidable (s.removal dpc ≠ some .freed))
  | .destroy dpc => inferInstanceAs (Decidable (s.removal dpc = none))
  | .free dpc => inferInstanceAs (Decidable (dpc ∉ s.checked))
  | .post _ | .count | .wake | .unlink _ | .poll _ | .forget _ | .stop | .thread =>
      inferInstanceAs (Decidable True)

end ApolloContrib.Esd
