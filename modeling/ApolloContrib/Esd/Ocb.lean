import Mathlib.Data.Fintype.Defs
import Mathlib.Data.Fintype.Basic
import Mathlib.Data.List.Basic
import Mathlib.Logic.Function.Basic

namespace ApolloContrib.Esd

open Function

/-! The handle of an open CAN node, `CAN_OCB`, read, written and closed by any number of threads,
as for all kernels from 2.6.20 on. What is done under `node->lock` is one step. So is a callback
of the nucleus, which comes with the driver as an object file: it gets a job from `nuc_rx` or
`nuc_tx`, and reports the end of it. -/

inductive Direction
  | rx
  | tx
  deriving DecidableEq

/-- The bits of `rx.state` and `tx.state`. `pending` is for a read or a write, `unattended` for
a take or a send, which nobody waits for. -/
structure JobState where
  pending : Bool := false
  unattended : Bool := false
  abort : Bool := false
  signalInterrupt : Bool := false
  closing : Bool := false
  deriving DecidableEq

/-- `struct _rx` and `struct _tx`. -/
structure Job where
  state : JobState
  result : Int
  cmCount : Nat
  deriving DecidableEq

/-- Where `esdcan_read_common` or `esdcan_write_common` is: about to test the condition of
`wait_event_interruptible`, asleep there, out of it by a signal, in `wait_event` for the end of
`SIGNAL_INTERRUPT` likewise, or about to take the lock for the last time. -/
inductive Phase
  | testing
  | asleep
  | signalled
  | aborting
  | abortAsleep
  | finishing (interruptedBySignal : Bool)
  deriving DecidableEq

inductive ClosePhase
  | testing
  | asleep
  | finishing
  deriving DecidableEq

/-- Where a thread is. `ocb_destroy` is called by an ioctl or by `esdcan_release`. -/
inductive Place
  | outside
  | inside (direction : Direction) (oldJobTxPending : Nat) (phase : Phase)
  | closing (release : Bool) (phase : ClosePhase)
  deriving DecidableEq

inductive Failure
  | invalidHandle
  | invalidParameter
  | pendingRead
  | pendingWrite
  | efault
  | eintr
  | erestartsys
  | code (result : Int)
  deriving DecidableEq

inductive Return (Message : Type*)
  | frames (frames : List Message)
  | count (cmCount : Nat)
  | failed (failure : Failure)
  | closed
  deriving DecidableEq

/-- What `nuc_rx` or `nuc_tx` says. -/
inductive Answer
  | refused (code : Int)
  | accepted (cmCount : Nat)
  deriving DecidableEq

/-- What a take gets: `nuc_rx`, or `nuc_rx_abort` after it, has reported the end of the job; or
`nuc_rx_obj` has given objects. -/
inductive TakeAnswer (Message : Type*)
  | refused (code : Int)
  | done (frames : List Message) (result : Int)
  | objects (frames : List Message)
  deriving DecidableEq

inductive OldJob
  | failed
  | deferred
  | pending (cmCount : Nat)
  deriving DecidableEq

/-- The last fields are history: the frames put for the job under way, those of each job that
ended with some for a call that was still there, and what the calls returned. -/
structure CanOcb (Thread Message : Type*) where
  job : Direction → Job
  cmbuf : Nat → Option Message
  cmbufIn : Nat
  handleClosed : Bool
  closeDone : Bool
  outstanding : Direction → Bool
  place : Thread → Place
  released : Bool
  freed : Bool
  putting : List Message
  handed : List (List Message)
  returned : List (Thread × Return Message)

inductive OcbStep (Thread Message : Type*)
  | read (thread : Thread) (answer : Answer)
  | take (thread : Thread) (answer : TakeAnswer Message) (copied : Bool)
  | write (thread : Thread) (cmCount : Nat) (old : OldJob) (answer : Answer)
  | send (thread : Thread) (answer : Answer)
  | test (thread : Thread)
  | stir (thread : Thread)
  | signal (thread : Thread)
  | abort (thread : Thread)
  | finish (thread : Thread) (copied : Bool)
  | destroy (thread : Thread)
  | release (thread : Thread)
  | rxPut (frame : Message)
  | rxDone (result : Int) (cmCount : Nat)
  | txDone (result : Int) (cmCount : Nat)
  | closeDone
  deriving DecidableEq

namespace Place

def wakeUp (direction : Direction) : Place → Place
  | .inside other old .asleep =>
      .inside other old (if other = direction then .testing else .asleep)
  | .inside other old .abortAsleep =>
      .inside other old (if other = direction then .aborting else .abortAsleep)
  | place => place

def wakeUpInterruptible (direction : Direction) : Place → Place
  | .inside other old .asleep =>
      .inside other old (if other = direction then .testing else .asleep)
  | place => place

def wakeUpClose : Place → Place
  | .closing release .asleep => .closing release .testing
  | place => place

end Place

/-- The condition of `wait_event_interruptible`. -/
def Job.woken (job : Job) (old : Nat) : Bool :=
  decide (old < job.cmCount) || job.state.abort || job.state.closing

namespace CanOcb

variable {Thread Message : Type*} [DecidableEq Thread]

/-- After `ocb_create2`. -/
def opened : CanOcb Thread Message where
  job _ := ⟨{}, 0, 0⟩
  cmbuf _ := none
  cmbufIn := 0
  handleClosed := false
  closeDone := false
  outstanding _ := false
  place _ := .outside
  released := false
  freed := false
  putting := []
  handed := []
  returned := []

variable (s : CanOcb Thread Message)

def setJob (direction : Direction) (job : Job) : CanOcb Thread Message :=
  { s with job := update s.job direction job }

def setOutstanding (direction : Direction) (outstanding : Bool) : CanOcb Thread Message :=
  { s with outstanding := update s.outstanding direction outstanding }

def goto (thread : Thread) (place : Place) : CanOcb Thread Message :=
  { s with place := update s.place thread place }

def back (thread : Thread) (answer : Return Message) : CanOcb Thread Message :=
  { s with returned := s.returned ++ [(thread, answer)] }

def fail (thread : Thread) (failure : Failure) : CanOcb Thread Message :=
  s.back thread (.failed failure)

def wake (f : Place → Place) : CanOcb Thread Message :=
  { s with place := fun thread => f (s.place thread) }

/-- `cmbuf` up to `n`. -/
def frames (n : Nat) : List Message := (List.range n).filterMap s.cmbuf

/-- The condition of `ocb_destroy`. -/
def closeReady : Bool :=
  s.closeDone && !(s.job .tx).state.closing && !(s.job .rx).state.closing

def esdcanRxPut (frame : Message) : CanOcb Thread Message :=
  { s with
    cmbuf := update s.cmbuf s.cmbufIn (some frame)
    cmbufIn := s.cmbufIn + 1
    putting := s.putting ++ [frame] }

def hand : CanOcb Thread Message :=
  if s.putting = [] then s else { s with handed := s.handed ++ [s.putting] }

def esdcanRxDone (result : Int) (cmCount : Nat) : CanOcb Thread Message :=
  let job := { s.job .rx with result, cmCount }
  if job.state.unattended then (s.setJob .rx { job with state := {} }).hand
  else if job.state.signalInterrupt then
    (s.setJob .rx { job with
      state := { job.state with signalInterrupt := false } }).hand.wake (.wakeUp .rx)
  else if job.state.pending then
    (s.setJob .rx { job with
      state := { job.state with abort := job.state.abort || cmCount == 0 } }).hand.wake
        (.wakeUpInterruptible .rx)
  else
    -- the read has returned before its job has ended, and nobody gets the frames
    s.setJob .rx job

def esdcanTxDone (result : Int) (cmCount : Nat) : CanOcb Thread Message :=
  let job := { s.job .tx with result }
  if job.state.unattended then s.setJob .tx { job with cmCount := 0, state := {} }
  else if job.state.signalInterrupt then
    (s.setJob .tx { job with
      cmCount, state := { job.state with signalInterrupt := false } }).wake (.wakeUp .tx)
  else if job.state.pending then
    (s.setJob .tx { job with
      cmCount, state := { job.state with abort := job.state.abort || cmCount == 0 } }).wake
        (.wakeUpInterruptible .tx)
  else s.setJob .tx job

def esdcanCloseDone : CanOcb Thread Message := { s with closeDone := true }.wake .wakeUpClose

/-- A new job starts at the beginning of `cmbuf`. -/
def startRx (state : JobState) (result : Int) : CanOcb Thread Message :=
  { s.setJob .rx ⟨state, result, 0⟩ with cmbufIn := 0, putting := [] }

/-- `esdcan_read_common` up to its wait. -/
def read (thread : Thread) (answer : Answer) : CanOcb Thread Message :=
  if s.handleClosed then s.fail thread .invalidHandle
  else if (s.job .rx).state ≠ {} then s.fail thread .pendingRead
  else
    match answer with
    | .refused code => (s.startRx {} 0).fail thread (.code code)
    | .accepted _ =>
        ((s.startRx { pending := true } 0).setOutstanding .rx true).goto thread
          (.inside .rx 0 .testing)

/-- The end of `IOCTL_ESDCAN_TAKE`. -/
def takeFrames (thread : Thread) (copied : Bool) : CanOcb Thread Message :=
  let job := s.job .rx
  if job.cmCount = 0 then
    (s.setJob .rx { job with state := {} }).fail thread (.code job.result)
  else
    let s' := s.setJob .rx { job with state := {}, cmCount := 0 }
    if copied then s'.back thread (.frames (s.frames job.cmCount)) else s'.fail thread .efault

def take (thread : Thread) (answer : TakeAnswer Message) (copied : Bool) : CanOcb Thread Message :=
  if s.handleClosed then s.fail thread .invalidHandle
  else if (s.job .rx).state ≠ {} then s.fail thread .pendingRead
  else
    let s' := s.startRx { unattended := true } (s.job .rx).result
    match answer with
    | .refused code => (s.startRx {} (s.job .rx).result).fail thread (.code code)
    | .done frames result =>
        ((frames.foldl esdcanRxPut s').esdcanRxDone result frames.length).takeFrames thread copied
    | .objects frames =>
        let s' := (frames.foldl esdcanRxPut s').hand
        (s'.setJob .rx { s'.job .rx with cmCount := frames.length }).takeFrames thread copied

/-- `nuc_tx` in a write; a job refused leaves `tx.state` as it was. -/
def startWrite (thread : Thread) (old : Nat) (answer : Answer) : CanOcb Thread Message :=
  match answer with
  | .refused code => s.fail thread (.code code)
  | .accepted _ =>
      ((s.setJob .tx { s.job .tx with state := { pending := true } }).setOutstanding .tx true).goto
        thread (.inside .tx old .testing)

/-- `esdcan_write_common` up to its wait. -/
def write (thread : Thread) (cmCount : Nat) (old : OldJob) (answer : Answer) :
    CanOcb Thread Message :=
  if s.handleClosed then s.fail thread .invalidHandle
  else if cmCount = 0 then s.fail thread .invalidParameter
  else if (s.job .tx).state.pending || (s.job .tx).state.abort then s.fail thread .pendingWrite
  else if (s.job .tx).state.unattended then
    match old with
    | .failed => s.fail thread .erestartsys
    | .deferred => s.fail thread .pendingWrite
    | .pending count => s.startWrite thread count answer
  else s.startWrite thread 0 answer

/-- `IOCTL_ESDCAN_SEND`. -/
def send (thread : Thread) (answer : Answer) : CanOcb Thread Message :=
  if s.handleClosed then s.fail thread .invalidHandle
  else if (s.job .tx).state.pending then s.fail thread .pendingWrite
  else
    match answer with
    | .refused code => s.fail thread (.code code)
    | .accepted count =>
        ((s.setJob .tx { s.job .tx with state := { unattended := true } }).setOutstanding .tx
          true).back thread (.count count)

def interrupt (thread : Thread) (direction : Direction) (old : Nat) : CanOcb Thread Message :=
  let job := s.job direction
  if job.cmCount = old && !job.state.abort && !job.state.closing then
    (s.setJob direction { job with state := { job.state with signalInterrupt := true } }).goto
      thread (.inside direction old .aborting)
  else s.goto thread (.inside direction old (.finishing false))

/-- The last section of `esdcan_read_common` and `esdcan_write_common`. -/
def finish (thread : Thread) (direction : Direction) (old : Nat) (interruptedBySignal copied : Bool) :
    CanOcb Thread Message :=
  let job := s.job direction
  let left := (s.setJob direction { job with state := {}, cmCount := 0 }).goto thread .outside
  let left := if job.state.closing then left.wake .wakeUpClose else left
  if job.cmCount ≤ old then
    left.fail thread
      (if job.state.closing then .eintr
      else if interruptedBySignal then .erestartsys
      else .code job.result)
  else
    match direction with
    | .rx =>
        if copied then left.back thread (.frames (s.frames job.cmCount))
        else left.fail thread .efault
    | .tx => left.back thread (.count (job.cmCount - old))

def markClosing (job : Job) : Job :=
  if job.state = {} then job else { job with state := { job.state with closing := true } }

/-- `ocb_destroy` up to its wait. -/
def ocbDestroy (thread : Thread) (release : Bool) : CanOcb Thread Message :=
  { s with
    handleClosed := true
    job := fun direction => markClosing (s.job direction) }.goto thread (.closing release .testing)

/-- `esdcan_release` up to the wait of `ocb_destroy`, or without it. -/
def release (thread : Thread) : CanOcb Thread Message :=
  let s' := { s with released := true }
  if s.handleClosed then { s' with freed := true } else s'.ocbDestroy thread true

/-- The test of a condition by a thread in `wait_event` or `wait_event_interruptible`. -/
def test (thread : Thread) : Option (CanOcb Thread Message) :=
  match s.place thread with
  | .inside direction old .testing =>
      some (s.goto thread (.inside direction old
        (if (s.job direction).woken old then .finishing false else .asleep)))
  | .inside direction old .aborting =>
      some (s.goto thread (.inside direction old
        (if (s.job direction).state.signalInterrupt then .abortAsleep else .finishing true)))
  | .closing release .testing =>
      some (s.goto thread (.closing release (if s.closeReady then .finishing else .asleep)))
  | _ => none

/-- A wake-up that nobody meant. -/
def stir (thread : Thread) : Option (CanOcb Thread Message) :=
  match s.place thread with
  | .inside direction old .asleep => some (s.goto thread (.inside direction old .testing))
  | .inside direction old .abortAsleep => some (s.goto thread (.inside direction old .aborting))
  | .closing release .asleep => some (s.goto thread (.closing release .testing))
  | _ => none

/-- The condition is tested once more before a signal counts. -/
def signal (thread : Thread) : Option (CanOcb Thread Message) :=
  match s.place thread with
  | .inside direction old .testing | .inside direction old .asleep =>
      some (s.goto thread (.inside direction old
        (if (s.job direction).woken old then .finishing false else .signalled)))
  | _ => none

def finishThread (thread : Thread) (copied : Bool) : Option (CanOcb Thread Message) :=
  match s.place thread with
  | .inside direction old (.finishing interruptedBySignal) =>
      some (s.finish thread direction old interruptedBySignal copied)
  | .closing true .finishing => some { s.goto thread .outside with freed := true }
  | .closing false .finishing => some ((s.goto thread .outside).back thread .closed)
  | _ => none

/-- No step touches a handle that is freed, and a thread goes on from where it is. -/
def step : OcbStep Thread Message → Option (CanOcb Thread Message)
  | label =>
      if s.freed then none
      else
        match label with
        | .read thread answer => some (s.read thread answer)
        | .take thread answer copied => some (s.take thread answer copied)
        | .write thread cmCount old answer => some (s.write thread cmCount old answer)
        | .send thread answer => some (s.send thread answer)
        | .test thread => s.test thread
        | .stir thread => s.stir thread
        | .signal thread => s.signal thread
        | .abort thread =>
            match s.place thread with
            | .inside direction old .signalled => some (s.interrupt thread direction old)
            | _ => none
        | .finish thread copied => s.finishThread thread copied
        | .destroy thread =>
            some (if s.handleClosed then s.fail thread .invalidHandle
              else s.ocbDestroy thread false)
        | .release thread => some (s.release thread)
        | .rxPut frame => some (s.esdcanRxPut frame)
        | .rxDone result cmCount =>
            some ((s.setOutstanding .rx false).esdcanRxDone result cmCount)
        | .txDone result cmCount =>
            some ((s.setOutstanding .tx false).esdcanTxDone result cmCount)
        | .closeDone => some s.esdcanCloseDone

end CanOcb

namespace Place

def tests : Place → Bool
  | .inside _ _ .testing | .inside _ _ .aborting | .closing _ .testing => true
  | _ => false

def sleeps : Place → Bool
  | .inside _ _ .asleep | .inside _ _ .abortAsleep | .closing _ .asleep => true
  | _ => false

def interruptible : Place → Bool
  | .inside _ _ .testing | .inside _ _ .asleep => true
  | _ => false

def signalled : Place → Bool
  | .inside _ _ .signalled => true
  | _ => false

def finishes : Place → Bool
  | .inside _ _ (.finishing _) | .closing _ .finishing => true
  | _ => false

end Place

/-- A thread is where its step begins, a file is used by none that has released it and released
by none that others use, and the nucleus calls back under the lock: with the frames of a job that
it has, once at its end and with as many as it has put, and with `close_done` after all the jobs
of a handle that is closed. -/
def CanOcb.Due {Thread Message : Type*} (s : CanOcb Thread Message) :
    OcbStep Thread Message → Prop
  | .read thread _ | .take thread _ _ | .write thread _ _ _ | .send thread _ | .destroy thread =>
      s.place thread = .outside ∧ s.released = false
  | .release _ => s.released = false ∧ ∀ thread, s.place thread = .outside
  | .test thread => (s.place thread).tests = true
  | .stir thread => (s.place thread).sleeps = true
  | .signal thread => (s.place thread).interruptible = true
  | .abort thread => (s.place thread).signalled = true
  | .finish thread _ => (s.place thread).finishes = true
  | .rxPut _ => s.outstanding .rx = true
  | .rxDone _ cmCount => s.outstanding .rx = true ∧ cmCount = s.cmbufIn
  | .txDone _ _ => s.outstanding .tx = true
  | .closeDone => s.handleClosed = true ∧ s.closeDone = false ∧
      s.outstanding .rx = false ∧ s.outstanding .tx = false

instance {Thread Message : Type*} [Fintype Thread] (s : CanOcb Thread Message)
    (label : OcbStep Thread Message) : Decidable (s.Due label) :=
  match label with
  | .read _ _ | .take _ _ _ | .write _ _ _ _ | .send _ _ | .destroy _ =>
      inferInstanceAs (Decidable (_ ∧ _))
  | .release _ => inferInstanceAs (Decidable (_ ∧ ∀ _, _))
  | .test _ | .stir _ | .signal _ | .abort _ | .finish _ _ | .rxPut _ | .txDone _ _ =>
      inferInstanceAs (Decidable (_ = _))
  | .rxDone _ _ => inferInstanceAs (Decidable (_ ∧ _))
  | .closeDone => inferInstanceAs (Decidable (_ ∧ _))

end ApolloContrib.Esd
