import ApolloContrib.Library.Monitor
import Mathlib.Data.List.Infix
import Mathlib.Data.List.Sublists

namespace ApolloContrib.V2x

open ApolloContrib.Library

/-! The queue between threads: a mutex, a condition variable, and a bound that the oldest
items give way to. What is done under the mutex is one step. -/

inductive WaitingCall
  | pop
  | read
  deriving DecidableEq

/-- The threads inside `queue_condition_.wait`, asleep or notified, and what was pushed and
popped so far. -/
structure CmnQueue (DataType : Type*) where
  maxSize : Nat
  ptrQueue : List DataType
  asleep : List WaitingCall
  awake : List WaitingCall
  pushed : List DataType
  popped : List DataType

inductive QueueStep (DataType : Type*)
  /-- `make_shared` can throw, and `notify_one` chooses. -/
  | push (data : DataType) (allocated : Bool) (notified : Option WaitingCall)
  | call (call : WaitingCall)
  | tryPop
  | tryRead
  /-- A thread that was notified gets the mutex and looks. -/
  | look (call : WaitingCall)
  | spurious (call : WaitingCall)

variable {DataType : Type*}

namespace CmnQueue

def init (size : Nat) : CmnQueue DataType :=
  { maxSize := if size > 0 then size else 1, ptrQueue := [], asleep := [], awake := []
    pushed := [], popped := [] }

/-- `while (ptr_queue_.size() > max_size_) ptr_queue_.pop()`. -/
def trim (maxSize : Nat) : List DataType → List DataType
  | [] => []
  | data :: rest =>
      if (data :: rest).length > maxSize then trim maxSize rest else data :: rest

variable (s : CmnQueue DataType)

/-- `notify_one` wakes one of those that sleep. -/
def notifyOne (notified : Option WaitingCall) : Option (CmnQueue DataType) :=
  match notified with
  | none => if s.asleep = [] then some s else none
  | some call =>
      if call ∈ s.asleep then
        some { s with asleep := s.asleep.erase call, awake := call :: s.awake }
      else none

/-- The predicate holds: the front is returned, and `pop` takes it away. -/
def serve (call : WaitingCall) (data : DataType) (rest : List DataType) : CmnQueue DataType :=
  match call with
  | .pop => { s with ptrQueue := rest, popped := s.popped ++ [data] }
  | .read => s

def append (data : DataType) : CmnQueue DataType :=
  { s with ptrQueue := trim s.maxSize (s.ptrQueue ++ [data]), pushed := s.pushed ++ [data] }

@[simp] theorem append_asleep (data : DataType) : (s.append data).asleep = s.asleep := rfl

@[simp] theorem append_awake (data : DataType) : (s.append data).awake = s.awake := rfl

def returned (call : WaitingCall) : CmnQueue DataType :=
  { s with awake := s.awake.erase call }

/-- `queue_condition_.wait`, from where the mutex is held. -/
def await (call : WaitingCall) : CmnQueue DataType :=
  match s.ptrQueue with
  | [] => { s with asleep := call :: s.asleep }
  | data :: rest => s.serve call data rest

def step : QueueStep DataType → Option (CmnQueue DataType)
  | .push data allocated notified =>
      if allocated then
        (s.append data).notifyOne notified
      else some s
  | .call call => some (s.await call)
  | .tryPop =>
      match s.ptrQueue with
      | [] => some s
      | data :: rest => some (s.serve .pop data rest)
  | .tryRead => some s
  | .look call =>
      if call ∈ s.awake then
        some ((s.returned call).await call)
      else none
  | .spurious call =>
      if call ∈ s.asleep then
        some { s with asleep := s.asleep.erase call, awake := call :: s.awake }
      else none

end CmnQueue

/-- Items leave in the order in which they came, those that stay are the newest, and there are
no more of them than the bound allows. -/
structure Ordered (s : CmnQueue DataType) : Prop where
  bound : s.ptrQueue.length ≤ s.maxSize
  newest : s.ptrQueue <:+ s.pushed
  order : (s.popped ++ s.ptrQueue).Sublist s.pushed

namespace Ordered

variable {s next : CmnQueue DataType} {data : DataType} {rest : List DataType}

theorem trim_suffix (maxSize : Nat) (queue : List DataType) :
    CmnQueue.trim maxSize queue <:+ queue := by
  induction queue with
  | nil => exact List.suffix_refl _
  | cons data rest ih =>
      rw [CmnQueue.trim]
      split
      · exact ih.trans (List.suffix_cons data rest)
      · exact List.suffix_refl _

theorem length_trim (maxSize : Nat) (queue : List DataType) :
    (CmnQueue.trim maxSize queue).length = min maxSize queue.length := by
  induction queue with
  | nil => simp [CmnQueue.trim]
  | cons data rest ih =>
      rw [CmnQueue.trim]
      split
      · next hover =>
          rw [List.length_cons] at hover ⊢
          omega
      · next hfits =>
          rw [List.length_cons] at hfits ⊢
          omega

theorem init (size : Nat) : Ordered (CmnQueue.init size : CmnQueue DataType) :=
  ⟨Nat.zero_le _, List.suffix_refl _, List.Sublist.refl _⟩

theorem congr (hordered : Ordered s) (hmax : next.maxSize = s.maxSize)
    (hqueue : next.ptrQueue = s.ptrQueue) (hpushed : next.pushed = s.pushed)
    (hpopped : next.popped = s.popped) : Ordered next where
  bound := by
    rw [hqueue, hmax]
    exact hordered.bound
  newest := by
    rw [hqueue, hpushed]
    exact hordered.newest
  order := by
    rw [hpopped, hqueue, hpushed]
    exact hordered.order

theorem serve (hordered : Ordered s) (call : WaitingCall) (hqueue : s.ptrQueue = data :: rest) :
    Ordered (s.serve call data rest) := by
  obtain ⟨hbound, hnewest, horder⟩ := hordered
  rw [hqueue] at hbound hnewest horder
  cases call with
  | read => exact ⟨hqueue ▸ hbound, hqueue ▸ hnewest, hqueue ▸ horder⟩
  | pop =>
      refine ⟨Nat.le_of_succ_le hbound, (List.suffix_cons data rest).trans hnewest, ?_⟩
      change (s.popped ++ [data] ++ rest).Sublist s.pushed
      rw [List.append_assoc]
      exact horder

theorem await (hordered : Ordered s) (call : WaitingCall) : Ordered (s.await call) := by
  unfold CmnQueue.await
  split
  · exact hordered.congr rfl rfl rfl rfl
  · next hqueue => exact hordered.serve call hqueue

theorem append (hordered : Ordered s) (data : DataType) : Ordered (s.append data) := by
  have hsuffix := trim_suffix s.maxSize (s.ptrQueue ++ [data])
  obtain ⟨-, hnewest, horder⟩ := hordered
  have hwhole : s.ptrQueue ++ [data] <:+ s.pushed ++ [data] := by
    obtain ⟨older, holder⟩ := hnewest
    exact ⟨older, by rw [← holder, List.append_assoc]⟩
  refine ⟨?_, hsuffix.trans hwhole, ?_⟩
  · exact (length_trim _ _).trans_le (Nat.min_le_left _ _)
  · have hkept : (s.popped ++ (s.ptrQueue ++ [data])).Sublist (s.pushed ++ [data]) := by
      rw [← List.append_assoc]
      exact horder.append_right [data]
    exact ((List.Sublist.refl s.popped).append hsuffix.sublist).trans hkept

theorem step (hordered : Ordered s) {label : QueueStep DataType}
    (hstep : s.step label = some next) : Ordered next := by
  cases label with
  | push data allocated notified =>
      cases allocated with
      | false =>
          obtain rfl := Option.some.inj hstep
          exact hordered
      | true =>
          have happend := hordered.append data
          change (s.append data).notifyOne notified = some next at hstep
          unfold CmnQueue.notifyOne at hstep
          split at hstep <;> split at hstep <;> cases hstep
          · exact happend
          · exact happend.congr rfl rfl rfl rfl
  | call call =>
      obtain rfl := Option.some.inj hstep
      exact hordered.await call
  | tryPop =>
      simp only [CmnQueue.step] at hstep
      split at hstep
      · obtain rfl := Option.some.inj hstep
        exact hordered
      · next hqueue =>
          obtain rfl := Option.some.inj hstep
          exact hordered.serve .pop hqueue
  | tryRead =>
      obtain rfl := Option.some.inj hstep
      exact hordered
  | look call =>
      simp only [CmnQueue.step] at hstep
      split at hstep
      · obtain rfl := Option.some.inj hstep
        have hback : Ordered (s.returned call) := hordered.congr rfl rfl rfl rfl
        exact hback.await call
      · cases hstep
  | spurious call =>
      simp only [CmnQueue.step] at hstep
      split at hstep
      · obtain rfl := Option.some.inj hstep
        exact hordered.congr rfl rfl rfl rfl
      · cases hstep

end Ordered

/-- Whatever the threads do, and however the system wakes them. -/
theorem queue_ordered (size : Nat) (labels : List (QueueStep DataType)) :
    Throughout CmnQueue.step Ordered (CmnQueue.init size) labels := by
  have hmeet : StepsMeet CmnQueue.step (fun _ _ => True)
      (CmnQueue.init size : CmnQueue DataType) labels := fun _ _ _ _ _ => trivial
  refine throughout_of_stepsMeet ?_ (Ordered.init size) hmeet
  intro s label next hordered _ hstep
  exact hordered.step hstep

/-- Nobody blocks in `read`, which would take a notification and leave the item. -/
def NoWaitingRead (s : CmnQueue DataType) (label : QueueStep DataType) : Prop :=
  label = .call .read → s.ptrQueue ≠ []

def monitor (s : CmnQueue DataType) : Monitor :=
  ⟨s.ptrQueue.length, s.asleep.length, s.awake.length⟩

/-- Only `pop` waits, and no item is without a thread on its way to it while others sleep. -/
structure PopsSignalled (s : CmnQueue DataType) : Prop where
  asleep : ∀ call ∈ s.asleep, call = WaitingCall.pop
  awake : ∀ call ∈ s.awake, call = WaitingCall.pop
  signalled : (monitor s).Signalled

namespace PopsSignalled

variable {s next : CmnQueue DataType}

theorem init (size : Nat) : PopsSignalled (CmnQueue.init size : CmnQueue DataType) where
  asleep := by simp [CmnQueue.init]
  awake := by simp [CmnQueue.init]
  signalled := fun hsleeps => absurd rfl hsleeps

theorem length_append (s : CmnQueue DataType) (data : DataType) :
    ∃ lost, (s.append data).ptrQueue.length = s.ptrQueue.length + 1 - lost := by
  refine ⟨s.ptrQueue.length + 1 - s.maxSize, ?_⟩
  change (CmnQueue.trim _ _).length = _
  rw [Ordered.length_trim, List.length_append, List.length_singleton]
  omega

theorem of_action (hpops : PopsSignalled s) (action : Monitor.Action)
    (hstep : (monitor s).step action = some (monitor next))
    (hasleep : ∀ call ∈ next.asleep, call = WaitingCall.pop)
    (hawake : ∀ call ∈ next.awake, call = WaitingCall.pop) : PopsSignalled next :=
  ⟨hasleep, hawake, hpops.signalled.step hstep⟩

theorem woken (hpops : PopsSignalled s) {call : WaitingCall} (hcall : call ∈ s.asleep) :
    (∀ other ∈ s.asleep.erase call, other = WaitingCall.pop) ∧
      ∀ other ∈ call :: s.awake, other = WaitingCall.pop := by
  refine ⟨fun other hother => hpops.asleep other (List.mem_of_mem_erase hother), ?_⟩
  intro other hother
  cases hother with
  | head => exact hpops.asleep _ hcall
  | tail _ hawake => exact hpops.awake other hawake

theorem push (hpops : PopsSignalled s) {data : DataType} {notified : Option WaitingCall}
    (hstep : (s.append data).notifyOne notified = some next) : PopsSignalled next := by
  obtain ⟨lost, hlength⟩ := length_append s data
  cases notified with
  | none =>
      simp only [CmnQueue.notifyOne] at hstep
      split at hstep
      · next hnobody =>
          obtain rfl := Option.some.inj hstep
          rw [CmnQueue.append_asleep] at hnobody
          refine hpops.of_action (.put lost) ?_ hpops.asleep hpops.awake
          simp [monitor, Monitor.step, hlength, hnobody]
      · cases hstep
  | some call =>
      simp only [CmnQueue.notifyOne] at hstep
      split at hstep
      · next hcall =>
          obtain rfl := Option.some.inj hstep
          rw [CmnQueue.append_asleep] at hcall
          have hsome := List.ne_nil_of_mem hcall
          obtain ⟨hasleep, hawake⟩ := hpops.woken hcall
          refine hpops.of_action (.put lost) ?_ hasleep hawake
          simp [monitor, Monitor.step, hlength, hsome, List.length_erase_of_mem hcall]
      · cases hstep

theorem call (hpops : PopsSignalled s) {call : WaitingCall}
    (hnoread : NoWaitingRead s (.call call)) : PopsSignalled (s.await call) := by
  unfold CmnQueue.await
  split
  · next hqueue =>
      have hpop : call = .pop := by
        cases call with
        | pop => rfl
        | read => exact absurd hqueue (hnoread rfl)
      refine hpops.of_action .arrive ?_ ?_ hpops.awake
      · simp [monitor, Monitor.step, hqueue]
      · intro other hother
        cases hother with
        | head => exact hpop
        | tail _ hasleep => exact hpops.asleep other hasleep
  · next data rest hqueue =>
      cases call with
      | read => exact hpops
      | pop =>
          refine hpops.of_action .arrive ?_ hpops.asleep hpops.awake
          simp [monitor, Monitor.step, hqueue, CmnQueue.serve]

theorem look (hpops : PopsSignalled s) (hawake : s.awake ≠ []) :
    ∃ next, s.step (.look .pop) = some next ∧
      (monitor s).step .look = some (monitor next) ∧ PopsSignalled next ∧
      next.awake = s.awake.erase .pop := by
  obtain ⟨other, hother⟩ := List.exists_mem_of_ne_nil _ hawake
  have hpop : WaitingCall.pop ∈ s.awake := hpops.awake other hother ▸ hother
  have hsome := List.length_pos_of_mem hpop
  have hrest : ∀ call ∈ s.awake.erase .pop, call = WaitingCall.pop :=
    fun call hcall => hpops.awake call (List.mem_of_mem_erase hcall)
  have hmonitor : (monitor s).step .look =
      some (monitor ((s.returned .pop).await .pop)) := by
    cases hqueue : s.ptrQueue with
    | nil =>
        simp [CmnQueue.await, CmnQueue.returned, monitor, Monitor.step, hqueue,
          List.length_erase_of_mem hpop, hawake]
    | cons data rest =>
        simp [CmnQueue.await, CmnQueue.returned, CmnQueue.serve, monitor, Monitor.step, hqueue,
          List.length_erase_of_mem hpop, hawake]
  refine ⟨_, if_pos hpop, hmonitor, hpops.of_action .look hmonitor ?_ ?_, ?_⟩
  all_goals
    unfold CmnQueue.await
    split
  · intro call hcall
    cases hcall with
    | head => rfl
    | tail _ hasleep => exact hpops.asleep call hasleep
  · exact hpops.asleep
  · exact hrest
  · exact hrest
  · rfl
  · rfl

theorem step (hpops : PopsSignalled s) {label : QueueStep DataType}
    (hnoread : NoWaitingRead s label) (hstep : s.step label = some next) :
    PopsSignalled next := by
  cases label with
  | push data allocated notified =>
      cases allocated with
      | false =>
          obtain rfl := Option.some.inj hstep
          exact hpops
      | true => exact hpops.push hstep
  | call call =>
      obtain rfl := Option.some.inj hstep
      exact hpops.call hnoread
  | tryPop =>
      simp only [CmnQueue.step] at hstep
      split at hstep
      · obtain rfl := Option.some.inj hstep
        exact hpops
      · next hqueue =>
          obtain rfl := Option.some.inj hstep
          refine hpops.of_action .take ?_ hpops.asleep hpops.awake
          simp [monitor, Monitor.step, hqueue, CmnQueue.serve]
  | tryRead =>
      obtain rfl := Option.some.inj hstep
      exact hpops
  | look call =>
      have hcall : call ∈ s.awake := by
        by_contra hother
        simp [CmnQueue.step, hother] at hstep
      obtain rfl := hpops.awake call hcall
      obtain ⟨other, hother, -, hnext, -⟩ := hpops.look (List.ne_nil_of_mem hcall)
      obtain rfl := Option.some.inj (hother.symm.trans hstep)
      exact hnext
  | spurious call =>
      simp only [CmnQueue.step] at hstep
      split at hstep
      · next hcall =>
          obtain rfl := Option.some.inj hstep
          obtain ⟨hasleep, hawake⟩ := hpops.woken hcall
          refine hpops.of_action .stir ?_ hasleep hawake
          have hsome := List.ne_nil_of_mem hcall
          simp [monitor, Monitor.step, hsome, List.length_erase_of_mem hcall]
      · cases hstep

theorem looks (hpops : PopsSignalled s) {count : Nat} (hcount : count = s.awake.length) :
    ∃ final, run CmnQueue.step s (List.replicate count (.look .pop)) = some final ∧
      run Monitor.step (monitor s) (List.replicate count .look) = some (monitor final) := by
  induction count generalizing s with
  | zero => exact ⟨s, rfl, rfl⟩
  | succ count ih =>
      have hawake : s.awake ≠ [] := by
        intro hnone
        rw [hnone] at hcount
        cases hcount
      obtain ⟨next, hstep, hmonitor, hnext, hrest⟩ := hpops.look hawake
      obtain ⟨other, hother⟩ := List.exists_mem_of_ne_nil _ hawake
      have hpop : WaitingCall.pop ∈ s.awake := hpops.awake other hother ▸ hother
      have hleft : count = next.awake.length := by
        rw [hrest, List.length_erase_of_mem hpop]
        omega
      obtain ⟨final, hrun, hruns⟩ := ih hnext hleft
      refine ⟨final, ?_, ?_⟩
      · rw [List.replicate_succ, run_cons, hstep]
        exact hrun
      · rw [List.replicate_succ, run_cons, hmonitor]
        exact hruns

end PopsSignalled

/-- No wake-up is lost: once those that were notified have looked, nothing is left or nobody
waits. -/
theorem waiting_pops_served (size : Nat) (labels : List (QueueStep DataType))
    (hmeet : StepsMeet CmnQueue.step NoWaitingRead (CmnQueue.init size) labels) :
    Throughout CmnQueue.step
      (fun s => ∃ final,
        run CmnQueue.step s (List.replicate s.awake.length (.look .pop)) = some final ∧
          (final.ptrQueue = [] ∨ final.asleep = []))
      (CmnQueue.init size) labels := by
  have hall : Throughout CmnQueue.step PopsSignalled (CmnQueue.init size) labels :=
    throughout_of_stepsMeet (fun hpops hnoread hstep => hpops.step hnoread hstep)
      (PopsSignalled.init size) hmeet
  refine hall.imp ?_
  intro s hpops
  obtain ⟨final, hrun, hruns⟩ := hpops.looks rfl
  obtain ⟨settled, hsettled, hend⟩ :=
    hpops.signalled.settles (m := monitor s) (show s.awake.length = (monitor s).awake from rfl)
  obtain rfl := Option.some.inj (hruns.symm.trans hsettled)
  refine ⟨final, hrun, ?_⟩
  simpa [monitor] using hend

/-- Two threads sleep in `pop`, two items come, and both are notified before either looks. -/
theorem waiting_pops_served_two :
    ∃ final, run CmnQueue.step (CmnQueue.init 2)
        [.call .pop, .call .pop, .push 1 true (some .pop), .push 2 true (some .pop)] =
          some final ∧
      ∃ settled, run CmnQueue.step final
        (List.replicate final.awake.length (.look .pop)) = some settled ∧
          (settled.ptrQueue = [] ∨ settled.asleep = []) := by
  refine ⟨_, rfl, ?_⟩
  refine waiting_pops_served 2
    ([.call .pop, .call .pop, .push 1 true (some .pop), .push 2 true (some .pop)] :
      List (QueueStep Nat)) ?_ _ (List.prefix_refl _) _ rfl
  intro before label hbefore reached _ hlabel
  have hmem := hbefore.subset (List.mem_append_right before (List.mem_singleton_self label))
  subst hlabel
  simp at hmem

end ApolloContrib.V2x
