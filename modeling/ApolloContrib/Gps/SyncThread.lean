import ApolloContrib.Library.Run

namespace ApolloContrib.Gps

open ApolloContrib.Library

/-! The thread that synchronises the time, and the devices that come and go: `zynq_gps_init` of
a probe and `zynq_gps_fini` of a removal, one at a time, and `zynq_gps_pps_changed` of any device
at any time. -/

/-- How `wait_for_completion_interruptible_timeout` returns. -/
inductive WaitResult
  | completed
  | timedOut
  | interrupted
  deriving DecidableEq

/-- Where `zynq_gps_sync_thread` is, with its `zdev`; before the load of the master it has
none. -/
inductive SyncAt (Dev : Type*)
  | test
  | load
  | sync (zdev : Dev)
  | wait (zdev : Dev)
  | waited (zdev : Dev) (result : WaitResult)
  deriving DecidableEq

/-- What is left of a call: of `zynq_gps_init` past the lock, or of `zynq_gps_fini` and the
rest of `zynq_remove`. -/
inductive GpsCall (Dev : Type*)
  | threadInit (zdev : Dev)
  | setScheduler (zdev : Dev)
  | complete (zdev : Dev)
  | kthreadStop (zdev : Dev)
  | join (zdev : Dev)
  | free (zdev : Dev)
  deriving DecidableEq

/-- The devices that are allocated, the variables of the driver, the thread behind
`zynq_gps_taskp` with its flag and whether it has left its loop by the break, the completion with
its count, the calls of `zynq_gps_pps_changed` that have found their device to be the master, and
the call under way. -/
structure GpsThread (Dev : Type*) where
  devices : List Dev
  zynqGpsMasterDev : Option Dev
  zynqGpsTaskp : Option (SyncAt Dev)
  shouldStop : Bool
  brokeOff : Bool
  zynqGpsWaitReady : Bool
  zynqGpsWait : Nat
  ppsCalls : List Dev
  call : Option (GpsCall Dev)

inductive GpsStep (Dev : Type*)
  | init (zdev : Dev) (fwupdate : Bool)
  /-- `init_completion` and `kthread_run`. -/
  | threadInit (zdev : Dev) (created : Bool)
  | setScheduler (zdev : Dev)
  | fini (zdev : Dev)
  | complete (zdev : Dev)
  | kthreadStop (zdev : Dev)
  /-- The thread has ended, and `kthread_stop` returns. -/
  | join (zdev : Dev)
  /-- The interrupts of the device are over, and it is freed. -/
  | free (zdev : Dev)
  | ppsTest (zdev : Dev)
  | ppsDone (zdev : Dev) (smoothInProgress : Bool)
  | test
  | load
  | sync (zdev : Dev)
  | wait (zdev : Dev) (result : WaitResult)
  | waited (zdev : Dev) (result : WaitResult)

variable {Dev : Type*}

namespace GpsThread

def atLoad : GpsThread Dev :=
  { devices := [], zynqGpsMasterDev := none, zynqGpsTaskp := none, shouldStop := false
    brokeOff := false, zynqGpsWaitReady := false, zynqGpsWait := 0, ppsCalls := [], call := none }

/-- `none` is an access through NULL, to the error that `kthread_run` returned, to a device that
is freed, or to a task that has ended. -/
def step [DecidableEq Dev] (s : GpsThread Dev) : GpsStep Dev → Option (GpsThread Dev)
  | .init zdev fwupdate =>
      if fwupdate = true ∨ s.zynqGpsMasterDev ≠ none then
        some { s with devices := zdev :: s.devices }
      else
        some { s with
          devices := zdev :: s.devices
          zynqGpsMasterDev := some zdev
          call := some (.threadInit zdev) }
  | .threadInit zdev created =>
      if created = true then
        some { s with
          zynqGpsTaskp := some .test
          shouldStop := false
          brokeOff := false
          zynqGpsWaitReady := true
          zynqGpsWait := 0
          call := some (.setScheduler zdev) }
      else none
  | .setScheduler _ => s.zynqGpsTaskp.map fun _ => { s with call := none }
  | .fini zdev =>
      if s.zynqGpsMasterDev = some zdev then
        some { s with zynqGpsMasterDev := none, call := some (.complete zdev) }
      else some { s with call := some (.free zdev) }
  | .complete zdev =>
      if s.zynqGpsWaitReady = true then
        some { s with zynqGpsWait := s.zynqGpsWait + 1, call := some (.kthreadStop zdev) }
      else none
  | .kthreadStop zdev =>
      s.zynqGpsTaskp.map fun _ => { s with shouldStop := true, call := some (.join zdev) }
  | .join zdev => some { s with call := some (.free zdev) }
  | .free zdev => some { s with devices := s.devices.erase zdev, call := none }
  | .ppsTest zdev =>
      some { s with
        ppsCalls := if s.zynqGpsMasterDev = some zdev then zdev :: s.ppsCalls else s.ppsCalls }
  | .ppsDone zdev smoothInProgress =>
      if zdev ∈ s.devices ∧ (smoothInProgress = true → s.zynqGpsWaitReady = true) then
        some { s with
          zynqGpsWait := if smoothInProgress then s.zynqGpsWait + 1 else s.zynqGpsWait
          ppsCalls := s.ppsCalls.erase zdev }
      else none
  | .test => some { s with zynqGpsTaskp := if s.shouldStop then none else some .load }
  | .load =>
      s.zynqGpsMasterDev.bind fun zdev =>
        if zdev ∈ s.devices then some { s with zynqGpsTaskp := some (.sync zdev) } else none
  | .sync zdev =>
      if zdev ∈ s.devices then some { s with zynqGpsTaskp := some (.wait zdev) } else none
  | .wait zdev result =>
      some { s with
        zynqGpsTaskp := some (.waited zdev result)
        zynqGpsWait := if result = .completed then s.zynqGpsWait - 1 else s.zynqGpsWait }
  | .waited zdev result =>
      if zdev ∈ s.devices then
        match result with
        | .completed => some { s with zynqGpsTaskp := some .test, zynqGpsWait := 0 }
        | .timedOut => some { s with zynqGpsTaskp := some .test }
        | .interrupted => some { s with zynqGpsTaskp := none, brokeOff := true }
      else none

/-- The caller or the thread is there. A wait ends by a completion, by its time or by a signal;
a device is freed when its interrupts are over. -/
def Due (s : GpsThread Dev) : GpsStep Dev → Prop
  | .init zdev _ => s.call = none ∧ zdev ∉ s.devices
  | .threadInit zdev _ => s.call = some (.threadInit zdev)
  | .setScheduler zdev => s.call = some (.setScheduler zdev)
  | .fini zdev => s.call = none ∧ zdev ∈ s.devices
  | .complete zdev => s.call = some (.complete zdev)
  | .kthreadStop zdev => s.call = some (.kthreadStop zdev)
  | .join zdev => s.call = some (.join zdev) ∧ s.zynqGpsTaskp = none
  | .free zdev => s.call = some (.free zdev) ∧ zdev ∉ s.ppsCalls
  | .ppsTest zdev => zdev ∈ s.devices
  | .ppsDone zdev _ => zdev ∈ s.ppsCalls
  | .test => s.zynqGpsTaskp = some .test
  | .load => s.zynqGpsTaskp = some .load
  | .sync zdev => s.zynqGpsTaskp = some (.sync zdev)
  | .wait zdev result =>
      s.zynqGpsTaskp = some (.wait zdev) ∧ (result = .completed → s.zynqGpsWait ≠ 0)
  | .waited zdev result => s.zynqGpsTaskp = some (.waited zdev result)

instance [DecidableEq Dev] (s : GpsThread Dev) (label : GpsStep Dev) : Decidable (s.Due label) :=
  match label with
  | .init _ _ => inferInstanceAs (Decidable (_ ∧ _))
  | .threadInit _ _ => inferInstanceAs (Decidable (_ = _))
  | .setScheduler _ => inferInstanceAs (Decidable (_ = _))
  | .fini _ => inferInstanceAs (Decidable (_ ∧ _))
  | .complete _ => inferInstanceAs (Decidable (_ = _))
  | .kthreadStop _ => inferInstanceAs (Decidable (_ = _))
  | .join _ => inferInstanceAs (Decidable (_ ∧ _))
  | .free _ => inferInstanceAs (Decidable (_ ∧ _))
  | .ppsTest _ => inferInstanceAs (Decidable (_ ∈ _))
  | .ppsDone _ _ => inferInstanceAs (Decidable (_ ∈ _))
  | .test => inferInstanceAs (Decidable (_ = _))
  | .load => inferInstanceAs (Decidable (_ = _))
  | .sync _ => inferInstanceAs (Decidable (_ = _))
  | .wait _ _ => inferInstanceAs (Decidable (_ ∧ (_ → _)))
  | .waited _ _ => inferInstanceAs (Decidable (_ = _))

/-- The thread is created, and has not broken off when it is scheduled or stopped; a PPS change
completes nothing before `init_completion`; and the master is not loaded after `zynq_gps_fini` has
cleared it. -/
def Supported (s : GpsThread Dev) (label : GpsStep Dev) : Prop :=
  match label with
  | .threadInit _ created => created = true
  | .setScheduler _ | .kthreadStop _ => s.brokeOff = false
  | .ppsDone _ smoothInProgress => smoothInProgress = true → s.zynqGpsWaitReady = true
  | .load => s.zynqGpsMasterDev ≠ none
  | _ => True

end GpsThread

def SyncAt.zdev : SyncAt Dev → Option Dev
  | .test | .load => none
  | .sync zdev | .wait zdev | .waited zdev _ => some zdev

def SyncAt.Waits : SyncAt Dev → Prop
  | .sync _ | .wait _ => True
  | _ => False

namespace GpsThread

/-- The thread has no other device than `zdev`, which is allocated. -/
structure Keeps (s : GpsThread Dev) (zdev : Dev) : Prop where
  live : zdev ∈ s.devices
  own : ∀ place, s.zynqGpsTaskp = some place → ∀ other, place.zdev = some other → other = zdev

def There (s : GpsThread Dev) : Prop :=
  s.zynqGpsTaskp = none → s.brokeOff = true

def Heard (s : GpsThread Dev) : Prop :=
  ∀ place, s.zynqGpsTaskp = some place → place.Waits → s.zynqGpsWait ≠ 0

/-- No call is under way, or one that frees another device than the master. -/
def Settled (s : GpsThread Dev) : Prop :=
  match s.call with
  | none => True
  | some (.free zdev) => s.zynqGpsMasterDev ≠ some zdev
  | some _ => False

/-- How far the calls have got. Once `complete` was called, the thread does not wait long. -/
inductive Phase (s : GpsThread Dev) : Prop
  | absent (hcall : s.Settled) (hmaster : s.zynqGpsMasterDev = none)
      (hthread : s.zynqGpsTaskp = none)
  | starting (zdev : Dev) (hcall : s.call = some (.threadInit zdev))
      (hmaster : s.zynqGpsMasterDev = some zdev) (hlive : zdev ∈ s.devices)
      (hthread : s.zynqGpsTaskp = none)
  | scheduling (zdev : Dev) (hcall : s.call = some (.setScheduler zdev))
      (hmaster : s.zynqGpsMasterDev = some zdev) (hkeeps : s.Keeps zdev) (hthere : s.There)
      (hready : s.zynqGpsWaitReady = true) (hstop : s.shouldStop = false)
  | running (zdev : Dev) (hcall : s.Settled) (hmaster : s.zynqGpsMasterDev = some zdev)
      (hkeeps : s.Keeps zdev) (hthere : s.There) (hready : s.zynqGpsWaitReady = true)
      (hstop : s.shouldStop = false)
  | cleared (zdev : Dev) (hcall : s.call = some (.complete zdev))
      (hmaster : s.zynqGpsMasterDev = none) (hkeeps : s.Keeps zdev) (hthere : s.There)
      (hready : s.zynqGpsWaitReady = true) (hstop : s.shouldStop = false)
  | completed (zdev : Dev) (hcall : s.call = some (.kthreadStop zdev))
      (hmaster : s.zynqGpsMasterDev = none) (hkeeps : s.Keeps zdev) (hthere : s.There)
      (hstop : s.shouldStop = false) (hheard : s.Heard)
  | stopping (zdev : Dev) (hcall : s.call = some (.join zdev))
      (hmaster : s.zynqGpsMasterDev = none) (hkeeps : s.Keeps zdev)
      (hstop : s.shouldStop = true) (hheard : s.Heard)

end GpsThread

/-- Of the devices each is allocated once, and no interrupt of a freed one is under way. -/
structure GpsInv (s : GpsThread Dev) : Prop where
  nodup : s.devices.Nodup
  pps : ∀ zdev ∈ s.ppsCalls, zdev ∈ s.devices
  broke : ∀ place, s.zynqGpsTaskp = some place → s.brokeOff = false
  phase : s.Phase

namespace GpsThread

variable {s next : GpsThread Dev}

theorem Phase.frame (hphase : s.Phase) (hcall : next.call = s.call)
    (hmaster : next.zynqGpsMasterDev = s.zynqGpsMasterDev)
    (hready : next.zynqGpsWaitReady = s.zynqGpsWaitReady) (hstop : next.shouldStop = s.shouldStop)
    (hthread : s.zynqGpsTaskp = none → next.zynqGpsTaskp = none)
    (hkeeps : ∀ zdev, s.zynqGpsMasterDev = none ∨ s.zynqGpsMasterDev = some zdev →
      s.Keeps zdev → next.Keeps zdev)
    (hlive : ∀ zdev ∈ s.devices, zdev ∈ next.devices)
    (hthere : s.shouldStop = false → s.There → next.There)
    (hheard : s.zynqGpsMasterDev = none → s.Heard → next.Heard) : next.Phase := by
  have hsettled : s.Settled → next.Settled := by
    intro hsettled
    unfold Settled
    rw [hcall, hmaster]
    exact hsettled
  cases hphase with
  | absent hown hnone hended => exact .absent (hsettled hown) (hmaster.trans hnone) (hthread hended)
  | starting zdev hown hsome hmine hended =>
      exact .starting zdev (hcall.trans hown) (hmaster.trans hsome) (hlive zdev hmine)
        (hthread hended)
  | scheduling zdev hown hsome hmine hexists hset hgoes =>
      exact .scheduling zdev (hcall.trans hown) (hmaster.trans hsome)
        (hkeeps zdev (.inr hsome) hmine) (hthere hgoes hexists) (hready.trans hset)
        (hstop.trans hgoes)
  | running zdev hown hsome hmine hexists hset hgoes =>
      exact .running zdev (hsettled hown) (hmaster.trans hsome) (hkeeps zdev (.inr hsome) hmine)
        (hthere hgoes hexists) (hready.trans hset) (hstop.trans hgoes)
  | cleared zdev hown hnone hmine hexists hset hgoes =>
      exact .cleared zdev (hcall.trans hown) (hmaster.trans hnone) (hkeeps zdev (.inl hnone) hmine)
        (hthere hgoes hexists) (hready.trans hset) (hstop.trans hgoes)
  | completed zdev hown hnone hmine hexists hgoes hhears =>
      exact .completed zdev (hcall.trans hown) (hmaster.trans hnone)
        (hkeeps zdev (.inl hnone) hmine) (hthere hgoes hexists) (hstop.trans hgoes)
        (hheard hnone hhears)
  | stopping zdev hown hnone hmine hends hhears =>
      exact .stopping zdev (hcall.trans hown) (hmaster.trans hnone)
        (hkeeps zdev (.inl hnone) hmine) (hstop.trans hends) (hheard hnone hhears)

end GpsThread

namespace GpsInv

open GpsThread

variable {s : GpsThread Dev} {place next : SyncAt Dev} {zdev : Dev}

theorem atLoad : GpsInv (atLoad : GpsThread Dev) where
  nodup := List.nodup_nil
  pps := by simp [GpsThread.atLoad]
  broke := by simp [GpsThread.atLoad]
  phase := .absent trivial rfl rfl

theorem live (hinv : GpsInv s) (hthread : s.zynqGpsTaskp = some place)
    (hzdev : place.zdev = some zdev) : zdev ∈ s.devices := by
  have huses : ∀ {own : Dev}, s.Keeps own → zdev ∈ s.devices := by
    intro own hkeeps
    exact hkeeps.own place hthread zdev hzdev ▸ hkeeps.live
  cases hinv.phase with
  | absent _ _ hnone => exact (Option.some_ne_none _ (hthread.symm.trans hnone)).elim
  | starting _ _ _ _ hnone => exact (Option.some_ne_none _ (hthread.symm.trans hnone)).elim
  | scheduling _ _ _ hkeeps => exact huses hkeeps
  | running _ _ _ hkeeps => exact huses hkeeps
  | cleared _ _ _ hkeeps => exact huses hkeeps
  | completed _ _ _ hkeeps => exact huses hkeeps
  | stopping _ _ _ hkeeps => exact huses hkeeps

theorem heard (hinv : GpsInv s) (hstop : s.shouldStop = true)
    (hthread : s.zynqGpsTaskp = some place) (hwaits : place.Waits) : s.zynqGpsWait ≠ 0 := by
  cases hinv.phase with
  | stopping _ _ _ _ _ hheard => exact hheard place hthread hwaits
  | absent _ _ hnone => exact (Option.some_ne_none _ (hthread.symm.trans hnone)).elim
  | starting _ _ _ _ hnone => exact (Option.some_ne_none _ (hthread.symm.trans hnone)).elim
  | scheduling _ _ _ _ _ _ hgoes => cases hstop.symm.trans hgoes
  | running _ _ _ _ _ _ hgoes => cases hstop.symm.trans hgoes
  | cleared _ _ _ _ _ _ hgoes => cases hstop.symm.trans hgoes
  | completed _ _ _ _ _ hgoes => cases hstop.symm.trans hgoes

/-- The thread goes on with the device it has, or with the master that it loads. -/
theorem move (hinv : GpsInv s) (hthread : s.zynqGpsTaskp = some place) {wait : Nat}
    (hown : ∀ other, next.zdev = some other →
      place.zdev = some other ∨ s.zynqGpsMasterDev = some other)
    (hwait : next.Waits →
      s.zynqGpsMasterDev ≠ none ∨ place.Waits ∧ wait = s.zynqGpsWait) :
    GpsInv { s with zynqGpsTaskp := some next, zynqGpsWait := wait } where
  nodup := hinv.nodup
  pps := hinv.pps
  broke _ _ := hinv.broke place hthread
  phase := by
    refine hinv.phase.frame rfl rfl rfl rfl ?_ ?_ (fun _ => id) ?_ ?_
    · intro hnone
      exact (Option.some_ne_none _ (hthread.symm.trans hnone)).elim
    · intro own hmaster hkeeps
      refine ⟨hkeeps.live, fun there hthere other hother => ?_⟩
      obtain rfl := Option.some.inj hthere
      obtain hmine | hloaded := hown other hother
      · exact hkeeps.own place hthread other hmine
      · obtain hnone | hsome := hmaster
        · cases hloaded.symm.trans hnone
        · exact Option.some.inj (hloaded.symm.trans hsome)
    · intro _ _ hnone
      exact (Option.some_ne_none _ hnone).elim
    · intro hnone hheard there hthere hwaits
      obtain rfl := Option.some.inj hthere
      obtain hsome | ⟨hwaited, hsame⟩ := hwait hwaits
      · exact absurd hnone hsome
      · exact hsame.symm ▸ hheard place hthread hwaited

theorem exit (hinv : GpsInv s) {broke : Bool} (hends : s.shouldStop = true ∨ broke = true) :
    GpsInv { s with zynqGpsTaskp := none, brokeOff := broke } where
  nodup := hinv.nodup
  pps := hinv.pps
  broke _ hsome := (Option.some_ne_none _ hsome.symm).elim
  phase := by
    refine hinv.phase.frame rfl rfl rfl rfl (fun _ => rfl) ?_ (fun _ => id) ?_ ?_
    · intro own _ hkeeps
      exact ⟨hkeeps.live, fun _ hsome => (Option.some_ne_none _ hsome.symm).elim⟩
    · intro hgoes _ _
      obtain hstop | hbroke := hends
      · cases hstop.symm.trans hgoes
      · exact hbroke
    · intro _ _ _ hsome
      exact (Option.some_ne_none _ hsome.symm).elim

theorem pps_frame (hinv : GpsInv s) {count : Nat} {calls : List Dev}
    (hcalls : ∀ zdev ∈ calls, zdev ∈ s.devices) (hcount : s.zynqGpsWait ≤ count) :
    GpsInv { s with zynqGpsWait := count, ppsCalls := calls } where
  nodup := hinv.nodup
  pps := hcalls
  broke := hinv.broke
  phase := by
    refine hinv.phase.frame rfl rfl rfl rfl id ?_ (fun _ => id) (fun _ => id) ?_
    · intro own _ hkeeps
      exact ⟨hkeeps.live, hkeeps.own⟩
    · intro _ hheard place hthread hwaits
      have hpositive : 0 < s.zynqGpsWait := Nat.pos_of_ne_zero (hheard place hthread hwaits)
      exact Nat.ne_of_gt (Nat.lt_of_lt_of_le hpositive hcount)

theorem master_live (hinv : GpsInv s) (hmaster : s.zynqGpsMasterDev = some zdev) :
    zdev ∈ s.devices := by
  cases hinv.phase with
  | starting own _ hown hlive => exact Option.some.inj (hown.symm.trans hmaster) ▸ hlive
  | scheduling own _ hown hkeeps => exact Option.some.inj (hown.symm.trans hmaster) ▸ hkeeps.live
  | running own _ hown hkeeps => exact Option.some.inj (hown.symm.trans hmaster) ▸ hkeeps.live
  | absent _ hnone => cases hmaster.symm.trans hnone
  | cleared _ _ hnone => cases hmaster.symm.trans hnone
  | completed _ _ hnone => cases hmaster.symm.trans hnone
  | stopping _ _ hnone => cases hmaster.symm.trans hnone

section Calls

theorem settled_of_idle (hcall : s.call = none) : s.Settled := by
  simp [Settled, hcall]

/-- Where no call has to do with the master, its thread works for it, or there is none. -/
theorem of_settled (hinv : GpsInv s) (hsettled : s.Settled) :
    (s.zynqGpsMasterDev = none ∧ s.zynqGpsTaskp = none) ∨
      ∃ own, s.zynqGpsMasterDev = some own ∧ s.Keeps own ∧ s.There ∧
        s.zynqGpsWaitReady = true ∧ s.shouldStop = false := by
  cases hinv.phase with
  | absent _ hmaster hthread => exact .inl ⟨hmaster, hthread⟩
  | running own _ hmaster hkeeps hthere hready hstop =>
      exact .inr ⟨own, hmaster, hkeeps, hthere, hready, hstop⟩
  | starting _ hother => simp [Settled, hother] at hsettled
  | scheduling _ hother => simp [Settled, hother] at hsettled
  | cleared _ hother => simp [Settled, hother] at hsettled
  | completed _ hother => simp [Settled, hother] at hsettled
  | stopping _ hother => simp [Settled, hother] at hsettled

theorem thread_of_there (hthere : s.There) (hwhole : s.brokeOff = false) :
    ∃ place, s.zynqGpsTaskp = some place := by
  refine Option.ne_none_iff_exists'.mp fun hnone => ?_
  cases hwhole.symm.trans (hthere hnone)

theorem join (hinv : GpsInv s) (hcall : s.call = some (.join zdev))
    (hthread : s.zynqGpsTaskp = none) : GpsInv { s with call := some (.free zdev) } := by
  refine ⟨hinv.nodup, hinv.pps, hinv.broke, ?_⟩
  cases hinv.phase with
  | stopping _ _ hmaster => exact .absent (by simp [Settled, hmaster]) hmaster hthread
  | absent hsettled => simp [Settled, hcall] at hsettled
  | running _ hsettled => simp [Settled, hcall] at hsettled
  | starting _ hother => cases hcall.symm.trans hother
  | scheduling _ hother => cases hcall.symm.trans hother
  | cleared _ hother => cases hcall.symm.trans hother
  | completed _ hother => cases hcall.symm.trans hother

variable [DecidableEq Dev]

theorem init (hinv : GpsInv s) {fwupdate : Bool} (hcall : s.call = none)
    (hnew : zdev ∉ s.devices) :
    ∃ next, s.step (.init zdev fwupdate) = some next ∧ GpsInv next := by
  have hnodup : (zdev :: s.devices).Nodup := List.nodup_cons.mpr ⟨hnew, hinv.nodup⟩
  have hpps : ∀ other ∈ s.ppsCalls, other ∈ zdev :: s.devices := fun other hother =>
    List.mem_cons_of_mem zdev (hinv.pps other hother)
  have hsettled : s.Settled := settled_of_idle hcall
  by_cases hskips : fwupdate = true ∨ s.zynqGpsMasterDev ≠ none
  · refine ⟨_, if_pos hskips, hnodup, hpps, hinv.broke, ?_⟩
    obtain ⟨hmaster, hthread⟩ | ⟨own, hmaster, hkeeps, hthere, hready, hstop⟩ :=
      hinv.of_settled hsettled
    · exact .absent hsettled hmaster hthread
    · exact .running own hsettled hmaster
        ⟨List.mem_cons_of_mem zdev hkeeps.live, hkeeps.own⟩ hthere hready hstop
  · obtain ⟨-, hnone⟩ := not_or.mp hskips
    refine ⟨_, if_neg hskips, hnodup, hpps, hinv.broke, ?_⟩
    obtain ⟨-, hthread⟩ | ⟨own, hmaster, -⟩ := hinv.of_settled hsettled
    · exact .starting zdev rfl rfl List.mem_cons_self hthread
    · exact absurd hmaster (by simp [not_not.mp hnone])

theorem threadInit (hinv : GpsInv s) (hcall : s.call = some (.threadInit zdev)) :
    ∃ next, s.step (.threadInit zdev true) = some next ∧ GpsInv next := by
  refine ⟨_, rfl, hinv.nodup, hinv.pps, fun _ _ => rfl, ?_⟩
  cases hinv.phase with
  | starting own hown hmaster hlive =>
      obtain rfl : own = zdev := by
        cases hcall.symm.trans hown
        rfl
      refine .scheduling own rfl hmaster ⟨hlive, ?_⟩ ?_ rfl rfl
      · intro place hplace other hother
        obtain rfl := Option.some.inj hplace
        cases hother
      · intro hnone
        cases hnone
  | absent hsettled => simp [Settled, hcall] at hsettled
  | running _ hsettled => simp [Settled, hcall] at hsettled
  | scheduling _ hother => cases hcall.symm.trans hother
  | cleared _ hother => cases hcall.symm.trans hother
  | completed _ hother => cases hcall.symm.trans hother
  | stopping _ hother => cases hcall.symm.trans hother

theorem setScheduler (hinv : GpsInv s) (hcall : s.call = some (.setScheduler zdev))
    (hwhole : s.brokeOff = false) :
    ∃ next, s.step (.setScheduler zdev) = some next ∧ GpsInv next := by
  cases hinv.phase with
  | scheduling own _ hmaster hkeeps hthere hready hstop =>
      obtain ⟨place, hplace⟩ := thread_of_there hthere hwhole
      refine ⟨{ s with call := none }, by simp [GpsThread.step, hplace], hinv.nodup, hinv.pps,
        hinv.broke, ?_⟩
      exact .running own trivial hmaster ⟨hkeeps.live, hkeeps.own⟩ hthere hready hstop
  | absent hsettled => simp [Settled, hcall] at hsettled
  | running _ hsettled => simp [Settled, hcall] at hsettled
  | starting _ hother => cases hcall.symm.trans hother
  | cleared _ hother => cases hcall.symm.trans hother
  | completed _ hother => cases hcall.symm.trans hother
  | stopping _ hother => cases hcall.symm.trans hother

theorem fini (hinv : GpsInv s) (hcall : s.call = none) :
    ∃ next, s.step (.fini zdev) = some next ∧ GpsInv next := by
  have hsettled : s.Settled := settled_of_idle hcall
  by_cases hmine : s.zynqGpsMasterDev = some zdev
  · refine ⟨_, if_pos hmine, hinv.nodup, hinv.pps, hinv.broke, ?_⟩
    obtain ⟨hnone, -⟩ | ⟨own, hmaster, hkeeps, hthere, hready, hstop⟩ := hinv.of_settled hsettled
    · cases hmine.symm.trans hnone
    · obtain rfl := Option.some.inj (hmaster.symm.trans hmine)
      exact .cleared own rfl rfl ⟨hkeeps.live, hkeeps.own⟩ hthere hready hstop
  · refine ⟨_, if_neg hmine, hinv.nodup, hinv.pps, hinv.broke, ?_⟩
    obtain ⟨hmaster, hthread⟩ | ⟨own, hmaster, hkeeps, hthere, hready, hstop⟩ :=
      hinv.of_settled hsettled
    · exact .absent hmine hmaster hthread
    · exact .running own hmine hmaster ⟨hkeeps.live, hkeeps.own⟩ hthere hready hstop

theorem complete (hinv : GpsInv s) (hcall : s.call = some (.complete zdev)) :
    ∃ next, s.step (.complete zdev) = some next ∧ GpsInv next := by
  cases hinv.phase with
  | cleared own hown hmaster hkeeps hthere hready hstop =>
      obtain rfl : own = zdev := by
        cases hcall.symm.trans hown
        rfl
      refine ⟨_, if_pos hready, hinv.nodup, hinv.pps, hinv.broke, ?_⟩
      exact .completed own rfl hmaster ⟨hkeeps.live, hkeeps.own⟩ hthere hstop
        fun _ _ _ => Nat.succ_ne_zero _
  | absent hsettled => simp [Settled, hcall] at hsettled
  | running _ hsettled => simp [Settled, hcall] at hsettled
  | starting _ hother => cases hcall.symm.trans hother
  | scheduling _ hother => cases hcall.symm.trans hother
  | completed _ hother => cases hcall.symm.trans hother
  | stopping _ hother => cases hcall.symm.trans hother

theorem kthreadStop (hinv : GpsInv s) (hcall : s.call = some (.kthreadStop zdev))
    (hwhole : s.brokeOff = false) :
    ∃ next, s.step (.kthreadStop zdev) = some next ∧ GpsInv next := by
  cases hinv.phase with
  | completed own hown hmaster hkeeps hthere hstop hheard =>
      obtain rfl : own = zdev := by
        cases hcall.symm.trans hown
        rfl
      obtain ⟨place, hplace⟩ := thread_of_there hthere hwhole
      refine ⟨{ s with shouldStop := true, call := some (.join own) },
        by simp [GpsThread.step, hplace], hinv.nodup, hinv.pps, hinv.broke, ?_⟩
      exact .stopping own rfl hmaster ⟨hkeeps.live, hkeeps.own⟩ rfl hheard
  | absent hsettled => simp [Settled, hcall] at hsettled
  | running _ hsettled => simp [Settled, hcall] at hsettled
  | starting _ hother => cases hcall.symm.trans hother
  | scheduling _ hother => cases hcall.symm.trans hother
  | cleared _ hother => cases hcall.symm.trans hother
  | stopping _ hother => cases hcall.symm.trans hother

/-- The device that is freed is not the master, and no interrupt of it is under way. -/
theorem free (hinv : GpsInv s) (hcall : s.call = some (.free zdev)) (hover : zdev ∉ s.ppsCalls) :
    GpsInv { s with devices := s.devices.erase zdev, call := none } := by
  refine ⟨hinv.nodup.erase zdev, ?_, hinv.broke, ?_⟩
  · intro other hother
    have hne : other ≠ zdev := by
      rintro rfl
      exact hover hother
    exact (List.mem_erase_of_ne hne).mpr (hinv.pps other hother)
  · cases hinv.phase with
    | absent _ hmaster hthread => exact .absent trivial hmaster hthread
    | running own hsettled hmaster hkeeps hthere hready hstop =>
        have hother : own ≠ zdev := by
          rintro rfl
          simp [Settled, hcall, hmaster] at hsettled
        exact .running own trivial hmaster
          ⟨(List.mem_erase_of_ne hother).mpr hkeeps.live, hkeeps.own⟩ hthere hready hstop
    | starting _ hother => cases hcall.symm.trans hother
    | scheduling _ hother => cases hcall.symm.trans hother
    | cleared _ hother => cases hcall.symm.trans hother
    | completed _ hother => cases hcall.symm.trans hother
    | stopping _ hother => cases hcall.symm.trans hother

end Calls

section Steps

variable [DecidableEq Dev]

theorem ppsTest (hinv : GpsInv s) :
    ∃ next, s.step (.ppsTest zdev) = some next ∧ GpsInv next := by
  refine ⟨_, rfl, hinv.pps_frame ?_ (Nat.le_refl _)⟩
  by_cases hmine : s.zynqGpsMasterDev = some zdev
  · rw [if_pos hmine]
    exact List.forall_mem_cons.mpr ⟨hinv.master_live hmine, hinv.pps⟩
  · rw [if_neg hmine]
    exact hinv.pps

theorem ppsDone (hinv : GpsInv s) {smoothInProgress : Bool} (hcalled : zdev ∈ s.ppsCalls)
    (hready : smoothInProgress = true → s.zynqGpsWaitReady = true) :
    ∃ next, s.step (.ppsDone zdev smoothInProgress) = some next ∧ GpsInv next := by
  refine ⟨_, if_pos ⟨hinv.pps zdev hcalled, hready⟩, hinv.pps_frame ?_ ?_⟩
  · intro other hother
    exact hinv.pps other (List.mem_of_mem_erase hother)
  · split <;> omega

theorem waited (hinv : GpsInv s) {result : WaitResult}
    (hthread : s.zynqGpsTaskp = some (.waited zdev result)) :
    ∃ next, s.step (.waited zdev result) = some next ∧ GpsInv next := by
  have hlive : zdev ∈ s.devices := hinv.live hthread rfl
  cases result with
  | completed => exact ⟨_, if_pos hlive, hinv.move hthread (by simp [SyncAt.zdev]) False.elim⟩
  | timedOut => exact ⟨_, if_pos hlive, hinv.move hthread (by simp [SyncAt.zdev]) False.elim⟩
  | interrupted => exact ⟨_, if_pos hlive, hinv.exit (.inr rfl)⟩

theorem step (hinv : GpsInv s) {label : GpsStep Dev} (hdue : s.Due label)
    (hsupported : s.Supported label) : ∃ next, s.step label = some next ∧ GpsInv next := by
  cases label with
  | init zdev fwupdate => exact hinv.init hdue.1 hdue.2
  | threadInit zdev created =>
      obtain rfl : created = true := hsupported
      exact hinv.threadInit hdue
  | setScheduler zdev => exact hinv.setScheduler hdue hsupported
  | fini zdev => exact hinv.fini hdue.1
  | complete zdev => exact hinv.complete hdue
  | kthreadStop zdev => exact hinv.kthreadStop hdue hsupported
  | join zdev => exact ⟨_, rfl, hinv.join hdue.1 hdue.2⟩
  | free zdev => exact ⟨_, rfl, hinv.free hdue.1 hdue.2⟩
  | ppsTest zdev => exact hinv.ppsTest
  | ppsDone zdev smoothInProgress => exact hinv.ppsDone hdue hsupported
  | test =>
      refine ⟨_, rfl, ?_⟩
      by_cases hstop : s.shouldStop = true
      · rw [if_pos hstop]
        exact hinv.exit (.inl hstop)
      · rw [if_neg hstop]
        exact hinv.move hdue (by simp [SyncAt.zdev]) False.elim
  | load =>
      obtain ⟨zdev, hmaster⟩ := Option.ne_none_iff_exists'.mp hsupported
      refine ⟨{ s with zynqGpsTaskp := some (.sync zdev) },
        by simp [GpsThread.step, hmaster, hinv.master_live hmaster], ?_⟩
      refine hinv.move hdue (fun other hother => .inr ?_) fun _ => .inl hsupported
      exact hmaster.trans hother
  | sync zdev =>
      exact ⟨_, if_pos (hinv.live hdue rfl),
        hinv.move hdue (fun _ => .inl) fun _ => .inr ⟨trivial, rfl⟩⟩
  | wait zdev result => exact ⟨_, rfl, hinv.move hdue.1 (fun _ => .inl) False.elim⟩
  | waited zdev result => exact hinv.waited hdue

theorem supported (hinv : GpsInv s) {label : GpsStep Dev} {after : GpsThread Dev}
    (hstep : s.step label = some after) : s.Supported label := by
  have hwhole : s.zynqGpsTaskp ≠ none → s.brokeOff = false := by
    intro hsome
    obtain ⟨place, hplace⟩ := Option.ne_none_iff_exists'.mp hsome
    exact hinv.broke place hplace
  cases label with
  | threadInit zdev created =>
      by_cases hcreated : created = true
      · exact hcreated
      · exact absurd hstep (by simp [GpsThread.step, hcreated])
  | setScheduler zdev =>
      refine hwhole fun hnone => ?_
      simp [GpsThread.step, hnone] at hstep
  | kthreadStop zdev =>
      refine hwhole fun hnone => ?_
      simp [GpsThread.step, hnone] at hstep
  | ppsDone zdev smoothInProgress =>
      by_cases hready : zdev ∈ s.devices ∧ (smoothInProgress = true → s.zynqGpsWaitReady = true)
      · exact hready.2
      · exact absurd hstep (by simp [GpsThread.step, hready])
  | load =>
      intro hnone
      simp [GpsThread.step, hnone] at hstep
  | _ => trivial

theorem exists_run_iff (hinv : GpsInv s) {labels : List (GpsStep Dev)}
    (hdue : StepsMeet GpsThread.step GpsThread.Due s labels) :
    (∃ final, run GpsThread.step s labels = some final) ↔
      StepsMeet GpsThread.step GpsThread.Supported s labels :=
  Library.exists_run_iff (fun hinv hdue hsupported => hinv.step hdue hsupported)
    (fun hinv _ hstep => hinv.supported hstep) hinv hdue

theorem run (hinv : GpsInv s) {labels : List (GpsStep Dev)}
    (hdue : StepsMeet GpsThread.step GpsThread.Due s labels) {final : GpsThread Dev}
    (hrun : Library.run GpsThread.step s labels = some final) : GpsInv final := by
  have hsupported := (hinv.exists_run_iff hdue).mp ⟨final, hrun⟩
  have hmeet : StepsMeet GpsThread.step (fun s label => s.Due label ∧ s.Supported label) s
      labels := fun before label hbefore reached hreached =>
    ⟨hdue before label hbefore reached hreached, hsupported before label hbefore reached hreached⟩
  refine (throughout_of_stepsMeet ?_ hinv hmeet).last hrun
  intro state label next hstate hlabel hstep
  obtain ⟨other, hother, hnext⟩ := hstate.step hlabel.1 hlabel.2
  exact Option.some.inj (hstep.symm.trans hother) ▸ hnext

end Steps

end GpsInv

/-- However the devices come and go, and their PPS with them: neither the thread nor an interrupt
uses a device that is freed, and only a step that is not supported brings the system down. -/
theorem gps_thread_iff [DecidableEq Dev] (labels : List (GpsStep Dev))
    (hdue : StepsMeet GpsThread.step GpsThread.Due .atLoad labels) :
    (∃ final, run GpsThread.step .atLoad labels = some final) ↔
      StepsMeet GpsThread.step GpsThread.Supported .atLoad labels :=
  GpsInv.atLoad.exists_run_iff hdue

/-- Two devices: a PPS change of the master ends a wait, and the master is removed between the
test and the load of the thread. -/
theorem gps_thread_iff_two :
    (∃ final, run GpsThread.step (.atLoad : GpsThread Nat)
        [.init 0 false, .ppsTest 0, .threadInit 0 true, .test, .setScheduler 0, .init 1 false,
          .load, .sync 0, .ppsTest 1, .ppsDone 0 true, .wait 0 .completed, .waited 0 .completed,
          .fini 1, .free 1, .test, .fini 0, .load] = some final) ↔
      StepsMeet GpsThread.step GpsThread.Supported (.atLoad : GpsThread Nat)
        [.init 0 false, .ppsTest 0, .threadInit 0 true, .test, .setScheduler 0, .init 1 false,
          .load, .sync 0, .ppsTest 1, .ppsDone 0 true, .wait 0 .completed, .waited 0 .completed,
          .fini 1, .free 1, .test, .fini 0, .load] :=
  gps_thread_iff _ (by decide)

/-- A PPS change finds its device to be the master before `init_completion`. -/
example : run GpsThread.step (.atLoad : GpsThread Nat)
    [.init 0 false, .ppsTest 0, .ppsDone 0 true] = none := rfl

/-- The thread is interrupted, and the device is removed. -/
example : run GpsThread.step (.atLoad : GpsThread Nat)
    [.init 0 false, .threadInit 0 true, .setScheduler 0, .test, .load, .sync 0,
      .wait 0 .interrupted, .waited 0 .interrupted, .fini 0, .complete 0, .kthreadStop 0] =
    none := rfl

/-- The steps of the thread to its end, none of them the end of a wait by time. -/
def SyncAt.finish : SyncAt Dev → List (GpsStep Dev)
  | .test | .load => [.test]
  | .sync zdev => [.sync zdev, .wait zdev .completed, .waited zdev .completed, .test]
  | .wait zdev => [.wait zdev .completed, .waited zdev .completed, .test]
  | .waited zdev .interrupted => [.waited zdev .interrupted]
  | .waited zdev result => [.waited zdev result, .test]

section Stop

variable [DecidableEq Dev] {s next : GpsThread Dev} {zdev : Dev}

/-- The steps can be taken one after another, and the thread has ended then. -/
structure EndsBy (s : GpsThread Dev) (labels : List (GpsStep Dev)) : Prop where
  due : StepsMeet GpsThread.step GpsThread.Due s labels
  ends : ∃ final, run GpsThread.step s labels = some final ∧ final.zynqGpsTaskp = none

namespace EndsBy

theorem nil (hended : s.zynqGpsTaskp = none) : EndsBy s [] :=
  ⟨stepsMeet_nil, s, rfl, hended⟩

theorem cons {label : GpsStep Dev} {labels : List (GpsStep Dev)} (hdue : s.Due label)
    (hstep : s.step label = some next) (hrest : EndsBy next labels) :
    EndsBy s (label :: labels) := by
  obtain ⟨hmeets, final, hrun, hended⟩ := hrest
  refine ⟨stepsMeet_cons.mpr ⟨hdue, ?_⟩, final, ?_, hended⟩
  · intro other hother
    obtain rfl := Option.some.inj (hstep.symm.trans hother)
    exact hmeets
  · rw [run_cons, hstep]
    exact hrun

theorem of_test (hthread : s.zynqGpsTaskp = some .test) (hstop : s.shouldStop = true) :
    EndsBy s [.test] :=
  cons hthread rfl (nil (if_pos hstop))

theorem of_waited (result : WaitResult) (hthread : s.zynqGpsTaskp = some (.waited zdev result))
    (hlive : zdev ∈ s.devices) (hstop : s.shouldStop = true) :
    EndsBy s (SyncAt.waited zdev result).finish := by
  cases result with
  | completed => exact cons hthread (if_pos hlive) (of_test rfl hstop)
  | timedOut => exact cons hthread (if_pos hlive) (of_test rfl hstop)
  | interrupted => exact cons hthread (if_pos hlive) (nil rfl)

theorem of_wait (hthread : s.zynqGpsTaskp = some (.wait zdev)) (hlive : zdev ∈ s.devices)
    (hstop : s.shouldStop = true) (hwait : s.zynqGpsWait ≠ 0) :
    EndsBy s [.wait zdev .completed, .waited zdev .completed, .test] :=
  cons ⟨hthread, fun _ => hwait⟩ rfl (of_waited .completed rfl hlive hstop)

theorem of_sync (hthread : s.zynqGpsTaskp = some (.sync zdev)) (hlive : zdev ∈ s.devices)
    (hstop : s.shouldStop = true) (hwait : s.zynqGpsWait ≠ 0) :
    EndsBy s [.sync zdev, .wait zdev .completed, .waited zdev .completed, .test] :=
  cons hthread (if_pos hlive) (of_wait rfl hlive hstop hwait)

end EndsBy

end Stop

/-- A thread that is told to stop ends by at most four steps of its own, without waiting for
its time, unless it is between its test and the load of the master. -/
theorem gps_stop_heard [DecidableEq Dev] (labels : List (GpsStep Dev))
    (hdue : StepsMeet GpsThread.step GpsThread.Due .atLoad labels) {s : GpsThread Dev}
    (hrun : run GpsThread.step .atLoad labels = some s) (hstop : s.shouldStop = true)
    {place : SyncAt Dev} (hthread : s.zynqGpsTaskp = some place) (hplace : place ≠ .load) :
    StepsMeet GpsThread.step GpsThread.Due s place.finish ∧
      ∃ final, run GpsThread.step s place.finish = some final ∧ final.zynqGpsTaskp = none := by
  have hinv : GpsInv s := GpsInv.atLoad.run hdue hrun
  have hends : EndsBy s place.finish := by
    cases place with
    | test => exact .of_test hthread hstop
    | load => exact absurd rfl hplace
    | sync zdev =>
        exact .of_sync hthread (hinv.live hthread rfl) hstop (hinv.heard hstop hthread trivial)
    | wait zdev =>
        exact .of_wait hthread (hinv.live hthread rfl) hstop (hinv.heard hstop hthread trivial)
    | waited zdev result => exact .of_waited result hthread (hinv.live hthread rfl) hstop
  exact ⟨hends.due, hends.ends⟩

/-- The device is removed while the thread waits. -/
theorem gps_stop_heard_waiting :
    ∃ s, run GpsThread.step (.atLoad : GpsThread Nat)
        [.init 0 false, .threadInit 0 true, .setScheduler 0, .test, .load, .sync 0,
          .init 1 false, .fini 0, .complete 0, .kthreadStop 0] = some s ∧
      ∃ final, run GpsThread.step s [.wait 0 .completed, .waited 0 .completed, .test] =
          some final ∧ final.zynqGpsTaskp = none := by
  refine ⟨_, rfl, ?_⟩
  exact (gps_stop_heard [.init 0 false, .threadInit 0 true, .setScheduler 0, .test, .load, .sync 0,
    .init 1 false, .fini 0, .complete 0, .kthreadStop 0] (by decide) rfl rfl rfl (by decide)).2

end ApolloContrib.Gps
