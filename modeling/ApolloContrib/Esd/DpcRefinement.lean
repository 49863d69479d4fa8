import ApolloContrib.Esd.DpcSteps

namespace ApolloContrib.Esd

open ApolloContrib.Library Function

/-! Every careful run of the driver is a run of the queue of jobs. -/

universe u

variable {Var Addr Func : Type u} [DecidableEq Var] [DecidableEq Addr]
  {s : State Var Addr Func} {q : WorkQueue Var Func} {dpc : Var} {a : Addr} {func : Func}

omit [DecidableEq Var] [DecidableEq Addr] in
theorem agrees_cut {object : Dpc Addr Func} : Agrees q dpc object.cut ↔ Agrees q dpc object :=
  ⟨fun h => ⟨h.job, h.closed, h.running, h.linked⟩,
    fun h => ⟨h.job, h.closed, h.running, h.linked⟩⟩

omit [DecidableEq Var] [DecidableEq Addr] in
theorem Agrees.log {object : Dpc Addr Func} (hagrees : Agrees q dpc object)
    (event : Event Var Func) : Agrees (q.log event) dpc object :=
  ⟨hagrees.job, hagrees.closed, hagrees.running, hagrees.linked⟩

namespace Refines

omit [DecidableEq Var] in
theorem log (hrel : Refines s q) (event : Event Var Func) :
    Refines (s.log event) (q.log event) :=
  { hrel with
    agrees := fun other b hother => (hrel.agrees other b hother).log event
    trace := congrArg (· ++ [event]) hrel.trace }

omit [DecidableEq Var] in
theorem owns_live (hrel : Refines s q) (howns : s.Owns dpc a) : a ∈ s.live :=
  (hrel.live a).mpr ⟨dpc, howns⟩

omit [DecidableEq Var] in
theorem owns_of_removal (hrel : Refines s q) {removal : Removal}
    (hremoval : s.removal dpc = some removal) (hnot : removal ≠ .freed) : ∃ a, s.Owns dpc a := by
  obtain ⟨a, ha⟩ := Option.ne_none_iff_exists'.mp (hrel.removal dpc (by simp [hremoval]))
  exact ⟨a, ha, by simpa [hremoval] using hnot⟩

omit [DecidableEq Var] in
theorem mem_addrs_iff (hrel : Refines s q) (howns : s.Owns dpc a) :
    a ∈ q.queue.filterMap s.handle ↔ dpc ∈ q.queue := by
  rw [List.mem_filterMap]
  constructor
  · rintro ⟨other, hqueue, hhandle⟩
    obtain ⟨a', hother⟩ := hrel.queued other hqueue
    obtain rfl := Option.some.inj (hother.1.symm.trans hhandle)
    exact hrel.owner dpc other _ howns hother ▸ hqueue
  · intro hqueue
    exact ⟨dpc, hqueue, howns.1⟩

omit [DecidableEq Var] in
theorem init (garbage : Addr → Dpc Addr Func) :
    Refines (State.init garbage : State Var Addr Func) WorkQueue.init where
  live a := ⟨nofun, fun ⟨_, howns, _⟩ => by cases howns⟩
  nodup := List.nodup_nil
  owner _ _ _ howns := by cases howns.1
  agrees _ _ howns := by cases howns.1
  noJob _ _ := rfl
  queue := rfl
  queued := nofun
  waits := nofun
  worker := nofun
  called := nofun
  waiting := nofun
  idle := nofun
  removal _ h := absurd rfl h
  checked := nofun
  trace := rfl

theorem create (hrel : Refines s q) {malloc : Addr} (hfresh : malloc ∉ s.live)
    (hempty : s.handle dpc = none) : Matched s q (.create dpc malloc func) := by
  have hremoval : s.removal dpc = none := by
    by_contra h
    exact hrel.removal dpc h hempty
  have hself : ∀ {a}, ¬ s.Owns dpc a := fun howns => by
    rw [howns.1] at hempty
    cases hempty
  have hjob : q.job dpc = none := hrel.noJob dpc fun a => hself
  have hqueue : dpc ∉ q.queue := fun hmem => hself (hrel.queued dpc hmem).choose_spec
  let next : State Var Addr Func := { s with
    handle := update s.handle dpc (some malloc)
    live := malloc :: s.live
    obj := update s.obj malloc ⟨none, false, false, false, func⟩ }
  have hnew : next.Owns dpc malloc := ⟨update_self .., by simp [next, hremoval]⟩
  have hsame : ∀ {other a}, other ≠ dpc → (next.Owns other a ↔ s.Owns other a) := by
    intro other a hne
    simp only [State.Owns, next, update_of_ne hne]
  have hcases : ∀ {other a}, next.Owns other a →
      other = dpc ∧ a = malloc ∨ other ≠ dpc ∧ a ≠ malloc ∧ s.Owns other a := by
    intro other a howns
    rcases eq_or_ne other dpc with rfl | hne
    · exact .inl ⟨rfl, Option.some.inj (howns.1.symm.trans hnew.1)⟩
    · have hold := (hsame hne).mp howns
      exact .inr ⟨hne, ne_of_mem_of_not_mem (hrel.owns_live hold) hfresh, hold⟩
  have hkeep : ∀ {other a}, s.Owns other a → next.Owns other a := by
    intro other a howns
    exact (hsame fun heq => hself (heq ▸ howns)).mpr howns
  have hobj : ∀ {a}, a ≠ malloc → next.obj a = s.obj a := fun hne => update_of_ne hne ..
  have hobjNew : next.obj malloc = ⟨none, false, false, false, func⟩ := update_self ..
  have hstep : step s (.create dpc malloc func) = some next := if_neg hfresh
  refine .moves hstep (WorkQueue.step_create func hjob) ?_
  constructor
  case live =>
    intro a
    rw [List.mem_cons]
    constructor
    · rintro (rfl | hmem)
      · exact ⟨dpc, hnew⟩
      · obtain ⟨other, howns⟩ := (hrel.live a).mp hmem
        exact ⟨other, hkeep howns⟩
    · rintro ⟨other, howns⟩
      rcases hcases howns with ⟨-, rfl⟩ | ⟨-, -, hold⟩
      · exact .inl rfl
      · exact .inr (hrel.owns_live hold)
  case nodup => exact List.nodup_cons.mpr ⟨hfresh, hrel.nodup⟩
  case owner =>
    intro one two a hone htwo
    rcases hcases hone with ⟨rfl, rfl⟩ | ⟨-, hne, hone⟩
    · rcases hcases htwo with ⟨rfl, -⟩ | ⟨-, hne, -⟩
      · rfl
      · exact absurd rfl hne
    · rcases hcases htwo with ⟨-, rfl⟩ | ⟨-, -, htwo⟩
      · exact absurd rfl hne
      · exact hrel.owner one two a hone htwo
  case agrees =>
    intro other a howns
    rcases hcases howns with ⟨rfl, rfl⟩ | ⟨hne, hother, hold⟩
    · rw [hobjNew]
      refine ⟨update_self .., (update_self other false q.closed).symm, ?_, fun _ => ?_⟩
      · refine iff_of_false (by simp) fun hrunning => ?_
        obtain ⟨a, howns, -⟩ := hrel.worker other hrunning
        exact hself howns
      · exact iff_of_false (by simp) hqueue
    · rw [hobj hother]
      have hclosed : update q.closed dpc false other = q.closed other := update_of_ne hne ..
      obtain ⟨hjob, hclosed', hrunning, hlinked⟩ := hrel.agrees other a hold
      exact ⟨(update_of_ne hne ..).trans hjob, hclosed'.trans hclosed.symm, hrunning,
        fun hopen => hlinked (hclosed.symm.trans hopen)⟩
  case noJob =>
    intro other hnone
    have hne : other ≠ dpc := fun heq => hnone malloc (heq ▸ hnew)
    refine (update_of_ne hne ..).trans (hrel.noJob other fun a howns => ?_)
    exact hnone a (hkeep howns)
  case queue =>
    have hhandles : q.queue.filterMap next.handle = q.queue.filterMap s.handle :=
      List.filterMap_congr fun other hmem => update_of_ne (ne_of_mem_of_not_mem hmem hqueue) ..
    rw [hhandles]
    refine hrel.queue.congr fun a hmem => ?_
    have hlive := State.linked_live hrel.queue hmem
    have hne : a ≠ malloc := ne_of_mem_of_not_mem hlive hfresh
    rw [State.next_of_mem (s := next) (List.mem_cons_of_mem _ hlive), hobj hne,
      State.next_of_mem hlive]
  case queued =>
    intro other hmem
    obtain ⟨a, howns⟩ := hrel.queued other hmem
    exact ⟨a, hkeep howns⟩
  case waits =>
    intro other hmem
    have hne : other ≠ dpc := ne_of_mem_of_not_mem hmem hqueue
    exact (update_of_ne hne ..).trans (hrel.waits other hmem)
  case worker =>
    intro other hrunning
    obtain ⟨a, howns, hworker⟩ := hrel.worker other hrunning
    exact ⟨a, hkeep howns, hworker⟩
  case called =>
    intro a hworker
    obtain ⟨other, howns, hrunning⟩ := hrel.called a hworker
    exact ⟨other, hkeep howns, hrunning⟩
  case waiting =>
    intro other hwaiting
    have hne : other ≠ dpc := by
      rintro rfl
      exact absurd (hremoval.symm.trans hwaiting) (by simp)
    exact (update_of_ne hne ..).trans (hrel.waiting other hwaiting)
  case idle =>
    intro other hidle
    have hne : other ≠ dpc := by
      rintro rfl
      exact absurd (hremoval.symm.trans hidle) (by simp)
    exact ⟨(update_of_ne hne ..).trans (hrel.idle other hidle).1, (hrel.idle other hidle).2⟩
  case removal =>
    intro other hsome
    rcases eq_or_ne other dpc with rfl | hne
    · simp [next]
    · simp only [next, update_of_ne hne]
      exact hrel.removal other hsome
  case checked =>
    intro other hmem
    obtain ⟨a, howns⟩ := hrel.checked other hmem
    exact ⟨a, hkeep howns⟩
  case trace => exact hrel.trace

omit [DecidableEq Var] in
/-- Where the flags of one DPC change, and the queue says the same of the others. -/
theorem agrees_update (hrel : Refines s q) (howns : s.Owns dpc a) {q' : WorkQueue Var Func}
    {obj : Addr → Dpc Addr Func} {object : Dpc Addr Func}
    (hcut : (fun other => (obj other).cut) = update (fun other => (s.obj other).cut) a object)
    (hself : Agrees q' dpc object)
    (hothers : ∀ other, other ≠ dpc → ∀ object : Dpc Addr Func,
      Agrees q other object → Agrees q' other object)
    (other : Var) (b : Addr) (hother : s.Owns other b) : Agrees q' other (obj b) := by
  have hb := congrFun hcut b
  rcases eq_or_ne b a with rfl | hne
  · obtain rfl := hrel.owner dpc other b howns hother
    rw [update_self] at hb
    exact agrees_cut.mp (hb ▸ hself)
  · rw [update_of_ne hne] at hb
    have hvar : other ≠ dpc := by
      rintro rfl
      exact hne (Option.some.inj (hother.1.symm.trans howns.1))
    refine agrees_cut.mp ?_
    rw [hb]
    exact agrees_cut.mpr (hothers other hvar _ (hrel.agrees other b hother))

theorem trigger (hrel : Refines s q) (hcareful : s.removal dpc ≠ some .freed) :
    Matched s q (.trigger dpc) := by
  cases hhandle : s.handle dpc with
  | none =>
      have hjob : q.job dpc = none := hrel.noJob dpc fun a howns => by
        rw [howns.1] at hhandle
        cases hhandle
      have hstep : step s (.trigger dpc) = some (s.log (.triggered dpc .efault)) := by
        simp only [step, hhandle]
      exact .moves hstep (WorkQueue.step_trigger hjob) (hrel.log _)
  | some a =>
      have hstep : step s (.trigger dpc) = some { s with checked := dpc :: s.checked } := by
        simp only [step, hhandle]
      refine .still hstep { hrel with checked := fun other hmem => ?_ }
      rcases List.mem_cons.mp hmem with rfl | hmem
      · exact ⟨a, hhandle, hcareful⟩
      · exact hrel.checked other hmem

theorem ofRemoval (hrel : Refines s q) (howns : s.Owns dpc a) {removal : Removal}
    (hfreed : removal ≠ .freed) (hwaiting : removal = .waiting → q.closed dpc)
    (hidle : removal = .idle → q.closed dpc ∧ q.running ≠ some dpc) :
    Refines { s with removal := update s.removal dpc (some removal) } q := by
  let next : State Var Addr Func := { s with removal := update s.removal dpc (some removal) }
  have hsame : next.Owns = s.Owns := by
    funext other b
    rcases eq_or_ne other dpc with rfl | hne
    · have hself : next.removal other ≠ some .freed := by simpa [next] using hfreed
      exact propext (and_congr_right fun _ => iff_of_true hself howns.2)
    · simp only [State.Owns, next, update_of_ne hne]
  have hphase : ∀ other phase, next.removal other = some phase →
      other = dpc ∧ removal = phase ∨ s.removal other = some phase := by
    intro other phase hother
    rcases eq_or_ne other dpc with rfl | hne
    · simp only [next, update_self] at hother
      exact .inl ⟨rfl, Option.some.inj hother⟩
    · simp only [next, update_of_ne hne] at hother
      exact .inr hother
  refine { hrel with
    live := hsame ▸ hrel.live, owner := hsame ▸ hrel.owner, agrees := hsame ▸ hrel.agrees
    noJob := hsame ▸ hrel.noJob, queued := hsame ▸ hrel.queued, worker := hsame ▸ hrel.worker
    called := hsame ▸ hrel.called, checked := hsame ▸ hrel.checked
    waiting := fun other hother => ?_
    idle := fun other hother => ?_
    removal := fun other hother => ?_ }
  · rcases hphase other .waiting hother with ⟨rfl, h⟩ | h
    · exact hwaiting h
    · exact hrel.waiting other h
  · rcases hphase other .idle hother with ⟨rfl, h⟩ | h
    · exact hidle h
    · exact hrel.idle other h
  · obtain ⟨phase, hsome⟩ := Option.ne_none_iff_exists'.mp hother
    rcases hphase other phase hsome with ⟨rfl, -⟩ | h
    · simp [howns.1]
    · exact hrel.removal other (by simp [h])

theorem post (hrel : Refines s q) (hchecked : dpc ∈ s.checked) (hfree : s.worker ≠ .choose) :
    Matched s q (.post dpc) := by
  obtain ⟨a, howns⟩ := hrel.checked dpc hchecked
  have hmem := hrel.owns_live howns
  have hagrees := hrel.agrees dpc a howns
  let left : State Var Addr Func := { s with checked := s.checked.erase dpc }
  have hstep : step s (.post dpc) = left.osifDpcTrigger dpc := if_pos ⟨hchecked, hfree⟩
  have hrest : ∀ other ∈ left.checked, ∃ a, s.Owns other a :=
    fun other hother => hrel.checked other (List.mem_of_mem_erase hother)
  cases hdestroy : (s.obj a).destroy with
  | true =>
      have hclosed := hagrees.closed.symm.trans hdestroy
      exact .moves (hstep.trans (State.osifDpcTrigger_destroy howns.1 hmem hdestroy))
        (WorkQueue.step_post_closed hagrees.job hclosed)
        { hrel.log _ with checked := hrest }
  | false =>
      have hopen : q.closed dpc = false := hagrees.closed.symm.trans hdestroy
      have hflag := hagrees.linked hopen
      cases hlinked : (s.obj a).linked with
      | true =>
          refine .moves (hstep.trans (State.osifDpcTrigger_linked howns.1 hmem hdestroy hlinked))
            (WorkQueue.step_post_open hagrees.job hopen) ?_
          rw [if_pos (hflag.mp hlinked)]
          exact { hrel.log (.triggered dpc .success) with checked := hrest }
      | false =>
          have hqueue : dpc ∉ q.queue := fun h => by simp [hflag.mpr h] at hlinked
          obtain ⟨first, obj, hnew, hspell, hcut⟩ := State.osifDpcTrigger_new (s := left)
            howns.1 hmem hdestroy hlinked hrel.queue ((hrel.mem_addrs_iff howns).not.mpr hqueue)
          refine .moves (hstep.trans hnew) (WorkQueue.step_post_open hagrees.job hopen) ?_
          rw [if_neg hqueue]
          let object : Dpc Addr Func := { s.obj a with next := none, linked := true }
          have hself : Agrees { q with queue := q.queue ++ [dpc] } dpc object :=
            ⟨hagrees.job, hagrees.closed, hagrees.running,
              fun _ => iff_of_true rfl (List.mem_append_right _ List.mem_cons_self)⟩
          have hagreesAll := hrel.agrees_update howns hcut hself
            fun other hne object hother =>
              ⟨hother.job, hother.closed, hother.running, fun hopen => by
                rw [hother.linked hopen]
                simp [hne]⟩
          refine { hrel with
            agrees := fun other b hother => ?_
            queue := ?_
            queued := fun other hmem => ?_
            waits := fun other hmem => ?_
            checked := hrest
            trace := congrArg (· ++ [_]) hrel.trace }
          · obtain ⟨h1, h2, h3, h4⟩ := hagreesAll other b hother
            exact ⟨h1, h2, h3, h4⟩
          · change Linked _ first ((q.queue ++ [dpc]).filterMap s.handle)
            rw [List.filterMap_append, List.filterMap_cons_some howns.1]
            exact hspell
          · rcases List.mem_append.mp hmem with hmem | hmem
            · exact hrel.queued other hmem
            · exact ⟨a, List.mem_singleton.mp hmem ▸ howns⟩
          · rcases List.mem_append.mp hmem with hmem | hmem
            · exact hrel.waits other hmem
            · exact List.mem_singleton.mp hmem ▸ hopen

theorem destroy (hrel : Refines s q) (hcareful : s.removal dpc = none) :
    Matched s q (.destroy dpc) := by
  cases hhandle : s.handle dpc with
  | none =>
      have hjob : q.job dpc = none := hrel.noJob dpc fun a howns => by
        rw [howns.1] at hhandle
        cases hhandle
      have hstep : step s (.destroy dpc) = some (s.log (.destroyed dpc .efault)) := by
        simp only [step, hhandle]
      exact .moves hstep (WorkQueue.step_destroy hjob) (hrel.log _)
  | some a =>
      have hstep : step s (.destroy dpc) = some { s with
          removal := update s.removal dpc (some .entered) } := by
        simp only [step, hhandle]
      exact .still hstep (hrel.ofRemoval ⟨hhandle, by simp [hcareful]⟩ nofun nofun nofun)

theorem filterMap_erase (hrel : Refines s q) (howns : s.Owns dpc a) {queue : List Var}
    (hqueue : ∀ other ∈ queue, ∃ b, s.Owns other b) :
    (queue.erase dpc).filterMap s.handle = (queue.filterMap s.handle).erase a := by
  induction queue with
  | nil => rfl
  | cons other queue ih =>
      obtain ⟨b, hother⟩ := hqueue other List.mem_cons_self
      rw [List.filterMap_cons_some hother.1]
      rcases eq_or_ne other dpc with rfl | hne
      · obtain rfl := Option.some.inj (hother.1.symm.trans howns.1)
        rw [List.erase_cons_head, List.erase_cons_head]
      · have hdiffer : b ≠ a := by
          rintro rfl
          exact hne (hrel.owner other dpc b hother howns)
        rw [List.erase_cons_tail (by simpa using hne), List.erase_cons_tail (by simpa using hdiffer),
          List.filterMap_cons_some hother.1,
          ih fun other hmem => hqueue other (List.mem_cons_of_mem _ hmem)]

theorem close (hrel : Refines s q) (howns : s.Owns dpc a) {first : Option Addr}
    {obj : Addr → Dpc Addr Func}
    (hspell : Linked (State.next { s with first, obj }) first
      ((q.queue.filterMap s.handle).erase a))
    (hcut : (fun other => (obj other).cut) =
      update (fun other => (s.obj other).cut) a { s.obj a with next := none, destroy := true }) :
    Refines { s with first, obj }
      { q with closed := update q.closed dpc true, queue := q.queue.erase dpc } := by
  let q' : WorkQueue Var Func :=
    { q with closed := update q.closed dpc true, queue := q.queue.erase dpc }
  let object : Dpc Addr Func := { s.obj a with next := none, destroy := true }
  have hagrees := hrel.agrees dpc a howns
  have hclosed : q'.closed dpc = true := update_self ..
  have hsame : ∀ {other}, other ≠ dpc → q'.closed other = q.closed other :=
    fun hne => update_of_ne hne ..
  have hself : Agrees q' dpc object :=
    ⟨hagrees.job, hclosed.symm, hagrees.running, fun h => by simp [hclosed] at h⟩
  have hgone : dpc ∉ q.queue.erase dpc := by
    intro hmem
    have haddr : a ∈ (q.queue.filterMap s.handle).erase a := by
      rw [← hrel.filterMap_erase howns hrel.queued]
      exact List.mem_filterMap.mpr ⟨dpc, hmem, howns.1⟩
    exact hrel.queue.nodup.not_mem_erase haddr
  exact { hrel with
    agrees := hrel.agrees_update howns hcut hself fun other hne object hother =>
      ⟨hother.job, hother.closed.trans (hsame hne).symm, hother.running, fun hopen => by
        rw [hother.linked ((hsame hne).symm.trans hopen)]
        exact (List.mem_erase_of_ne hne).symm⟩
    queue := by
      change Linked _ first ((q.queue.erase dpc).filterMap s.handle)
      rw [hrel.filterMap_erase howns hrel.queued]
      exact hspell
    queued := fun other hmem => hrel.queued other (List.mem_of_mem_erase hmem)
    waits := fun other hmem =>
      (hsame (ne_of_mem_of_not_mem hmem hgone)).trans
        (hrel.waits other (List.mem_of_mem_erase hmem))
    waiting := fun other hwaiting => by
      rcases eq_or_ne other dpc with rfl | hne
      · exact hclosed
      · exact (hsame hne).trans (hrel.waiting other hwaiting)
    idle := fun other hidle => by
      rcases eq_or_ne other dpc with rfl | hne
      · exact ⟨hclosed, (hrel.idle other hidle).2⟩
      · exact ⟨(hsame hne).trans (hrel.idle other hidle).1, (hrel.idle other hidle).2⟩ }

theorem unlink (hrel : Refines s q) (hentered : s.removal dpc = some .entered)
    (hfree : s.worker ≠ .choose) : Matched s q (.unlink dpc) := by
  obtain ⟨a, howns⟩ := hrel.owns_of_removal hentered (by simp)
  have hagrees := hrel.agrees dpc a howns
  obtain ⟨first, obj, hdestroy, hspell, hcut⟩ :=
    State.osifDpcDestroy_linked howns.1 (hrel.owns_live howns) hrel.queue
  have hstep : step s (.unlink dpc) = s.osifDpcDestroy dpc := if_pos ⟨hentered, hfree⟩
  have hclose := hrel.close howns hspell hcut
  refine .moves (hstep.trans hdestroy) (WorkQueue.step_close hagrees.job)
    (hclose.ofRemoval howns ?_ ?_ ?_)
  · split <;> simp
  · intro _
    exact update_self ..
  · intro hidle
    refine ⟨update_self .., fun hrunning => ?_⟩
    rw [if_pos (hagrees.running.mpr hrunning)] at hidle
    cases hidle

theorem poll (hrel : Refines s q) (hwaiting : s.removal dpc = some .waiting)
    (hfree : s.worker ≠ .choose) : Matched s q (.poll dpc) := by
  obtain ⟨a, howns⟩ := hrel.owns_of_removal hwaiting (by simp)
  have hstep : step s (.poll dpc) = s.testRunning dpc := if_pos ⟨hwaiting, hfree⟩
  have htest := State.testRunning_of_mem howns.1 (hrel.owns_live howns)
  refine .still (hstep.trans htest) (hrel.ofRemoval howns ?_ ?_ ?_)
  · split <;> simp
  · intro _
    exact hrel.waiting dpc hwaiting
  · intro hidle
    refine ⟨hrel.waiting dpc hwaiting, fun hrunning => ?_⟩
    rw [if_pos ((hrel.agrees dpc a howns).running.mpr hrunning)] at hidle
    cases hidle

omit [DecidableEq Var] in
theorem start (hrel : Refines s q) (hidle : q.running = none) {queue : List Var}
    (hqueue : q.queue = dpc :: queue) :
    ∃ a, q.job dpc = some (s.obj a).func ∧
      s.takeFirst = some { (((s.setFirst (s.obj a).next).setObj a
        { s.obj a with linked := false, running := true }).log (.called (s.obj a).func)) with
        worker := .call a } ∧
      Refines { (((s.setFirst (s.obj a).next).setObj a
        { s.obj a with linked := false, running := true }).log (.called (s.obj a).func)) with
        worker := .call a }
        { q.log (.called (s.obj a).func) with running := some dpc, queue } := by
  obtain ⟨a, howns⟩ := hrel.queued dpc (hqueue ▸ List.mem_cons_self)
  have hmem := hrel.owns_live howns
  have hagrees := hrel.agrees dpc a howns
  have hspell := hrel.queue
  rw [hqueue, List.filterMap_cons_some howns.1] at hspell
  have hout := hspell.not_mem_tail
  have hgone : dpc ∉ queue := fun h => hout (List.mem_filterMap.mpr ⟨dpc, h, howns.1⟩)
  obtain ⟨hfirst, link, hnext, hrest⟩ := hspell
  rw [State.next_of_mem hmem] at hnext
  obtain rfl := Option.some.inj hnext
  let q' : WorkQueue Var Func :=
    { q.log (.called (s.obj a).func) with running := some dpc, queue }
  let object : Dpc Addr Func := { s.obj a with linked := false, running := true }
  have hself : Agrees q' dpc object :=
    ⟨hagrees.job, hagrees.closed, iff_of_true rfl rfl,
      fun _ => iff_of_false (by simp [object]) hgone⟩
  have hothers : ∀ other, other ≠ dpc → ∀ object : Dpc Addr Func,
      Agrees q other object → Agrees q' other object := by
    intro other hne object hother
    refine ⟨hother.job, hother.closed, ?_, fun hopen => ?_⟩
    · rw [hother.running, hidle]
      exact iff_of_false (by simp) (by simp [q', hne.symm])
    · rw [hother.linked hopen, hqueue, List.mem_cons]
      exact or_iff_right hne
  refine ⟨a, hagrees.job, State.takeFirst_some hfirst hmem, { hrel with
    agrees := hrel.agrees_update howns State.cut_setObj (agrees_cut.mpr hself) hothers
    queue := State.linked_setObj hrest hout hmem
    queued := fun other h => hrel.queued other (hqueue ▸ List.mem_cons_of_mem _ h)
    waits := fun other h => hrel.waits other (hqueue ▸ List.mem_cons_of_mem _ h)
    worker := fun other hrunning => ⟨a, Option.some.inj hrunning ▸ howns, rfl⟩
    called := ?_
    idle := fun other hother => ⟨(hrel.idle other hother).1, ?_⟩
    trace := congrArg (· ++ [_]) hrel.trace }⟩
  · intro b hworker
    cases hworker
    exact ⟨dpc, howns, rfl⟩
  · intro hrunning
    obtain rfl : dpc = other := Option.some.inj hrunning
    have hopen := hrel.waits dpc (hqueue ▸ List.mem_cons_self)
    rw [(hrel.idle dpc hother).1] at hopen
    cases hopen

omit [DecidableEq Var] in
theorem first_none (hrel : Refines s q) (hqueue : q.queue = []) : s.first = none := by
  have hspell := hrel.queue
  rw [hqueue] at hspell
  exact hspell

omit [DecidableEq Var] in
theorem mark (hrel : Refines s q) (hidle : q.running = none) :
    Refines { s with interruptible := true, worker := .choose } q :=
  { hrel with
    worker := fun other hrunning => absurd (hidle.symm.trans hrunning) (by simp)
    called := nofun }

theorem takeFirst (hrel : Refines s q) (hidle : q.running = none) :
    ∃ next moves q', s.takeFirst = some next ∧ run WorkQueue.step q moves = some q' ∧
      Refines next q' := by
  cases hqueue : q.queue with
  | nil =>
      exact ⟨_, [], q, State.takeFirst_none (hrel.first_none hqueue), rfl, hrel.mark hidle⟩
  | cons dpc queue =>
      obtain ⟨a, hjob, htake, hnext⟩ := hrel.start hidle hqueue
      refine ⟨_, [.start], _, htake, ?_, hnext⟩
      rw [run_cons, WorkQueue.step_start hidle hqueue hjob]
      rfl

omit [DecidableEq Var] in
theorem first_live (hrel : Refines s q) (hfirst : s.first = some a) : a ∈ s.live := by
  refine State.linked_live hrel.queue (List.mem_of_head? ?_)
  rw [← hrel.queue.head, hfirst]

omit [DecidableEq Var] in
theorem running_eq_none (hrel : Refines s q) (hworker : ∀ a, s.worker ≠ .call a) :
    q.running = none := by
  by_contra hrunning
  obtain ⟨dpc, hdpc⟩ := Option.ne_none_iff_exists'.mp hrunning
  obtain ⟨a, -, hcall⟩ := hrel.worker dpc hdpc
  exact hworker a hcall

omit [DecidableEq Var] in
theorem ofWorker (hrel : Refines s q) (hworker : ∀ a, s.worker ≠ .call a) {worker : Worker Addr}
    (hnext : ∀ a, worker ≠ .call a) : Refines { s with worker } q :=
  { hrel with
    worker := fun other hrunning =>
      absurd ((hrel.running_eq_none hworker).symm.trans hrunning) (by simp)
    called := fun a hcall => absurd hcall (hnext a) }

omit [DecidableEq Var] in
/-- The function of the DPC at `a` has returned. -/
theorem finish (hrel : Refines s q) (howns : s.Owns dpc a) (hrunning : q.running = some dpc) :
    Refines { s.setObj a { s.obj a with running := false } with worker := .clear }
      { q with running := none } := by
  let q' : WorkQueue Var Func := { q with running := none }
  let object : Dpc Addr Func := { s.obj a with running := false }
  have hagrees := hrel.agrees dpc a howns
  have hself : Agrees q' dpc object :=
    ⟨hagrees.job, hagrees.closed, iff_of_false (by simp [object]) (by simp [q']), hagrees.linked⟩
  have hothers : ∀ other, other ≠ dpc → ∀ object : Dpc Addr Func,
      Agrees q other object → Agrees q' other object := by
    intro other hne object hother
    refine ⟨hother.job, hother.closed, ?_, hother.linked⟩
    rw [hother.running, hrunning]
    exact iff_of_false (by simpa using hne.symm) (by simp [q'])
  exact { hrel with
    agrees := hrel.agrees_update howns State.cut_setObj (agrees_cut.mpr hself) hothers
    queue := State.linked_setObj_same hrel.queue (hrel.owns_live howns) rfl
    worker := nofun
    called := nofun
    idle := fun other hidle => ⟨(hrel.idle other hidle).1, nofun⟩ }

omit [DecidableEq Var] in
theorem returns (hrel : Refines s q) (hworker : s.worker = .call a) :
    ∃ dpc, q.running = some dpc ∧
      Refines { s.setObj a { s.obj a with running := false } with worker := .clear }
        { q with running := none } ∧
      s.threadStep = State.takeFirst
        { s.setObj a { s.obj a with running := false } with worker := .clear } := by
  obtain ⟨dpc, howns, hrunning⟩ := hrel.called a hworker
  refine ⟨dpc, hrunning, hrel.finish howns hrunning, ?_⟩
  have hsame := State.takeFirst_worker (s := s.setObj a { s.obj a with running := false })
    .clear fun b hfirst => hrel.first_live hfirst
  exact (State.threadStep_call hworker (hrel.owns_live howns)).trans hsame.symm

theorem thread (hrel : Refines s q) (hexited : s.worker ≠ .exited)
    (hawake : s.worker = .schedule → s.interruptible = false) : Matched s q .thread := by
  cases hworker : s.worker with
  | test =>
      refine .still (State.threadStep_test hworker) (hrel.ofWorker (by simp [hworker]) ?_)
      split <;> simp
  | clear =>
      have hnone : q.running = none := hrel.running_eq_none (by simp [hworker])
      have hfewer : Refines { s with trig := s.trig - 1 } q := { hrel with }
      obtain ⟨next, moves, q', htake, hrun, hnext⟩ := hfewer.takeFirst hnone
      exact ⟨next, moves, q', (State.threadStep_clear hworker).trans htake, hrun, hnext⟩
  | call a =>
      obtain ⟨dpc, hrunning, hfinish, hreturn⟩ := hrel.returns hworker
      obtain ⟨next, moves, q', htake, hrun, hnext⟩ := hfinish.takeFirst rfl
      refine ⟨next, .finish :: moves, q', hreturn.trans htake, ?_, hnext⟩
      rw [run_cons, WorkQueue.step_finish hrunning]
      exact hrun
  | choose =>
      have hstep := State.threadStep_choose hworker
      by_cases htrig : s.trig = 0
      · rw [if_pos htrig] at hstep
        exact .still hstep (hrel.ofWorker (by simp [hworker]) nofun)
      · rw [if_neg htrig] at hstep
        have htest : Refines { s with worker := .test } q :=
          hrel.ofWorker (by simp [hworker]) nofun
        exact .still hstep { htest with }
  | schedule =>
      have hstep := State.threadStep_schedule hworker
      rw [if_neg (by simp [hawake hworker])] at hstep
      exact .still hstep (hrel.ofWorker (by simp [hworker]) nofun)
  | exited => exact absurd hworker hexited

theorem free (hrel : Refines s q) (hidle : s.removal dpc = some .idle)
    (hcareful : dpc ∉ s.checked) : Matched s q (.free dpc) := by
  obtain ⟨a, howns⟩ := hrel.owns_of_removal hidle (by simp)
  have hmem := hrel.owns_live howns
  have hagrees := hrel.agrees dpc a howns
  obtain ⟨hclosed, hrunning⟩ := hrel.idle dpc hidle
  have hqueue : dpc ∉ q.queue := fun h => by simp [hrel.waits dpc h] at hclosed
  let next : State Var Addr Func := { s with
    live := s.live.erase a, removal := update s.removal dpc (some .freed) }
  have hstep : step s (.free dpc) = some next := by
    rw [step, if_pos hidle, howns.1, Option.bind_eq_bind, Option.bind_some,
      State.deref_of_mem hmem]
    rfl
  have howner : ∀ {other b}, next.Owns other b ↔ other ≠ dpc ∧ s.Owns other b := by
    intro other b
    rcases eq_or_ne other dpc with rfl | hne
    · simp [State.Owns, next]
    · simp [State.Owns, next, hne]
  have hdiffer : ∀ {other b}, other ≠ dpc → s.Owns other b → b ≠ a := by
    rintro other b hne hother rfl
    exact hne (hrel.owner other dpc b hother howns)
  have hphase : ∀ {other phase}, phase ≠ Removal.freed → next.removal other = some phase →
      s.removal other = some phase := by
    intro other phase hphase hother
    rcases eq_or_ne other dpc with rfl | hne
    · simp only [next, update_self] at hother
      exact absurd (Option.some.inj hother).symm hphase
    · simpa only [next, update_of_ne hne] using hother
  refine .moves hstep (WorkQueue.step_free hagrees.job hclosed hqueue hrunning) ?_
  constructor
  case live =>
    intro b
    rw [hrel.nodup.mem_erase_iff]
    constructor
    · rintro ⟨hne, hb⟩
      obtain ⟨other, hother⟩ := (hrel.live b).mp hb
      refine ⟨other, howner.mpr ⟨?_, hother⟩⟩
      rintro rfl
      exact hne (Option.some.inj (hother.1.symm.trans howns.1))
    · rintro ⟨other, hother⟩
      obtain ⟨hne, hother⟩ := howner.mp hother
      exact ⟨hdiffer hne hother, hrel.owns_live hother⟩
  case nodup => exact hrel.nodup.erase a
  case owner =>
    intro one two b hone htwo
    exact hrel.owner one two b (howner.mp hone).2 (howner.mp htwo).2
  case agrees =>
    intro other b hother
    obtain ⟨hne, hother⟩ := howner.mp hother
    have hold := hrel.agrees other b hother
    exact ⟨(update_of_ne hne ..).trans hold.job, hold.closed, hold.running, hold.linked⟩
  case noJob =>
    intro other hnone
    rcases eq_or_ne other dpc with rfl | hne
    · exact update_self ..
    · exact (update_of_ne hne ..).trans
        (hrel.noJob other fun b hother => hnone b (howner.mpr ⟨hne, hother⟩))
  case queue =>
    refine hrel.queue.congr fun b hb => ?_
    have hne : b ≠ a := by
      rintro rfl
      exact hqueue ((hrel.mem_addrs_iff howns).mp hb)
    have hlive := State.linked_live hrel.queue hb
    rw [State.next_of_mem hlive]
    exact State.next_of_mem (s := next) ((List.mem_erase_of_ne hne).mpr hlive)
  case queued =>
    intro other hother
    obtain ⟨b, hb⟩ := hrel.queued other hother
    exact ⟨b, howner.mpr ⟨ne_of_mem_of_not_mem hother hqueue, hb⟩⟩
  case waits => exact hrel.waits
  case worker =>
    intro other hother
    obtain ⟨b, hb, hworker⟩ := hrel.worker other hother
    refine ⟨b, howner.mpr ⟨?_, hb⟩, hworker⟩
    rintro rfl
    exact hrunning hother
  case called =>
    intro b hworker
    obtain ⟨other, hother, hb⟩ := hrel.called b hworker
    refine ⟨other, howner.mpr ⟨?_, hother⟩, hb⟩
    rintro rfl
    exact hrunning hb
  case waiting => exact fun other hother => hrel.waiting other (hphase (by simp) hother)
  case idle => exact fun other hother => hrel.idle other (hphase (by simp) hother)
  case removal =>
    intro other hother
    rcases eq_or_ne other dpc with rfl | hne
    · simp [next, howns.1]
    · simp only [next, update_of_ne hne] at hother
      exact hrel.removal other hother
  case checked =>
    intro other hother
    obtain ⟨b, hb⟩ := hrel.checked other hother
    exact ⟨b, howner.mpr ⟨ne_of_mem_of_not_mem hother hcareful, hb⟩⟩
  case trace => exact hrel.trace

theorem forget (hrel : Refines s q) (hfreed : s.removal dpc = some .freed) :
    Matched s q (.forget dpc) := by
  have hnone : ∀ {b}, ¬ s.Owns dpc b := fun howns => howns.2 hfreed
  have hqueue : dpc ∉ q.queue := fun h => hnone (hrel.queued dpc h).choose_spec
  let next : State Var Addr Func := { s.log (.destroyed dpc .success) with
    handle := update s.handle dpc none, removal := update s.removal dpc none }
  have hstep : step s (.forget dpc) = some next := if_pos hfreed
  have hsame : next.Owns = s.Owns := by
    funext other b
    rcases eq_or_ne other dpc with rfl | hne
    · exact propext (iff_of_false (by simp [State.Owns, next]) hnone)
    · simp only [State.Owns, next, update_of_ne hne]
  have hphase : ∀ {other phase}, next.removal other = some phase →
      other ≠ dpc ∧ s.removal other = some phase := by
    intro other phase hother
    rcases eq_or_ne other dpc with rfl | hne
    · simp [next] at hother
    · exact ⟨hne, by simpa only [next, update_of_ne hne] using hother⟩
  have hlog := hrel.log (.destroyed dpc .success)
  refine .moves hstep (WorkQueue.step_forget (hrel.noJob dpc fun b => hnone)) { hlog with
    live := hsame ▸ hlog.live, owner := hsame ▸ hlog.owner, agrees := hsame ▸ hlog.agrees
    noJob := hsame ▸ hlog.noJob, queued := hsame ▸ hlog.queued, worker := hsame ▸ hlog.worker
    called := hsame ▸ hlog.called, checked := hsame ▸ hlog.checked
    queue := ?_
    waiting := fun other hother => hrel.waiting other (hphase hother).2
    idle := fun other hother => hrel.idle other (hphase hother).2
    removal := fun other hother => ?_ }
  · have hhandles : q.queue.filterMap next.handle = q.queue.filterMap s.handle :=
      List.filterMap_congr fun other hmem => update_of_ne (ne_of_mem_of_not_mem hmem hqueue) ..
    change Linked s.next s.first (q.queue.filterMap next.handle)
    rw [hhandles]
    exact hrel.queue
  · obtain ⟨phase, hsome⟩ := Option.ne_none_iff_exists'.mp hother
    obtain ⟨hne, hold⟩ := hphase hsome
    simp only [next, update_of_ne hne]
    exact hrel.removal other (by simp [hold])

theorem matched (hrel : Refines s q) {label : Label Var Addr Func}
    (hdue : Due s label ∧ Careful s label) : Matched s q label := by
  obtain ⟨hdue, hcareful⟩ := hdue
  cases label with
  | create dpc malloc func => exact hrel.create hdue hcareful
  | trigger dpc => exact hrel.trigger hcareful
  | post dpc => exact hrel.post hdue.1 hdue.2
  | count => exact .still (if_neg hdue) { hrel with }
  | wake => exact .still (if_neg hdue) { hrel with }
  | destroy dpc => exact hrel.destroy hcareful
  | unlink dpc => exact hrel.unlink hdue.1 hdue.2
  | poll dpc => exact hrel.poll hdue.1 hdue.2
  | free dpc => exact hrel.free hdue hcareful
  | forget dpc => exact hrel.forget hdue
  | stop => exact .still rfl { hrel with }
  | thread => exact hrel.thread hdue.1 hdue.2

end Refines

theorem careful_run_refines (garbage : Addr → Dpc Addr Func) {labels : List (Label Var Addr Func)}
    (hmeet : StepsMeet step (fun s label => Due s label ∧ Careful s label) (State.init garbage)
      labels) :
    ∃ final moves q, run step (State.init garbage) labels = some final ∧
      run WorkQueue.step WorkQueue.init moves = some q ∧ Refines final q :=
  run_refines (fun hrel hdue => hrel.matched hdue) (Refines.init garbage) hmeet

/-- Two DPCs, the second destroyed while the first runs. -/
def sampleLabels : List (Label Nat Nat Nat) :=
  [.create 0 7 100, .create 1 8 101, .trigger 0, .trigger 1, .post 0, .post 1, .count, .count,
    .thread, .thread, .wake, .destroy 1, .unlink 1, .wake, .free 1, .forget 1, .thread, .thread]

theorem careful_run_refines_sample :
    StepsMeet step (fun s label => Due s label ∧ Careful s label)
        (State.init fun _ => ⟨none, true, true, true, 0⟩) sampleLabels ∧
      ∃ final moves q, run step (State.init fun _ => ⟨none, true, true, true, 0⟩) sampleLabels =
          some final ∧
        run WorkQueue.step WorkQueue.init moves = some q ∧ Refines final q :=
  ⟨by decide, careful_run_refines _ (by decide)⟩

end ApolloContrib.Esd
