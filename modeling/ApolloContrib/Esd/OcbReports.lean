import ApolloContrib.Esd.OcbSteps

namespace ApolloContrib.Esd

open Function

/-! The nucleus reports the end of a job, and the handle is closed. -/

def Phase.roused : Phase → Phase
  | .asleep => .testing
  | .abortAsleep => .aborting
  | phase => phase

def Job.ended (job : Job) (result : Int) (cmCount : Nat) : Job :=
  if job.state.signalInterrupt then
    ⟨{ job.state with signalInterrupt := false }, result, cmCount⟩
  else ⟨{ job.state with abort := job.state.abort || cmCount == 0 }, result, cmCount⟩

namespace Job

variable {job : Job} {closed : Bool} {phase : Phase}

@[simp]
theorem cmCount_ended (job : Job) (result : Int) (cmCount : Nat) :
    (job.ended result cmCount).cmCount = cmCount := by
  rw [ended]
  split <;> rfl

@[simp]
theorem pending_ended (job : Job) (result : Int) (cmCount : Nat) :
    (job.ended result cmCount).state.pending = job.state.pending := by
  rw [ended]
  split <;> rfl

@[simp]
theorem closing_ended (job : Job) (result : Int) (cmCount : Nat) :
    (job.ended result cmCount).state.closing = job.state.closing := by
  rw [ended]
  split <;> rfl

theorem signalInterrupt_ended (job : Job) (result : Int) (cmCount : Nat) :
    (job.ended result cmCount).state.signalInterrupt = false := by
  rw [ended]
  split
  · rfl
  · next hsignal => simpa using hsignal

theorem Attended.ended (hattended : job.Attended true closed phase) (result : Int) (cmCount : Nat) :
    (job.ended result cmCount).Attended false closed phase.roused where
  pending := (pending_ended ..).trans hattended.pending
  attended := by
    rw [Job.ended]
    split
    · exact hattended.attended
    · exact hattended.attended
  closing := (closing_ended ..).trans hattended.closing
  aborts hsignal := Bool.noConfusion ((signalInterrupt_ended job result cmCount).symm.trans hsignal)
  waits hout := Bool.noConfusion hout

theorem Attended.signalInterrupt (hattended : job.Attended true closed phase)
    (hwaits : ¬ phase.Aborts) : job.state.signalInterrupt = false := by
  by_contra hsignal
  exact hwaits (hattended.aborts (by simpa using hsignal))

theorem Attended.heard_ended (hattended : job.Attended true closed phase) (old cmCount : Nat)
    (result : Int) :
    (job.ended result cmCount).Heard old phase.roused ↔
      (closed = false → phase.Heeds old cmCount) := by
  have hended : ¬ phase.Aborts → job.ended result cmCount =
      ⟨{ job.state with abort := cmCount == 0 }, result, cmCount⟩ := by
    intro hwaits
    simp [Job.ended, hattended.signalInterrupt hwaits, (hattended.waits rfl).2.1]
  have hwoken : ¬ phase.Aborts → ((job.ended result cmCount).woken old = true ↔
      (closed = false → cmCount = 0 ∨ old < cmCount)) := by
    intro hwaits
    rw [hended hwaits]
    cases closed with
    | false => simp [woken, hattended.closing, or_comm]
    | true => simp [woken, hattended.closing]
  cases phase with
  | testing => exact hwoken id
  | asleep => exact hwoken id
  | signalled =>
      have hsame := hended id
      cases closed with
      | false => simp [Phase.roused, Heard, Phase.Heeds, hsame, hattended.closing]
      | true => simp [Phase.roused, Heard, Phase.Heeds, hsame, hattended.closing]
  | aborting => exact iff_of_true (signalInterrupt_ended job result cmCount) fun _ => trivial
  | abortAsleep => exact iff_of_true (signalInterrupt_ended job result cmCount) fun _ => trivial
  | finishing _ => exact iff_of_true trivial fun _ => trivial

end Job

namespace Place

variable {place : Place} {direction other : Direction} {old : Nat} {phase : Phase}

theorem wakeUp_inside (direction other : Direction) (old : Nat) (phase : Phase) :
    (Place.inside other old phase).wakeUp direction =
      .inside other old (if other = direction then phase.roused else phase) := by
  cases phase with
  | asleep => rfl
  | abortAsleep => rfl
  | testing => simp [wakeUp, Phase.roused]
  | signalled => simp [wakeUp, Phase.roused]
  | aborting => simp [wakeUp, Phase.roused]
  | finishing _ => simp [wakeUp, Phase.roused]

theorem wakeUp_eq_inside :
    place.wakeUp direction = .inside other old phase ↔
      ∃ before, place = .inside other old before ∧
        phase = if other = direction then before.roused else before := by
  cases place with
  | outside => simp [wakeUp]
  | closing release phase => simp [wakeUp]
  | inside side count before =>
      rw [wakeUp_inside]
      constructor
      · intro hsame
        cases hsame
        exact ⟨before, rfl, rfl⟩
      · intro hbefore
        obtain ⟨before, hplace, rfl⟩ := hbefore
        cases hplace
        rfl

theorem wakeUp_eq_closing {release : Bool} {at_ : ClosePhase} :
    place.wakeUp direction = .closing release at_ ↔ place = .closing release at_ := by
  cases place with
  | outside => simp [wakeUp]
  | closing release phase => simp [wakeUp]
  | inside side count before => simp [wakeUp_inside]

/-- Only a thread in `wait_event` tells the two wake-ups apart. -/
theorem wakeUpInterruptible_eq (hawake : ∀ old, place ≠ .inside direction old .abortAsleep) :
    place.wakeUpInterruptible direction = place.wakeUp direction := by
  cases place with
  | outside => rfl
  | closing _ _ => rfl
  | inside other old phase =>
      cases phase with
      | abortAsleep =>
          have hother : other ≠ direction := by
            intro hsame
            exact hawake old (by rw [hsame])
          simp [wakeUp, wakeUpInterruptible, hother]
      | testing => rfl
      | asleep => rfl
      | signalled => rfl
      | aborting => rfl
      | finishing _ => rfl

end Place

namespace CanOcb

def reported {Thread Message : Type*} (s : CanOcb Thread Message) (direction : Direction)
    (result : Int) (cmCount : Nat) : CanOcb Thread Message :=
  { s with
    job := update s.job direction ((s.job direction).ended result cmCount)
    outstanding := update s.outstanding direction false
    place := fun thread => (s.place thread).wakeUp direction }

namespace OcbInv

variable {Thread Message : Type*} {s next : CanOcb Thread Message} {direction : Direction}
  {thread : Thread} {old : Nat} {phase : Phase} {label : OcbStep Thread Message}
  {result : Int} {cmCount : Nat}

theorem inside_reported {other : Direction} :
    (s.reported direction result cmCount).Inside other thread old phase ↔
      ∃ before, s.Inside other thread old before ∧
        phase = if other = direction then before.roused else before :=
  Place.wakeUp_eq_inside

theorem sameBut_reported (s : CanOcb Thread Message) (direction : Direction) (result : Int)
    (cmCount : Nat) : SameBut s (s.reported direction result cmCount) direction where
  job _ hapart := update_of_ne hapart _ _
  outstanding _ hapart := update_of_ne hapart _ _
  inside other hapart thread old phase := by
    rw [inside_reported]
    simp [hapart]
  closed := rfl
  done := rfl
  freed := rfl
  released := rfl
  closing _ _ _ := Place.wakeUp_eq_closing

theorem attended_of_pending (hinv : OcbInv s) (hpending : (s.job direction).state.pending = true) :
    ∃ thread old phase, s.Inside direction thread old phase ∧
      ∀ other old phase, s.Inside direction other old phase → other = thread := by
  cases hinv.turn direction with
  | idle _ hstate => simp [hstate] at hpending
  | unattended _ _ hstate => simp [hstate] at hpending
  | occupied thread old phase hthere halone => exact ⟨thread, old, phase, hthere, halone⟩

theorem prompt_reported (hinv : OcbInv s) (hout : s.outstanding direction = true) (result : Int)
    (cmCount : Nat) :
    (s.reported direction result cmCount).Prompt direction ↔ s.Heeded direction cmCount := by
  have hjob : (s.reported direction result cmCount).job direction =
      (s.job direction).ended result cmCount := update_self ..
  have hnone : (s.reported direction result cmCount).outstanding direction = false :=
    update_self ..
  have hattended : ∀ {thread old phase}, s.Inside direction thread old phase →
      (s.job direction).Attended true s.handleClosed phase := by
    intro thread old phase hthere
    exact hout ▸ hinv.attended hthere
  constructor
  · intro hprompt thread old phase hthere
    have hhere := (hprompt thread old phase.roused
      (inside_reported.mpr ⟨phase, hthere, (if_pos rfl).symm⟩)).1 hnone
    rw [hjob] at hhere
    exact ((hattended hthere).heard_ended old cmCount result).mp hhere
  · intro hheeded thread old phase hthere
    obtain ⟨before, hbefore, rfl⟩ := inside_reported.mp hthere
    rw [if_pos rfl, hjob, hnone]
    refine ⟨fun _ => ?_, fun hstill => Bool.noConfusion hstill⟩
    exact ((hattended hbefore).heard_ended old cmCount result).mpr (hheeded _ _ _ hbefore)

theorem turn_reported (hinv : OcbInv s) (hout : s.outstanding direction = true)
    (hpending : (s.job direction).state.pending = true) :
    (s.reported direction result cmCount).Turn direction := by
  obtain ⟨thread, old, phase, hthere, halone⟩ := hinv.attended_of_pending hpending
  have hattended := hinv.attended hthere
  rw [hout] at hattended
  refine .occupied thread old phase.roused
    (inside_reported.mpr ⟨phase, hthere, (if_pos rfl).symm⟩) ?_ ?_
  · intro other count at_ hother
    obtain ⟨before, hbefore, -⟩ := inside_reported.mp hother
    exact halone _ _ _ hbefore
  · have hended := hattended.ended result cmCount
    simpa [reported] using hended

theorem keeps_reported (hinv : OcbInv s) (hout : s.outstanding direction = true)
    (hpending : (s.job direction).state.pending = true) (handed : List (List Message))
    (hconserved :
      ({ s.reported direction result cmCount with handed } : CanOcb Thread Message).Conserved)
    (hlabel : s.PromptStep direction label ↔ s.Heeded direction cmCount)
    (hother : direction ≠ .tx → s.PromptStep .tx label) :
    Keeps s { s.reported direction result cmCount with handed } label := by
  have hsame : SameBut s { s.reported direction result cmCount with handed } direction := by
    have hreported := sameBut_reported s direction result cmCount
    exact ⟨hreported.job, hreported.outstanding, hreported.inside, rfl, rfl, rfl, rfl,
      hreported.closing⟩
  have hnone : (s.reported direction result cmCount).outstanding direction = false :=
    update_self ..
  have hinside : ∀ {thread old phase},
      (s.reported direction result cmCount).Inside direction thread old phase →
        ∃ before, s.Inside direction thread old before := by
    intro thread old phase hthere
    obtain ⟨before, hbefore, -⟩ := inside_reported.mp hthere
    exact ⟨before, hbefore⟩
  have hprompt := hinv.prompt_reported hout result cmCount
  refine ⟨hinv.of_sameBut hsame ?_ ?_ (fun _ => hnone) ?_ ?_ hconserved, ?_⟩
  · exact (hinv.turn_reported hout hpending).congr rfl rfl rfl fun _ _ _ => Iff.rfl
  · have hclosing : ∀ other, ((s.reported direction result cmCount).job other).state.closing =
        (s.job other).state.closing := by
      intro other
      by_cases hother : other = direction
      · subst hother
        simp [reported]
      · rw [(sameBut_reported s direction result cmCount).job other hother]
    simp only [closeReady, hclosing]
    rfl
  · intro hgone thread old phase hthere
    obtain ⟨before, hbefore⟩ := hinside hthere
    exact hinv.released hgone _ _ _ _ hbefore
  · intro hrx
    subst hrx
    refine ⟨?_, hprompt.mpr (hlabel.mp (hinv.promptStep_rx label))⟩
    intro thread old phase hthere
    obtain ⟨before, hbefore⟩ := hinside hthere
    exact hinv.fromNone _ _ _ hbefore
  · intro hbefore
    by_cases htx : direction = .tx
    · subst htx
      exact hprompt.trans hlabel.symm
    · exact iff_of_true (hbefore.congr (hsame.job _ (Ne.symm htx))
        (hsame.outstanding _ (Ne.symm htx)) rfl (hsame.inside _ (Ne.symm htx))) (hother htx)

/-- Without `SIGNAL_INTERRUPT`, nobody is in `wait_event`. -/
theorem wakeUpInterruptible_eq (hinv : OcbInv s) (hout : s.outstanding direction = true)
    (hsignal : (s.job direction).state.signalInterrupt = false) :
    (fun thread => (s.place thread).wakeUpInterruptible direction) =
      fun thread => (s.place thread).wakeUp direction := by
  funext thread
  apply Place.wakeUpInterruptible_eq
  intro old hthere
  have haborts := ((hinv.attended hthere).waits hout).2.2 trivial
  exact Bool.noConfusion (hsignal.symm.trans haborts)

theorem unattended_of_pending (hinv : OcbInv s)
    (hpending : (s.job direction).state.pending = true) :
    (s.job direction).state.unattended = false := by
  obtain ⟨thread, old, phase, hthere, -⟩ := hinv.attended_of_pending hpending
  exact (hinv.attended hthere).attended

theorem esdcanTxDone_eq (hinv : OcbInv s) (hout : s.outstanding .tx = true)
    (hpending : (s.job .tx).state.pending = true) (result : Int) (cmCount : Nat) :
    (s.setOutstanding .tx false).esdcanTxDone result cmCount = s.reported .tx result cmCount := by
  have hunattended := hinv.unattended_of_pending hpending
  cases hsignal : (s.job .tx).state.signalInterrupt with
  | true => simp [esdcanTxDone, setOutstanding, setJob, wake, reported, Job.ended, hunattended, hsignal]
  | false =>
      have hwake := hinv.wakeUpInterruptible_eq hout hsignal
      simp [esdcanTxDone, setOutstanding, setJob, wake, reported, Job.ended, hunattended, hsignal,
        hpending, hwake]

theorem esdcanRxDone_eq (hinv : OcbInv s) (hout : s.outstanding .rx = true)
    (hpending : (s.job .rx).state.pending = true) (result : Int) (cmCount : Nat) :
    (s.setOutstanding .rx false).esdcanRxDone result cmCount =
      { s.reported .rx result cmCount with
        handed := s.handed ++ if s.putting = [] then [] else [s.putting] } := by
  have hunattended := hinv.unattended_of_pending hpending
  have hwake : (s.job .rx).state.signalInterrupt = false → _ :=
    hinv.wakeUpInterruptible_eq hout
  cases hsignal : (s.job .rx).state.signalInterrupt with
  | true =>
      by_cases hnone : s.putting = []
      · simp [esdcanRxDone, setOutstanding, setJob, wake, reported, Job.ended, hunattended, hsignal,
          hand, hnone]
      · simp [esdcanRxDone, setOutstanding, setJob, wake, reported, Job.ended, hunattended, hsignal,
          hand, hnone]
  | false =>
      by_cases hnone : s.putting = []
      · simp [esdcanRxDone, setOutstanding, setJob, wake, reported, Job.ended, hunattended, hsignal,
          hpending, hand, hnone, hwake hsignal]
      · simp [esdcanRxDone, setOutstanding, setJob, wake, reported, Job.ended, hunattended, hsignal,
          hpending, hand, hnone, hwake hsignal]

theorem closeDone_of_outstanding (hinv : OcbInv s) (hout : s.outstanding direction = true) :
    s.closeDone = false := by
  by_contra hdone
  exact Bool.noConfusion (hout.symm.trans (hinv.done (by simpa using hdone) direction))

theorem keeps_aloneEnded (hinv : OcbInv s) (hout : s.outstanding direction = true)
    (hnobody : ∀ who count at_, ¬ s.Inside direction who count at_) (job : Job)
    (hstate : job.state = {}) (hcount : s.handleClosed = false → job.cmCount = 0)
    (hconserved : ((s.setOutstanding direction false).setJob direction job).Conserved)
    (hlabel : s.PromptStep .tx label) :
    Keeps s ((s.setOutstanding direction false).setJob direction job) label := by
  have hsame : SameBut s ((s.setOutstanding direction false).setJob direction job) direction :=
    ⟨fun _ hapart => update_of_ne hapart _ _, fun _ hapart => update_of_ne hapart _ _,
      fun _ _ _ _ _ => Iff.rfl, rfl, rfl, rfl, rfl, fun _ _ _ => Iff.rfl⟩
  refine hinv.keeps_idle hsame (hinv.closeDone_of_outstanding hout) hnobody ?_ ?_ ?_ hconserved hlabel
  · simp only [setJob, update_self, hstate]
  · intro hstill
    simp [setJob, setOutstanding] at hstill
  · simp only [setJob, update_self]
    exact hcount

theorem txDone (hinv : OcbInv s) (hout : s.outstanding .tx = true) (result : Int) (cmCount : Nat) :
    Keeps s ((s.setOutstanding .tx false).esdcanTxDone result cmCount) (.txDone result cmCount) := by
  cases hpending : (s.job .tx).state.pending with
  | true =>
      rw [hinv.esdcanTxDone_eq hout hpending]
      refine hinv.keeps_reported hout hpending s.handed ?_ ?_ (fun hapart => absurd rfl hapart)
      · exact hinv.conserved.congr rfl rfl rfl rfl rfl rfl rfl rfl
      · exact forall_prop_of_true rfl
  | false =>
      have hconserved : ∀ job, ((s.setOutstanding .tx false).setJob .tx job).Conserved :=
        fun _ => hinv.conserved.congr rfl rfl rfl rfl rfl rfl rfl rfl
      have hlabel : (∀ who count at_, ¬ s.Inside .tx who count at_) →
          s.PromptStep .tx (.txDone result cmCount) :=
        fun hnobody _ _ _ _ hwho => absurd hwho (hnobody _ _ _)
      cases hinv.turn .tx with
      | occupied _ _ _ hthere => exact absurd hthere (hinv.outside_of_not_pending hpending)
      | unattended _ hnobody hstate =>
          have hended := hinv.keeps_aloneEnded hout hnobody ⟨{}, result, 0⟩ rfl (fun _ => rfl)
            (hconserved _) (hlabel hnobody)
          simpa [esdcanTxDone, setOutstanding, hstate] using hended
      | idle hnobody hstate _ hcount =>
          have hended := hinv.keeps_aloneEnded hout hnobody
            { s.job .tx with result } hstate hcount (hconserved _) (hlabel hnobody)
          simpa [esdcanTxDone, setOutstanding, hstate] using hended

theorem rxDone (hinv : OcbInv s) (hout : s.outstanding .rx = true) (result : Int) (cmCount : Nat)
    (hcount : cmCount = s.cmbufIn) :
    Keeps s ((s.setOutstanding .rx false).esdcanRxDone result cmCount) (.rxDone result cmCount) := by
  cases hpending : (s.job .rx).state.pending with
  | true =>
      have hnone : s.inFlight = [] := by simp [inFlight, hout]
      rw [hinv.esdcanRxDone_eq hout hpending]
      refine hinv.keeps_reported hout hpending _ ?_ (forall_prop_of_true rfl) fun _ => ?_
      · obtain ⟨hlength, hholds, -, given, hgiven, hpairs⟩ := hinv.conserved
        refine ⟨hlength, hholds, ?_, given, ?_, hpairs⟩
        · intro _ _
          simp [reported, hcount]
        · have hempty : cmCount = 0 ↔ s.putting = [] := by
            rw [hcount, hlength, List.length_eq_zero_iff]
          rw [hnone, List.append_nil] at hgiven
          simp [inFlight, reported, hpending, hgiven, hempty]
      · exact fun htx => by cases htx
  | false =>
      cases hinv.turn .rx with
      | occupied _ _ _ hthere => exact absurd hthere (hinv.outside_of_not_pending hpending)
      | unattended hdirection => cases hdirection
      | idle hnobody hstate hleft =>
          have hclosed : s.handleClosed = true := (hleft hout).resolve_left (by simp)
          have hended : Keeps s ((s.setOutstanding .rx false).setJob .rx
              { s.job .rx with result, cmCount }) (.rxDone result cmCount) := by
            refine hinv.keeps_aloneEnded hout hnobody _ hstate ?_ ?_ (fun htx => by cases htx)
            · exact fun hopen => Bool.noConfusion (hopen.symm.trans hclosed)
            · obtain ⟨hlength, hholds, -, given, hgiven, hpairs⟩ := hinv.conserved
              rw [inFlight_of_not_pending hpending] at hgiven
              refine ⟨hlength, hholds, ?_, given, ?_, hpairs⟩
              · simp [setJob, hpending]
              · rw [inFlight_of_not_pending (by simp [setJob, hpending])]
                exact hgiven
          simpa [esdcanRxDone, setOutstanding, hstate] using hended

theorem closeDone (hinv : OcbInv s) (hclosed : s.handleClosed = true) (hdone : s.closeDone = false)
    (hrx : s.outstanding .rx = false) (htx : s.outstanding .tx = false) :
    Keeps s s.esdcanCloseDone .closeDone := by
  have hready : s.closeReady = false := closeReady_of_not_done hdone
  refine hinv.keeps_aside ⟨rfl, rfl, rfl, fun _ _ _ _ => wakeUpClose_eq_inside⟩ ?_ ?_ hinv.released
    (hinv.conserved.congr rfl rfl rfl rfl rfl rfl rfl rfl) trivial
  · cases hinv.closing with
    | opened hopen => exact Bool.noConfusion (hopen.symm.trans hclosed)
    | closed _ _ hbefore => exact Bool.noConfusion (hready.symm.trans hbefore)
    | closing owner release phase _ hplace halone hfreed hreleased _ hfinishing =>
        refine .closing owner release .testing hclosed ?_ ?_ hfreed hreleased (by simp) (by simp)
        · cases phase with
          | testing => exact congrArg Place.wakeUpClose hplace
          | asleep => exact congrArg Place.wakeUpClose hplace
          | finishing => exact Bool.noConfusion (hready.symm.trans (hfinishing rfl))
        · intro other own at_ hother
          cases hbefore : s.place other with
          | outside => simp [esdcanCloseDone, wake, hbefore, Place.wakeUpClose] at hother
          | inside _ _ phase => simp [esdcanCloseDone, wake, hbefore, Place.wakeUpClose] at hother
          | closing _ _ => exact halone _ _ _ hbefore
  · intro _ direction
    cases direction with
    | rx => exact hrx
    | tx => exact htx

@[simp]
theorem cmCount_markClosing (job : Job) : (markClosing job).cmCount = job.cmCount := by
  rw [markClosing]
  split <;> rfl

@[simp]
theorem pending_markClosing (job : Job) : (markClosing job).state.pending = job.state.pending := by
  rw [markClosing]
  split <;> rfl

theorem markClosing_of_ne {job : Job} (hbusy : job.state ≠ {}) :
    markClosing job = { job with state := { job.state with closing := true } } :=
  if_neg hbusy

theorem heard_markClosing {job : Job} (hheard : job.Heard old phase) :
    (markClosing job).Heard old phase := by
  rw [markClosing]
  split
  · exact hheard
  · cases phase with
    | testing => simp [Job.Heard, Job.woken]
    | signalled => exact fun _ => .inr rfl
    | aborting => exact hheard
    | finishing _ => trivial
    | asleep => exact hheard.elim
    | abortAsleep => exact hheard.elim

variable [DecidableEq Thread]

/-- `close(2)` lets go of the handle, `IOCTL_ESDCAN_DESTROY` does not. -/
theorem ocbDestroy (hinv : OcbInv s) (hopen : s.handleClosed = false)
    (hthere : s.place thread = .outside) (release : Bool)
    (hreleased : release = true →
      ∀ direction thread old phase, ¬ s.Inside direction thread old phase)
    (hlabel : s.PromptStep .tx label) :
    Keeps s (({ s with released := release } : CanOcb Thread Message).ocbDestroy thread release)
      label := by
  have hinside : ∀ direction who old phase,
      (({ s with released := release } : CanOcb Thread Message).ocbDestroy thread release).Inside
        direction who old phase ↔ s.Inside direction who old phase := by
    intro direction
    refine inside_goto_other ?_ (by simp)
    intro old phase hinside
    cases hthere.symm.trans hinside
  have hprompt : ∀ direction, s.Prompt direction →
      (({ s with released := release } : CanOcb Thread Message).ocbDestroy thread release).Prompt
        direction := by
    intro direction hbefore who old phase hwho
    refine ⟨fun hout => ?_, fun _ _ => rfl⟩
    exact heard_markClosing ((hbefore _ _ _ ((hinside _ _ _ _).mp hwho)).1 hout)
  refine ⟨⟨?_, ?_, hinv.done, ?_, ?_, hprompt .rx hinv.prompt, ?_⟩, ?_⟩
  · intro direction
    cases hinv.turn direction with
    | idle houtside hstate =>
        refine .idle ?_ ((congrArg Job.state (if_pos hstate)).trans hstate) (fun _ => .inr rfl) ?_
        · exact fun who old phase hwho => houtside _ _ _ ((hinside _ _ _ _).mp hwho)
        · exact fun hstill => Bool.noConfusion hstill
    | unattended hdirection houtside hstate hout hcount =>
        refine .unattended hdirection ?_ ?_ hout ((cmCount_markClosing _).trans hcount)
        · exact fun who old phase hwho => houtside _ _ _ ((hinside _ _ _ _).mp hwho)
        · have hbusy : (s.job direction).state ≠ {} := by simp [hstate]
          exact (congrArg Job.state (markClosing_of_ne hbusy)).trans (by rw [hstate]; rfl)
    | occupied owner old phase howner halone hattended =>
        refine .occupied owner old phase ((hinside _ _ _ _).mpr howner) ?_ ?_
        · exact fun who count at_ hwho => halone _ _ _ ((hinside _ _ _ _).mp hwho)
        · have hbusy : (s.job direction).state ≠ {} := by
            intro hnone
            have hpending := hattended.pending
            simp [hnone] at hpending
          have hjob : (({ s with released := release } : CanOcb Thread Message).ocbDestroy thread
              release).job direction = _ := markClosing_of_ne hbusy
          rw [hjob]
          exact ⟨hattended.pending, hattended.attended, rfl, hattended.aborts, hattended.waits⟩
  · cases hinv.closing with
    | closing _ _ _ hclosed => exact Bool.noConfusion (hopen.symm.trans hclosed)
    | closed hclosed => exact Bool.noConfusion (hopen.symm.trans hclosed)
    | opened _ hnobody _ hfreed =>
        refine .closing thread release .testing rfl ((closing_goto ..).mpr (.inl ⟨rfl, rfl⟩)) ?_
          hfreed rfl (by simp) (by simp)
        intro other own at_ hother
        rcases (closing_goto ..).mp hother with ⟨hsame, -⟩ | ⟨-, hbefore⟩
        · exact hsame
        · exact absurd hbefore (hnobody _ _ _)
  · exact fun hgone direction who old phase hwho =>
      hreleased hgone _ _ _ _ ((hinside _ _ _ _).mp hwho)
  · exact fun who old phase hwho => hinv.fromNone _ _ _ ((hinside _ _ _ _).mp hwho)
  · exact hinv.conserved.congr rfl rfl rfl rfl rfl (pending_markClosing _) (cmCount_markClosing _) rfl
  · exact fun hbefore => iff_of_true (hprompt .tx hbefore) hlabel

theorem destroy (hinv : OcbInv s) (hthere : s.place thread = .outside) (hheld : s.released = false) :
    Keeps s (if s.handleClosed then s.fail thread .invalidHandle else s.ocbDestroy thread false)
      (.destroy thread) := by
  split
  · exact hinv.keeps_back rfl trivial
  · next hopen =>
      have hsame : ({ s with released := false } : CanOcb Thread Message) = s := by rw [← hheld]
      have hdestroyed : Keeps s _ (.destroy thread) :=
        hinv.ocbDestroy (by simpa using hopen) hthere false (fun hgone => Bool.noConfusion hgone) trivial
      rw [hsame] at hdestroyed
      exact hdestroyed

theorem release (hinv : OcbInv s) (houtside : ∀ who, s.place who = .outside) :
    Keeps s (s.release thread) (.release thread) := by
  have hnobody : ∀ direction who count at_, ¬ s.Inside direction who count at_ := by
    intro direction who count at_ hwho
    cases (houtside who).symm.trans hwho
  rw [CanOcb.release]
  dsimp only
  split
  · next hclosed =>
      refine hinv.keeps_aside ⟨rfl, rfl, rfl, fun _ _ _ _ => Iff.rfl⟩ ?_ hinv.done (fun _ => hnobody)
        (hinv.conserved.congr rfl rfl rfl rfl rfl rfl rfl rfl) trivial
      cases hinv.closing with
      | opened hopen => exact Bool.noConfusion (hopen.symm.trans hclosed)
      | closing owner _ _ _ howner => cases (houtside owner).symm.trans howner
      | closed _ hnone hready => exact .closed hclosed hnone hready rfl
  · next hopen =>
      exact hinv.ocbDestroy (by simpa using hopen) (houtside thread) true (fun _ => hnobody) trivial

/-- `ocb_destroy` returns, and `esdcan_release` frees the handle. -/
theorem leave (hinv : OcbInv s) {own : Bool} (hthere : s.place thread = .closing own .finishing)
    (hfreed : next.freed = own) (hsame : next.place = update s.place thread .outside)
    (hjob : next.job = s.job) (hout : next.outstanding = s.outstanding)
    (hclosed : next.handleClosed = s.handleClosed) (hdone : next.closeDone = s.closeDone)
    (hreleased : next.released = s.released) (hconserved : next.Conserved)
    (hlabel : s.PromptStep .tx label) : Keeps s next label := by
  have hinside : ∀ direction who old phase,
      next.Inside direction who old phase ↔ s.Inside direction who old phase := by
    intro direction who old phase
    rw [Inside, hsame]
    refine inside_goto_other ?_ (by simp) who old phase
    intro old phase hinside
    cases hthere.symm.trans hinside
  refine hinv.keeps_aside ⟨hjob, hout, hclosed, hinside⟩ ?_ ?_ ?_ hconserved hlabel
  · cases hinv.closing with
    | opened _ hnobody => exact absurd hthere (hnobody _ _ _)
    | closed _ hnobody => exact absurd hthere (hnobody _ _ _)
    | closing owner release phase hshut howner halone _ hrelease _ hready =>
        obtain rfl := halone _ _ _ hthere
        cases hthere.symm.trans howner
        refine .closed (hclosed.trans hshut) ?_ ?_ ?_
        · intro other own at_ hother
          rw [hsame] at hother
          rcases (closing_goto ..).mp hother with ⟨-, hplace⟩ | ⟨hapart, hbefore⟩
          · cases hplace
          · exact hapart (halone _ _ _ hbefore)
        · rw [closeReady, hdone, hjob]
          exact hready rfl
        · rw [hfreed, hreleased, hrelease]
  · rw [hdone, hout]
    exact hinv.done
  · rw [hreleased]
    exact hinv.released

theorem finishThread (hinv : OcbInv s) (hfinishes : (s.place thread).finishes = true)
    (copied : Bool) :
    ∃ next, s.finishThread thread copied = some next ∧ Keeps s next (.finish thread copied) := by
  have hconserved := hinv.conserved
  cases hplace : s.place thread with
  | outside => simp [hplace, Place.finishes] at hfinishes
  | inside direction old phase =>
      cases phase with
      | finishing interruptedBySignal =>
          refine ⟨_, by simp only [CanOcb.finishThread, hplace]; rfl, ?_⟩
          exact hinv.finish copied hplace
      | testing => simp [hplace, Place.finishes] at hfinishes
      | asleep => simp [hplace, Place.finishes] at hfinishes
      | signalled => simp [hplace, Place.finishes] at hfinishes
      | aborting => simp [hplace, Place.finishes] at hfinishes
      | abortAsleep => simp [hplace, Place.finishes] at hfinishes
  | closing release phase =>
      cases phase with
      | finishing =>
          cases release with
          | true =>
              refine ⟨_, by simp only [CanOcb.finishThread, hplace]; rfl, ?_⟩
              exact hinv.leave hplace rfl rfl rfl rfl rfl rfl rfl
                (hconserved.congr rfl rfl rfl rfl rfl rfl rfl rfl) trivial
          | false =>
              have hlive : s.freed = false := by
                cases hinv.closing with
                | opened _ hnobody => exact absurd hplace (hnobody _ _ _)
                | closed _ hnobody => exact absurd hplace (hnobody _ _ _)
                | closing _ _ _ _ _ _ hfreed => exact hfreed
              refine ⟨_, by simp only [CanOcb.finishThread, hplace]; rfl, ?_⟩
              exact hinv.leave hplace hlive rfl rfl rfl rfl rfl rfl
                (hconserved.congr rfl rfl rfl rfl
                  (filterMap_back (s.goto thread .outside) thread rfl) rfl rfl rfl) trivial
      | testing => simp [hplace, Place.finishes] at hfinishes
      | asleep => simp [hplace, Place.finishes] at hfinishes

omit [DecidableEq Thread] in
theorem freed (hinv : OcbInv s) (hfreed : s.freed = true) :
    s.released = true ∧ s.closeDone = true ∧ ∀ thread, s.place thread = .outside := by
  cases hinv.closing with
  | opened _ _ _ hlive => exact Bool.noConfusion (hlive.symm.trans hfreed)
  | closing _ _ _ _ _ _ hlive => exact Bool.noConfusion (hlive.symm.trans hfreed)
  | closed _ hnobody hready hsame =>
      have hgone : s.released = true := hsame.symm.trans hfreed
      refine ⟨hgone, ?_, ?_⟩
      · simp only [closeReady, Bool.and_eq_true] at hready
        exact hready.1.1
      · intro thread
        cases hplace : s.place thread with
        | outside => rfl
        | inside direction old phase =>
            exact absurd hplace (hinv.released hgone direction thread old phase)
        | closing release phase => exact absurd hplace (hnobody thread release phase)

omit [DecidableEq Thread] in
theorem not_freed (hinv : OcbInv s) (hdue : s.Due label) : s.freed = false := by
  by_contra hlive
  rw [Bool.not_eq_false] at hlive
  obtain ⟨hgone, hdone, houtside⟩ := hinv.freed hlive
  have hnone : ∀ direction, s.outstanding direction = false := hinv.done hdone
  cases label with
  | read thread answer => exact Bool.noConfusion (hgone.symm.trans hdue.2)
  | take thread answer copied => exact Bool.noConfusion (hgone.symm.trans hdue.2)
  | write thread cmCount oldJob answer => exact Bool.noConfusion (hgone.symm.trans hdue.2)
  | send thread answer => exact Bool.noConfusion (hgone.symm.trans hdue.2)
  | destroy thread => exact Bool.noConfusion (hgone.symm.trans hdue.2)
  | release thread => exact Bool.noConfusion (hgone.symm.trans hdue.1)
  | test thread => simp [Due, houtside, Place.tests] at hdue
  | stir thread => simp [Due, houtside, Place.sleeps] at hdue
  | signal thread => simp [Due, houtside, Place.interruptible] at hdue
  | abort thread => simp [Due, houtside, Place.signalled] at hdue
  | finish thread copied => simp [Due, houtside, Place.finishes] at hdue
  | rxPut frame => exact Bool.noConfusion ((hnone .rx).symm.trans hdue)
  | rxDone result cmCount => exact Bool.noConfusion ((hnone .rx).symm.trans hdue.1)
  | txDone result cmCount => exact Bool.noConfusion ((hnone .tx).symm.trans hdue)
  | closeDone => exact Bool.noConfusion (hdone.symm.trans hdue.2.1)

theorem step (hinv : OcbInv s) (hdue : s.Due label) :
    ∃ next, s.step label = some next ∧ Keeps s next label := by
  have hlive := hinv.not_freed hdue
  have htaken : ∀ next : CanOcb Thread Message, Keeps s next label →
      s.step label = some next → ∃ next, s.step label = some next ∧ Keeps s next label :=
    fun next hkeeps hstep => ⟨next, hstep, hkeeps⟩
  cases label with
  | read thread answer => exact htaken _ (hinv.read hdue.1 hdue.2 answer) (by simp [CanOcb.step, hlive])
  | take thread answer copied => exact htaken _ (hinv.take answer copied) (by simp [CanOcb.step, hlive])
  | write thread cmCount oldJob answer =>
      exact htaken _ (hinv.write hdue.1 hdue.2 cmCount oldJob answer) (by simp [CanOcb.step, hlive])
  | send thread answer => exact htaken _ (hinv.send answer) (by simp [CanOcb.step, hlive])
  | destroy thread => exact htaken _ (hinv.destroy hdue.1 hdue.2) (by simp [CanOcb.step, hlive])
  | release thread => exact htaken _ (hinv.release hdue.2) (by simp [CanOcb.step, hlive])
  | test thread => simpa [CanOcb.step, hlive] using hinv.test hdue
  | stir thread => simpa [CanOcb.step, hlive] using hinv.stir hdue
  | signal thread => simpa [CanOcb.step, hlive] using hinv.signal hdue
  | finish thread copied => simpa [CanOcb.step, hlive] using hinv.finishThread hdue copied
  | abort thread =>
      have hsignalled : (s.place thread).signalled = true := hdue
      cases hplace : s.place thread with
      | outside => simp [hplace, Place.signalled] at hsignalled
      | closing release phase => simp [hplace, Place.signalled] at hsignalled
      | inside direction old phase =>
          cases phase with
          | signalled => exact htaken _ (hinv.interrupt hplace) (by simp [CanOcb.step, hlive, hplace])
          | testing => simp [hplace, Place.signalled] at hsignalled
          | asleep => simp [hplace, Place.signalled] at hsignalled
          | aborting => simp [hplace, Place.signalled] at hsignalled
          | abortAsleep => simp [hplace, Place.signalled] at hsignalled
          | finishing _ => simp [hplace, Place.signalled] at hsignalled
  | rxPut frame => exact htaken _ (hinv.rxPut hdue frame) (by simp [CanOcb.step, hlive])
  | rxDone result cmCount =>
      exact htaken _ (hinv.rxDone hdue.1 result cmCount hdue.2) (by simp [CanOcb.step, hlive])
  | txDone result cmCount =>
      exact htaken _ (hinv.txDone hdue result cmCount) (by simp [CanOcb.step, hlive])
  | closeDone =>
      obtain ⟨hclosed, hdone, hrx, htx⟩ := hdue
      exact htaken _ (hinv.closeDone hclosed hdone hrx htx) (by simp [CanOcb.step, hlive])

end OcbInv

end CanOcb

end ApolloContrib.Esd
