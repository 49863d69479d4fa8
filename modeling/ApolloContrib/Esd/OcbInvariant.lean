import ApolloContrib.Esd.Ocb

namespace ApolloContrib.Esd

open Function

/-! What holds of a handle whatever its threads do: one thread at a time reads and one writes, the
bits say who, and the frames of a job wait in `cmbuf` for the read that asked for them. -/

def Phase.Aborts : Phase → Prop
  | .aborting | .abortAsleep => True
  | _ => False

def Phase.Finishes : Phase → Prop
  | .finishing _ => True
  | _ => False

def Phase.Heeds (old cmCount : Nat) : Phase → Prop
  | .testing | .asleep => cmCount = 0 ∨ old < cmCount
  | .signalled => cmCount = old → cmCount = 0
  | .aborting | .abortAsleep | .finishing _ => True

def Job.Heard (job : Job) (old : Nat) : Phase → Prop
  | .testing => job.woken old = true
  | .signalled => job.cmCount = old → job.state.abort = true ∨ job.state.closing = true
  | .aborting => job.state.signalInterrupt = false
  | .finishing _ => True
  | .asleep | .abortAsleep => False

/-- The bits while a call waits for the job, or is about to return. -/
structure Job.Attended (job : Job) (outstanding closed : Bool) (phase : Phase) : Prop where
  pending : job.state.pending = true
  attended : job.state.unattended = false
  closing : job.state.closing = closed
  aborts : job.state.signalInterrupt = true → phase.Aborts
  waits : outstanding = true →
    job.cmCount = 0 ∧ job.state.abort = false ∧ (phase.Aborts → job.state.signalInterrupt = true)

/-- What a read or a take brings to the user: frames, or nothing where the copy fails. -/
def Return.brought {Message : Type*} : Return Message → Option (Option (List Message))
  | .frames got => some (some got)
  | .failed .efault => some none
  | _ => none

namespace CanOcb

variable {Thread Message : Type*} (s : CanOcb Thread Message)

def Inside (direction : Direction) (thread : Thread) (old : Nat) (phase : Phase) : Prop :=
  s.place thread = .inside direction old phase

/-- Whose turn it is. A write can leave its job behind, a read only on a closed handle. -/
inductive Turn (direction : Direction) : Prop
  | idle (houtside : ∀ thread old phase, ¬ s.Inside direction thread old phase)
      (hstate : (s.job direction).state = {})
      (hleft : s.outstanding direction = true → direction = .tx ∨ s.handleClosed = true)
      (hcount : s.handleClosed = false → (s.job direction).cmCount = 0)
  | unattended (hdirection : direction = .tx)
      (houtside : ∀ thread old phase, ¬ s.Inside direction thread old phase)
      (hstate : (s.job direction).state = { unattended := true, closing := s.handleClosed })
      (hjob : s.outstanding direction = true) (hcount : (s.job direction).cmCount = 0)
  | occupied (thread : Thread) (old : Nat) (phase : Phase)
      (hinside : s.Inside direction thread old phase)
      (halone : ∀ other old phase, s.Inside direction other old phase → other = thread)
      (hattended : (s.job direction).Attended (s.outstanding direction) s.handleClosed phase)

inductive Closing : Prop
  | opened (hclosed : s.handleClosed = false)
      (hnobody : ∀ thread release phase, s.place thread ≠ .closing release phase)
      (hdone : s.closeDone = false) (hfreed : s.freed = false) (hreleased : s.released = false)
  | closing (thread : Thread) (release : Bool) (phase : ClosePhase) (hclosed : s.handleClosed = true)
      (hplace : s.place thread = .closing release phase)
      (halone : ∀ other release phase, s.place other = .closing release phase → other = thread)
      (hfreed : s.freed = false) (hreleased : s.released = release)
      (hasleep : phase = .asleep → s.closeReady = false)
      (hfinishing : phase = .finishing → s.closeReady = true)
  | closed (hclosed : s.handleClosed = true)
      (hnobody : ∀ thread release phase, s.place thread ≠ .closing release phase)
      (hready : s.closeReady = true) (hfreed : s.freed = s.released)

/-- Every call whose job has ended gets to its end, and none leaves its job on an open handle. -/
def Prompt (direction : Direction) : Prop :=
  ∀ thread old phase, s.Inside direction thread old phase →
    (s.outstanding direction = false → (s.job direction).Heard old phase) ∧
      (s.outstanding direction = true → phase.Finishes → s.handleClosed = true)

/-- The end of a job of `cmCount` frames reaches the call that waits for it. -/
def Heeded (direction : Direction) (cmCount : Nat) : Prop :=
  ∀ thread old phase, s.Inside direction thread old phase → s.handleClosed = false →
    phase.Heeds old cmCount

/-- What else `Prompt` asks of a step. -/
def PromptStep (direction : Direction) : OcbStep Thread Message → Prop
  | .abort thread => ∀ old, s.Inside direction thread old .signalled →
      s.outstanding direction = true → s.handleClosed = true ∨ old = 0
  | .rxDone _ cmCount => direction = .rx → s.Heeded .rx cmCount
  | .txDone _ cmCount => direction = .tx → s.Heeded .tx cmCount
  | _ => True

instance (old cmCount : Nat) : DecidablePred (Phase.Heeds old cmCount)
  | .testing | .asleep => inferInstanceAs (Decidable (_ ∨ _))
  | .signalled => inferInstanceAs (Decidable (_ → _))
  | .aborting | .abortAsleep | .finishing _ => inferInstanceAs (Decidable True)

theorem forall_inside_iff {P : Nat → Phase → Prop} (direction : Direction) (thread : Thread) :
    (∀ old phase, s.Inside direction thread old phase → P old phase) ↔
      match s.place thread with
      | .inside other old phase => other = direction → P old phase
      | _ => True := by
  unfold Inside
  cases s.place thread with
  | outside => simp
  | closing release phase => simp
  | inside other old phase =>
      constructor
      · intro hall hsame
        exact hall old phase (by rw [hsame])
      · intro hhere count at_ hplace
        cases hplace
        exact hhere rfl

instance (direction : Direction) (thread : Thread) {P : Nat → Phase → Prop}
    [∀ old phase, Decidable (P old phase)] :
    Decidable (∀ old phase, s.Inside direction thread old phase → P old phase) :=
  match hplace : s.place thread with
  | .inside other old phase =>
      decidable_of_iff (other = direction → P old phase) (by rw [forall_inside_iff, hplace])
  | .outside => isTrue (by rw [forall_inside_iff, hplace]; trivial)
  | .closing _ _ => isTrue (by rw [forall_inside_iff, hplace]; trivial)

instance [Fintype Thread] (direction : Direction) (cmCount : Nat) :
    Decidable (s.Heeded direction cmCount) :=
  inferInstanceAs (Decidable (∀ thread, ∀ old phase, s.Inside direction thread old phase →
    (s.handleClosed = false → phase.Heeds old cmCount)))

instance [Fintype Thread] (direction : Direction) (label : OcbStep Thread Message) :
    Decidable (s.PromptStep direction label) :=
  match label with
  | .abort thread =>
      decidable_of_iff (∀ old phase, s.Inside direction thread old phase → phase = .signalled →
          s.outstanding direction = true → s.handleClosed = true ∨ old = 0)
        ⟨fun hall old hthere => hall old _ hthere rfl,
          fun hall old _ hthere hphase => hall old (hphase ▸ hthere)⟩
  | .rxDone _ _ | .txDone _ _ => inferInstanceAs (Decidable (_ → _))
  | .read _ _ | .take _ _ _ | .write _ _ _ _ | .send _ _ | .test _ | .stir _ | .signal _
  | .finish _ _ | .destroy _ | .release _ | .rxPut _ | .closeDone => inferInstanceAs (Decidable True)

/-- The frames of a job that has ended, while its read is under way. -/
def inFlight : List (List Message) :=
  if (s.job .rx).state.pending = true ∧ s.outstanding .rx = false ∧ (s.job .rx).cmCount ≠ 0 then
    [s.putting]
  else []

/-- Each job's frames were brought to the user by one call, in the order of the jobs, but for
those of the read under way. -/
structure Conserved : Prop where
  length : s.cmbufIn = s.putting.length
  holds : s.frames s.cmbufIn = s.putting
  counted : s.outstanding .rx = false → (s.job .rx).state.pending = true →
    (s.job .rx).cmCount = s.cmbufIn
  given : ∃ given, s.handed = given ++ s.inFlight ∧
    List.Forall₂ (fun frames brought => brought = some frames ∨ brought = none) given
      (s.returned.filterMap fun entry => entry.2.brought)

structure OcbInv : Prop where
  turn : ∀ direction, s.Turn direction
  closing : s.Closing
  done : s.closeDone = true → ∀ direction, s.outstanding direction = false
  released : s.released = true →
    ∀ direction thread old phase, ¬ s.Inside direction thread old phase
  fromNone : ∀ thread old phase, s.Inside .rx thread old phase → old = 0
  prompt : s.Prompt .rx
  conserved : s.Conserved

theorem OcbInv.opened : OcbInv (CanOcb.opened : CanOcb Thread Message) where
  turn direction := .idle (by simp [Inside, CanOcb.opened]) rfl (by simp [CanOcb.opened])
    fun _ => rfl
  closing := .opened rfl (by simp [CanOcb.opened]) rfl rfl rfl
  done := by simp [CanOcb.opened]
  released := by simp [CanOcb.opened]
  fromNone := by simp [Inside, CanOcb.opened]
  prompt := by simp [Prompt, Inside, CanOcb.opened]
  conserved := ⟨rfl, rfl, by simp [CanOcb.opened], [], rfl, .nil⟩

variable {s} {next : CanOcb Thread Message}

theorem Turn.congr {direction : Direction} (hturn : s.Turn direction)
    (hjob : next.job direction = s.job direction)
    (houtstanding : next.outstanding direction = s.outstanding direction)
    (hclosed : next.handleClosed = s.handleClosed)
    (hinside : ∀ thread old phase,
      next.Inside direction thread old phase ↔ s.Inside direction thread old phase) :
    next.Turn direction := by
  cases hturn with
  | idle houtside hstate hleft hcount =>
      refine .idle ?_ (hjob ▸ hstate) (by rwa [houtstanding, hclosed]) (by rwa [hjob, hclosed])
      intro thread old phase hthere
      exact houtside thread old phase ((hinside _ _ _).mp hthere)
  | unattended hdirection houtside hstate hout hcount =>
      refine .unattended hdirection ?_ (by rw [hjob, hclosed, hstate]) (houtstanding ▸ hout)
        (hjob ▸ hcount)
      intro thread old phase hthere
      exact houtside thread old phase ((hinside _ _ _).mp hthere)
  | occupied thread old phase hthere halone hattended =>
      refine .occupied thread old phase ((hinside _ _ _).mpr hthere) ?_
        (by rwa [hjob, houtstanding, hclosed])
      intro other old phase hother
      exact halone other old phase ((hinside _ _ _).mp hother)

theorem Turn.same {direction : Direction} (hturn : s.Turn direction) {thread other : Thread}
    {old count : Nat} {phase at_ : Phase} (hthere : s.Inside direction thread old phase)
    (hother : s.Inside direction other count at_) : other = thread := by
  cases hturn with
  | idle houtside => exact absurd hthere (houtside _ _ _)
  | unattended _ houtside => exact absurd hthere (houtside _ _ _)
  | occupied _ _ _ _ halone => exact (halone _ _ _ hother).trans (halone _ _ _ hthere).symm

theorem Prompt.congr {direction : Direction} (hprompt : s.Prompt direction)
    (hjob : next.job direction = s.job direction)
    (houtstanding : next.outstanding direction = s.outstanding direction)
    (hclosed : next.handleClosed = s.handleClosed)
    (hinside : ∀ thread old phase,
      next.Inside direction thread old phase ↔ s.Inside direction thread old phase) :
    next.Prompt direction := by
  intro thread old phase hthere
  rw [hjob, houtstanding, hclosed]
  exact hprompt thread old phase ((hinside _ _ _).mp hthere)

theorem Closing.congr (hclosing : s.Closing) (hclosed : next.handleClosed = s.handleClosed)
    (hdone : next.closeDone = s.closeDone) (hfreed : next.freed = s.freed)
    (hreleased : next.released = s.released) (hready : next.closeReady = s.closeReady)
    (hplace : ∀ thread release phase,
      next.place thread = .closing release phase ↔ s.place thread = .closing release phase) :
    next.Closing := by
  cases hclosing with
  | opened hopen hnobody hnot hlive hkept =>
      refine .opened (hclosed ▸ hopen) ?_ (hdone ▸ hnot) (hfreed ▸ hlive) (hreleased ▸ hkept)
      intro thread release phase hthere
      exact hnobody thread release phase ((hplace _ _ _).mp hthere)
  | closing thread release phase hshut hthere halone hlive hkept hasleep hfinishing =>
      refine .closing thread release phase (hclosed ▸ hshut) ((hplace _ _ _).mpr hthere) ?_
        (hfreed ▸ hlive) (hreleased ▸ hkept) (by rwa [hready]) (by rwa [hready])
      intro other release phase hother
      exact halone other release phase ((hplace _ _ _).mp hother)
  | closed hshut hnobody hreadied hlive =>
      refine .closed (hclosed ▸ hshut) ?_ (hready ▸ hreadied) (by rw [hfreed, hreleased, hlive])
      intro thread release phase hthere
      exact hnobody thread release phase ((hplace _ _ _).mp hthere)

theorem Conserved.congr (hconserved : s.Conserved) (hcmbuf : next.cmbuf = s.cmbuf)
    (hcmbufIn : next.cmbufIn = s.cmbufIn) (hputting : next.putting = s.putting)
    (hhanded : next.handed = s.handed)
    (hreturned : (next.returned.filterMap fun entry => entry.2.brought) =
      s.returned.filterMap fun entry => entry.2.brought)
    (hpending : (next.job .rx).state.pending = (s.job .rx).state.pending)
    (hcount : (next.job .rx).cmCount = (s.job .rx).cmCount)
    (houtstanding : next.outstanding .rx = s.outstanding .rx) : next.Conserved := by
  obtain ⟨hlength, hholds, hcounted, given, hgiven, hbrought⟩ := hconserved
  refine ⟨by rw [hcmbufIn, hputting, hlength], ?_, ?_, given, ?_, by rwa [hreturned]⟩
  · rw [hcmbufIn, hputting, ← hholds, frames, frames, hcmbuf]
  · rwa [houtstanding, hpending, hcount, hcmbufIn]
  · rw [hhanded, hgiven, inFlight, inFlight, hpending, houtstanding, hcount, hputting]

theorem Conserved.brought (hconserved : s.Conserved) {thread : Thread} {answer : Return Message}
    (hpending : (next.job .rx).state.pending = false) (hcmbuf : next.cmbuf = s.cmbuf)
    (hcmbufIn : next.cmbufIn = s.cmbufIn) (hputting : next.putting = s.putting)
    (hhanded : next.handed = s.handed) (hreturned : next.returned = s.returned ++ [(thread, answer)])
    (hbrought : (s.inFlight = [] ∧ answer.brought = none) ∨
      (s.inFlight = [s.putting] ∧
        (answer.brought = some (some s.putting) ∨ answer.brought = some none))) :
    next.Conserved := by
  obtain ⟨hlength, hholds, -, given, hgiven, hpairs⟩ := hconserved
  have hnone : next.inFlight = [] := by simp [inFlight, hpending]
  refine ⟨by rw [hcmbufIn, hputting, hlength], ?_, by simp [hpending], ?_⟩
  · rw [hcmbufIn, hputting, ← hholds, frames, frames, hcmbuf]
  · rw [hhanded, hreturned, hnone, hgiven]
    simp only [List.append_nil, List.filterMap_append, List.filterMap_cons, List.filterMap_nil]
    rcases hbrought with ⟨hflight, hanswer⟩ | ⟨hflight, hanswer⟩
    · refine ⟨given, by simp [hflight], ?_⟩
      simpa [hanswer] using hpairs
    · refine ⟨given ++ [s.putting], by rw [hflight], ?_⟩
      rcases hanswer with hanswer | hanswer
      · rw [hanswer]
        exact List.rel_append hpairs (.cons (.inl rfl) .nil)
      · rw [hanswer]
        exact List.rel_append hpairs (.cons (.inr rfl) .nil)

structure SameBut (s next : CanOcb Thread Message) (direction : Direction) : Prop where
  job : ∀ other, other ≠ direction → next.job other = s.job other
  outstanding : ∀ other, other ≠ direction → next.outstanding other = s.outstanding other
  inside : ∀ other, other ≠ direction → ∀ thread old phase,
    next.Inside other thread old phase ↔ s.Inside other thread old phase
  closed : next.handleClosed = s.handleClosed
  done : next.closeDone = s.closeDone
  freed : next.freed = s.freed
  released : next.released = s.released
  closing : ∀ thread release phase,
    next.place thread = .closing release phase ↔ s.place thread = .closing release phase

variable [DecidableEq Thread]

theorem inside_goto (s : CanOcb Thread Message) (thread other : Thread) (place : Place)
    (direction : Direction) (old : Nat) (phase : Phase) :
    (s.goto thread place).Inside direction other old phase ↔
      (other = thread ∧ place = .inside direction old phase) ∨
        (other ≠ thread ∧ s.Inside direction other old phase) := by
  by_cases hsame : other = thread
  · subst hsame
    simp [Inside, goto]
  · simp [Inside, goto, hsame]

theorem closing_goto (s : CanOcb Thread Message) (thread other : Thread) (place : Place)
    (release : Bool) (phase : ClosePhase) :
    (s.goto thread place).place other = .closing release phase ↔
      (other = thread ∧ place = .closing release phase) ∨
        (other ≠ thread ∧ s.place other = .closing release phase) := by
  by_cases hsame : other = thread
  · subst hsame
    simp [goto]
  · simp [goto, hsame]

/-- The thread goes on inside its call, and may ask for a last callback. -/
def moved (s : CanOcb Thread Message) (direction : Direction) (thread : Thread) (old : Nat)
    (phase : Phase) (signalInterrupt : Bool) : CanOcb Thread Message :=
  (s.setJob direction { s.job direction with
    state := { (s.job direction).state with signalInterrupt } }).goto thread
      (.inside direction old phase)

theorem goto_eq_moved (s : CanOcb Thread Message) (direction : Direction) (thread : Thread)
    (old : Nat) (phase : Phase) :
    s.goto thread (.inside direction old phase) =
      moved s direction thread old phase (s.job direction).state.signalInterrupt := by
  simp [moved, setJob]

variable {direction : Direction} {thread : Thread} {old : Nat} {phase : Phase}

theorem job_moved (s : CanOcb Thread Message) (direction other : Direction) (thread : Thread)
    (old : Nat) (phase : Phase) (signalInterrupt : Bool) :
    (moved s direction thread old phase signalInterrupt).job other =
      { s.job other with state := { (s.job other).state with
        signalInterrupt :=
          if other = direction then signalInterrupt else (s.job other).state.signalInterrupt } } := by
  by_cases hsame : other = direction
  · subst hsame
    simp [moved, setJob, goto]
  · simp [moved, setJob, goto, hsame]

theorem inside_goto_other {place : Place} {other : Direction}
    (hfrom : ∀ old phase, ¬ s.Inside other thread old phase)
    (hplace : ∀ old phase, place ≠ .inside other old phase) (who : Thread) (count : Nat)
    (at_ : Phase) :
    (s.goto thread place).Inside other who count at_ ↔ s.Inside other who count at_ := by
  rw [inside_goto]
  constructor
  · intro hwho
    rcases hwho with ⟨-, hsame⟩ | ⟨-, hbefore⟩
    · exact absurd hsame (hplace _ _)
    · exact hbefore
  · intro hwho
    refine .inr ⟨?_, hwho⟩
    intro hsame
    exact hfrom _ _ (hsame ▸ hwho)

theorem closing_goto_same {place : Place}
    (hfrom : ∀ release phase, s.place thread ≠ .closing release phase)
    (hplace : ∀ release phase, place ≠ .closing release phase) (who : Thread) (release : Bool)
    (at_ : ClosePhase) :
    (s.goto thread place).place who = .closing release at_ ↔ s.place who = .closing release at_ := by
  rw [closing_goto]
  constructor
  · intro hwho
    rcases hwho with ⟨-, hsame⟩ | ⟨-, hbefore⟩
    · exact absurd hsame (hplace _ _)
    · exact hbefore
  · intro hwho
    refine .inr ⟨?_, hwho⟩
    intro hsame
    exact hfrom _ _ (hsame ▸ hwho)

theorem turn_moved (hturn : s.Turn direction) (hthere : s.Inside direction thread old phase)
    {after : Phase} {signalInterrupt : Bool} (haborts : signalInterrupt = true → after.Aborts)
    (hwaits : s.outstanding direction = true → after.Aborts → signalInterrupt = true) :
    (moved s direction thread old after signalInterrupt).Turn direction := by
  cases hturn with
  | idle houtside => exact absurd hthere (houtside _ _ _)
  | unattended _ houtside => exact absurd hthere (houtside _ _ _)
  | occupied owner own at_ howner halone hattended =>
      obtain rfl := halone _ _ _ hthere
      have hjob := job_moved s direction direction thread old after signalInterrupt
      rw [if_pos rfl] at hjob
      refine .occupied thread old after ((inside_goto ..).mpr (.inl ⟨rfl, rfl⟩)) ?_ ?_
      · intro other count place hother
        rcases (inside_goto ..).mp hother with ⟨hsame, -⟩ | ⟨-, hwho⟩
        · exact hsame
        · exact halone _ _ _ hwho
      · rw [hjob]
        refine ⟨hattended.pending, hattended.attended, hattended.closing, haborts, ?_⟩
        intro hout
        obtain ⟨hcount, habort, -⟩ := hattended.waits hout
        exact ⟨hcount, habort, hwaits hout⟩

structure Moves (s : CanOcb Thread Message) (direction : Direction) (thread : Thread) (old : Nat)
    (phase after : Phase) (signalInterrupt : Bool) : Prop where
  there : s.Inside direction thread old phase
  aborts : signalInterrupt = true → after.Aborts
  waits : s.outstanding direction = true → after.Aborts → signalInterrupt = true

def StaysPrompt (s : CanOcb Thread Message) (direction : Direction) (old : Nat) (after : Phase)
    (signalInterrupt : Bool) : Prop :=
  (s.outstanding direction = false →
    ({ s.job direction with
      state := { (s.job direction).state with signalInterrupt } } : Job).Heard old after) ∧
  (s.outstanding direction = true → after.Finishes → s.handleClosed = true)

theorem sameBut_moved {after : Phase} {signalInterrupt : Bool}
    (hmoves : Moves s direction thread old phase after signalInterrupt) :
    SameBut s (moved s direction thread old after signalInterrupt) direction where
  job other hapart := by rw [job_moved, if_neg hapart]
  outstanding _ _ := rfl
  inside other hapart := by
    refine inside_goto_other ?_ ?_
    · intro count place hthere
      exact hapart (by cases hthere.symm.trans hmoves.there; rfl)
    · intro count place hsame
      exact hapart (by cases hsame; rfl)
  closed := rfl
  done := rfl
  freed := rfl
  released := rfl
  closing := by
    refine closing_goto_same ?_ (by simp)
    intro release place hthere
    cases hthere.symm.trans hmoves.there

theorem prompt_moved {after : Phase} {signalInterrupt : Bool}
    (hmoves : Moves s direction thread old phase after signalInterrupt) (hturn : s.Turn direction) :
    (moved s direction thread old after signalInterrupt).Prompt direction ↔
      StaysPrompt s direction old after signalInterrupt := by
  have hjob := job_moved s direction direction thread old after signalInterrupt
  rw [if_pos rfl] at hjob
  have hhere : (moved s direction thread old after signalInterrupt).Inside direction thread old after :=
    (inside_goto ..).mpr (.inl ⟨rfl, rfl⟩)
  constructor
  · intro hprompt
    have hthread := hprompt thread old after hhere
    rw [hjob] at hthread
    exact hthread
  · intro hstays other count place hother
    rw [hjob]
    rcases (inside_goto ..).mp hother with ⟨rfl, hplace⟩ | ⟨hapart, hwho⟩
    · cases hplace
      exact hstays
    · exact absurd (hturn.same hmoves.there hwho) hapart

namespace OcbInv

omit [DecidableEq Thread] in
theorem of_sameBut (hinv : OcbInv s) (hsame : SameBut s next direction)
    (hturn : next.Turn direction) (hready : next.closeReady = s.closeReady)
    (hdone : s.closeDone = true → next.outstanding direction = false)
    (hreleased : s.released = true →
      ∀ thread old phase, ¬ next.Inside direction thread old phase)
    (hrx : direction = .rx →
      (∀ thread old phase, next.Inside .rx thread old phase → old = 0) ∧ next.Prompt .rx)
    (hconserved : next.Conserved) : OcbInv next := by
  have hcases : ∀ {P : Direction → Prop}, P direction → (∀ other, other ≠ direction → P other) →
      ∀ other, P other := by
    intro P hthis hrest other
    by_cases hother : other = direction
    · exact hother ▸ hthis
    · exact hrest other hother
  refine ⟨hcases hturn ?_, ?_, ?_, ?_, ?_, ?_, hconserved⟩
  · intro other hapart
    exact (hinv.turn other).congr (hsame.job other hapart) (hsame.outstanding other hapart)
      hsame.closed (hsame.inside other hapart)
  · exact hinv.closing.congr hsame.closed hsame.done hsame.freed hsame.released hready hsame.closing
  · rw [hsame.done]
    intro hshut
    refine hcases (hdone hshut) ?_
    intro other hapart
    rw [hsame.outstanding other hapart]
    exact hinv.done hshut other
  · rw [hsame.released]
    intro hgone
    refine hcases (hreleased hgone) ?_
    intro other hapart thread old phase hthere
    exact hinv.released hgone other _ _ _ ((hsame.inside other hapart _ _ _).mp hthere)
  · by_cases hthis : Direction.rx = direction
    · exact (hrx hthis.symm).1
    · intro thread old phase hthere
      exact hinv.fromNone _ _ _ ((hsame.inside _ hthis _ _ _).mp hthere)
  · by_cases hthis : Direction.rx = direction
    · exact (hrx hthis.symm).2
    · exact hinv.prompt.congr (hsame.job _ hthis) (hsame.outstanding _ hthis) hsame.closed
        (hsame.inside _ hthis)

theorem move (hinv : OcbInv s) {after : Phase} {signalInterrupt : Bool}
    (hmoves : Moves s direction thread old phase after signalInterrupt)
    (hprompt : direction = .rx → StaysPrompt s direction old after signalInterrupt) :
    OcbInv (moved s direction thread old after signalInterrupt) := by
  have hjob := fun other => job_moved s direction other thread old after signalInterrupt
  refine hinv.of_sameBut (sameBut_moved hmoves) ?_ ?_ ?_ ?_ ?_ ?_
  · exact turn_moved (hinv.turn direction) hmoves.there hmoves.aborts hmoves.waits
  · simp only [closeReady, hjob]
    rfl
  · exact fun hshut => hinv.done hshut direction
  · intro hreleased
    exact absurd hmoves.there (hinv.released hreleased _ _ _ _)
  · intro hrx
    subst hrx
    refine ⟨?_, (prompt_moved hmoves (hinv.turn .rx)).mpr (hprompt rfl)⟩
    intro who count place hwho
    rcases (inside_goto ..).mp hwho with ⟨-, hplace⟩ | ⟨-, hbefore⟩
    · cases hplace
      exact hinv.fromNone _ _ _ hmoves.there
    · exact hinv.fromNone _ _ _ hbefore
  · refine hinv.conserved.congr rfl rfl rfl rfl rfl ?_ ?_ rfl
    · rw [hjob]
    · rw [hjob]

omit [DecidableEq Thread] in
theorem attended (hinv : OcbInv s) (hthere : s.Inside direction thread old phase) :
    (s.job direction).Attended (s.outstanding direction) s.handleClosed phase := by
  cases hinv.turn direction with
  | idle houtside => exact absurd hthere (houtside _ _ _)
  | unattended _ houtside => exact absurd hthere (houtside _ _ _)
  | occupied owner own place hown halone hattended =>
      obtain rfl := halone _ _ _ hthere
      cases hown.symm.trans hthere
      exact hattended

omit [DecidableEq Thread] in
theorem promptStep_rx (hinv : OcbInv s) (label : OcbStep Thread Message) :
    s.PromptStep .rx label := by
  cases label with
  | abort thread => exact fun old hthere _ => .inr (hinv.fromNone _ _ _ hthere)
  | rxDone result cmCount =>
      intro _ thread old phase hthere _
      obtain rfl := hinv.fromNone _ _ _ hthere
      cases phase with
      | testing => exact Nat.eq_zero_or_pos cmCount
      | asleep => exact Nat.eq_zero_or_pos cmCount
      | signalled => exact id
      | aborting => trivial
      | abortAsleep => trivial
      | finishing _ => trivial
  | txDone result cmCount => exact fun hrx => by cases hrx
  | _ => trivial

omit [DecidableEq Thread] in
theorem closed_of_woken (hinv : OcbInv s) (hthere : s.Inside direction thread old phase)
    (hwoken : (s.job direction).woken old = true) (hout : s.outstanding direction = true) :
    s.handleClosed = true := by
  have hattended := hinv.attended hthere
  obtain ⟨hcount, habort, -⟩ := hattended.waits hout
  rw [← hattended.closing]
  simpa [Job.woken, hcount, habort] using hwoken

/-- A step keeps the invariant, and as much of the promptness of writes as it should. -/
structure Keeps (s next : CanOcb Thread Message) (label : OcbStep Thread Message) : Prop where
  inv : OcbInv next
  prompt : s.Prompt .tx → (next.Prompt .tx ↔ s.PromptStep .tx label)

theorem keeps_moved (hinv : OcbInv s) {after : Phase} {signalInterrupt : Bool}
    {label : OcbStep Thread Message}
    (hmoves : Moves s direction thread old phase after signalInterrupt)
    (hstays : s.Prompt direction →
      (StaysPrompt s direction old after signalInterrupt ↔ s.PromptStep direction label))
    (hother : direction ≠ .tx → s.PromptStep .tx label) :
    Keeps s (moved s direction thread old after signalInterrupt) label := by
  refine ⟨hinv.move hmoves ?_, ?_⟩
  · intro hrx
    subst hrx
    exact (hstays hinv.prompt).mpr (hinv.promptStep_rx label)
  · intro hprompt
    by_cases htx : direction = .tx
    · subst htx
      exact (prompt_moved hmoves (hinv.turn .tx)).trans (hstays hprompt)
    · refine iff_of_true (hprompt.congr ?_ rfl rfl ?_) (hother htx)
      · rw [job_moved, if_neg (Ne.symm htx)]
      · exact (sameBut_moved hmoves).inside .tx (Ne.symm htx)

omit [DecidableEq Thread] in
theorem moves_of_iff (hinv : OcbInv s) (hthere : s.Inside direction thread old phase)
    {after : Phase} (hsame : after.Aborts ↔ phase.Aborts) :
    Moves s direction thread old phase after (s.job direction).state.signalInterrupt where
  there := hthere
  aborts hsignal := hsame.mpr ((hinv.attended hthere).aborts hsignal)
  waits hout haborts := ((hinv.attended hthere).waits hout).2.2 (hsame.mp haborts)

theorem keeps_goto (hinv : OcbInv s) (hthere : s.Inside direction thread old phase) {after : Phase}
    {label : OcbStep Thread Message} (hsame : after.Aborts ↔ phase.Aborts)
    (hlabel : ∀ direction, s.PromptStep direction label)
    (hheard : s.outstanding direction = false → (s.job direction).Heard old phase →
      (s.job direction).Heard old after)
    (hfinishes : s.outstanding direction = true → after.Finishes → s.handleClosed = true) :
    Keeps s (s.goto thread (.inside direction old after)) label := by
  rw [goto_eq_moved]
  refine keeps_moved hinv (hinv.moves_of_iff hthere hsame) ?_ fun _ => hlabel .tx
  intro hprompt
  refine iff_of_true ⟨?_, hfinishes⟩ (hlabel direction)
  intro hout
  exact hheard hout ((hprompt _ _ _ hthere).1 hout)

theorem keeps_tested (hinv : OcbInv s) (hthere : s.Inside direction thread old phase)
    {after : Phase} {label : OcbStep Thread Message} (hphase : phase = .testing ∨ phase = .asleep)
    (hafter : after = .asleep ∨ after = .signalled)
    (hlabel : ∀ direction, s.PromptStep direction label) :
    Keeps s (s.goto thread (.inside direction old
      (if (s.job direction).woken old then .finishing false else after))) label := by
  have hwaits : ¬ phase.Aborts := by rcases hphase with rfl | rfl <;> simp [Phase.Aborts]
  split
  · next hwoken =>
      refine keeps_goto hinv hthere (iff_of_false (by simp [Phase.Aborts]) hwaits) hlabel ?_ ?_
      · exact fun _ _ => trivial
      · exact fun hout _ => hinv.closed_of_woken hthere hwoken hout
  · next hwoken =>
      refine keeps_goto hinv hthere (iff_of_false ?_ hwaits) hlabel ?_ ?_
      · rcases hafter with rfl | rfl <;> simp [Phase.Aborts]
      · intro _ hheard
        rcases hphase with rfl | rfl
        · exact absurd hheard hwoken
        · exact hheard.elim
      · rcases hafter with rfl | rfl <;> simp [Phase.Finishes]

end OcbInv

end CanOcb

end ApolloContrib.Esd
