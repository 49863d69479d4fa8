import ApolloContrib.Esd.OcbInvariant

namespace ApolloContrib.Esd

namespace CanOcb

open Function

/-! What each step does to the invariant of a handle. -/

namespace OcbInv

variable {Thread Message : Type*} {s next : CanOcb Thread Message} {direction : Direction}
  {thread : Thread} {old : Nat} {phase : Phase} {label : OcbStep Thread Message}

structure SameSides (s next : CanOcb Thread Message) : Prop where
  job : next.job = s.job
  outstanding : next.outstanding = s.outstanding
  closed : next.handleClosed = s.handleClosed
  inside : ∀ direction thread old phase,
    next.Inside direction thread old phase ↔ s.Inside direction thread old phase

theorem keeps_aside (hinv : OcbInv s) (hsame : SameSides s next) (hclosing : next.Closing)
    (hdone : next.closeDone = true → ∀ direction, next.outstanding direction = false)
    (hreleased : next.released = true →
      ∀ direction thread old phase, ¬ s.Inside direction thread old phase)
    (hconserved : next.Conserved) (hlabel : s.PromptStep .tx label) : Keeps s next label := by
  have hjob : ∀ direction, next.job direction = s.job direction := congrFun hsame.job
  have hout : ∀ direction, next.outstanding direction = s.outstanding direction :=
    congrFun hsame.outstanding
  have hprompt : ∀ direction, s.Prompt direction → next.Prompt direction := by
    intro direction hprompt
    exact hprompt.congr (hjob direction) (hout direction) hsame.closed (hsame.inside direction)
  refine ⟨⟨?_, hclosing, hdone, ?_, ?_, hprompt .rx hinv.prompt, hconserved⟩, ?_⟩
  · intro direction
    exact (hinv.turn direction).congr (hjob direction) (hout direction) hsame.closed
      (hsame.inside direction)
  · intro hgone direction thread old phase hthere
    exact hreleased hgone _ _ _ _ ((hsame.inside _ _ _ _).mp hthere)
  · intro thread old phase hthere
    exact hinv.fromNone _ _ _ ((hsame.inside _ _ _ _).mp hthere)
  · exact fun hbefore => iff_of_true (hprompt .tx hbefore) hlabel

theorem filterMap_back (s : CanOcb Thread Message) (thread : Thread) {answer : Return Message}
    (hbrought : answer.brought = none) :
    ((s.back thread answer).returned.filterMap fun entry => entry.2.brought) =
      s.returned.filterMap fun entry => entry.2.brought := by
  simp [back, hbrought]

theorem keeps_back (hinv : OcbInv s) {answer : Return Message} (hbrought : answer.brought = none)
    (hlabel : s.PromptStep .tx label) : Keeps s (s.back thread answer) label :=
  hinv.keeps_aside ⟨rfl, rfl, rfl, fun _ _ _ _ => Iff.rfl⟩
    (hinv.closing.congr rfl rfl rfl rfl rfl fun _ _ _ => Iff.rfl) hinv.done hinv.released
    (hinv.conserved.congr rfl rfl rfl rfl (filterMap_back s thread hbrought) rfl rfl rfl) hlabel

theorem Keeps.back (hkeeps : Keeps s next label) {answer : Return Message}
    (hbrought : answer.brought = none) : Keeps s (next.back thread answer) label := by
  have hback : Keeps next (next.back thread answer) (.closeDone : OcbStep Thread Message) :=
    keeps_back hkeeps.inv hbrought trivial
  refine ⟨hback.inv, ?_⟩
  intro hprompt
  rw [← hkeeps.prompt hprompt]
  exact Iff.rfl

variable [DecidableEq Thread]

/-- `ocb_destroy` goes on, with what it has seen. -/
theorem keeps_closing (hinv : OcbInv s) {release : Bool} {place after : ClosePhase}
    (hthere : s.place thread = .closing release place)
    (hasleep : after = .asleep → s.closeReady = false)
    (hfinishing : after = .finishing → s.closeReady = true) (hlabel : s.PromptStep .tx label) :
    Keeps s (s.goto thread (.closing release after)) label := by
  refine hinv.keeps_aside ⟨rfl, rfl, rfl, ?_⟩ ?_ hinv.done
    hinv.released (hinv.conserved.congr rfl rfl rfl rfl rfl rfl rfl rfl) hlabel
  · intro direction
    refine inside_goto_other ?_ (by simp)
    intro old phase hinside
    cases hthere.symm.trans hinside
  · cases hinv.closing with
    | opened _ hnobody => exact absurd hthere (hnobody _ _ _)
    | closed _ hnobody => exact absurd hthere (hnobody _ _ _)
    | closing owner own before hclosed hplace halone hfreed hreleased =>
        obtain rfl := halone _ _ _ hthere
        cases hthere.symm.trans hplace
        refine .closing thread release after hclosed ((closing_goto ..).mpr (.inl ⟨rfl, rfl⟩)) ?_
          hfreed hreleased hasleep hfinishing
        intro other own place hother
        rcases (closing_goto ..).mp hother with ⟨hsame, -⟩ | ⟨-, hbefore⟩
        · exact hsame
        · exact halone _ _ _ hbefore

theorem test (hinv : OcbInv s) (htests : (s.place thread).tests = true) :
    ∃ next, s.test thread = some next ∧ Keeps s next (.test thread) := by
  have hlabel : ∀ direction, s.PromptStep direction (.test thread) := fun _ => trivial
  cases hplace : s.place thread with
  | outside => simp [hplace, Place.tests] at htests
  | inside direction old phase =>
      cases phase with
      | testing =>
          refine ⟨_, by simp only [CanOcb.test, hplace]; rfl, ?_⟩
          exact keeps_tested hinv hplace (.inl rfl) (.inl rfl) hlabel
      | aborting =>
          refine ⟨_, by simp only [CanOcb.test, hplace]; rfl, ?_⟩
          split
          · next hsignal =>
              refine keeps_goto hinv hplace Iff.rfl hlabel ?_ fun _ => False.elim
              intro _ hheard
              exact absurd hheard (by simp [Job.Heard, hsignal])
          · next hsignal =>
              have hout : s.outstanding direction = false := by
                by_contra hjob
                exact hsignal (((hinv.attended hplace).waits (by simpa using hjob)).2.2 trivial)
              rw [goto_eq_moved]
              refine keeps_moved hinv ⟨hplace, fun h => absurd h hsignal, fun _ => False.elim⟩ ?_
                fun _ => trivial
              refine fun _ => iff_of_true ⟨fun _ => trivial, fun hjob => ?_⟩ trivial
              cases hout.symm.trans hjob
      | asleep => simp [hplace, Place.tests] at htests
      | signalled => simp [hplace, Place.tests] at htests
      | abortAsleep => simp [hplace, Place.tests] at htests
      | finishing _ => simp [hplace, Place.tests] at htests
  | closing release place =>
      cases place with
      | testing =>
          refine ⟨_, by simp only [CanOcb.test, hplace]; rfl, ?_⟩
          cases hready : s.closeReady with
          | true => exact hinv.keeps_closing hplace (by simp) (by simp [hready]) trivial
          | false => exact hinv.keeps_closing hplace (by simp [hready]) (by simp) trivial
      | asleep => simp [hplace, Place.tests] at htests
      | finishing => simp [hplace, Place.tests] at htests

theorem stir (hinv : OcbInv s) (hsleeps : (s.place thread).sleeps = true) :
    ∃ next, s.stir thread = some next ∧ Keeps s next (.stir thread) := by
  have hlabel : ∀ direction, s.PromptStep direction (.stir thread) := fun _ => trivial
  cases hplace : s.place thread with
  | outside => simp [hplace, Place.sleeps] at hsleeps
  | inside direction old phase =>
      cases phase with
      | asleep =>
          refine ⟨_, by simp only [CanOcb.stir, hplace]; rfl, ?_⟩
          exact keeps_goto hinv hplace Iff.rfl hlabel (fun _ => False.elim) fun _ => False.elim
      | abortAsleep =>
          refine ⟨_, by simp only [CanOcb.stir, hplace]; rfl, ?_⟩
          exact keeps_goto hinv hplace Iff.rfl hlabel (fun _ => False.elim) fun _ => False.elim
      | testing => simp [hplace, Place.sleeps] at hsleeps
      | signalled => simp [hplace, Place.sleeps] at hsleeps
      | aborting => simp [hplace, Place.sleeps] at hsleeps
      | finishing _ => simp [hplace, Place.sleeps] at hsleeps
  | closing release place =>
      cases place with
      | asleep =>
          refine ⟨_, by simp only [CanOcb.stir, hplace]; rfl, ?_⟩
          exact hinv.keeps_closing hplace (by simp) (by simp) trivial
      | testing => simp [hplace, Place.sleeps] at hsleeps
      | finishing => simp [hplace, Place.sleeps] at hsleeps

theorem signal (hinv : OcbInv s) (hinterruptible : (s.place thread).interruptible = true) :
    ∃ next, s.signal thread = some next ∧ Keeps s next (.signal thread) := by
  have hlabel : ∀ direction, s.PromptStep direction (.signal thread) := fun _ => trivial
  cases hplace : s.place thread with
  | outside => simp [hplace, Place.interruptible] at hinterruptible
  | inside direction old phase =>
      cases phase with
      | testing =>
          refine ⟨_, by simp only [CanOcb.signal, hplace]; rfl, ?_⟩
          exact keeps_tested hinv hplace (.inl rfl) (.inr rfl) hlabel
      | asleep =>
          refine ⟨_, by simp only [CanOcb.signal, hplace]; rfl, ?_⟩
          exact keeps_tested hinv hplace (.inr rfl) (.inr rfl) hlabel
      | signalled => simp [hplace, Place.interruptible] at hinterruptible
      | aborting => simp [hplace, Place.interruptible] at hinterruptible
      | abortAsleep => simp [hplace, Place.interruptible] at hinterruptible
      | finishing _ => simp [hplace, Place.interruptible] at hinterruptible
  | closing release place => simp [hplace, Place.interruptible] at hinterruptible

theorem interrupt (hinv : OcbInv s) (hthere : s.Inside direction thread old .signalled) :
    Keeps s (s.interrupt thread direction old) (.abort thread) := by
  have hattended := hinv.attended hthere
  have hother : direction ≠ .tx → s.PromptStep .tx (.abort thread) := by
    intro hapart count hwho
    cases hwho.symm.trans hthere
    exact absurd rfl hapart
  rw [CanOcb.interrupt]
  dsimp only
  split
  · next hlate =>
      simp only [Bool.and_eq_true, decide_eq_true_eq, Bool.not_eq_true'] at hlate
      obtain ⟨⟨hcount, habort⟩, hclosing⟩ := hlate
      refine keeps_moved hinv ⟨hthere, fun _ => trivial, fun _ _ => rfl⟩ ?_ hother
      intro hprompt
      constructor
      · intro _ count hwho hout
        cases hwho.symm.trans hthere
        exact .inr (hcount.symm.trans (hattended.waits hout).1)
      · intro _
        refine ⟨fun hout => ?_, fun _ => False.elim⟩
        have hheard := (hprompt _ _ _ hthere).1 hout hcount
        simp [habort, hclosing] at hheard
  · next hlate =>
      rw [goto_eq_moved]
      refine keeps_moved hinv (hinv.moves_of_iff hthere Iff.rfl) ?_ hother
      intro _
      constructor
      · intro hstays count hwho hout
        exact .inl (hstays.2 hout trivial)
      · intro hlabel
        refine ⟨fun _ => trivial, fun hout _ => ?_⟩
        obtain ⟨hcount, habort, -⟩ := hattended.waits hout
        rcases hlabel old hthere hout with hclosed | hold
        · exact hclosed
        · rw [← hattended.closing]
          simpa [hcount, habort, hold] using hlate

/-- The bits are cleared, and a thread in `ocb_destroy` is woken. -/
def left (s : CanOcb Thread Message) (direction : Direction) (thread : Thread) :
    CanOcb Thread Message :=
  let place := update s.place thread .outside
  { s with
    job := update s.job direction { s.job direction with state := {}, cmCount := 0 }
    place := if (s.job direction).state.closing then fun who => (place who).wakeUpClose else place }

theorem cleared_eq_left (s : CanOcb Thread Message) (direction : Direction) (thread : Thread) :
    (let cleared := (s.setJob direction { s.job direction with state := {}, cmCount := 0 }).goto
      thread .outside
    if (s.job direction).state.closing then cleared.wake .wakeUpClose else cleared) =
      left s direction thread := by
  rw [left]
  dsimp only
  split <;> rfl

omit [DecidableEq Thread] in
theorem wakeUpClose_eq_inside {place : Place} :
    place.wakeUpClose = .inside direction old phase ↔ place = .inside direction old phase := by
  cases place with
  | outside => rfl
  | inside => rfl
  | closing release place => cases place <;> simp [Place.wakeUpClose]

theorem inside_left (s : CanOcb Thread Message) (direction other : Direction)
    (thread who : Thread) (old : Nat) (phase : Phase) :
    (left s direction thread).Inside other who old phase ↔
      who ≠ thread ∧ s.Inside other who old phase := by
  have hcleared : (s.goto thread .outside).Inside other who old phase ↔
      who ≠ thread ∧ s.Inside other who old phase := by
    rw [inside_goto]
    simp
  unfold Inside left
  dsimp only
  split
  · exact wakeUpClose_eq_inside.trans hcleared
  · exact hcleared

/-- A thread in `ocb_destroy` waits on, or is woken where it sleeps. -/
theorem closing_left (hinv : OcbInv s) (hthere : s.Inside direction thread old phase) :
    (left s direction thread).Closing := by
  have hattended := hinv.attended hthere
  have hsame : ∀ who release place, update s.place thread .outside who = .closing release place ↔
      s.place who = .closing release place := by
    refine closing_goto_same ?_ (by simp)
    intro release place hplace
    cases Eq.trans (Eq.symm hplace) hthere
  cases hinv.closing with
  | opened hclosed hnobody hdone hfreed hreleased =>
      rw [left]
      dsimp only
      rw [if_neg (by simp [hattended.closing, hclosed])]
      refine .opened hclosed ?_ hdone hfreed hreleased
      intro who release place hwho
      exact hnobody _ _ _ ((hsame _ _ _).mp hwho)
  | closed hclosed hnobody hready =>
      have hclosing := hattended.closing.trans hclosed
      cases direction <;> simp [closeReady, hclosing] at hready
  | closing owner release place hclosed hplace halone hfreed hreleased hasleep hfinishing =>
      have hclosing := hattended.closing.trans hclosed
      have hnotReady : s.closeReady = false := by
        cases direction <;> simp [closeReady, hclosing]
      rw [left]
      dsimp only
      rw [if_pos hclosing]
      refine .closing owner release .testing hclosed ?_ ?_ hfreed hreleased (by simp) (by simp)
      · have howner := (hsame owner release place).mpr hplace
        cases place with
        | testing => exact congrArg Place.wakeUpClose howner
        | asleep => exact congrArg Place.wakeUpClose howner
        | finishing => cases hnotReady.symm.trans (hfinishing rfl)
      · intro other own at_ hother
        cases hbefore : update s.place thread .outside other with
        | outside => simp [hbefore, Place.wakeUpClose] at hother
        | inside _ _ phase => simp [hbefore, Place.wakeUpClose] at hother
        | closing _ _ => exact halone _ _ _ ((hsame _ _ _).mp hbefore)

theorem turn_left (hinv : OcbInv s) (hthere : s.Inside direction thread old phase)
    (hfinishes : phase.Finishes) (other : Direction) : (left s direction thread).Turn other := by
  by_cases hother : other = direction
  · subst hother
    refine .idle ?_ ?_ ?_ ?_
    · intro who count at_ hwho
      obtain ⟨hapart, hbefore⟩ := (inside_left ..).mp hwho
      exact hapart ((hinv.turn other).same hthere hbefore)
    · simp [left]
    · intro hout
      cases other with
      | tx => exact .inl rfl
      | rx => exact .inr ((hinv.prompt _ _ _ hthere).2 hout hfinishes)
    · simp [left]
  · refine (hinv.turn other).congr (by simp [left, hother]) rfl rfl ?_
    intro who count at_
    rw [inside_left]
    refine and_iff_right_of_imp ?_
    intro hwho hsame
    subst hsame
    cases Eq.trans (Eq.symm hwho) hthere
    exact hother rfl

theorem prompt_left (hthere : s.Inside direction thread old phase) (hturn : s.Turn direction)
    {other : Direction} (hprompt : s.Prompt other) : (left s direction thread).Prompt other := by
  intro who count at_ hwho
  obtain ⟨hapart, hbefore⟩ := (inside_left ..).mp hwho
  have hother : other ≠ direction := by
    intro hsame
    subst hsame
    exact hapart (hturn.same hthere hbefore)
  have hjob : (left s direction thread).job other = s.job other := by simp [left, hother]
  rw [hjob]
  exact hprompt _ _ _ hbefore

theorem finish_eq (hinv : OcbInv s) {interruptedBySignal : Bool} (copied : Bool)
    (hthere : s.Inside direction thread old phase) :
    ∃ answer, s.finish thread direction old interruptedBySignal copied =
        (left s direction thread).back thread answer ∧
      ((direction = .tx ∨ s.inFlight = []) ∧ answer.brought = none ∨
        direction = .rx ∧ s.inFlight = [s.putting] ∧
          (answer.brought = some (some s.putting) ∨ answer.brought = some none)) := by
  have hattended := hinv.attended hthere
  simp only [CanOcb.finish, cleared_eq_left]
  split
  · next hnone =>
      refine ⟨_, rfl, .inl ⟨?_, ?_⟩⟩
      · cases direction with
        | tx => exact .inl rfl
        | rx =>
            obtain rfl := hinv.fromNone _ _ _ hthere
            refine .inr ?_
            simp [inFlight, Nat.le_zero.mp hnone]
      · split
        · rfl
        · split <;> rfl
  · next hsome =>
      cases direction with
      | tx => exact ⟨_, rfl, .inl ⟨.inl rfl, rfl⟩⟩
      | rx =>
          have hcount : (s.job .rx).cmCount ≠ 0 := by omega
          have hout : s.outstanding .rx = false := by
            by_contra hjob
            exact hcount (hattended.waits (by simpa using hjob)).1
          have hframes : s.frames (s.job .rx).cmCount = s.putting := by
            rw [hinv.conserved.counted hout hattended.pending, hinv.conserved.holds]
          have hflight : s.inFlight = [s.putting] := by
            simp [inFlight, hattended.pending, hout, hcount]
          cases copied with
          | true =>
              refine ⟨.frames (s.frames (s.job .rx).cmCount), rfl, .inr ⟨rfl, hflight, .inl ?_⟩⟩
              rw [hframes]
              rfl
          | false => exact ⟨.failed .efault, rfl, .inr ⟨rfl, hflight, .inr rfl⟩⟩

theorem finish (hinv : OcbInv s) {interruptedBySignal : Bool} (copied : Bool)
    (hthere : s.Inside direction thread old (.finishing interruptedBySignal)) :
    Keeps s (s.finish thread direction old interruptedBySignal copied) (.finish thread copied) := by
  obtain ⟨answer, hanswer, hbrought⟩ := hinv.finish_eq copied hthere
  have hinside : ∀ other who count at_, (left s direction thread).Inside other who count at_ →
      s.Inside other who count at_ :=
    fun other who count at_ hwho => ((inside_left ..).mp hwho).2
  rw [hanswer]
  refine ⟨⟨?_, ?_, hinv.done, ?_, ?_, ?_, ?_⟩, ?_⟩
  · intro other
    exact (turn_left hinv hthere trivial other).congr rfl rfl rfl fun _ _ _ => Iff.rfl
  · exact (closing_left hinv hthere).congr rfl rfl rfl rfl rfl fun _ _ _ => Iff.rfl
  · exact fun hreleased => absurd hthere (hinv.released hreleased _ _ _ _)
  · exact fun who count at_ hwho => hinv.fromNone _ _ _ (hinside _ _ _ _ hwho)
  · exact (prompt_left hthere (hinv.turn direction) hinv.prompt).congr rfl rfl rfl
      fun _ _ _ => Iff.rfl
  · cases direction with
    | tx =>
        have hnone : answer.brought = none := by
          rcases hbrought with ⟨-, hnone⟩ | ⟨hrx, -⟩
          · exact hnone
          · cases hrx
        exact hinv.conserved.congr rfl rfl rfl rfl (filterMap_back s thread hnone) (by simp [left, back])
          (by simp [left, back]) rfl
    | rx =>
        refine hinv.conserved.brought (by simp [left, back]) rfl rfl rfl rfl rfl ?_
        rcases hbrought with ⟨hside, hnone⟩ | ⟨-, hframes⟩
        · exact .inl ⟨hside.resolve_left (by simp), hnone⟩
        · exact .inr hframes
  · intro hprompt
    exact iff_of_true ((prompt_left hthere (hinv.turn direction) hprompt).congr rfl rfl rfl
      fun _ _ _ => Iff.rfl) trivial

omit [DecidableEq Thread] in
theorem outside_of_not_pending (hinv : OcbInv s) (hfree : (s.job direction).state.pending = false) :
    ¬ s.Inside direction thread old phase := by
  intro hthere
  cases hfree.symm.trans (hinv.attended hthere).pending

omit [DecidableEq Thread] in
theorem cmCount_of_not_pending (hinv : OcbInv s) (hopen : s.handleClosed = false)
    (hfree : (s.job direction).state.pending = false) : (s.job direction).cmCount = 0 := by
  cases hinv.turn direction with
  | idle _ _ _ hcount => exact hcount hopen
  | unattended _ _ _ _ hcount => exact hcount
  | occupied _ _ _ hthere => exact absurd hthere (hinv.outside_of_not_pending hfree)

omit [DecidableEq Thread] in
theorem closeDone_of_open (hinv : OcbInv s) (hopen : s.handleClosed = false) :
    s.closeDone = false := by
  cases hinv.closing with
  | opened _ _ hdone => exact hdone
  | closing _ _ _ hclosed => cases hopen.symm.trans hclosed
  | closed hclosed => cases hopen.symm.trans hclosed

omit [DecidableEq Thread] in
theorem closeReady_of_not_done (hdone : s.closeDone = false) : s.closeReady = false := by
  simp [closeReady, hdone]

omit [DecidableEq Thread] in
theorem keeps_start (hinv : OcbInv s) (thread : Thread) (old : Nat) (result : Int)
    (hsame : SameBut s next direction) (hopen : s.handleClosed = false) (hheld : s.released = false)
    (hinside : ∀ who count at_, next.Inside direction who count at_ ↔
      who = thread ∧ count = old ∧ at_ = .testing)
    (hjob : next.job direction = ⟨{ pending := true }, result, 0⟩)
    (hout : next.outstanding direction = true) (hold : direction = .rx → old = 0)
    (hconserved : next.Conserved) (hlabel : s.PromptStep .tx label) : Keeps s next label := by
  have hdone := hinv.closeDone_of_open hopen
  have hprompt : next.Prompt direction := by
    intro who count at_ hwho
    obtain ⟨-, -, rfl⟩ := (hinside _ _ _).mp hwho
    exact ⟨fun hnone => Bool.noConfusion (hout.symm.trans hnone), fun _ => False.elim⟩
  refine ⟨hinv.of_sameBut hsame ?_ ?_ ?_ ?_ ?_ hconserved, ?_⟩
  · refine .occupied thread old .testing ((hinside _ _ _).mpr ⟨rfl, rfl, rfl⟩) ?_ ?_
    · exact fun who count at_ hwho => ((hinside _ _ _).mp hwho).1
    · rw [hjob, hsame.closed, hopen]
      exact ⟨rfl, rfl, rfl, by simp, fun _ => ⟨rfl, rfl, by simp [Phase.Aborts]⟩⟩
  · rw [closeReady_of_not_done hdone, closeReady_of_not_done (hsame.done.trans hdone)]
  · exact fun hshut => by cases hdone.symm.trans hshut
  · exact fun hgone => by cases hheld.symm.trans hgone
  · intro hrx
    subst hrx
    refine ⟨?_, hprompt⟩
    intro who count at_ hwho
    rw [((hinside _ _ _).mp hwho).2.1]
    exact hold rfl
  · intro hbefore
    refine iff_of_true ?_ hlabel
    by_cases htx : Direction.tx = direction
    · subst htx
      exact hprompt
    · exact hbefore.congr (hsame.job _ htx) (hsame.outstanding _ htx) hsame.closed
        (hsame.inside _ htx)

omit [DecidableEq Thread] in
theorem closing_of_outside (hthere : s.place thread = .outside) (release : Bool)
    (at_ : ClosePhase) : s.place thread ≠ .closing release at_ := by
  simp [hthere]

theorem inside_start (hnobody : ∀ who count at_, ¬ s.Inside direction who count at_)
    (who : Thread) (count : Nat) (at_ : Phase) :
    (s.goto thread (.inside direction old .testing)).Inside direction who count at_ ↔
      who = thread ∧ count = old ∧ at_ = .testing := by
  rw [inside_goto]
  constructor
  · intro hwho
    rcases hwho with ⟨hsame, hplace⟩ | ⟨-, hbefore⟩
    · cases hplace
      exact ⟨hsame, rfl, rfl⟩
    · exact absurd hbefore (hnobody _ _ _)
  · intro hwho
    obtain ⟨hsame, rfl, rfl⟩ := hwho
    exact .inl ⟨hsame, rfl⟩

theorem sameBut_start (hthere : s.place thread = .outside) (job : Job) :
    SameBut s (((s.setJob direction job).setOutstanding direction true).goto thread
      (.inside direction old .testing)) direction where
  job other hapart := update_of_ne hapart _ _
  outstanding other hapart := update_of_ne hapart _ _
  inside other hapart := by
    refine inside_goto_other ?_ ?_
    · intro count at_ hinside
      cases Eq.trans (Eq.symm hthere) hinside
    · intro count at_ hsame
      exact hapart (by cases hsame; rfl)
  closed := rfl
  done := rfl
  freed := rfl
  released := rfl
  closing := closing_goto_same (closing_of_outside hthere) (by simp)

theorem startWrite (hinv : OcbInv s) (hopen : s.handleClosed = false)
    (hthere : s.place thread = .outside) (hheld : s.released = false)
    (hfree : (s.job .tx).state.pending = false) (answer : Answer) (hlabel : s.PromptStep .tx label) :
    Keeps s (s.startWrite thread old answer) label := by
  cases answer with
  | refused code => exact hinv.keeps_back rfl hlabel
  | accepted count =>
      have hcount := hinv.cmCount_of_not_pending hopen hfree
      simp only [CanOcb.startWrite]
      refine hinv.keeps_start thread old (s.job .tx).result (sameBut_start hthere _) hopen hheld
        ?_ ?_ ?_ (by simp) ?_ hlabel
      · exact inside_start fun who count at_ hwho => hinv.outside_of_not_pending hfree hwho
      · simp only [goto, setOutstanding, setJob, update_self, hcount]
      · simp only [goto, setOutstanding, update_self]
      · exact hinv.conserved.congr rfl rfl rfl rfl rfl rfl rfl rfl

theorem write (hinv : OcbInv s) (hthere : s.place thread = .outside) (hheld : s.released = false)
    (cmCount : Nat) (oldJob : OldJob) (answer : Answer) :
    Keeps s (s.write thread cmCount oldJob answer) (.write thread cmCount oldJob answer) := by
  unfold CanOcb.write
  split
  · exact hinv.keeps_back rfl trivial
  · next hopen =>
      rw [Bool.not_eq_true] at hopen
      split
      · exact hinv.keeps_back rfl trivial
      · split
        · exact hinv.keeps_back rfl trivial
        · next hfree =>
            simp only [Bool.or_eq_true, not_or, Bool.not_eq_true] at hfree
            split
            · cases oldJob with
              | failed => exact hinv.keeps_back rfl trivial
              | deferred => exact hinv.keeps_back rfl trivial
              | pending count => exact hinv.startWrite hopen hthere hheld hfree.1 answer trivial
            · exact hinv.startWrite hopen hthere hheld hfree.1 answer trivial

omit [DecidableEq Thread] in
theorem send (hinv : OcbInv s) (answer : Answer) :
    Keeps s (s.send thread answer) (.send thread answer) := by
  unfold CanOcb.send
  split
  · exact hinv.keeps_back rfl trivial
  · next hopen =>
      rw [Bool.not_eq_true] at hopen
      split
      · exact hinv.keeps_back rfl trivial
      · next hfree =>
          rw [Bool.not_eq_true] at hfree
          cases answer with
          | refused code => exact hinv.keeps_back rfl trivial
          | accepted count =>
              have hdone := hinv.closeDone_of_open hopen
              have hnobody : ∀ who count at_, ¬ s.Inside .tx who count at_ :=
                fun who count at_ hwho => hinv.outside_of_not_pending hfree hwho
              have hnot : Direction.tx ≠ .rx := by simp
              refine Keeps.back ⟨hinv.of_sameBut ?_ ?_ ?_ ?_ ?_ (fun hrx => absurd hrx hnot) ?_, ?_⟩
                rfl
              · exact ⟨fun _ hapart => update_of_ne hapart _ _,
                  fun _ hapart => update_of_ne hapart _ _, fun _ _ _ _ _ => Iff.rfl, rfl, rfl, rfl,
                  rfl, fun _ _ _ => Iff.rfl⟩
              · refine .unattended rfl hnobody ?_ ?_ ?_
                · simp only [setOutstanding, setJob, update_self, hopen]
                · simp only [setOutstanding, update_self]
                · simp only [setOutstanding, setJob, update_self]
                  exact hinv.cmCount_of_not_pending hopen hfree
              · simp [closeReady, setOutstanding, setJob, hdone]
              · exact fun hshut => Bool.noConfusion (hdone.symm.trans hshut)
              · exact fun _ => hnobody
              · exact hinv.conserved.congr rfl rfl rfl rfl rfl rfl rfl rfl
              · exact fun _ => iff_of_true (fun _ _ _ hwho => absurd hwho (hnobody _ _ _)) trivial

omit [DecidableEq Thread] in
theorem frames_rxPut (s : CanOcb Thread Message) (frame : Message) :
    (s.esdcanRxPut frame).frames (s.cmbufIn + 1) = s.frames s.cmbufIn ++ [frame] := by
  rw [frames, frames, List.range_succ, List.filterMap_append]
  congr 1
  · refine List.filterMap_congr ?_
    intro n hn
    exact update_of_ne (List.mem_range.mp hn).ne _ _
  · simp [esdcanRxPut]

omit [DecidableEq Thread] in
/-- The frames of a job fill `cmbuf` from its beginning. -/
theorem foldl_rxPut (s : CanOcb Thread Message) (got : List Message)
    (hlength : s.cmbufIn = s.putting.length) (hholds : s.frames s.cmbufIn = s.putting) :
    ∃ cmbuf, got.foldl esdcanRxPut s = { s with
        cmbuf, cmbufIn := s.cmbufIn + got.length, putting := s.putting ++ got } ∧
      (got.foldl esdcanRxPut s).frames (s.cmbufIn + got.length) = s.putting ++ got := by
  induction got generalizing s with
  | nil => exact ⟨s.cmbuf, by simp, by simpa using hholds⟩
  | cons frame got ih =>
      have hput : (s.esdcanRxPut frame).frames (s.cmbufIn + 1) = s.putting ++ [frame] := by
        rw [frames_rxPut, hholds]
      obtain ⟨cmbuf, heq, hframes⟩ := ih (s.esdcanRxPut frame) (by simp [esdcanRxPut, hlength]) hput
      refine ⟨cmbuf, ?_, ?_⟩
      · rw [List.foldl_cons, heq]
        simp [esdcanRxPut, Nat.add_assoc, Nat.add_comm 1]
      · rw [List.foldl_cons, List.length_cons, ← Nat.add_assoc, Nat.add_right_comm]
        simpa [esdcanRxPut] using hframes

omit [DecidableEq Thread] in
theorem rxPut (hinv : OcbInv s) (hout : s.outstanding .rx = true) (frame : Message) :
    Keeps s (s.esdcanRxPut frame) (.rxPut frame) := by
  refine hinv.keeps_aside ⟨rfl, rfl, rfl, fun _ _ _ _ => Iff.rfl⟩
    (hinv.closing.congr rfl rfl rfl rfl rfl fun _ _ _ => Iff.rfl) hinv.done hinv.released
    ?_ trivial
  obtain ⟨hlength, hholds, -, given, hgiven, hpairs⟩ := hinv.conserved
  have hnone : s.inFlight = [] := by simp [inFlight, hout]
  refine ⟨?_, ?_, fun hnot => Bool.noConfusion (hout.symm.trans hnot), given, ?_, hpairs⟩
  · simp [esdcanRxPut, hlength]
  · exact (frames_rxPut s frame).trans (congrArg (· ++ [frame]) hholds)
  · have hstays : (s.esdcanRxPut frame).inFlight = [] := by simp [inFlight, esdcanRxPut, hout]
    rw [hstays, ← hnone]
    exact hgiven

omit [DecidableEq Thread] in
theorem inFlight_of_not_pending (hfree : (s.job .rx).state.pending = false) : s.inFlight = [] := by
  simp [inFlight, hfree]

theorem read_accepted (hinv : OcbInv s) (hopen : s.handleClosed = false)
    (hthere : s.place thread = .outside) (hheld : s.released = false)
    (hfree : (s.job .rx).state.pending = false) (hlabel : s.PromptStep .tx label) :
    Keeps s (((s.startRx { pending := true } 0).setOutstanding .rx true).goto thread
      (.inside .rx 0 .testing)) label := by
  have hsame : SameBut s (((s.setJob .rx ⟨{ pending := true }, 0, 0⟩).setOutstanding .rx true).goto
      thread (.inside .rx 0 .testing)) .rx := sameBut_start hthere _
  have hnobody : ∀ who count at_, ¬ s.Inside .rx who count at_ :=
    fun who count at_ hwho => hinv.outside_of_not_pending hfree hwho
  refine hinv.keeps_start thread 0 0
    ⟨hsame.job, hsame.outstanding, hsame.inside, rfl, rfl, rfl, rfl, hsame.closing⟩ hopen hheld
    (inside_start hnobody) ?_ ?_ (fun _ => rfl) ?_ hlabel
  · simp only [goto, setOutstanding, startRx, setJob, update_self]
  · simp only [goto, setOutstanding, update_self]
  · obtain ⟨-, -, -, given, hgiven, hpairs⟩ := hinv.conserved
    refine ⟨rfl, rfl, ?_, given, ?_, hpairs⟩
    · simp [goto, setOutstanding]
    · rw [inFlight_of_not_pending hfree] at hgiven
      simpa [inFlight, goto, setOutstanding, startRx, setJob] using hgiven

omit [DecidableEq Thread] in
theorem keeps_idle (hinv : OcbInv s) (hsame : SameBut s next direction) (hdone : s.closeDone = false)
    (hnobody : ∀ who count at_, ¬ next.Inside direction who count at_)
    (hstate : (next.job direction).state = {})
    (hleft : next.outstanding direction = true → direction = .tx ∨ next.handleClosed = true)
    (hcount : next.handleClosed = false → (next.job direction).cmCount = 0)
    (hconserved : next.Conserved) (hlabel : s.PromptStep .tx label) : Keeps s next label := by
  have hprompt : next.Prompt direction := fun _ _ _ hwho => absurd hwho (hnobody _ _ _)
  refine ⟨hinv.of_sameBut hsame (.idle hnobody hstate hleft hcount) ?_ ?_ ?_ ?_ hconserved, ?_⟩
  · rw [closeReady_of_not_done hdone, closeReady_of_not_done (hsame.done.trans hdone)]
  · exact fun hshut => Bool.noConfusion (hdone.symm.trans hshut)
  · exact fun _ => hnobody
  · intro hrx
    subst hrx
    exact ⟨fun _ _ _ hwho => absurd hwho (hnobody _ _ _), hprompt⟩
  · intro hbefore
    refine iff_of_true ?_ hlabel
    by_cases htx : Direction.tx = direction
    · exact htx ▸ hprompt
    · exact hbefore.congr (hsame.job _ htx) (hsame.outstanding _ htx) hsame.closed
        (hsame.inside _ htx)

omit [DecidableEq Thread] in
theorem left_of_not_pending (hinv : OcbInv s) (hfree : (s.job direction).state.pending = false)
    (hout : s.outstanding direction = true) : direction = .tx ∨ s.handleClosed = true := by
  cases hinv.turn direction with
  | idle _ _ hleft => exact hleft hout
  | unattended hdirection => exact .inl hdirection
  | occupied _ _ _ hthere => exact absurd hthere (hinv.outside_of_not_pending hfree)

/-- `cmbuf` with the frames of one job. -/
def filled (s : CanOcb Thread Message) (cmbuf : Nat → Option Message) (got : List Message) :
    CanOcb Thread Message :=
  { s with cmbuf, cmbufIn := got.length, putting := got }

omit [DecidableEq Thread] in
theorem foldl_startRx (s : CanOcb Thread Message) (got : List Message) (state : JobState)
    (result : Int) :
    ∃ cmbuf, got.foldl esdcanRxPut (s.startRx state result) =
        filled (s.setJob .rx ⟨state, result, 0⟩) cmbuf got ∧
      (List.range got.length).filterMap cmbuf = got := by
  obtain ⟨cmbuf, hfilled, hframes⟩ := foldl_rxPut (s.startRx state result) got rfl rfl
  rw [hfilled] at hframes
  refine ⟨cmbuf, ?_, ?_⟩
  · simpa [filled, startRx] using hfilled
  · simpa [frames, startRx] using hframes

omit [DecidableEq Thread] in
@[simp]
theorem job_hand (s : CanOcb Thread Message) : s.hand.job = s.job := by
  rw [hand]
  split <;> rfl

omit [DecidableEq Thread] in
@[simp]
theorem cmbuf_hand (s : CanOcb Thread Message) : s.hand.cmbuf = s.cmbuf := by
  rw [hand]
  split <;> rfl

omit [DecidableEq Thread] in
theorem setJob_hand (s : CanOcb Thread Message) (job : Job) :
    s.hand.setJob direction job = (s.setJob direction job).hand := by
  by_cases hnone : s.putting = []
  · simp [hand, setJob, hnone]
  · simp [hand, setJob, hnone]

omit [DecidableEq Thread] in
/-- A job that began and ended within one call has its frames brought by that call. -/
theorem keeps_took (hinv : OcbInv s) (hopen : s.handleClosed = false)
    (hfree : (s.job .rx).state = {}) (result : Int) {got : List Message} {answer : Return Message}
    {cmbuf : Nat → Option Message} (hframes : (List.range got.length).filterMap cmbuf = got)
    (hanswer : (got = [] ∧ answer.brought = none) ∨
      (got ≠ [] ∧ (answer.brought = some (some got) ∨ answer.brought = some none)))
    (hlabel : s.PromptStep .tx label) :
    Keeps s ((filled (s.setJob .rx ⟨{}, result, 0⟩) cmbuf got).hand.back thread answer) label := by
  have hidle : (s.job .rx).state.pending = false := by rw [hfree]
  have hnobody : ∀ who count at_, ¬ s.Inside .rx who count at_ :=
    fun who count at_ hwho => hinv.outside_of_not_pending hidle hwho
  have hhand : (filled (s.setJob .rx ⟨{}, result, 0⟩) cmbuf got).hand =
      { filled (s.setJob .rx ⟨{}, result, 0⟩) cmbuf got with
        handed := s.handed ++ if got = [] then [] else [got] } := by
    by_cases hnone : got = []
    · simp [hand, filled, setJob, hnone]
    · simp [hand, filled, setJob, hnone]
  have hsame : SameBut s ({ filled (s.setJob .rx ⟨{}, result, 0⟩) cmbuf got with
      handed := s.handed ++ if got = [] then [] else [got] }.back thread answer) .rx :=
    ⟨fun _ hapart => update_of_ne hapart _ _, fun _ _ => rfl, fun _ _ _ _ _ => Iff.rfl, rfl, rfl,
      rfl, rfl, fun _ _ _ => Iff.rfl⟩
  rw [hhand]
  refine hinv.keeps_idle hsame (hinv.closeDone_of_open hopen) hnobody ?_
    (hinv.left_of_not_pending hidle) ?_ ?_ hlabel
  · simp only [back, filled, setJob, update_self]
  · intro _
    simp only [back, filled, setJob, update_self]
  · obtain ⟨-, -, -, given, hgiven, hpairs⟩ := hinv.conserved
    rw [inFlight_of_not_pending hidle, List.append_nil] at hgiven
    refine ⟨rfl, hframes, ?_, given ++ if got = [] then [] else [got], ?_, ?_⟩
    · simp [back, filled, setJob]
    · rw [inFlight_of_not_pending (by simp [back, filled, setJob])]
      simp [back, hgiven]
    · simp only [back, filled, setJob, List.filterMap_append, List.filterMap_cons,
        List.filterMap_nil]
      refine List.rel_append hpairs ?_
      rcases hanswer with ⟨hnone, hanswer⟩ | ⟨hsome, hanswer⟩
      · simp [hnone, hanswer]
      · rw [if_neg hsome]
        rcases hanswer with hanswer | hanswer
        · simp [hanswer]
        · simp [hanswer]

omit [DecidableEq Thread] in
theorem takeFrames_eq (got : List Message) (s : CanOcb Thread Message) (thread : Thread)
    (copied : Bool) (hcount : (s.job .rx).cmCount = got.length)
    (hframes : s.frames got.length = got) :
    ∃ answer, s.takeFrames thread copied =
        (s.setJob .rx ⟨{}, (s.job .rx).result, 0⟩).back thread answer ∧
      ((got = [] ∧ answer.brought = none) ∨
        (got ≠ [] ∧ (answer.brought = some (some got) ∨ answer.brought = some none))) := by
  rw [takeFrames]
  dsimp only
  split
  · next hnone =>
      refine ⟨.failed (.code (s.job .rx).result), ?_, .inl ⟨?_, rfl⟩⟩
      · rw [hnone]
        rfl
      · exact List.eq_nil_of_length_eq_zero (hcount.symm.trans hnone)
  · next hsome =>
      have hgot : got ≠ [] := by
        intro hnil
        exact hsome (by simp [hcount, hnil])
      rw [hcount, hframes]
      cases copied with
      | true => exact ⟨_, rfl, .inr ⟨hgot, .inl rfl⟩⟩
      | false => exact ⟨_, rfl, .inr ⟨hgot, .inr rfl⟩⟩

omit [DecidableEq Thread] in
theorem keeps_takeFrames (hinv : OcbInv s) (hopen : s.handleClosed = false)
    (hfree : (s.job .rx).state = {}) (got : List Message) (before after : JobState)
    (result ended : Int) (copied : Bool) (hlabel : s.PromptStep .tx label) :
    Keeps s ((((got.foldl esdcanRxPut (s.startRx before result)).setJob .rx
      ⟨after, ended, got.length⟩).hand).takeFrames thread copied) label := by
  obtain ⟨cmbuf, hfilled, hframes⟩ := foldl_startRx s got before result
  rw [hfilled]
  obtain ⟨answer, hanswer, hbrought⟩ := takeFrames_eq got
    ((filled (s.setJob .rx ⟨before, result, 0⟩) cmbuf got).setJob .rx
      ⟨after, ended, got.length⟩).hand thread copied (by simp [setJob])
    (by simpa [frames, setJob, filled] using hframes)
  have hkeeps : Keeps s (CanOcb.back _ thread answer) label :=
    hinv.keeps_took hopen hfree ended hframes hbrought hlabel
  rw [hanswer, setJob_hand]
  simpa [setJob, filled] using hkeeps

omit [DecidableEq Thread] in
theorem esdcanRxDone_of_unattended {s : CanOcb Thread Message}
    (hunattended : (s.job .rx).state.unattended = true) (result : Int) (cmCount : Nat) :
    s.esdcanRxDone result cmCount = (s.setJob .rx ⟨{}, result, cmCount⟩).hand := by
  simp only [esdcanRxDone, hunattended]
  rfl

theorem read (hinv : OcbInv s) (hthere : s.place thread = .outside) (hheld : s.released = false)
    (answer : Answer) : Keeps s (s.read thread answer) (.read thread answer) := by
  unfold CanOcb.read
  split
  · exact hinv.keeps_back rfl trivial
  · next hopen =>
      rw [Bool.not_eq_true] at hopen
      split
      · exact hinv.keeps_back rfl trivial
      · next hfree =>
          rw [ne_eq, not_not] at hfree
          cases answer with
          | refused code => exact hinv.keeps_took hopen hfree 0 rfl (.inl ⟨rfl, rfl⟩) trivial
          | accepted count =>
              exact hinv.read_accepted hopen hthere hheld (by rw [hfree]) trivial

omit [DecidableEq Thread] in
theorem take (hinv : OcbInv s) (answer : TakeAnswer Message) (copied : Bool) :
    Keeps s (s.take thread answer copied) (.take thread answer copied) := by
  unfold CanOcb.take
  split
  · exact hinv.keeps_back rfl trivial
  · next hopen =>
      rw [Bool.not_eq_true] at hopen
      split
      · exact hinv.keeps_back rfl trivial
      · next hfree =>
          rw [ne_eq, not_not] at hfree
          cases answer with
          | refused code => exact hinv.keeps_took hopen hfree _ rfl (.inl ⟨rfl, rfl⟩) trivial
          | done got result =>
              obtain ⟨cmbuf, hfilled, -⟩ :=
                foldl_startRx s got { unattended := true } (s.job .rx).result
              have hunattended : ((got.foldl esdcanRxPut (s.startRx { unattended := true }
                  (s.job .rx).result)).job .rx).state.unattended = true := by
                simp [hfilled, filled, setJob]
              dsimp only
              rw [esdcanRxDone_of_unattended hunattended]
              exact hinv.keeps_takeFrames hopen hfree got { unattended := true } {} _ _ copied
                trivial
          | objects got =>
              dsimp only
              rw [setJob_hand, job_hand]
              exact hinv.keeps_takeFrames hopen hfree got { unattended := true } _ _ _ copied trivial

end OcbInv

end CanOcb

end ApolloContrib.Esd
