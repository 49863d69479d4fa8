import ApolloContrib.Library.Run
import ApolloContrib.Esd.OcbReports

namespace ApolloContrib.Esd

open Library

/-! What holds of a handle over whole runs, for any number of threads and any answers of the
nucleus. -/

namespace CanOcb

variable {Thread Message : Type*} (s : CanOcb Thread Message)

/-- The frames of each job that ended with some for a call that was still there went to the user
by one call, whole and in the order of the jobs, but for those of a read that is about to
return. -/
def Delivered : Prop :=
  ∃ given, s.handed = given ++ s.inFlight ∧
    List.Forall₂ (fun frames brought => brought = some frames ∨ brought = none) given
      (s.returned.filterMap fun entry => entry.2.brought)

structure Safe : Prop where
  alone : ∀ direction thread old phase other old' phase',
    s.Inside direction thread old phase → s.Inside direction other old' phase' → thread = other
  freed : s.freed = true → (∀ thread, s.place thread = .outside) ∧
    ∀ direction, s.outstanding direction = false
  delivered : s.Delivered
  left : s.outstanding .rx = true → s.handleClosed = false →
    ∃ thread old phase, s.Inside .rx thread old phase
  prompt : s.Prompt .rx

structure Quiet : Prop where
  asleep : ∀ thread, s.place thread = .outside ∨ (s.place thread).sleeps = true
  reported : ∀ direction, s.outstanding direction = false
  closed : s.handleClosed = true → s.closeDone = true

namespace OcbInv

variable {s}

theorem safe (hinv : OcbInv s) : s.Safe where
  alone direction thread old phase other old' phase' hthere hother :=
    (hinv.turn direction).same hother hthere
  freed hfreed := by
    obtain ⟨-, hdone, houtside⟩ := hinv.freed hfreed
    exact ⟨houtside, hinv.done hdone⟩
  delivered := hinv.conserved.given
  left hout hopen := by
    cases hinv.turn .rx with
    | idle _ _ hleft =>
        have hclosed := (hleft hout).resolve_left (by simp)
        exact Bool.noConfusion (hopen.symm.trans hclosed)
    | unattended hdirection => cases hdirection
    | occupied thread old phase hthere => exact ⟨thread, old, phase, hthere⟩
  prompt := hinv.prompt

theorem awake_of_quiet (hinv : OcbInv s) (hprompt : s.Prompt .tx) (hquiet : s.Quiet)
    (direction : Direction) (thread : Thread) (old : Nat) (phase : Phase) :
    ¬ s.Inside direction thread old phase := by
  intro hthere
  have hprompts : s.Prompt direction := by
    cases direction with
    | rx => exact hinv.prompt
    | tx => exact hprompt
  have hheard := (hprompts _ _ _ hthere).1 (hquiet.reported direction)
  have hasleep := hquiet.asleep thread
  rw [show s.place thread = .inside direction old phase from hthere] at hasleep
  cases phase with
  | asleep => exact hheard
  | abortAsleep => exact hheard
  | testing => simp [Place.sleeps] at hasleep
  | signalled => simp [Place.sleeps] at hasleep
  | aborting => simp [Place.sleeps] at hasleep
  | finishing _ => simp [Place.sleeps] at hasleep

theorem outside_of_quiet (hinv : OcbInv s) (hprompt : s.Prompt .tx) (hquiet : s.Quiet)
    (thread : Thread) : s.place thread = .outside := by
  have hnobody := hinv.awake_of_quiet hprompt hquiet
  -- With nobody inside, no bit keeps `ocb_destroy` waiting.
  have hclosing : ∀ direction, (s.job direction).state.closing = false := by
    intro direction
    cases hinv.turn direction with
    | idle _ hstate => rw [hstate]
    | unattended _ _ _ hout => exact Bool.noConfusion ((hquiet.reported _).symm.trans hout)
    | occupied owner old phase hthere => exact absurd hthere (hnobody _ _ _ _)
  cases hplace : s.place thread with
  | outside => rfl
  | inside direction old phase => exact absurd hplace (hnobody _ _ _ _)
  | closing release phase =>
      have hasleep := hquiet.asleep thread
      rw [hplace] at hasleep
      cases phase with
      | testing => simp [Place.sleeps] at hasleep
      | finishing => simp [Place.sleeps] at hasleep
      | asleep =>
          cases hinv.closing with
          | opened _ hout => exact absurd hplace (hout _ _ _)
          | closed _ hout => exact absurd hplace (hout _ _ _)
          | closing owner own at_ hclosed howner halone _ _ hwaits =>
              obtain rfl := halone _ _ _ hplace
              cases hplace.symm.trans howner
              have hready := hwaits rfl
              simp [closeReady, hquiet.closed hclosed, hclosing] at hready

end OcbInv

end CanOcb

section Runs

variable {Thread Message : Type*} [DecidableEq Thread]

theorem keeps_runs (labels : List (OcbStep Thread Message))
    (hdue : StepsMeet CanOcb.step CanOcb.Due CanOcb.opened labels) :
    Throughout CanOcb.step CanOcb.OcbInv (CanOcb.opened : CanOcb Thread Message) labels ∧
      ∃ final, run CanOcb.step (CanOcb.opened : CanOcb Thread Message) labels = some final := by
  refine throughout_and_total ?_ CanOcb.OcbInv.opened hdue
  intro s label hinv hlabel
  obtain ⟨next, hstep, hkeeps⟩ := hinv.step hlabel
  exact ⟨next, hstep, hkeeps.inv⟩

/-- No step that is due touches a handle that is freed, one thread at a time reads and one writes,
reads and takes bring the frames of each job once, and only on a handle that is closed does a read
return before its job has ended. -/
theorem can_handle_safe (labels : List (OcbStep Thread Message))
    (hdue : StepsMeet CanOcb.step CanOcb.Due CanOcb.opened labels) :
    Throughout CanOcb.step CanOcb.Safe (CanOcb.opened : CanOcb Thread Message) labels ∧
      ∃ final, run CanOcb.step (CanOcb.opened : CanOcb Thread Message) labels = some final := by
  obtain ⟨hkept, hfinal⟩ := keeps_runs labels hdue
  exact ⟨hkept.imp fun _ hinv => hinv.safe, hfinal⟩

/-- A read of two frames, one of none that a signal ends, and the close of the file. -/
theorem can_handle_safe_read :
    ∃ final, run CanOcb.step (CanOcb.opened : CanOcb Bool Nat)
      [.read true (.accepted 2), .take false (.objects [7]) true, .test true, .rxPut 3, .rxPut 4,
        .rxDone 0 2, .test true, .finish true true, .read true (.accepted 1), .signal true,
        .abort true, .test true, .rxDone 5 0, .test true, .finish true true,
        .release true, .closeDone, .test true, .finish true true] = some final :=
  (can_handle_safe _ (by decide)).2

/-- A write sleeps past the end of its job, or leaves its job on an open handle, just where the
frames of a send before it are counted as its own. -/
theorem writes_prompt_iff (labels : List (OcbStep Thread Message))
    (hdue : StepsMeet CanOcb.step CanOcb.Due CanOcb.opened labels) :
    Throughout CanOcb.step (CanOcb.Prompt · .tx) (CanOcb.opened : CanOcb Thread Message) labels ↔
      StepsMeet CanOcb.step (CanOcb.PromptStep · .tx) (CanOcb.opened : CanOcb Thread Message)
        labels := by
  refine throughout_iff_of_due ?_ CanOcb.OcbInv.opened ?_ hdue
  · intro s label hinv hlabel
    obtain ⟨next, hstep, hkeeps⟩ := hinv.step hlabel
    exact ⟨next, hstep, hkeeps.inv, hkeeps.prompt⟩
  · simp [CanOcb.Prompt, CanOcb.Inside, CanOcb.opened]

/-- A send is under way with two frames to go when a write begins. Its job is to end with one frame
more, and ends with one in all. -/
theorem writes_prompt_iff_send :
    ¬ Throughout CanOcb.step (CanOcb.Prompt · .tx) (CanOcb.opened : CanOcb Bool Nat)
      [.send false (.accepted 3), .write true 1 (.pending 2) (.accepted 1), .test true,
        .txDone 0 1] :=
  fun hall => absurd ((writes_prompt_iff _ (by decide)).mp hall) (by decide)

/-- The threads of a handle do not all wait for nothing. -/
theorem can_handle_live (labels : List (OcbStep Thread Message))
    (hdue : StepsMeet CanOcb.step CanOcb.Due CanOcb.opened labels)
    (hprompt : StepsMeet CanOcb.step (CanOcb.PromptStep · .tx) CanOcb.opened labels) :
    Throughout CanOcb.step (fun s => s.Quiet → ∀ thread, s.place thread = .outside)
      (CanOcb.opened : CanOcb Thread Message) labels := by
  have hprompts := (writes_prompt_iff labels hdue).mpr hprompt
  obtain ⟨hkept, -⟩ := keeps_runs labels hdue
  intro before hbefore s hrun hquiet thread
  exact (hkept before hbefore s hrun).outside_of_quiet (hprompts before hbefore s hrun) hquiet thread

/-- The write ends with a frame more than the send before it had left. -/
theorem can_handle_live_send :
    Throughout CanOcb.step (fun s => s.Quiet → ∀ thread, s.place thread = .outside)
      (CanOcb.opened : CanOcb Bool Nat)
      [.send false (.accepted 3), .write true 1 (.pending 2) (.accepted 1), .test true, .txDone 0 3,
        .destroy false, .test true, .finish true true, .closeDone, .test false,
        .finish false true] :=
  can_handle_live _ (by decide) (by decide)

end Runs

end ApolloContrib.Esd
