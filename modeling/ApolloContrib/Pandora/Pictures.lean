import ApolloContrib.Pandora.Packets
import ApolloContrib.Pandora.Picture

namespace ApolloContrib.Pandora

open ApolloContrib.Library

/-! The threads of `PandoraCamera`, started and stopped again and again: the task of the client,
which calls `pushPicture`, and `processPic`. -/

/-- Where `PandoraClientTask` is; between the append and the post of `pushPicture` at the
last. -/
inductive ReceiveTask
  | test
  | receive
  | post
  deriving DecidableEq

/-- The flags, the thread behind each pointer and where it is, a call of `Stop` under way, which
may come before one of `Start`, and what became of the pictures processed. An exception leaves
the thread, and the program is `terminated`. -/
structure PandoraCamera where
  continueProcessPic : Bool
  exit : Bool
  receiveTask : Option ReceiveTask
  client : PandoraClient
  processPicThread : Option ProcessTask
  stopping : Option Bool
  picList : CountedQueue PandoraPic
  outcomes : List Processed
  terminated : Bool

inductive CameraStep
  | stop (start : Bool)
  /-- The threads have ended; `Start` makes new ones, if the tasks of the client can be
  `created`. -/
  | join (created : Bool)
  | testClient
  | receive (event : Event)
  | post
  | testProcess
  | timeout
  | semWait
  | take

namespace PandoraCamera

def init : PandoraCamera :=
  { continueProcessPic := false, exit := false, receiveTask := none, client := .init
    processPicThread := none, stopping := none, picList := .init, outcomes := []
    terminated := false }

variable (s : PandoraCamera)

/-- A round of the client, with the first half of `pushPicture` for a whole picture. -/
def received (client : PandoraClient) : Option PandoraPic → PandoraCamera
  | none => { s with client := client, receiveTask := some .test }
  | some pic =>
      { s with client := client, receiveTask := some .post, picList := s.picList.pushBack pic }

def processed (outcome : Processed) : PandoraCamera :=
  match outcome with
  | .shown _ =>
      { s with processPicThread := some .test, outcomes := s.outcomes ++ [outcome] }
  | .wrongPicId => { s with processPicThread := none, outcomes := s.outcomes ++ [outcome] }
  | .thrown =>
      { s with
        processPicThread := none
        outcomes := s.outcomes ++ [outcome]
        terminated := true }

/-- `none` is an access outside of a block, or the front of an empty list. -/
def step (around : Surroundings) (s : PandoraCamera) : CameraStep → Option PandoraCamera
  | .stop start =>
      some { s with continueProcessPic := false, exit := true, stopping := some start }
  | .join created =>
      if s.stopping = some true ∧ created = true then
        some { s with
          continueProcessPic := true
          exit := false
          receiveTask := some .test
          client := .init
          processPicThread := some .test
          stopping := none }
      else some { s with client := .init, stopping := none }
  | .testClient => some { s with receiveTask := if s.exit then none else some .receive }
  | .receive event =>
      (s.client.pandoraClientTask event).map fun (client, pic) => s.received client pic
  | .post =>
      some { s with receiveTask := some .test, picList := s.picList.semPost SEM_VALUE_MAX }
  | .testProcess =>
      some { s with processPicThread := if s.continueProcessPic then some .wait else none }
  | .timeout => some { s with processPicThread := some .test }
  | .semWait =>
      s.picList.semWait.map fun pics =>
        { s with picList := pics, processPicThread := some .take }
  | .take =>
      s.picList.popFront.bind fun (pic, pics) =>
        match processPic around pic with
        | .error _ => none
        | .ok outcome => some ({ s with picList := pics }.processed outcome)

/-- The thread is there, and nobody calls `Start` or `Stop` during such a call. -/
def Due (s : PandoraCamera) (label : CameraStep) : Prop :=
  s.terminated = false ∧
    match label with
    | .stop _ => s.stopping = none
    | .join _ => s.stopping.isSome ∧ s.receiveTask = none ∧ s.processPicThread = none
    | .testClient => s.receiveTask = some .test
    | .receive _ => s.receiveTask = some .receive
    | .post => s.receiveTask = some .post
    | .testProcess => s.processPicThread = some .test
    | .timeout => s.processPicThread = some .wait
    | .semWait => s.processPicThread = some .wait ∧ s.picList.permits ≠ 0
    | .take => s.processPicThread = some .take

instance (s : PandoraCamera) (label : CameraStep) : Decidable (s.Due label) :=
  match label with
  | .stop _ => inferInstanceAs (Decidable (_ ∧ _))
  | .join _ => inferInstanceAs (Decidable (_ ∧ _ ∧ _ ∧ _))
  | .testClient => inferInstanceAs (Decidable (_ ∧ _))
  | .receive _ => inferInstanceAs (Decidable (_ ∧ _))
  | .post => inferInstanceAs (Decidable (_ ∧ _))
  | .testProcess => inferInstanceAs (Decidable (_ ∧ _))
  | .timeout => inferInstanceAs (Decidable (_ ∧ _))
  | .semWait => inferInstanceAs (Decidable (_ ∧ _ ∧ _))
  | .take => inferInstanceAs (Decidable (_ ∧ _))

/-- Neither the client nor the conversion of the first picture leaves its buffers. -/
def Sound (around : Surroundings) (s : PandoraCamera) : CameraStep → Prop
  | .receive event => s.client.pandoraClientTask event ≠ none
  | .take => ∀ pic ∈ s.picList.items.head?, Stays (processPic around pic)
  | _ => True

end PandoraCamera

/-- The pictures that the clients put together, one client after another. -/
def emitted : PandoraClient → List CameraStep → List PandoraPic
  | _, [] => []
  | _, .join _ :: labels => emitted .init labels
  | client, .receive event :: labels =>
      match client.pandoraClientTask event with
      | none => []
      | some (client, pic) => pic.toList ++ emitted client labels
  | client, _ :: labels => emitted client labels

/-- The pictures that came, in their order, are those processed and those in the list. -/
structure Shown (around : Surroundings) (s : PandoraCamera) (pushed : List PandoraPic) :
    Prop where
  counted : ∃ lost, s.picList.Counted lost
  posting : s.picList.posting = if s.receiveTask = some .post then 1 else 0
  taking : s.picList.taking = if s.processPicThread = some .take then 1 else 0
  turn : ∃ done, done ++ s.picList.items = pushed ∧
    done.map (processPic around) = s.outcomes.map .ok

namespace Shown

variable {around : Surroundings} {s : PandoraCamera} {pushed : List PandoraPic}

theorem init : Shown around .init [] where
  counted := ⟨0, CountedQueue.counted_init⟩
  posting := rfl
  taking := rfl
  turn := ⟨[], rfl, rfl⟩

theorem same (hshown : Shown around s pushed) {next : PandoraCamera}
    (hpics : next.picList = s.picList) (houtcomes : next.outcomes = s.outcomes)
    (hpost : next.receiveTask = some .post ↔ s.receiveTask = some .post)
    (htake : next.processPicThread = some .take ↔ s.processPicThread = some .take) :
    Shown around next pushed := by
  obtain ⟨hcounted, hposting, htaking, hturn⟩ := hshown
  refine ⟨hpics ▸ hcounted, ?_, ?_, ?_⟩
  · rw [hpics, hposting]
    simp only [hpost]
  · rw [hpics, htaking]
    simp only [htake]
  · rw [hpics, houtcomes]
    exact hturn

theorem received (hshown : Shown around s pushed) (hreceive : s.receiveTask = some .receive)
    (client : PandoraClient) (pic : Option PandoraPic) :
    Shown around (s.received client pic) (pushed ++ pic.toList) := by
  cases pic with
  | none =>
      rw [Option.toList_none, List.append_nil]
      exact hshown.same rfl rfl (by simp [PandoraCamera.received, hreceive]) Iff.rfl
  | some pic =>
      obtain ⟨⟨lost, hcounted⟩, hposting, htaking, done, hpushed, hdone⟩ := hshown
      refine ⟨⟨lost, hcounted.pushBack pic⟩, ?_, htaking, done, ?_, hdone⟩
      · change s.picList.posting + 1 = 1
        rw [hposting, hreceive]
        rfl
      · change done ++ (s.picList.items ++ [pic]) = _
        rw [← List.append_assoc, hpushed]
        rfl

theorem post (hshown : Shown around s pushed) (hpost : s.receiveTask = some .post) :
    Shown around
      { s with receiveTask := some .test, picList := s.picList.semPost SEM_VALUE_MAX } pushed := by
  obtain ⟨⟨lost, hcounted⟩, hposting, htaking, hturn⟩ := hshown
  rw [if_pos hpost] at hposting
  have hposts : s.picList.posting ≠ 0 := by
    rw [hposting]
    exact Nat.one_ne_zero
  refine ⟨?_, ?_, htaking, hturn⟩
  · by_cases hroom : s.picList.permits < SEM_VALUE_MAX
    · exact ⟨lost, hcounted.semPost hposts hroom⟩
    · exact ⟨lost + 1, hcounted.semPost_refused hposts hroom⟩
  · change s.picList.posting - 1 = 0
    rw [hposting]

theorem semWait (hshown : Shown around s pushed) (hwaits : s.processPicThread = some .wait)
    (hpermits : s.picList.permits ≠ 0) :
    ∃ pics, s.picList.semWait = some pics ∧
      Shown around { s with picList := pics, processPicThread := some .take } pushed := by
  obtain ⟨⟨lost, hcounted⟩, hposting, htaking, done, hpushed, hdone⟩ := hshown
  obtain ⟨pics, hwait, hcounts, hitems, hposts, htakes⟩ := hcounted.semWait hpermits
  refine ⟨pics, hwait, ⟨lost, hcounts⟩, hposts.trans hposting, ?_, done, ?_, hdone⟩
  · rw [htakes, htaking, hwaits]
    rfl
  · rw [hitems, hpushed]

theorem take (hshown : Shown around s pushed) (htakes : s.processPicThread = some .take) :
    ∃ pic pics, s.picList.popFront = some (pic, pics) ∧ s.picList.items = pic :: pics.items ∧
      ∀ outcome, processPic around pic = .ok outcome →
        Shown around ({ s with picList := pics }.processed outcome) pushed := by
  obtain ⟨⟨lost, hcounted⟩, hposting, htaking, done, hpushed, hdone⟩ := hshown
  rw [if_pos htakes] at htaking
  obtain ⟨pic, pics, hpop, hcounts, hitems, hposts, hleft⟩ :=
    hcounted.popFront (by rw [htaking]; exact Nat.one_ne_zero)
  refine ⟨pic, pics, hpop, hitems, ?_⟩
  intro outcome houtcome
  have hnone : pics.taking = 0 := by rw [hleft, htaking]
  have hturn : (done ++ [pic]) ++ pics.items = pushed := by
    rw [← hpushed, hitems, List.append_assoc]
    rfl
  have hoks : (done ++ [pic]).map (processPic around) = (s.outcomes ++ [outcome]).map .ok := by
    rw [List.map_append, List.map_append, hdone, List.map_singleton, houtcome]
    rfl
  cases outcome <;>
    exact ⟨⟨lost, hcounts⟩, hposts.trans hposting, hnone, done ++ [pic], hturn, hoks⟩

/-- Each step that is due and sound is taken, and the pictures it brings come last. -/
theorem step (hshown : Shown around s pushed) {label : CameraStep} (hdue : s.Due label)
    (hsound : s.Sound around label) :
    ∃ next pics, s.step around label = some next ∧ Shown around next (pushed ++ pics) ∧
      ∀ rest, emitted s.client (label :: rest) = pics ++ emitted next.client rest := by
  obtain ⟨-, hdue⟩ := hdue
  have hkept : ∀ {next : PandoraCamera}, Shown around next pushed →
      Shown around next (pushed ++ []) := fun hnext => by rwa [List.append_nil]
  cases label with
  | stop start => exact ⟨_, [], rfl, hkept (hshown.same rfl rfl Iff.rfl Iff.rfl), fun _ => rfl⟩
  | join created =>
      obtain ⟨-, hreceive, hprocess⟩ := hdue
      by_cases hstart : s.stopping = some true ∧ created = true
      · exact ⟨_, [], if_pos hstart, hkept (hshown.same rfl rfl (by simp [hreceive])
          (by simp [hprocess])), fun _ => rfl⟩
      · exact ⟨_, [], if_neg hstart, hkept (hshown.same rfl rfl Iff.rfl Iff.rfl), fun _ => rfl⟩
  | testClient =>
      have htest : s.receiveTask = some .test := hdue
      refine ⟨_, [], rfl, hkept (hshown.same rfl rfl ?_ Iff.rfl), fun _ => rfl⟩
      cases s.exit <;> simp [htest]
  | receive event =>
      obtain ⟨⟨client, pic⟩, hclient⟩ := Option.ne_none_iff_exists'.mp hsound
      have hreceive : s.receiveTask = some .receive := hdue
      refine ⟨s.received client pic, pic.toList, ?_, hshown.received hreceive client pic, ?_⟩
      · simp [PandoraCamera.step, hclient]
      · intro rest
        rw [emitted, hclient]
        cases pic <;> rfl
  | post => exact ⟨_, [], rfl, hkept (hshown.post hdue), fun _ => rfl⟩
  | testProcess =>
      have htest : s.processPicThread = some .test := hdue
      refine ⟨_, [], rfl, hkept (hshown.same rfl rfl Iff.rfl ?_), fun _ => rfl⟩
      cases s.continueProcessPic <;> simp [htest]
  | timeout =>
      have hwaits : s.processPicThread = some .wait := hdue
      exact ⟨_, [], rfl, hkept (hshown.same rfl rfl Iff.rfl (by simp [hwaits])), fun _ => rfl⟩
  | semWait =>
      obtain ⟨pics, hwait, hnext⟩ := hshown.semWait hdue.1 hdue.2
      exact ⟨_, [], by simp [PandoraCamera.step, hwait], hkept hnext, fun _ => rfl⟩
  | take =>
      obtain ⟨pic, pics, hpop, hitems, hnext⟩ := hshown.take hdue
      obtain ⟨outcome, houtcome⟩ := hsound pic (by simp [hitems])
      refine ⟨({ s with picList := pics } : PandoraCamera).processed outcome, [], ?_,
        hkept (hnext outcome houtcome), ?_⟩
      · simp [PandoraCamera.step, hpop, houtcome]
      · intro rest
        cases outcome <;> rfl

theorem sound (hshown : Shown around s pushed) {label : CameraStep} (hdue : s.Due label)
    {next : PandoraCamera} (hstep : s.step around label = some next) : s.Sound around label := by
  obtain ⟨-, hdue⟩ := hdue
  cases label with
  | receive event =>
      intro hnone
      simp [PandoraCamera.step, hnone] at hstep
  | take =>
      obtain ⟨pic, pics, hpop, hitems, -⟩ := hshown.take hdue
      intro other hother
      rw [hitems, List.head?_cons, Option.mem_some_iff] at hother
      subst hother
      cases houtcome : processPic around pic with
      | error fault => simp [PandoraCamera.step, hpop, houtcome] at hstep
      | ok outcome => exact stays_ok outcome
  | _ => trivial

theorem run (hshown : Shown around s pushed) {labels : List CameraStep}
    (hdue : StepsMeet (PandoraCamera.step around) PandoraCamera.Due s labels)
    {final : PandoraCamera}
    (hrun : Library.run (PandoraCamera.step around) s labels = some final) :
    Shown around final (pushed ++ emitted s.client labels) := by
  induction labels generalizing s pushed with
  | nil =>
      obtain rfl := Option.some.inj hrun
      rw [emitted, List.append_nil]
      exact hshown
  | cons label labels ih =>
      obtain ⟨hlabel, hrest⟩ := stepsMeet_cons.mp hdue
      rw [run_cons] at hrun
      obtain ⟨other, hother, hlast⟩ := Option.bind_eq_some_iff.mp hrun
      obtain ⟨next, pics, hstep, hnext, hemitted⟩ :=
        hshown.step hlabel (hshown.sound hlabel hother)
      obtain rfl := Option.some.inj (hstep.symm.trans hother)
      rw [hemitted, ← List.append_assoc]
      exact ih hnext (hrest next hstep) hlast

end Shown

def InOrder (around : Surroundings) (s : PandoraCamera) : Prop :=
  ∃ pushed, Shown around s pushed

/-- However the threads are interleaved, started and stopped: the pictures are processed one
after another, in the order in which the clients put them together. -/
theorem pictures_in_turn (around : Surroundings) (labels : List CameraStep)
    (hdue : StepsMeet (PandoraCamera.step around) PandoraCamera.Due .init labels) :
    ((∃ final, run (PandoraCamera.step around) .init labels = some final) ↔
      StepsMeet (PandoraCamera.step around) (PandoraCamera.Sound around) .init labels) ∧
    ∀ final, run (PandoraCamera.step around) .init labels = some final →
      ∃ done, done ++ final.picList.items = emitted .init labels ∧
        done.map (processPic around) = final.outcomes.map .ok := by
  constructor
  · have hinit : InOrder around .init := ⟨[], Shown.init⟩
    refine exists_run_iff ?_ ?_ hinit hdue
    · intro s label horder hlabel hsound
      obtain ⟨pushed, hshown⟩ := horder
      obtain ⟨next, pics, hstep, hnext, -⟩ := hshown.step hlabel hsound
      exact ⟨next, hstep, _, hnext⟩
    · intro s label next horder hlabel hstep
      obtain ⟨pushed, hshown⟩ := horder
      exact hshown.sound hlabel hstep
  · intro final hrun
    exact (Shown.init.run hdue hrun).turn

/-- A picture is processed while `Stop` is called. -/
theorem pictures_in_turn_one :
    let around : Surroundings := ⟨fun _ _ _ => (none, none, none), fun _ => true, fun _ => none⟩
    let labels : List CameraStep := [.stop true, .join true, .testClient,
      .receive (.packet (History.packet 0 4 [128, 16, 128, 16])), .testProcess, .post, .stop false,
      .semWait, .take]
    ((∃ final, run (PandoraCamera.step around) .init labels = some final) ↔
      StepsMeet (PandoraCamera.step around) (PandoraCamera.Sound around) .init labels) ∧
    ∀ final, run (PandoraCamera.step around) .init labels = some final →
      ∃ done, done ++ final.picList.items = emitted .init labels ∧
        done.map (processPic around) = final.outcomes.map .ok := by
  intro around labels
  exact pictures_in_turn around labels (by decide +kernel)

end ApolloContrib.Pandora
