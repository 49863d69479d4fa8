import ApolloContrib.Trigger.Camera

namespace ApolloContrib.Trigger

open ApolloContrib.Library

/-! An enabled trigger has the timing that was asked for, as long as no reset
enables one that has none. -/

def ZynqVideo.Enabled (v : ZynqVideo) : Prop := v.camConfig &&& ZYNQ_CAM_EN ≠ 0

def ZynqVideo.hwFps (v : ZynqVideo) : Nat :=
  (bitField v.camTrigger ZYNQ_CAM_TRIG_FPS_OFFSET 5).toNat

/-- The rate and the timing of a trigger that the user has turned on. -/
structure ZynqVideo.Timed (v : ZynqVideo) : Prop where
  pos : 1 ≤ v.fps
  le : v.fps ≤ ZYNQ_FPD_FPS_MAX.toNat
  frameInterval : v.frameInterval = 1000000 / v.fps
  frameUsecMax : v.frameUsecMax = v.frameInterval * v.fps
  hwFps : v.hwFps = v.fps
  userOn : v.userOn = true

def TriggersCoherent {n : Nat} (zdev : ZynqDev n) : Prop :=
  ∀ i, (zdev.zdevVideos i).Enabled → (zdev.zdevVideos i).Timed

section Bits

variable {v : ZynqVideo}

theorem ZynqVideo.enabled_iff : v.Enabled ↔ v.camConfig.getLsbD 0 = true :=
  and_one_shiftLeft_ne_zero_iff _ (by decide)

theorem ZynqVideo.enabled_zvideoEnable : v.zvideoEnable.Enabled := by
  rw [enabled_iff]
  simp [zvideoEnable, ZYNQ_CAM_EN]

theorem ZynqVideo.not_enabled_zvideoDisable : ¬ v.zvideoDisable.Enabled := by
  rw [enabled_iff]
  simp [zvideoDisable, ZYNQ_CAM_EN]

theorem ZynqVideo.enabled_zvideoConfig : v.zvideoConfig.Enabled ↔ v.Enabled := by
  have hfields : ∀ header footer : BitVec 4,
      (setBitField (setBitField v.camConfig ZYNQ_CAM_HEADER_OFFSET header)
        ZYNQ_CAM_FOOTER_OFFSET footer).getLsbD 0 = v.camConfig.getLsbD 0 := by
    intro header footer
    rw [getLsbD_setBitField _ _ _ (by decide), if_neg (by decide),
      getLsbD_setBitField _ _ _ (by decide), if_neg (by decide)]
  rw [enabled_iff, enabled_iff, ← hfields (v.metaHeaderLines.setWidth 4)
    (v.metaFooterLines.setWidth 4)]
  unfold zvideoConfig
  dsimp only
  split <;> simp [ZYNQ_CAM_RGB_YUV_SEL, ZYNQ_CAM_TIMESTAMP_RCV, ZYNQ_CAM_COLOR_SWAP]

theorem ZynqVideo.enabled_zvideoCamReset : v.zvideoCamReset.Enabled ↔ v.Enabled := by
  rw [enabled_iff, enabled_iff]
  simp [zvideoCamReset, ZYNQ_CAM_SENSOR_RESET]

theorem ZynqVideo.hwFps_setTrigFps {fps : BitVec 8} (hfps : fps ≤ ZYNQ_FPD_FPS_MAX) :
    (v.setTrigFps fps).hwFps = fps.toNat := by
  have hle : fps.toNat ≤ 20 := hfps
  rw [hwFps, setTrigFps, bitField_setBitField _ _ _ (by decide), BitVec.toNat_setWidth]
  omega

theorem checkedFps_le (fps : BitVec 8) : checkedFps fps ≤ ZYNQ_FPD_FPS_MAX := by
  unfold checkedFps
  split
  next => decide
  next hfps =>
    push Not at hfps
    exact BitVec.not_lt.mp hfps.2

theorem checkedFps_ne_zero (fps : BitVec 8) : checkedFps fps ≠ 0 := by
  unfold checkedFps
  split
  next => decide
  next hfps =>
    push Not at hfps
    exact hfps.1

end Bits

structure ZynqVideo.Kept (v : ZynqVideo) : Prop where
  timed : v.fps ≠ 0 → v.Timed
  enabled : v.Enabled → v.fps ≠ 0

structure ZynqVideo.SameTiming (v w : ZynqVideo) : Prop where
  fps : w.fps = v.fps
  frameInterval : w.frameInterval = v.frameInterval
  frameUsecMax : w.frameUsecMax = v.frameUsecMax
  camTrigger : w.camTrigger = v.camTrigger
  userOn : w.userOn = v.userOn

namespace ZynqVideo

variable {v w : ZynqVideo}

theorem Timed.of_same (htimed : v.Timed) (hsame : SameTiming v w) : w.Timed := by
  obtain ⟨hpos, hle, hinterval, hmax, hhw, hon⟩ := htimed
  obtain ⟨hfps, hinterval', hmax', htrigger, hon'⟩ := hsame
  refine ⟨?_, ?_, ?_, ?_, ?_, ?_⟩
  · rw [hfps]
    exact hpos
  · rw [hfps]
    exact hle
  · rw [hinterval', hfps]
    exact hinterval
  · rw [hmax', hinterval', hfps]
    exact hmax
  · rw [ZynqVideo.hwFps, htrigger, hfps]
    exact hhw
  · rw [hon']
    exact hon

theorem Kept.of_same (hkept : v.Kept) (hsame : SameTiming v w)
    (henabled : w.Enabled → v.fps ≠ 0) : w.Kept := by
  refine ⟨fun hfps => ?_, fun hon => ?_⟩
  · rw [hsame.fps] at hfps
    exact (hkept.timed hfps).of_same hsame
  · rw [hsame.fps]
    exact henabled hon

theorem kept_setTiming {fps : BitVec 8} (hfps : fps ≠ 0) (hle : fps ≤ ZYNQ_FPD_FPS_MAX)
    (hhw : v.hwFps = fps.toNat) : (v.setTiming fps).Kept := by
  have hpos : fps.toNat ≠ 0 := fun hzero => hfps (BitVec.eq_of_toNat_eq hzero)
  exact ⟨fun _ => ⟨Nat.one_le_iff_ne_zero.mpr hpos, hle, rfl, rfl, hhw, rfl⟩, fun _ => hpos⟩

theorem kept_clearTiming (hdisabled : ¬ v.Enabled) : v.clearTiming.Kept :=
  ⟨fun hfps => absurd rfl hfps, fun hon => absurd hon hdisabled⟩

theorem kept_zvideoTriggerEnable (trigger : ZynqTrigger) :
    (v.zvideoTriggerEnable trigger).Kept :=
  kept_setTiming (checkedFps_ne_zero _) (checkedFps_le _)
    (hwFps_setTrigFps (checkedFps_le _))

theorem Kept.triggerEnableAll (hkept : v.Kept) {fps : BitVec 8} (hfps : fps ≠ 0)
    (hle : fps ≤ ZYNQ_FPD_FPS_MAX) : (v.triggerEnableAll fps).Kept := by
  unfold ZynqVideo.triggerEnableAll
  split
  next => exact kept_setTiming hfps hle (hwFps_setTrigFps hle)
  next => exact hkept

theorem Kept.triggerDisableAll (hkept : v.Kept) : v.triggerDisableAll.Kept := by
  unfold ZynqVideo.triggerDisableAll
  split
  next => exact kept_clearTiming not_enabled_zvideoDisable
  next => exact hkept

theorem Kept.zvideoStartStreaming (hkept : v.Kept) (zeroCopy : Bool) (bufNum count : Nat)
    (rxReady : Bool) : (v.zvideoStartStreaming zeroCopy bufNum count rxReady).Kept := by
  unfold ZynqVideo.zvideoStartStreaming
  split
  next => exact hkept
  next =>
    split
    next => exact hkept.of_same ⟨rfl, rfl, rfl, rfl, rfl⟩ hkept.enabled
    next =>
      refine hkept.of_same ⟨rfl, rfl, rfl, rfl, rfl⟩ fun hon => hkept.enabled ?_
      have hbefore := (enabled_zvideoConfig (v := { v with bufTotal := count })).mp hon
      exact hbefore

theorem Kept.zvideoStopStreaming (hkept : v.Kept) : v.zvideoStopStreaming.Kept :=
  hkept.of_same ⟨rfl, rfl, rfl, rfl, rfl⟩
    fun hon => absurd hon (not_enabled_zvideoDisable (v := { v with streaming := false }))

theorem sameTiming_clearFaults : SameTiming v v.clearFaults := by
  unfold clearFaults
  dsimp only
  split <;> exact ⟨rfl, rfl, rfl, rfl, rfl⟩

theorem enabled_clearFaults : v.clearFaults.Enabled ↔ v.Enabled := by
  unfold clearFaults
  dsimp only
  split
  next => exact enabled_zvideoCamReset (v := { v with chanFault := false, resetRetry := none })
  next => exact Iff.rfl

theorem enabled_resetFinish (hstreaming : v.streaming = true) : v.resetFinish.Enabled := by
  rw [resetFinish, if_pos hstreaming]
  exact enabled_zvideoEnable

theorem fps_resetFinish : v.resetFinish.fps = v.fps := by
  unfold resetFinish
  split <;> exact sameTiming_clearFaults.fps

theorem Kept.resetFinish (hkept : v.Kept) (hreenable : v.streaming = true → v.fps ≠ 0) :
    v.resetFinish.Kept := by
  obtain ⟨hfps, hinterval, hmax, htrigger, hon⟩ := sameTiming_clearFaults (v := v)
  unfold ZynqVideo.resetFinish
  split
  next hstreaming =>
    exact hkept.of_same ⟨hfps, hinterval, hmax, htrigger, hon⟩ fun _ => hreenable hstreaming
  next =>
    exact hkept.of_same sameTiming_clearFaults fun hon =>
      hkept.enabled (enabled_clearFaults.mp hon)

/-- The reset, at the test of its loop, enables the trigger before it sleeps or
ends. -/
def Reenables (v : ZynqVideo) (zeroCopy : Bool) (retry : Nat) : Prop :=
  if zeroCopy ∧ v.bufAvail ≠ v.bufTotal then retry ≥ 5 else v.streaming = true

theorem Kept.resetCheck (hkept : v.Kept) (zeroCopy : Bool) (retry : Nat)
    (hreenable : v.Reenables zeroCopy retry → v.fps ≠ 0) :
    (v.resetCheck zeroCopy retry).Kept := by
  unfold Reenables at hreenable
  unfold ZynqVideo.resetCheck
  split
  next hwaiting =>
    rw [if_pos hwaiting] at hreenable
    split
    next hgiveUp =>
      exact hkept.of_same ⟨rfl, rfl, rfl, rfl, rfl⟩ fun _ => hreenable hgiveUp
    next => exact hkept.of_same ⟨rfl, rfl, rfl, rfl, rfl⟩ hkept.enabled
  next hready =>
    rw [if_neg hready] at hreenable
    exact hkept.resetFinish hreenable

theorem not_coherent_resetCheck (zeroCopy : Bool) (retry : Nat)
    (hreenables : v.Reenables zeroCopy retry) (hfps : v.fps = 0) :
    ¬ ((v.resetCheck zeroCopy retry).Enabled → (v.resetCheck zeroCopy retry).Timed) := by
  have hresult : (v.resetCheck zeroCopy retry).Enabled ∧
      (v.resetCheck zeroCopy retry).fps = 0 := by
    unfold Reenables at hreenables
    unfold ZynqVideo.resetCheck
    split
    next hwaiting =>
      rw [if_pos hwaiting] at hreenables
      rw [if_pos hreenables]
      exact ⟨enabled_zvideoEnable, hfps⟩
    next hready =>
      rw [if_neg hready] at hreenables
      exact ⟨enabled_resetFinish hreenables, fps_resetFinish.trans hfps⟩
  intro hcoherent
  have hpos := (hcoherent hresult.1).pos
  rw [hresult.2] at hpos
  exact absurd hpos (by decide)

/-- The reset that the watchdog starts, or that wakes up, enables the trigger. -/
def WatchdogReenables (v : ZynqVideo) (zeroCopy : Bool) : Prop :=
  v.resetRetry = none ∧ (v.chanFault ∨ v.camFault) ∧ v.streaming = true ∧
    v.Reenables zeroCopy 0

def WakeReenables (v : ZynqVideo) (zeroCopy : Bool) : Prop :=
  ∃ retry, v.resetRetry = some retry ∧ v.Reenables zeroCopy retry

theorem Kept.zvideoReset (hkept : v.Kept) (zeroCopy : Bool)
    (hreenable : v.streaming = true → v.Reenables zeroCopy 0 → v.fps ≠ 0) :
    (v.zvideoReset zeroCopy).Kept := by
  unfold ZynqVideo.zvideoReset
  split
  next hstreaming =>
    have hdisabled : v.zvideoDisable.Kept :=
      hkept.of_same ⟨rfl, rfl, rfl, rfl, rfl⟩ fun hon => absurd hon not_enabled_zvideoDisable
    exact hdisabled.resetCheck zeroCopy 0 (hreenable hstreaming)
  next hidle => exact hkept.resetFinish fun hstreaming => absurd hstreaming hidle

theorem Kept.zvideoWatchdog (hkept : v.Kept) (zeroCopy : Bool)
    (hreenable : v.WatchdogReenables zeroCopy → v.fps ≠ 0) :
    (v.zvideoWatchdog zeroCopy).Kept := by
  unfold ZynqVideo.zvideoWatchdog
  split
  next hfault =>
    exact hkept.zvideoReset zeroCopy fun hstreaming hagain =>
      hreenable ⟨hfault.1, hfault.2, hstreaming, hagain⟩
  next => exact hkept

theorem Kept.resetWake (hkept : v.Kept) (zeroCopy : Bool)
    (hreenable : v.WakeReenables zeroCopy → v.fps ≠ 0) : (v.resetWake zeroCopy).Kept := by
  unfold ZynqVideo.resetWake
  split
  next => exact hkept
  next retry hretry =>
    exact hkept.resetCheck zeroCopy retry fun hagain => hreenable ⟨retry, hretry, hagain⟩

end ZynqVideo

section Runs

variable {n : Nat} {cfg : TriggerConfig} {zdev : ZynqDev n}

/-- A reset enables a trigger only if it has a rate. -/
def ResetsTimed (cfg : TriggerConfig) (zdev : ZynqDev n) : TriggerEvent n → Prop
  | .watchdog i => (zdev.zdevVideos i).WatchdogReenables cfg.zeroCopy →
      (zdev.zdevVideos i).fps ≠ 0
  | .resetWake i => (zdev.zdevVideos i).WakeReenables cfg.zeroCopy →
      (zdev.zdevVideos i).fps ≠ 0
  | _ => True

def ZynqDev.Kept (zdev : ZynqDev n) : Prop := ∀ i, (zdev.zdevVideos i).Kept

theorem ZynqDev.Kept.onVideo (hkept : zdev.Kept) (i : Fin n) (f : ZynqVideo → ZynqVideo)
    (hf : (f (zdev.zdevVideos i)).Kept) : (zdev.onVideo i f).Kept := by
  intro j
  unfold ZynqDev.onVideo
  dsimp only
  by_cases hj : j = i
  · rw [hj, Function.update_self]
    exact hf
  · rw [Function.update_of_ne hj]
    exact hkept j

theorem ZynqDev.Kept.zynqTriggerEnableAll (hkept : zdev.Kept)
    (arg : Option (Option ZynqTrigger)) (internal one : Bool) :
    (zdev.zynqTriggerEnableAll arg internal one).Kept := by
  cases arg with
  | none => exact fun i => (hkept i).triggerEnableAll (by decide) (by decide)
  | some copied =>
      cases copied with
      | none => exact hkept
      | some trigger =>
          exact fun i => (hkept i).triggerEnableAll (checkedFps_ne_zero _) (checkedFps_le _)

theorem ZynqDev.Kept.triggerCall (hkept : zdev.Kept) {event : TriggerEvent n}
    (hok : ResetsTimed cfg zdev event) : (triggerCall cfg zdev event).Kept := by
  cases event with
  | enableOne i trigger =>
      refine hkept.onVideo i (·.zvideoTriggerEnable trigger) ?_
      exact ZynqVideo.kept_zvideoTriggerEnable trigger
  | disableOne i =>
      refine hkept.onVideo i (·.zvideoTriggerDisable) ?_
      exact ZynqVideo.kept_clearTiming ZynqVideo.not_enabled_zvideoDisable
  | enableAll arg internal one => exact hkept.zynqTriggerEnableAll arg internal one
  | disableAll => exact fun i => (hkept i).triggerDisableAll
  | startStreaming i count rxReady =>
      refine hkept.onVideo i (·.zvideoStartStreaming cfg.zeroCopy cfg.bufNum count rxReady) ?_
      exact (hkept i).zvideoStartStreaming _ _ count rxReady
  | stopStreaming i =>
      refine hkept.onVideo i (·.zvideoStopStreaming) ?_
      exact (hkept i).zvideoStopStreaming
  | watchdog i =>
      refine hkept.onVideo i (·.zvideoWatchdog cfg.zeroCopy) ?_
      exact (hkept i).zvideoWatchdog _ hok
  | resetWake i =>
      refine hkept.onVideo i (·.resetWake cfg.zeroCopy) ?_
      exact (hkept i).resetWake _ hok
  | buffers i bufAvail =>
      refine hkept.onVideo i ({ · with bufAvail := bufAvail }) ?_
      exact (hkept i).of_same ⟨rfl, rfl, rfl, rfl, rfl⟩ (hkept i).enabled
  | chanFault i =>
      refine hkept.onVideo i ({ · with chanFault := true }) ?_
      exact (hkept i).of_same ⟨rfl, rfl, rfl, rfl, rfl⟩ (hkept i).enabled
  | camFault i =>
      refine hkept.onVideo i ({ · with camFault := true }) ?_
      exact (hkept i).of_same ⟨rfl, rfl, rfl, rfl, rfl⟩ (hkept i).enabled
  | link i linkUp =>
      refine hkept.onVideo i ({ · with linkUp := linkUp }) ?_
      exact (hkept i).of_same ⟨rfl, rfl, rfl, rfl, rfl⟩ (hkept i).enabled

theorem ZynqDev.zdevVideos_onVideo (i : Fin n) (f : ZynqVideo → ZynqVideo) :
    (zdev.onVideo i f).zdevVideos i = f (zdev.zdevVideos i) :=
  Function.update_self _ _ _

theorem not_coherent_of_not_timed {event : TriggerEvent n}
    (hbad : ¬ ResetsTimed cfg zdev event) :
    ¬ TriggersCoherent (Trigger.triggerCall cfg zdev event) := by
  intro hcoherent
  cases event with
  | watchdog i =>
      obtain ⟨⟨hidle, hfault, hstreaming, hagain⟩, hfps⟩ := Classical.not_imp.mp hbad
      have hnow := hcoherent i
      rw [Trigger.triggerCall, ZynqDev.zdevVideos_onVideo, ZynqVideo.zvideoWatchdog,
        if_pos ⟨hidle, hfault⟩, ZynqVideo.zvideoReset, if_pos hstreaming] at hnow
      have hagain : ((zdev.zdevVideos i).zvideoDisable).Reenables cfg.zeroCopy 0 := hagain
      exact ZynqVideo.not_coherent_resetCheck cfg.zeroCopy 0 hagain (not_not.mp hfps) hnow
  | resetWake i =>
      obtain ⟨⟨retry, hretry, hagain⟩, hfps⟩ := Classical.not_imp.mp hbad
      have hnow := hcoherent i
      rw [Trigger.triggerCall, ZynqDev.zdevVideos_onVideo, ZynqVideo.resetWake, hretry] at hnow
      exact ZynqVideo.not_coherent_resetCheck cfg.zeroCopy retry hagain (not_not.mp hfps) hnow
  | enableOne | disableOne | enableAll | disableAll | startStreaming | stopStreaming | buffers
  | chanFault | camFault | link => exact hbad trivial

theorem kept_atStart (hstart : ∀ i, (zdev.zdevVideos i).AtStart) : zdev.Kept := by
  intro i
  obtain ⟨hdisabled, hfps⟩ := hstart i
  exact ⟨fun hrate => absurd hfps hrate, fun hon => absurd hdisabled hon⟩

theorem run_triggerStep (zdev : ZynqDev n) (events : List (TriggerEvent n)) :
    run (triggerStep cfg) zdev events = some (events.foldl (Trigger.triggerCall cfg) zdev) := by
  induction events generalizing zdev with
  | nil => rfl
  | cons event events ih => exact ih (Trigger.triggerCall cfg zdev event)

/-- The triggers are coherent throughout exactly the runs in which no reset enables
a trigger that has no rate. -/
theorem triggersCoherent_iff (hstart : ∀ i, (zdev.zdevVideos i).AtStart)
    (events : List (TriggerEvent n)) :
    Throughout (triggerStep cfg) TriggersCoherent zdev events ↔
      StepsMeet (triggerStep cfg) (ResetsTimed cfg) zdev events := by
  have himp : ∀ zdev : ZynqDev n, zdev.Kept → TriggersCoherent zdev :=
    fun zdev hkept i hon => (hkept i).timed ((hkept i).enabled hon)
  have htaken : ∀ {zdev : ZynqDev n} {event : TriggerEvent n}, zdev.Kept →
      ResetsTimed cfg zdev event →
        ∃ next, triggerStep cfg zdev event = some next ∧ next.Kept :=
    fun hkept hok => ⟨_, rfl, hkept.triggerCall hok⟩
  have hbreaks : ∀ {zdev : ZynqDev n} {event : TriggerEvent n} {next : ZynqDev n},
      zdev.Kept → ¬ ResetsTimed cfg zdev event →
        triggerStep cfg zdev event = some next → ¬ TriggersCoherent next := by
    rintro zdev event next - hbad hstep
    obtain rfl := Option.some.inj hstep
    exact not_coherent_of_not_timed hbad
  have hiff : (Throughout (triggerStep cfg) TriggersCoherent zdev events ∧
      ∃ final, run (triggerStep cfg) zdev events = some final) ↔
        StepsMeet (triggerStep cfg) (ResetsTimed cfg) zdev events :=
    stepsMeet_iff_throughout himp htaken hbreaks (kept_atStart hstart)
  rw [← hiff]
  exact (and_iff_left ⟨_, run_triggerStep zdev events⟩).symm

end Runs

def oneCamera : ZynqDev 1 where
  gConfig := 0
  zdevVideos := fun _ => ⟨0, 0, 2, 2, false, true, false, false, false, 0, 0, 0, 0, 0, none, false⟩

theorem oneCamera_atStart (i : Fin 1) : (oneCamera.zdevVideos i).AtStart :=
  ⟨BitVec.zero_and, rfl⟩

theorem triggersCoherent_iff_oneCamera :
    Throughout (triggerStep ⟨false, 4⟩) TriggersCoherent oneCamera
        [.startStreaming 0 4 true, .enableOne 0 ⟨20, 0⟩] ↔
      StepsMeet (triggerStep ⟨false, 4⟩) (ResetsTimed ⟨false, 4⟩) oneCamera
        [.startStreaming 0 4 true, .enableOne 0 ⟨20, 0⟩] :=
  triggersCoherent_iff oneCamera_atStart _

/-- The user turns the trigger off, and the reset after a fault turns it on. -/
theorem triggersCoherent_fails :
    ¬ Throughout (triggerStep ⟨false, 4⟩) TriggersCoherent oneCamera
        [.startStreaming 0 4 true, .enableOne 0 ⟨20, 0⟩, .disableOne 0, .chanFault 0,
          .watchdog 0] := by
  intro hall
  have hlast := (hall.last rfl) 0 (ne_of_beq_false rfl)
  exact absurd hlast.pos (by decide)

end ApolloContrib.Trigger
