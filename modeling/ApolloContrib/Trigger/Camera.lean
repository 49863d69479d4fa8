import ApolloContrib.Library.Bits
import ApolloContrib.Library.Run
import Mathlib.Logic.Function.Basic

namespace ApolloContrib.Trigger

open ApolloContrib.Library

/-! The camera triggers of a card: the operations of `basa_video.c` and
`basa_trigger.c` that write the enable bit, the rate and the timing of a camera. -/

def ZYNQ_CAM_EN : BitVec 32 := 1#32 <<< 0
def ZYNQ_CAM_RGB_YUV_SEL : BitVec 32 := 1#32 <<< 3
def ZYNQ_CAM_COLOR_SWAP : BitVec 32 := 1#32 <<< 4
def ZYNQ_CAM_TIMESTAMP_RCV : BitVec 32 := 1#32 <<< 5
def ZYNQ_CAM_SENSOR_RESET : BitVec 32 := 1#32 <<< 6
def ZYNQ_CAM_FOOTER_OFFSET : Nat := 8
def ZYNQ_CAM_HEADER_OFFSET : Nat := 12
def ZYNQ_CAM_TRIG_FPS_OFFSET : Nat := 24

def ZYNQ_CONFIG_TRIGGER_ONE : BitVec 32 := 1#32 <<< 16
def ZYNQ_CONFIG_GPS_SW : BitVec 32 := 1#32 <<< 17
def ZYNQ_CONFIG_TRIGGER : BitVec 32 := 1#32 <<< 18
def ZYNQ_CONFIG_TRIGGER_MASK : BitVec 32 := 0x00070000#32

def ZYNQ_FPD_FPS_MAX : BitVec 8 := 20
def ZYNQ_FPD_FPS_DEFAULT : BitVec 8 := 10
def USEC_PER_SEC : Nat := 1000000

structure ZynqTrigger where
  fps : BitVec 8
  internal : BitVec 8

/-- `resetRetry` is the count of a `zvideo_reset` that sleeps, and `userOn` records
whether the last trigger request to reach the camera enabled it. -/
structure ZynqVideo where
  camConfig : BitVec 32
  camTrigger : BitVec 32
  metaHeaderLines : BitVec 32
  metaFooterLines : BitVec 32
  rgb24 : Bool
  linkUp : Bool
  streaming : Bool
  chanFault : Bool
  camFault : Bool
  bufTotal : Nat
  bufAvail : Nat
  fps : Nat
  frameInterval : Nat
  frameUsecMax : Nat
  resetRetry : Option Nat
  userOn : Bool

def checkedFps (fps : BitVec 8) : BitVec 8 :=
  if fps = 0 ∨ fps > ZYNQ_FPD_FPS_MAX then ZYNQ_FPD_FPS_DEFAULT else fps

namespace ZynqVideo

variable (v : ZynqVideo)

def zvideoEnable : ZynqVideo := { v with camConfig := v.camConfig ||| ZYNQ_CAM_EN }

def zvideoDisable : ZynqVideo := { v with camConfig := v.camConfig &&& ~~~ZYNQ_CAM_EN }

def zvideoConfig : ZynqVideo :=
  let header : BitVec 4 := v.metaHeaderLines.setWidth 4
  let footer : BitVec 4 := v.metaFooterLines.setWidth 4
  let camCfg := setBitField (setBitField v.camConfig ZYNQ_CAM_HEADER_OFFSET header)
    ZYNQ_CAM_FOOTER_OFFSET footer
  let camCfg :=
    if v.rgb24 then camCfg ||| ZYNQ_CAM_RGB_YUV_SEL else camCfg &&& ~~~ZYNQ_CAM_RGB_YUV_SEL
  { v with camConfig := camCfg ||| ZYNQ_CAM_TIMESTAMP_RCV ||| ZYNQ_CAM_COLOR_SWAP }

def zvideoCamReset : ZynqVideo :=
  { v with camConfig := (v.camConfig ||| ZYNQ_CAM_SENSOR_RESET) &&& ~~~ZYNQ_CAM_SENSOR_RESET }

def setTrigFps (fps : BitVec 8) : ZynqVideo :=
  let field : BitVec 5 := fps.setWidth 5
  { v with camTrigger := setBitField v.camTrigger ZYNQ_CAM_TRIG_FPS_OFFSET field }

def setTiming (fps : BitVec 8) : ZynqVideo :=
  { v with
    fps := fps.toNat
    frameInterval := USEC_PER_SEC / fps.toNat
    frameUsecMax := USEC_PER_SEC / fps.toNat * fps.toNat
    userOn := true }

def clearTiming : ZynqVideo :=
  { v with fps := 0, frameInterval := 0, frameUsecMax := 0, userOn := false }

def zvideoTriggerEnable (trigger : ZynqTrigger) : ZynqVideo :=
  let fps := checkedFps trigger.fps
  ((v.zvideoDisable.setTrigFps fps).zvideoEnable).setTiming fps

def zvideoTriggerDisable : ZynqVideo := v.zvideoDisable.clearTiming

def triggerEnableAll (fps : BitVec 8) : ZynqVideo :=
  if v.linkUp then ((v.setTrigFps fps).zvideoEnable).setTiming fps else v

def triggerDisableAll : ZynqVideo := if v.linkUp then v.zvideoDisable.clearTiming else v

/-- `zvideo_start_streaming`. `rxReady` says whether `zvideo_init_rx` succeeds. -/
def zvideoStartStreaming (zeroCopy : Bool) (bufNum count : Nat) (rxReady : Bool) :
    ZynqVideo :=
  if count < bufNum then v
  else if zeroCopy ∧ ¬ rxReady then { v with bufTotal := count }
  else { ({ v with bufTotal := count } : ZynqVideo).zvideoConfig with streaming := true }

def zvideoStopStreaming : ZynqVideo :=
  { ({ v with streaming := false } : ZynqVideo).zvideoDisable with bufTotal := 0 }

/-- `zvideo_reset` clears the faults, and resets the sensor if it is at fault. -/
def clearFaults : ZynqVideo :=
  let v := { v with chanFault := false, resetRetry := none }
  if v.camFault then { v.zvideoCamReset with camFault := false } else v

def resetFinish : ZynqVideo :=
  if v.streaming then v.clearFaults.zvideoConfig.zvideoEnable else v.clearFaults

/-- The test of the loop of `zvideo_reset`, with what follows up to the next
sleep. -/
def resetCheck (zeroCopy : Bool) (retry : Nat) : ZynqVideo :=
  if zeroCopy ∧ v.bufAvail ≠ v.bufTotal then
    if retry ≥ 5 then { v.zvideoEnable with resetRetry := none }
    else { v with resetRetry := some (retry + 1) }
  else v.resetFinish

def zvideoReset (zeroCopy : Bool) : ZynqVideo :=
  if v.streaming then v.zvideoDisable.resetCheck zeroCopy 0 else v.resetFinish

/-- `zvideo_watchdog`, which is not run again before a reset is over. -/
def zvideoWatchdog (zeroCopy : Bool) : ZynqVideo :=
  if v.resetRetry = none ∧ (v.chanFault ∨ v.camFault) then v.zvideoReset zeroCopy else v

def resetWake (zeroCopy : Bool) : ZynqVideo :=
  match v.resetRetry with
  | none => v
  | some retry => v.resetCheck zeroCopy retry

end ZynqVideo

structure ZynqDev (n : Nat) where
  gConfig : BitVec 32
  zdevVideos : Fin n → ZynqVideo

namespace ZynqDev

variable {n : Nat} (zdev : ZynqDev n)

def onVideo (i : Fin n) (f : ZynqVideo → ZynqVideo) : ZynqDev n :=
  { zdev with zdevVideos := Function.update zdev.zdevVideos i (f (zdev.zdevVideos i)) }

def onVideos (f : ZynqVideo → ZynqVideo) : ZynqDev n :=
  { zdev with zdevVideos := fun i => f (zdev.zdevVideos i) }

/-- The global trigger, as `zvideo_trigger_enable` sets it. -/
def enableGlobal (internal : BitVec 8) : ZynqDev n :=
  let val := zdev.gConfig &&& ~~~ZYNQ_CONFIG_TRIGGER_MASK ||| ZYNQ_CONFIG_TRIGGER
  { zdev with gConfig := if internal ≠ 0 then val ||| ZYNQ_CONFIG_GPS_SW else val }

/-- `arg` is what a request brings along, and `some none` a failing copy of it. -/
def zynqTriggerEnableAll (arg : Option (Option ZynqTrigger)) (internal one : Bool) :
    ZynqDev n :=
  let enable (fps : BitVec 8) (internal : Bool) : ZynqDev n :=
    let videos := zdev.onVideos (·.triggerEnableAll fps)
    let val := zdev.gConfig &&& ~~~ZYNQ_CONFIG_TRIGGER_MASK
    let val := val ||| if one then ZYNQ_CONFIG_TRIGGER_ONE else ZYNQ_CONFIG_TRIGGER
    { videos with gConfig := if internal then val ||| ZYNQ_CONFIG_GPS_SW else val }
  match arg with
  | none => enable ZYNQ_FPD_FPS_DEFAULT internal
  | some none => zdev
  | some (some trigger) => enable (checkedFps trigger.fps) (trigger.internal ≠ 0)

def zynqTriggerDisableAll : ZynqDev n :=
  { zdev.onVideos (·.triggerDisableAll) with
    gConfig := zdev.gConfig &&& ~~~ZYNQ_CONFIG_TRIGGER_MASK }

end ZynqDev

/-- Each call runs as a whole, but for the sleeps of a reset. The last four are
changes of buffers, faults and the link that other code makes. -/
inductive TriggerEvent (n : Nat) where
  | enableOne (i : Fin n) (trigger : ZynqTrigger)
  | disableOne (i : Fin n)
  | enableAll (arg : Option (Option ZynqTrigger)) (internal one : Bool)
  | disableAll
  | startStreaming (i : Fin n) (count : Nat) (rxReady : Bool)
  | stopStreaming (i : Fin n)
  | watchdog (i : Fin n)
  | resetWake (i : Fin n)
  | buffers (i : Fin n) (bufAvail : Nat)
  | chanFault (i : Fin n)
  | camFault (i : Fin n)
  | link (i : Fin n) (linkUp : Bool)

/-- The module parameters `zynq_video_zero_copy` and `zynq_video_buf_num`. -/
structure TriggerConfig where
  zeroCopy : Bool
  bufNum : Nat

def triggerCall {n : Nat} (cfg : TriggerConfig) (zdev : ZynqDev n) :
    TriggerEvent n → ZynqDev n
  | .enableOne i trigger =>
      (zdev.onVideo i (·.zvideoTriggerEnable trigger)).enableGlobal trigger.internal
  | .disableOne i => zdev.onVideo i (·.zvideoTriggerDisable)
  | .enableAll arg internal one => zdev.zynqTriggerEnableAll arg internal one
  | .disableAll => zdev.zynqTriggerDisableAll
  | .startStreaming i count rxReady =>
      zdev.onVideo i (·.zvideoStartStreaming cfg.zeroCopy cfg.bufNum count rxReady)
  | .stopStreaming i => zdev.onVideo i (·.zvideoStopStreaming)
  | .watchdog i => zdev.onVideo i (·.zvideoWatchdog cfg.zeroCopy)
  | .resetWake i => zdev.onVideo i (·.resetWake cfg.zeroCopy)
  | .buffers i bufAvail => zdev.onVideo i ({ · with bufAvail := bufAvail })
  | .chanFault i => zdev.onVideo i ({ · with chanFault := true })
  | .camFault i => zdev.onVideo i ({ · with camFault := true })
  | .link i linkUp => zdev.onVideo i ({ · with linkUp := linkUp })

def triggerStep {n : Nat} (cfg : TriggerConfig) (zdev : ZynqDev n) (event : TriggerEvent n) :
    Option (ZynqDev n) :=
  some (triggerCall cfg zdev event)

/-- A camera after the driver has started, whatever its other settings are. -/
structure ZynqVideo.AtStart (v : ZynqVideo) : Prop where
  disabled : v.camConfig &&& ZYNQ_CAM_EN = 0
  fps : v.fps = 0

end ApolloContrib.Trigger
