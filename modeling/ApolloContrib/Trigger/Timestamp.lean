import ApolloContrib.Trigger.Camera

namespace ApolloContrib.Trigger

open ApolloContrib.Library

/-! The metadata of a frame: the time of a frame, the embedded data of the cameras, and
`zvideo_check_meta_data`. A division by zero is `none`. -/

def divBy (x divisor : Nat) : Option Nat := if divisor = 0 then none else some (x / divisor)

structure Timeval where
  tvSec : Int
  tvUsec : Int
deriving DecidableEq, Repr

namespace Timeval

def tvDiff (tv1 tv2 : Timeval) : Int :=
  (tv2.tvSec - tv1.tvSec) * USEC_PER_SEC + tv2.tvUsec - tv1.tvUsec

def tvSub (tv : Timeval) (usec : BitVec 32) : Timeval :=
  let tv :=
    if tv.tvUsec < usec.toNat then ⟨tv.tvSec - 1, tv.tvUsec + USEC_PER_SEC⟩ else tv
  { tv with tvUsec := tv.tvUsec - usec.toNat }

def tvAdd (tv : Timeval) (usec : BitVec 32) : Timeval :=
  let tv := { tv with tvUsec := tv.tvUsec + usec.toNat }
  if tv.tvUsec ≥ (USEC_PER_SEC : Int) then ⟨tv.tvSec + 1, tv.tvUsec - USEC_PER_SEC⟩ else tv

end Timeval

def divRound (val round : Nat) : Option Nat := do
  let result ← divBy val round
  some (if val - result * round > (result + 1) * round - val then result + 1 else result)

inductive CamModel where
  | ar0230
  | ar0231
deriving DecidableEq, Repr

inductive VideoStat where
  | VIDEO_STATS_FRAME
  | VIDEO_STATS_TRIG_COUNT_MISMATCH
  | VIDEO_STATS_META_COUNT_MISMATCH
  | VIDEO_STATS_FRAME_GAP_ERR
  | VIDEO_STATS_FRAME_FORMAT_ERR
  | VIDEO_STATS_FRAME_SHORT
  | VIDEO_STATS_FRAME_LONG
  | VIDEO_STATS_FRAME_CORRUPT
  | VIDEO_STATS_FRAME_DROP
  | VIDEO_STATS_FRAME_DROP_1
  | VIDEO_STATS_FRAME_DROP_2
  | VIDEO_STATS_FRAME_DROP_M
deriving DecidableEq, Repr

/-- What the checks of the frames of a camera know of it, beside its trigger.
`readEmData` is the function that reads the embedded data. -/
structure CamMeta where
  embeddedData : Bool
  minorVersion : BitVec 16
  frameLenLines : BitVec 16
  lineLenPck : BitVec 16
  pixelClock : BitVec 32
  readEmData : Option CamModel
  tRow : BitVec 32
  tFirst : BitVec 32
  tMiddle : BitVec 32
  tLast : BitVec 32
  frameErrCnt : BitVec 32
  lastExpTime : BitVec 32
  lastTrigDelay : BitVec 32
  lastMetaCnt : BitVec 32
  lastTrigCnt : BitVec 32
  lastTvIntr : Timeval
  tvIntr : Timeval
  sequence : BitVec 32
  stats : VideoStat → Nat

def ZVIDEO_IMAGE_HEIGHT : Nat := 1080

def T_ROW (llp : BitVec 16) (pck : BitVec 32) : Option (BitVec 32) :=
  (divBy (llp.toNat * USEC_PER_SEC) pck.toNat).map (BitVec.ofNat 32)

def T_FRAME (fll : Nat) (llp : BitVec 16) (pck : BitVec 32) : Option (BitVec 32) :=
  (divBy (llp.toNat * USEC_PER_SEC * fll) pck.toNat).map (BitVec.ofNat 32)

namespace CamMeta

variable (m : CamMeta)

def zcamInitTimeParams : Option CamMeta := do
  let tRow ← T_ROW m.lineLenPck m.pixelClock
  let tFirst ← T_FRAME m.frameLenLines.toNat m.lineLenPck m.pixelClock
  let half ← T_FRAME (ZVIDEO_IMAGE_HEIGHT / 2) m.lineLenPck m.pixelClock
  let whole ← T_FRAME ZVIDEO_IMAGE_HEIGHT m.lineLenPck m.pixelClock
  some { m with
    tRow := tRow
    tFirst := tFirst
    tMiddle := tFirst + half
    tLast := tFirst + whole }

def count (stat : VideoStat) (cnt : Nat) : CamMeta :=
  { m with stats := Function.update m.stats stat (m.stats stat + cnt) }

end CamMeta

section Embedded

variable (mem : Nat → BitVec 8)

def le16 (i : Nat) : BitVec 16 := mem (i + 1) ++ mem i
def le32 (i : Nat) : BitVec 32 := mem (i + 3) ++ mem (i + 2) ++ mem (i + 1) ++ mem i

def EM_HDR_DWORD0 : BitVec 32 := 0xAA000A00
def EM_HDR_DWORD1 : BitVec 32 := 0xA5003000
def EM_HDR_DWORD2 : BitVec 32 := 0x5A000000
def EM_HDR_MASK : BitVec 32 := 0xFFFF00FF

def EM_DATA_VALID : Bool :=
  le32 mem 0 == EM_HDR_DWORD0 &&
    le32 mem 4 &&& EM_HDR_MASK == EM_HDR_DWORD1 &&& EM_HDR_MASK &&
    le32 mem 8 &&& EM_HDR_MASK == EM_HDR_DWORD2 &&& EM_HDR_MASK

def EM_REG_VAL (x : Nat) : BitVec 32 :=
  ((mem (x + 1)).setWidth 32 <<< 8) + (mem (x + 5)).setWidth 32

def EM_REG_CHIP_VER : BitVec 32 := 0x3000
def EM_REG_FRAME_CNT_HI : BitVec 32 := 0x2000
def EM_REG_EXP_T1_ROW : BitVec 32 := 0x2020

def EM_REG_OFFSET_BASE_230 : Nat := 0x0004
def EM_REG_OFFSET_FRAME_LNS_230 : Nat := 0x0034
def EM_REG_OFFSET_LINE_PCK_230 : Nat := 0x003C
def EM_REG_OFFSET_COARSE_INT_230 : Nat := 0x0054
def EM_REG_OFFSET_FRAME_CNT_230 : Nat := 0x00F4

def EM_REG_OFFSET_BASE1_231 : Nat := 0x0004
def EM_REG_OFFSET_FRAME_CNT_HI_231 : Nat := 0x000C
def EM_REG_OFFSET_FRAME_CNT_LO_231 : Nat := 0x0014
def EM_REG_OFFSET_BASE2_231 : Nat := 0x0074
def EM_REG_OFFSET_EXP_T1_ROW_231 : Nat := 0x007C
def EM_REG_OFFSET_EXP_T2_ROW_231 : Nat := 0x0084
def EM_REG_OFFSET_EXP_T3_ROW_231 : Nat := 0x008C
def EM_REG_OFFSET_EXP_T1_CLK_HI_231 : Nat := 0x009C
def EM_REG_OFFSET_EXP_T1_CLK_LO_231 : Nat := 0x00A4

namespace CamMeta

variable (m : CamMeta)

def updateFrameLines (frameLines : BitVec 16) : Option CamMeta :=
  if frameLines ≠ m.frameLenLines then
    ({ m with frameLenLines := frameLines } : CamMeta).zcamInitTimeParams
  else some m

def updateLinePck (linePck : BitVec 16) : Option CamMeta :=
  if linePck ≠ m.lineLenPck then
    ({ m with lineLenPck := linePck } : CamMeta).zcamInitTimeParams
  else some m

def zcamReadEmbeddedData230 : Option CamMeta :=
  if EM_REG_VAL mem EM_REG_OFFSET_BASE_230 = EM_REG_CHIP_VER then do
    let m := { m with lastMetaCnt := EM_REG_VAL mem EM_REG_OFFSET_FRAME_CNT_230 }
    let m ← m.updateFrameLines ((EM_REG_VAL mem EM_REG_OFFSET_FRAME_LNS_230).setWidth 16)
    let m ← m.updateLinePck ((EM_REG_VAL mem EM_REG_OFFSET_LINE_PCK_230 <<< 1).setWidth 16)
    let coarseInt : BitVec 16 := (EM_REG_VAL mem EM_REG_OFFSET_COARSE_INT_230).setWidth 16
    let expTime ← T_FRAME coarseInt.toNat m.lineLenPck m.pixelClock
    some { m with lastExpTime := expTime }
  else some m

def tTot : BitVec 32 :=
  EM_REG_VAL mem EM_REG_OFFSET_EXP_T1_ROW_231 + EM_REG_VAL mem EM_REG_OFFSET_EXP_T2_ROW_231 +
    EM_REG_VAL mem EM_REG_OFFSET_EXP_T3_ROW_231 + 3

def zcamReadEmbeddedData231 : Option CamMeta :=
  let m :=
    if EM_REG_VAL mem EM_REG_OFFSET_BASE1_231 = EM_REG_FRAME_CNT_HI then
      { m with lastMetaCnt :=
          (EM_REG_VAL mem EM_REG_OFFSET_FRAME_CNT_HI_231 <<< 16) |||
            EM_REG_VAL mem EM_REG_OFFSET_FRAME_CNT_LO_231 }
    else m
  if EM_REG_VAL mem EM_REG_OFFSET_BASE2_231 = EM_REG_EXP_T1_ROW then do
    let t1Row := EM_REG_VAL mem EM_REG_OFFSET_EXP_T1_ROW_231
    let t1Clk := (EM_REG_VAL mem EM_REG_OFFSET_EXP_T1_CLK_HI_231 <<< 16) |||
      EM_REG_VAL mem EM_REG_OFFSET_EXP_T1_CLK_LO_231
    let _linePck ← divBy t1Clk.toNat t1Row.toNat
    let expTime ← T_FRAME (tTot mem).toNat m.lineLenPck m.pixelClock
    some { m with lastExpTime := expTime }
  else some m

/-- `zvideo->read_em_data`; calling it before it is set is `none` too. -/
def callReadEmData : Option CamMeta :=
  match m.readEmData with
  | some .ar0230 => m.zcamReadEmbeddedData230 mem
  | some .ar0231 => m.zcamReadEmbeddedData231 mem
  | none => none

def UINT_MAX : BitVec 32 := 0xFFFFFFFF

def checkHeader : Option (CamMeta × Int) :=
  if m.embeddedData ∧ EM_DATA_VALID mem then do
    let lastCnt := m.lastMetaCnt
    let m ← m.callReadEmData mem
    some (m, if lastCnt ≠ UINT_MAX then (m.lastMetaCnt - lastCnt).toInt else -1)
  else some (m, -1)

end CamMeta

end Embedded

def CAM_CAP_CODENAME_SHARPVISION : BitVec 16 := 1

/-- What the accesses of `zcam_check_caps` to the camera come to; `none` is a read that
fails. There is no `probe` while the camera streams or when the pins are set by hand. -/
structure CapsCall where
  probe : Option (Option (BitVec 16))
  i2cInit : Bool
  minorVersion : Option (BitVec 16)
  operationMode : Option (BitVec 16)
  frameLenLines : Option (BitVec 16)
  lineLenPck : Option (BitVec 16)
  pixelClock : Option (BitVec 32)

def SNSR_CTRL_EMBD_DATA_ENABLE : BitVec 16 := 0x1000

namespace CamMeta

variable (m : CamMeta)

def sharpvision : Bool := m.minorVersion >>> 13 == CAM_CAP_CODENAME_SHARPVISION

def capsDefaults : CamMeta :=
  { m with
    minorVersion := 0xFFFF
    embeddedData := false
    frameLenLines := 1112
    lineLenPck := 2876
    pixelClock := 64000000 }

def readCaps (call : CapsCall) : CamMeta :=
  let m :=
    if m.minorVersion = 0xFFFF then
      { m with minorVersion := call.minorVersion.getD m.minorVersion }
    else m
  { m with
    embeddedData := match call.operationMode with
      | some mode => mode &&& SNSR_CTRL_EMBD_DATA_ENABLE != 0
      | none => m.embeddedData
    frameLenLines := call.frameLenLines.getD (if m.sharpvision then 1238 else 1112)
    lineLenPck := call.lineLenPck.getD (if m.sharpvision then 2580 else 2876)
    pixelClock := match call.pixelClock with
      | some clock => if clock ≠ 0 then clock else 64000000
      | none => 64000000 }

def setReadEmData : CamMeta :=
  { m with readEmData := some (if m.sharpvision then .ar0231 else .ar0230) }

def finishCaps (call : CapsCall) : Option CamMeta :=
  (if call.i2cInit then m.readCaps call else m).zcamInitTimeParams.map setReadEmData

def zcamCheckCaps (call : CapsCall) : Option CamMeta :=
  match call.probe with
  | none => m.capsDefaults.finishCaps call
  | some none => some m.capsDefaults
  | some (some data) => ({ m.capsDefaults with minorVersion := data } : CamMeta).finishCaps call

def zvideoTriggerDelaySet (delay : BitVec 32) : CamMeta := { m with lastTrigDelay := delay }

def zvideoInitParams : CamMeta :=
  { m with
    sequence := 0
    frameErrCnt := 0
    lastExpTime := 0
    lastMetaCnt := UINT_MAX
    lastTrigCnt := 0
    lastTvIntr := ⟨0, 0⟩ }

end CamMeta

def CAM_CAP_TIMESTAMP_TRIGGER : BitVec 32 := 1
def CAM_CAP_TIMESTAMP_FORMATION : BitVec 32 := 2
def CAM_CAP_TIMESTAMP_HOST : BitVec 32 := 3

/-- `time_stamp` of a `zynq_video_ext_meta_data_t`. -/
structure ExtTime where
  sec : BitVec 32
  usec : BitVec 20

def ExtTime.tv (ext : ExtTime) : Timeval := ⟨ext.sec.toNat, ext.usec.toNat⟩

section Stamp

variable (v : ZynqVideo) (m : CamMeta)

def roundToTrigger (tv : Timeval) : Option Timeval :=
  if v.frameInterval = 0 then none
  else
    let usec := tv.tvUsec - tv.tvUsec.tmod v.frameInterval
    some (if usec ≥ ((BitVec.ofNat 32 v.frameUsecMax - 100).toNat : Int) then
      ⟨tv.tvSec + 1, 0⟩
    else ⟨tv.tvSec, usec⟩)

def toTrigger (tv : Timeval) (t : BitVec 32) : Option Timeval :=
  (roundToTrigger v (tv.tvSub (t + m.lastTrigDelay))).map (·.tvAdd m.lastTrigDelay)

def fpgaToTrigger (ext : ExtTime) : Option Timeval := toTrigger v m ext.tv m.tFirst

def hostToTrigger : Option Timeval := toTrigger v m m.tvIntr m.tLast

def fpgaToFormation (ext : ExtTime) : Option Timeval :=
  (fpgaToTrigger v m ext).map (·.tvAdd (m.tMiddle - m.lastExpTime / 2))

def hostToFormation : Option Timeval :=
  (hostToTrigger v m).map (·.tvAdd (m.tMiddle - m.lastExpTime / 2))

def frameTimestamp (tsType : BitVec 32) (ext : ExtTime) (corrupted : Bool) :
    Option Timeval :=
  let fpgaTime : Timeval := if corrupted then ⟨0, 0⟩ else ext.tv
  if tsType = CAM_CAP_TIMESTAMP_TRIGGER then
    if corrupted then hostToTrigger v m else fpgaToTrigger v m ext
  else if tsType = CAM_CAP_TIMESTAMP_FORMATION then
    if m.lastExpTime = 0 then some fpgaTime
    else if corrupted then hostToFormation v m
    else fpgaToFormation v m ext
  else if tsType = CAM_CAP_TIMESTAMP_HOST then some m.tvIntr
  else some fpgaTime

end Stamp

/-- A frame of `memsz` bytes, and the module parameters `zynq_video_ts_type`,
`zynq_video_err_tolerant` and `zynq_video_err_thresh`. -/
structure FrameCall where
  mem : Nat → BitVec 8
  memsz : Nat
  tsType : BitVec 32
  errTolerant : Bool
  errThresh : BitVec 32

namespace FrameCall

variable (call : FrameCall)

def ext (i : Nat) : BitVec 8 := call.mem (call.memsz - 32 + i)

def extTriggerCnt : BitVec 32 := le32 call.ext 0

def extTime : ExtTime where
  usec := (le32 call.ext 4).setWidth 20
  sec := le32 call.ext 8

def extError : BitVec 8 := call.ext 31

def ZVIDEO_EXT_MARKER : BitVec 16 := 0xFE12
def ZVIDEO_EXT_ERR_FRAME_FORMAT : BitVec 8 := 0x01
def ZVIDEO_EXT_ERR_SHORT_FRAME : BitVec 8 := 0x02
def ZVIDEO_EXT_ERR_LONG_FRAME : BitVec 8 := 0x04
def ZVIDEO_EXT_ERR_ALL : BitVec 8 := 0x07

def ZVIDEO_FRAME_CORRUPTED : Bool :=
  le16 call.ext 18 != ZVIDEO_EXT_MARKER || le16 call.ext 20 != ZVIDEO_EXT_MARKER ||
    le16 call.ext 22 != ZVIDEO_EXT_MARKER || le32 call.ext 12 != 0 ||
    le32 call.ext 24 != 0 || le32 call.ext 27 != 0 ||
    call.extError &&& ~~~ZVIDEO_EXT_ERR_ALL != 0

def faulty : Bool := call.ZVIDEO_FRAME_CORRUPTED || call.extError != 0

end FrameCall

namespace CamMeta

variable (m : CamMeta)

def countError (error bit : BitVec 8) (stat : VideoStat) : CamMeta :=
  if error &&& bit ≠ 0 then m.count stat 1 else m

def checkExt (call : FrameCall) : CamMeta :=
  if call.ZVIDEO_FRAME_CORRUPTED then
    { m.count .VIDEO_STATS_FRAME_CORRUPT 1 with frameErrCnt := m.frameErrCnt + 1 }
  else if call.extError ≠ 0 then
    let m := m.countError call.extError FrameCall.ZVIDEO_EXT_ERR_FRAME_FORMAT
      .VIDEO_STATS_FRAME_FORMAT_ERR
    let m := m.countError call.extError FrameCall.ZVIDEO_EXT_ERR_SHORT_FRAME
      .VIDEO_STATS_FRAME_SHORT
    let m := m.countError call.extError FrameCall.ZVIDEO_EXT_ERR_LONG_FRAME
      .VIDEO_STATS_FRAME_LONG
    { m with frameErrCnt := m.frameErrCnt + 1 }
  else { m with frameErrCnt := 0 }

def checkTrigCnt (call : FrameCall) : CamMeta × Int :=
  let trigCnt :=
    if call.ZVIDEO_FRAME_CORRUPTED then m.lastTrigCnt + 1 else call.extTriggerCnt
  ({ m with lastTrigCnt := trigCnt },
    if m.lastTrigCnt ≠ 0 then (trigCnt - m.lastTrigCnt).toInt else -1)

def hostGap (v : ZynqVideo) : Option (CamMeta × Int) :=
  let tsGap :=
    if m.lastTvIntr.tvSec = 0 then (v.frameInterval : Int) else m.lastTvIntr.tvDiff m.tvIntr
  if tsGap < 0 ∨ tsGap > (USEC_PER_SEC * 8 : Int) then
    some (m.count .VIDEO_STATS_FRAME_GAP_ERR 1, -1)
  else if v.frameInterval ≠ 0 then do
    let cntGap ← divRound tsGap.toNat v.frameInterval
    some (if cntGap = 0 then m.count .VIDEO_STATS_FRAME_GAP_ERR 1 else m, (cntGap : Int))
  else some (m, -1)

def countGaps (metaCntGap trigCntGap cntGap : Int) : CamMeta :=
  let m :=
    if metaCntGap > 0 ∧ cntGap > 0 ∧ cntGap ≠ metaCntGap then
      m.count .VIDEO_STATS_META_COUNT_MISMATCH 1
    else m
  let cntGap := if metaCntGap > 0 then metaCntGap else cntGap
  let m :=
    if trigCntGap > 0 ∧ cntGap > 0 ∧ cntGap ≠ trigCntGap then
      m.count .VIDEO_STATS_TRIG_COUNT_MISMATCH 1
    else m
  if cntGap > 1 then
    let dropCnt := (cntGap - 1).toNat
    (m.count .VIDEO_STATS_FRAME_DROP dropCnt).count
      (if dropCnt = 1 then .VIDEO_STATS_FRAME_DROP_1
        else if dropCnt = 2 then .VIDEO_STATS_FRAME_DROP_2
        else .VIDEO_STATS_FRAME_DROP_M) 1
  else m

end CamMeta

/-- What the buffer of the frame gets, and whether -1 is returned. -/
structure FrameStamp where
  failed : Bool
  tv : Timeval
  sequence : BitVec 32

def checkErrThresh (v : ZynqVideo) (m : CamMeta) (errThresh : BitVec 32) :
    ZynqVideo × CamMeta :=
  if m.frameErrCnt ≥ errThresh then
    ({ v with chanFault := true }, { m with frameErrCnt := 0 })
  else (v, m)

def zvideoCheckMetaData (v : ZynqVideo) (m : CamMeta) (call : FrameCall) :
    Option (FrameStamp × ZynqVideo × CamMeta) := do
  let (m, metaCntGap) ← m.checkHeader call.mem
  let (v, m) := checkErrThresh v (m.checkExt call) call.errThresh
  let (m, trigCntGap) := m.checkTrigCnt call
  let tv ← frameTimestamp v m call.tsType call.extTime call.ZVIDEO_FRAME_CORRUPTED
  let (m, cntGap) ← m.hostGap v
  let m := (m.countGaps metaCntGap trigCntGap cntGap).count .VIDEO_STATS_FRAME 1
  some (⟨call.faulty && !call.errTolerant, tv, m.sequence⟩, v,
    { m with lastTvIntr := m.tvIntr })

def ZYNQ_CAM_TRIG_DELAY_OFFSET : Nat := 0

def ZynqVideo.setTrigDelay (v : ZynqVideo) (delay : BitVec 32) : ZynqVideo :=
  let field : BitVec 17 := delay.setWidth 17
  { v with camTrigger := setBitField v.camTrigger ZYNQ_CAM_TRIG_DELAY_OFFSET field }

structure MetaDev (n : Nat) where
  zdev : ZynqDev n
  cams : Fin n → CamMeta

/-- `interrupt` is the begin of a `zvideo_rx_proc`, and a `frame` one round of its loop. -/
inductive MetaEvent (n : Nat) where
  | trigger (event : TriggerEvent n)
  | checkCaps (i : Fin n) (call : CapsCall)
  | delaySet (i : Fin n) (delay : BitVec 32)
  | interrupt (i : Fin n) (tvIntr : Timeval)
  | frame (i : Fin n) (call : FrameCall)

namespace MetaDev

variable {n : Nat} (dev : MetaDev n)

def setCam (i : Fin n) (m : CamMeta) : MetaDev n :=
  { dev with cams := Function.update dev.cams i m }

def startCam (cfg : TriggerConfig) (event : TriggerEvent n) (i : Fin n) : CamMeta :=
  match event with
  | .startStreaming j count _ =>
      if j = i ∧ ¬ count < cfg.bufNum then (dev.cams i).zvideoInitParams else dev.cams i
  | _ => dev.cams i

/-- A reset that has cleared a fault of the sensor has reset its frame count. -/
def triggerCams (cfg : TriggerConfig) (event : TriggerEvent n) (i : Fin n) : CamMeta :=
  let m := dev.startCam cfg event i
  if (dev.zdev.zdevVideos i).camFault ∧
      ¬ ((triggerCall cfg dev.zdev event).zdevVideos i).camFault then
    { m with lastMetaCnt := CamMeta.UINT_MAX }
  else m

/-- A frame; there is no buffer for it unless the camera streams. -/
def frame (i : Fin n) (call : FrameCall) : Option (MetaDev n) :=
  if (dev.zdev.zdevVideos i).streaming then
    (zvideoCheckMetaData (dev.zdev.zdevVideos i) (dev.cams i) call).map fun (_, v, m) =>
      ({ dev with zdev := dev.zdev.onVideo i fun _ => v } : MetaDev n).setCam i
        { m with sequence := m.sequence + 1 }
  else some (dev.setCam i { dev.cams i with sequence := (dev.cams i).sequence + 1 })

end MetaDev

def metaStep {n : Nat} (cfg : TriggerConfig) (dev : MetaDev n) : MetaEvent n → Option (MetaDev n)
  | .trigger event =>
      some ⟨triggerCall cfg dev.zdev event, dev.triggerCams cfg event⟩
  | .checkCaps i call => ((dev.cams i).zcamCheckCaps call).map (dev.setCam i)
  | .delaySet i delay =>
      some (({ dev with zdev := dev.zdev.onVideo i (·.setTrigDelay delay) } : MetaDev n).setCam i
        ((dev.cams i).zvideoTriggerDelaySet delay))
  | .interrupt i tvIntr => some (dev.setCam i { dev.cams i with tvIntr := tvIntr })
  | .frame i call => dev.frame i call

def quietCam : CamMeta where
  embeddedData := false
  minorVersion := 0
  frameLenLines := 0
  lineLenPck := 0
  pixelClock := 0
  readEmData := none
  tRow := 0
  tFirst := 0
  tMiddle := 0
  tLast := 0
  frameErrCnt := 0
  lastExpTime := 0
  lastTrigDelay := 0
  lastMetaCnt := 0
  lastTrigCnt := 0
  lastTvIntr := ⟨0, 0⟩
  tvIntr := ⟨0, 0⟩
  sequence := 0
  stats := fun _ => 0

end ApolloContrib.Trigger
