import ApolloContrib.Trigger.Timestamp

namespace ApolloContrib.Trigger

open ApolloContrib.Library

/-! The divisors in the check of a frame, over the runs of a card. -/

namespace CamMeta

variable {m m' : CamMeta}

structure CapsOk (m : CamMeta) : Prop where
  pixelClock : m.embeddedData = true → m.pixelClock ≠ 0
  readEmData : m.embeddedData = true → m.readEmData.isSome = true

structure SameCaps (m m' : CamMeta) : Prop where
  embeddedData : m'.embeddedData = m.embeddedData
  pixelClock : m'.pixelClock = m.pixelClock
  readEmData : m'.readEmData = m.readEmData

theorem SameCaps.refl (m : CamMeta) : SameCaps m m := ⟨rfl, rfl, rfl⟩

theorem SameCaps.trans {m'' : CamMeta} (hfirst : SameCaps m m') (hnext : SameCaps m' m'') :
    SameCaps m m'' :=
  ⟨hnext.embeddedData.trans hfirst.embeddedData, hnext.pixelClock.trans hfirst.pixelClock,
    hnext.readEmData.trans hfirst.readEmData⟩

theorem CapsOk.of_same (hok : m.CapsOk) (hsame : SameCaps m m') : m'.CapsOk := by
  refine ⟨fun hdata => ?_, fun hdata => ?_⟩
  · rw [hsame.embeddedData] at hdata
    rw [hsame.pixelClock]
    exact hok.pixelClock hdata
  · rw [hsame.embeddedData] at hdata
    rw [hsame.readEmData]
    exact hok.readEmData hdata

theorem divBy_eq_some {x divisor : Nat} (hdivisor : divisor ≠ 0) :
    divBy x divisor = some (x / divisor) :=
  if_neg hdivisor

theorem divRound_some {round : Nat} (hround : round ≠ 0) (val : Nat) :
    ∃ result, divRound val round = some result := by
  rw [divRound, divBy_eq_some hround]
  exact ⟨_, rfl⟩

theorem T_FRAME_eq_some {fll : Nat} {llp : BitVec 16} {pck : BitVec 32} (hpck : pck ≠ 0) :
    T_FRAME fll llp pck =
      some (BitVec.ofNat 32 (llp.toNat * USEC_PER_SEC * fll / pck.toNat)) := by
  have hne : pck.toNat ≠ 0 := fun hzero => hpck (BitVec.eq_of_toNat_eq hzero)
  rw [T_FRAME, divBy_eq_some hne]
  rfl

theorem zcamInitTimeParams_some (hclock : m.pixelClock ≠ 0) :
    ∃ m', m.zcamInitTimeParams = some m' ∧ SameCaps m m' ∧ m'.lineLenPck = m.lineLenPck := by
  have hne : m.pixelClock.toNat ≠ 0 := fun hzero => hclock (BitVec.eq_of_toNat_eq hzero)
  unfold zcamInitTimeParams
  rw [T_ROW, divBy_eq_some hne, T_FRAME_eq_some hclock, T_FRAME_eq_some hclock,
    T_FRAME_eq_some hclock]
  exact ⟨_, rfl, ⟨rfl, rfl, rfl⟩, rfl⟩

theorem updateFrameLines_some (hclock : m.pixelClock ≠ 0) (frameLines : BitVec 16) :
    ∃ m', m.updateFrameLines frameLines = some m' ∧ SameCaps m m' := by
  unfold updateFrameLines
  split
  · obtain ⟨m', hinit, hsame, -⟩ := zcamInitTimeParams_some
      (show ({ m with frameLenLines := frameLines } : CamMeta).pixelClock ≠ 0 from hclock)
    exact ⟨m', hinit, hsame.embeddedData, hsame.pixelClock, hsame.readEmData⟩
  · exact ⟨m, rfl, .refl m⟩

theorem updateLinePck_some (hclock : m.pixelClock ≠ 0) (linePck : BitVec 16) :
    ∃ m', m.updateLinePck linePck = some m' ∧ SameCaps m m' ∧ m'.lineLenPck = linePck := by
  unfold updateLinePck
  split
  · obtain ⟨m', hinit, hsame, hline⟩ := zcamInitTimeParams_some
      (show ({ m with lineLenPck := linePck } : CamMeta).pixelClock ≠ 0 from hclock)
    exact ⟨m', hinit, ⟨hsame.embeddedData, hsame.pixelClock, hsame.readEmData⟩, hline⟩
  next hline => exact ⟨m, rfl, .refl m, (not_not.mp hline).symm⟩

def rowsTime (m : CamMeta) (rows : Nat) (linePck : BitVec 16) : BitVec 32 :=
  BitVec.ofNat 32 (linePck.toNat * USEC_PER_SEC * rows / m.pixelClock.toNat)

/-- The exposure time in force for a frame: the one that its embedded data tell, if they
do. -/
def exposure (m : CamMeta) (mem : Nat → BitVec 8) : BitVec 32 :=
  if m.embeddedData ∧ EM_DATA_VALID mem then
    match m.readEmData with
    | some .ar0230 =>
        if EM_REG_VAL mem EM_REG_OFFSET_BASE_230 = EM_REG_CHIP_VER then
          m.rowsTime ((EM_REG_VAL mem EM_REG_OFFSET_COARSE_INT_230).setWidth 16).toNat
            ((EM_REG_VAL mem EM_REG_OFFSET_LINE_PCK_230 <<< 1).setWidth 16)
        else m.lastExpTime
    | some .ar0231 =>
        if EM_REG_VAL mem EM_REG_OFFSET_BASE2_231 = EM_REG_EXP_T1_ROW then
          m.rowsTime (tTot mem).toNat m.lineLenPck
        else m.lastExpTime
    | none => m.lastExpTime
  else m.lastExpTime

def NoExposureRows (m : CamMeta) (mem : Nat → BitVec 8) : Prop :=
  m.embeddedData = true ∧ EM_DATA_VALID mem = true ∧ m.readEmData = some .ar0231 ∧
    EM_REG_VAL mem EM_REG_OFFSET_BASE2_231 = EM_REG_EXP_T1_ROW ∧
    EM_REG_VAL mem EM_REG_OFFSET_EXP_T1_ROW_231 = 0

theorem zcamReadEmbeddedData230_some (hclock : m.pixelClock ≠ 0) (mem : Nat → BitVec 8) :
    ∃ m', m.zcamReadEmbeddedData230 mem = some m' ∧ SameCaps m m' ∧ m'.lastExpTime =
      if EM_REG_VAL mem EM_REG_OFFSET_BASE_230 = EM_REG_CHIP_VER then
        m.rowsTime ((EM_REG_VAL mem EM_REG_OFFSET_COARSE_INT_230).setWidth 16).toNat
          ((EM_REG_VAL mem EM_REG_OFFSET_LINE_PCK_230 <<< 1).setWidth 16)
      else m.lastExpTime := by
  unfold zcamReadEmbeddedData230
  split
  · let start : CamMeta :=
      { m with lastMetaCnt := EM_REG_VAL mem EM_REG_OFFSET_FRAME_CNT_230 }
    obtain ⟨m₁, hlines, hsame₁⟩ := updateFrameLines_some (show start.pixelClock ≠ 0 from hclock)
      ((EM_REG_VAL mem EM_REG_OFFSET_FRAME_LNS_230).setWidth 16)
    have hclock₁ : m₁.pixelClock ≠ 0 := by
      rw [hsame₁.pixelClock]
      exact hclock
    obtain ⟨m₂, hpck, hsame₂, hline⟩ := updateLinePck_some hclock₁
      ((EM_REG_VAL mem EM_REG_OFFSET_LINE_PCK_230 <<< 1).setWidth 16)
    have hsame : SameCaps start m₂ := hsame₁.trans hsame₂
    have hclock₂ : m₂.pixelClock ≠ 0 := by
      rw [hsame.pixelClock]
      exact hclock
    simp only [Option.bind_eq_bind]
    rw [hlines, Option.bind_some, hpck, Option.bind_some, T_FRAME_eq_some hclock₂,
      Option.bind_some]
    refine ⟨_, rfl, ⟨hsame.embeddedData, hsame.pixelClock, hsame.readEmData⟩, ?_⟩
    dsimp only
    rw [hline, hsame.pixelClock]
    rfl
  · exact ⟨m, rfl, .refl m, rfl⟩

theorem zcamReadEmbeddedData231_some (hclock : m.pixelClock ≠ 0) {mem : Nat → BitVec 8}
    (hrows : EM_REG_VAL mem EM_REG_OFFSET_BASE2_231 = EM_REG_EXP_T1_ROW →
      EM_REG_VAL mem EM_REG_OFFSET_EXP_T1_ROW_231 ≠ 0) :
    ∃ m', m.zcamReadEmbeddedData231 mem = some m' ∧ SameCaps m m' ∧ m'.lastExpTime =
      if EM_REG_VAL mem EM_REG_OFFSET_BASE2_231 = EM_REG_EXP_T1_ROW then
        m.rowsTime (tTot mem).toNat m.lineLenPck
      else m.lastExpTime := by
  obtain ⟨start, hstart, hsame, hline, hexp⟩ : ∃ start : CamMeta,
      (if EM_REG_VAL mem EM_REG_OFFSET_BASE1_231 = EM_REG_FRAME_CNT_HI then
        { m with lastMetaCnt :=
            (EM_REG_VAL mem EM_REG_OFFSET_FRAME_CNT_HI_231 <<< 16) |||
              EM_REG_VAL mem EM_REG_OFFSET_FRAME_CNT_LO_231 }
      else m) = start ∧ SameCaps m start ∧ start.lineLenPck = m.lineLenPck ∧
        start.lastExpTime = m.lastExpTime := by
    refine ⟨_, rfl, ?_⟩
    split <;> exact ⟨⟨rfl, rfl, rfl⟩, rfl, rfl⟩
  have hclock' : start.pixelClock ≠ 0 := by
    rw [hsame.pixelClock]
    exact hclock
  unfold zcamReadEmbeddedData231
  dsimp only
  rw [hstart]
  split
  next hbase =>
    have hne : (EM_REG_VAL mem EM_REG_OFFSET_EXP_T1_ROW_231).toNat ≠ 0 :=
      fun hzero => hrows hbase (BitVec.eq_of_toNat_eq hzero)
    simp only [Option.bind_eq_bind]
    rw [divBy_eq_some hne, Option.bind_some, T_FRAME_eq_some hclock', Option.bind_some]
    refine ⟨_, rfl, ⟨hsame.embeddedData, hsame.pixelClock, hsame.readEmData⟩, ?_⟩
    dsimp only
    rw [hline, hsame.pixelClock]
    rfl
  · exact ⟨start, rfl, hsame, hexp⟩

theorem checkHeader_some (hok : m.CapsOk) {mem : Nat → BitVec 8}
    (hrows : ¬ m.NoExposureRows mem) :
    ∃ m' gap, m.checkHeader mem = some (m', gap) ∧ SameCaps m m' ∧
      m'.lastExpTime = m.exposure mem := by
  unfold checkHeader exposure
  split
  next hdata =>
    obtain ⟨hembedded, hvalid⟩ := hdata
    have hclock := hok.pixelClock hembedded
    obtain ⟨model, hmodel⟩ := Option.isSome_iff_exists.mp (hok.readEmData hembedded)
    rw [callReadEmData, hmodel]
    cases model with
    | ar0230 =>
        obtain ⟨m', hread, hsame, hexp⟩ := zcamReadEmbeddedData230_some hclock mem
        dsimp only [Option.bind_eq_bind]
        rw [hread, Option.bind_some]
        exact ⟨m', _, rfl, hsame, hexp⟩
    | ar0231 =>
        obtain ⟨m', hread, hsame, hexp⟩ := zcamReadEmbeddedData231_some hclock
          (fun hbase hzero => hrows ⟨hembedded, hvalid, hmodel, hbase, hzero⟩)
        dsimp only [Option.bind_eq_bind]
        rw [hread, Option.bind_some]
        exact ⟨m', _, rfl, hsame, hexp⟩
  · exact ⟨m, -1, rfl, .refl m, rfl⟩

theorem checkHeader_none {mem : Nat → BitVec 8} (hrows : m.NoExposureRows mem) :
    m.checkHeader mem = none := by
  obtain ⟨hembedded, hvalid, hmodel, hbase, hzero⟩ := hrows
  rw [checkHeader, if_pos ⟨hembedded, hvalid⟩, callReadEmData, hmodel]
  dsimp only
  unfold zcamReadEmbeddedData231
  dsimp only
  rw [if_pos hbase, hzero]
  rfl

end CamMeta

/-- The time stamp asked for is that of the trigger pulse, or starts from it. -/
def NeedsTrigger (tsType exposure : BitVec 32) : Prop :=
  tsType = CAM_CAP_TIMESTAMP_TRIGGER ∨ tsType = CAM_CAP_TIMESTAMP_FORMATION ∧ exposure ≠ 0

section Stamp

variable {v : ZynqVideo} {m : CamMeta}

theorem toTrigger_none (hzero : v.frameInterval = 0) (tv : Timeval) (t : BitVec 32) :
    toTrigger v m tv t = none := by
  rw [toTrigger, roundToTrigger, if_pos hzero]
  rfl

theorem toTrigger_some (hinterval : v.frameInterval ≠ 0) (tv : Timeval) (t : BitVec 32) :
    ∃ stamp, toTrigger v m tv t = some stamp := by
  rw [toTrigger, roundToTrigger, if_neg hinterval]
  exact ⟨_, rfl⟩

variable {tsType : BitVec 32} (ext : ExtTime) (corrupted : Bool)

theorem frameTimestamp_none (hzero : v.frameInterval = 0)
    (hneeds : NeedsTrigger tsType m.lastExpTime) :
    frameTimestamp v m tsType ext corrupted = none := by
  have hhost : hostToTrigger v m = none := toTrigger_none hzero _ _
  have hfpga : fpgaToTrigger v m ext = none := toTrigger_none hzero _ _
  rcases hneeds with rfl | ⟨rfl, hexp⟩
  · rw [frameTimestamp, if_pos rfl, hhost, hfpga, ite_self]
  · rw [frameTimestamp, if_neg (by decide), if_pos rfl, if_neg hexp, hostToFormation,
      fpgaToFormation, hhost, hfpga]
    exact ite_self _

theorem frameTimestamp_some
    (hsafe : v.frameInterval = 0 → ¬ NeedsTrigger tsType m.lastExpTime) :
    ∃ tv, frameTimestamp v m tsType ext corrupted = some tv := by
  by_cases hinterval : v.frameInterval = 0
  · have hneeds := hsafe hinterval
    unfold NeedsTrigger at hneeds
    push Not at hneeds
    unfold frameTimestamp
    dsimp only
    rw [if_neg hneeds.1]
    split
    next hformation =>
      rw [if_pos (hneeds.2 hformation)]
      exact ⟨_, rfl⟩
    next => split <;> exact ⟨_, rfl⟩
  · obtain ⟨host, hhost⟩ := toTrigger_some (m := m) hinterval m.tvIntr m.tLast
    obtain ⟨fpga, hfpga⟩ := toTrigger_some (m := m) hinterval ext.tv m.tFirst
    have hhost : hostToTrigger v m = some host := hhost
    have hfpga : fpgaToTrigger v m ext = some fpga := hfpga
    unfold frameTimestamp hostToFormation fpgaToFormation
    rw [hhost, hfpga]
    dsimp only
    split
    · split <;> exact ⟨_, rfl⟩
    · split
      · split
        · exact ⟨_, rfl⟩
        · split <;> exact ⟨_, rfl⟩
      · split <;> exact ⟨_, rfl⟩

end Stamp

namespace CamMeta

variable {m : CamMeta}

theorem sameCaps_count (stat : VideoStat) (cnt : Nat) : SameCaps m (m.count stat cnt) :=
  ⟨rfl, rfl, rfl⟩

theorem hostGap_some (v : ZynqVideo) :
    ∃ m' gap, m.hostGap v = some (m', gap) ∧ SameCaps m m' := by
  unfold hostGap
  generalize (if m.lastTvIntr.tvSec = 0 then (v.frameInterval : Int)
    else m.lastTvIntr.tvDiff m.tvIntr) = tsGap
  dsimp only
  split
  · exact ⟨_, _, rfl, sameCaps_count _ _⟩
  · split
    next hinterval =>
      obtain ⟨cntGap, hgap⟩ := divRound_some hinterval tsGap.toNat
      refine ⟨_, cntGap, by rw [hgap]; rfl, ?_⟩
      split
      · exact sameCaps_count _ _
      · exact .refl m
    next => exact ⟨m, -1, rfl, .refl m⟩

theorem countError_same (m : CamMeta) (error bit : BitVec 8) (stat : VideoStat) :
    SameCaps m (m.countError error bit stat) ∧
      (m.countError error bit stat).lastExpTime = m.lastExpTime := by
  unfold countError
  split
  · exact ⟨sameCaps_count _ _, rfl⟩
  · exact ⟨.refl m, rfl⟩

theorem checkExt_same (call : FrameCall) :
    SameCaps m (m.checkExt call) ∧ (m.checkExt call).lastExpTime = m.lastExpTime := by
  unfold checkExt
  split
  · exact ⟨⟨rfl, rfl, rfl⟩, rfl⟩
  · split
    next =>
      have hformat := countError_same m call.extError FrameCall.ZVIDEO_EXT_ERR_FRAME_FORMAT
        .VIDEO_STATS_FRAME_FORMAT_ERR
      have hshort := countError_same (m.countError call.extError
        FrameCall.ZVIDEO_EXT_ERR_FRAME_FORMAT .VIDEO_STATS_FRAME_FORMAT_ERR) call.extError 
        FrameCall.ZVIDEO_EXT_ERR_SHORT_FRAME .VIDEO_STATS_FRAME_SHORT
      have hlong := countError_same ((m.countError call.extError
        FrameCall.ZVIDEO_EXT_ERR_FRAME_FORMAT .VIDEO_STATS_FRAME_FORMAT_ERR).countError
          call.extError FrameCall.ZVIDEO_EXT_ERR_SHORT_FRAME .VIDEO_STATS_FRAME_SHORT)
        call.extError FrameCall.ZVIDEO_EXT_ERR_LONG_FRAME .VIDEO_STATS_FRAME_LONG
      have hsame := (hformat.1.trans hshort.1).trans hlong.1
      exact ⟨⟨hsame.embeddedData, hsame.pixelClock, hsame.readEmData⟩,
        (hlong.2.trans hshort.2).trans hformat.2⟩
    · exact ⟨⟨rfl, rfl, rfl⟩, rfl⟩

theorem sameCaps_countGaps (metaCntGap trigCntGap cntGap : Int) :
    SameCaps m (m.countGaps metaCntGap trigCntGap cntGap) := by
  unfold countGaps
  generalize (if metaCntGap > 0 then metaCntGap else cntGap) = gap
  have hcount (p : Prop) [Decidable p] (m : CamMeta) (stat : VideoStat) :
      SameCaps m (if p then m.count stat 1 else m) := by
    split
    · exact sameCaps_count _ _
    · exact .refl m
  have hchecks := (hcount (metaCntGap > 0 ∧ cntGap > 0 ∧ cntGap ≠ metaCntGap) m
    .VIDEO_STATS_META_COUNT_MISMATCH).trans
      (hcount (trigCntGap > 0 ∧ gap > 0 ∧ gap ≠ trigCntGap) _ .VIDEO_STATS_TRIG_COUNT_MISMATCH)
  dsimp only
  split
  · exact (hchecks.trans (sameCaps_count _ _)).trans (sameCaps_count _ _)
  · exact hchecks

end CamMeta

structure FrameSafe (v : ZynqVideo) (m : CamMeta) (call : FrameCall) : Prop where
  rows : ¬ m.NoExposureRows call.mem
  interval : v.frameInterval = 0 → ¬ NeedsTrigger call.tsType (m.exposure call.mem)

section Check

variable {v : ZynqVideo} {m : CamMeta}

theorem checkErrThresh_same (v : ZynqVideo) (m : CamMeta) (errThresh : BitVec 32) :
    m.SameCaps (checkErrThresh v m errThresh).2 ∧
      (checkErrThresh v m errThresh).2.lastExpTime = m.lastExpTime ∧
        (checkErrThresh v m errThresh).1.frameInterval = v.frameInterval := by
  unfold checkErrThresh
  split
  · exact ⟨⟨rfl, rfl, rfl⟩, rfl, rfl⟩
  · exact ⟨.refl m, rfl, rfl⟩

def stampArgs (v : ZynqVideo) (m : CamMeta) (call : FrameCall) : ZynqVideo × CamMeta × Int :=
  let (v, m) := checkErrThresh v (m.checkExt call) call.errThresh
  (v, m.checkTrigCnt call)

theorem stampArgs_same (v : ZynqVideo) (m : CamMeta) (call : FrameCall) :
    m.SameCaps (stampArgs v m call).2.1 ∧
      (stampArgs v m call).2.1.lastExpTime = m.lastExpTime ∧
        (stampArgs v m call).1.frameInterval = v.frameInterval := by
  obtain ⟨hext, hexp⟩ := CamMeta.checkExt_same (m := m) call
  obtain ⟨hthresh, hexp', hinterval⟩ := checkErrThresh_same v (m.checkExt call) call.errThresh
  have hsame := hext.trans hthresh
  exact ⟨⟨hsame.embeddedData, hsame.pixelClock, hsame.readEmData⟩, hexp'.trans hexp, hinterval⟩

def finishCheck (m : CamMeta) (metaCntGap trigCntGap cntGap : Int) : CamMeta :=
  let m := (m.countGaps metaCntGap trigCntGap cntGap).count .VIDEO_STATS_FRAME 1
  { m with lastTvIntr := m.tvIntr }

theorem sameCaps_finishCheck (m : CamMeta) (metaCntGap trigCntGap cntGap : Int) :
    m.SameCaps (finishCheck m metaCntGap trigCntGap cntGap) := by
  have hsame := (CamMeta.sameCaps_countGaps (m := m) metaCntGap trigCntGap cntGap).trans
    (CamMeta.sameCaps_count .VIDEO_STATS_FRAME 1)
  exact ⟨hsame.embeddedData, hsame.pixelClock, hsame.readEmData⟩

theorem zvideoCheckMetaData_eq (v : ZynqVideo) (m : CamMeta) (call : FrameCall) :
    zvideoCheckMetaData v m call = (m.checkHeader call.mem).bind fun header =>
      (frameTimestamp (stampArgs v header.1 call).1 (stampArgs v header.1 call).2.1 call.tsType
        call.extTime call.ZVIDEO_FRAME_CORRUPTED).bind fun tv =>
      ((stampArgs v header.1 call).2.1.hostGap (stampArgs v header.1 call).1).bind fun gap =>
        let m := finishCheck gap.1 header.2 (stampArgs v header.1 call).2.2 gap.2
        some (⟨call.faulty && !call.errTolerant, tv, m.sequence⟩, (stampArgs v header.1 call).1,
          m) := by
  rfl

theorem zvideoCheckMetaData_some (hok : m.CapsOk) {call : FrameCall}
    (hsafe : FrameSafe v m call) :
    ∃ stamp v' m', zvideoCheckMetaData v m call = some (stamp, v', m') ∧ m.SameCaps m' := by
  obtain ⟨m₁, metaCntGap, hheader, hsame₁, hexp⟩ := CamMeta.checkHeader_some hok hsafe.rows
  obtain ⟨hsame₂, hexp₂, hinterval⟩ := stampArgs_same v m₁ call
  obtain ⟨tv, hstamp⟩ : ∃ tv, frameTimestamp (stampArgs v m₁ call).1 (stampArgs v m₁ call).2.1
      call.tsType call.extTime call.ZVIDEO_FRAME_CORRUPTED = some tv := by
    apply frameTimestamp_some
    rw [hinterval, hexp₂, hexp]
    exact hsafe.interval
  obtain ⟨m₃, cntGap, hgap, hsame₃⟩ :=
    CamMeta.hostGap_some (m := (stampArgs v m₁ call).2.1) (stampArgs v m₁ call).1
  rw [zvideoCheckMetaData_eq, hheader, Option.bind_some, hstamp, Option.bind_some, hgap,
    Option.bind_some]
  exact ⟨_, _, _, rfl, ((hsame₁.trans hsame₂).trans hsame₃).trans (sameCaps_finishCheck _ _ _ _)⟩

theorem zvideoCheckMetaData_none (hok : m.CapsOk) {call : FrameCall}
    (hbad : ¬ FrameSafe v m call) : zvideoCheckMetaData v m call = none := by
  rw [zvideoCheckMetaData_eq]
  by_cases hrows : m.NoExposureRows call.mem
  · rw [CamMeta.checkHeader_none hrows]
    rfl
  · obtain ⟨hzero, hneeds⟩ := Classical.not_imp.mp fun hinterval =>
      hbad ⟨hrows, hinterval⟩
    obtain ⟨m₁, metaCntGap, hheader, -, hexp⟩ := CamMeta.checkHeader_some hok hrows
    obtain ⟨-, hexp₂, hinterval⟩ := stampArgs_same v m₁ call
    have hneeds : NeedsTrigger call.tsType (stampArgs v m₁ call).2.1.lastExpTime := by
      rw [hexp₂, hexp]
      exact not_not.mp hneeds
    rw [hheader, Option.bind_some,
      frameTimestamp_none call.extTime _ (hinterval.trans hzero) hneeds]
    rfl

end Check

section Runs

variable {n : Nat} {cfg : TriggerConfig} {dev : MetaDev n}

def MetaDev.Safe (dev : MetaDev n) : MetaEvent n → Prop
  | .frame i call =>
      (dev.zdev.zdevVideos i).streaming = true →
        FrameSafe (dev.zdev.zdevVideos i) (dev.cams i) call
  | _ => True

def MetaDev.CapsOk (dev : MetaDev n) : Prop := ∀ i, (dev.cams i).CapsOk

def MetaDev.AtStart (dev : MetaDev n) : Prop := ∀ i, (dev.cams i).embeddedData = false

theorem MetaDev.AtStart.capsOk (hstart : dev.AtStart) : dev.CapsOk := by
  intro i
  have hdata := hstart i
  refine ⟨fun hembedded => ?_, fun hembedded => ?_⟩
  · rw [hdata] at hembedded
    cases hembedded
  · rw [hdata] at hembedded
    cases hembedded

theorem MetaDev.CapsOk.setZdev (hok : dev.CapsOk) (zdev : ZynqDev n) :
    ({ dev with zdev := zdev } : MetaDev n).CapsOk :=
  hok

theorem MetaDev.CapsOk.setCam (hok : dev.CapsOk) (i : Fin n) {m : CamMeta} (hm : m.CapsOk) :
    (dev.setCam i m).CapsOk := by
  intro j
  unfold MetaDev.setCam
  dsimp only
  by_cases hj : j = i
  · rw [hj, Function.update_self]
    exact hm
  · rw [Function.update_of_ne hj]
    exact hok j

theorem MetaDev.sameCaps_triggerCams (event : TriggerEvent n) (i : Fin n) :
    (dev.cams i).SameCaps (dev.triggerCams cfg event i) := by
  have hstart : (dev.cams i).SameCaps (dev.startCam cfg event i) := by
    unfold startCam
    split
    · split
      · exact ⟨rfl, rfl, rfl⟩
      · exact .refl _
    · exact .refl _
  unfold triggerCams
  dsimp only
  split
  · exact ⟨hstart.embeddedData, hstart.pixelClock, hstart.readEmData⟩
  · exact hstart

theorem CamMeta.pixelClock_readCaps (m : CamMeta) (call : CapsCall) :
    (m.readCaps call).pixelClock ≠ 0 := by
  unfold readCaps
  dsimp only
  split
  · split
    next hclock => exact hclock
    next => decide
  · decide

theorem CamMeta.finishCaps_some {m : CamMeta} (hclock : m.pixelClock ≠ 0) (call : CapsCall) :
    ∃ m', m.finishCaps call = some m' ∧ m'.CapsOk := by
  have hread : (if call.i2cInit then m.readCaps call else m).pixelClock ≠ 0 := by
    split
    · exact m.pixelClock_readCaps call
    · exact hclock
  obtain ⟨m', hinit, hsame, -⟩ := zcamInitTimeParams_some hread
  rw [finishCaps, hinit]
  refine ⟨_, rfl, fun _ => ?_, fun _ => rfl⟩
  rw [← hsame.pixelClock] at hread
  exact hread

theorem CamMeta.zcamCheckCaps_some (m : CamMeta) (call : CapsCall) :
    ∃ m', m.zcamCheckCaps call = some m' ∧ m'.CapsOk := by
  have hdefault : m.capsDefaults.pixelClock = 64000000 := rfl
  have hclock : m.capsDefaults.pixelClock ≠ 0 := by
    rw [hdefault]
    decide
  unfold zcamCheckCaps
  split
  · exact finishCaps_some (m := m.capsDefaults) hclock call
  · exact ⟨_, rfl, nofun, nofun⟩
  next data _ =>
    exact finishCaps_some (m := { m.capsDefaults with minorVersion := data }) hclock call

theorem MetaDev.metaStep_some (hok : dev.CapsOk) {event : MetaEvent n} (hsafe : dev.Safe event) :
    ∃ next, metaStep cfg dev event = some next ∧ next.CapsOk := by
  cases event with
  | trigger event => exact ⟨_, rfl, fun i => (hok i).of_same (sameCaps_triggerCams event i)⟩
  | checkCaps i call =>
      obtain ⟨m, hcaps, hm⟩ := (dev.cams i).zcamCheckCaps_some call
      exact ⟨dev.setCam i m, by rw [metaStep, hcaps]; rfl, hok.setCam i hm⟩
  | delaySet i delay =>
      refine ⟨_, rfl, (hok.setZdev (dev.zdev.onVideo i (·.setTrigDelay delay))).setCam i ?_⟩
      exact (hok i).of_same ⟨rfl, rfl, rfl⟩
  | interrupt i tvIntr => exact ⟨_, rfl, hok.setCam i ((hok i).of_same ⟨rfl, rfl, rfl⟩)⟩
  | frame i call =>
      rw [metaStep, MetaDev.frame]
      split
      next hstreaming =>
        obtain ⟨stamp, v, m, hcheck, hsame⟩ := zvideoCheckMetaData_some (hok i) (hsafe hstreaming)
        rw [hcheck]
        refine ⟨_, rfl, (hok.setZdev (dev.zdev.onVideo i fun _ => v)).setCam i ?_⟩
        exact (hok i).of_same ⟨hsame.embeddedData, hsame.pixelClock, hsame.readEmData⟩
      next => exact ⟨_, rfl, hok.setCam i ((hok i).of_same ⟨rfl, rfl, rfl⟩)⟩

theorem MetaDev.metaStep_none (hok : dev.CapsOk) {event : MetaEvent n}
    (hbad : ¬ dev.Safe event) : metaStep cfg dev event = none := by
  cases event with
  | frame i call =>
      obtain ⟨hstreaming, hframe⟩ := Classical.not_imp.mp hbad
      rw [metaStep, MetaDev.frame, if_pos hstreaming, zvideoCheckMetaData_none (hok i) hframe]
      rfl
  | trigger | checkCaps | delaySet | interrupt => exact absurd trivial hbad

/-- The runs without a division by 0 are those in which each frame that is checked is
safe. -/
theorem metaRun_iff_safe (hstart : dev.AtStart) (events : List (MetaEvent n)) :
    (∃ final, run (metaStep cfg) dev events = some final) ↔
      StepsMeet (metaStep cfg) MetaDev.Safe dev events := by
  have hbreaks : ∀ {dev : MetaDev n} {event : MetaEvent n} {next : MetaDev n}, dev.CapsOk →
      ¬ dev.Safe event → metaStep cfg dev event = some next → ¬ True := by
    intro dev event next hok hbad hstep
    rw [MetaDev.metaStep_none hok hbad] at hstep
    cases hstep
  have htaken : ∀ {dev : MetaDev n} {event : MetaEvent n}, dev.CapsOk → dev.Safe event →
      ∃ next, metaStep cfg dev event = some next ∧ next.CapsOk :=
    fun hok hsafe => MetaDev.metaStep_some hok hsafe
  have hiff : (Throughout (metaStep cfg) (fun _ => True) dev events ∧
      ∃ final, run (metaStep cfg) dev events = some final) ↔
        StepsMeet (metaStep cfg) MetaDev.Safe dev events :=
    stepsMeet_iff_throughout (fun _ _ => trivial) htaken hbreaks hstart.capsOk
  rw [← hiff]
  exact (and_iff_right fun _ _ _ _ => trivial).symm

end Runs

def bareFrame : FrameCall where
  mem i :=
    if i = 4147218 ∨ i = 4147220 ∨ i = 4147222 then 0x12
    else if i = 4147219 ∨ i = 4147221 ∨ i = 4147223 then 0xFE
    else 0
  memsz := 4147232
  tsType := CAM_CAP_TIMESTAMP_TRIGGER
  errTolerant := true
  errThresh := 3

def oneDev : MetaDev 1 where
  zdev :=
    ⟨0, fun _ => ⟨0, 0, 2, 2, false, true, false, false, false, 0, 0, 0, 0, 0, none, false⟩⟩
  cams := fun _ => quietCam

def oneFrame : List (MetaEvent 1) :=
  [.trigger (.startStreaming 0 4 true), .trigger (.enableOne 0 ⟨10, 0⟩),
    .interrupt 0 ⟨1500000000, 0⟩, .frame 0 bareFrame]

theorem metaRun_iff_safe_oneFrame :
    (∃ final, run (metaStep ⟨false, 4⟩) oneDev oneFrame = some final) ↔
      StepsMeet (metaStep ⟨false, 4⟩) MetaDev.Safe oneDev oneFrame :=
  metaRun_iff_safe (fun _ => rfl) oneFrame

/-- The user turns the trigger off while a frame is on its way. -/
theorem metaRun_divides_by_zero :
    run (metaStep ⟨false, 4⟩) oneDev
      [.trigger (.startStreaming 0 4 true), .trigger (.enableOne 0 ⟨10, 0⟩),
        .trigger (.disableOne 0), .interrupt 0 ⟨1500000000, 0⟩, .frame 0 bareFrame] = none := by
  rfl

end ApolloContrib.Trigger
