import ApolloContrib.Library.Circle
import ApolloContrib.Lslidar.Packet

namespace ApolloContrib.Lslidar

open ApolloContrib.Library

/-! Where the channels of a firing come to lie. -/

variable {packet : RawPacket}

section Firing

variable (packet : RawPacket) (firIdx : Fin FIRINGS_PER_PACKET)

theorem next_lt {firIdx : Fin FIRINGS_PER_PACKET} (h : firIdx.val < FIRINGS_PER_PACKET - 1) :
    firIdx.val + 1 < FIRINGS_PER_PACKET := Nat.add_lt_of_lt_sub h

theorem previous_lt : firIdx.val - 1 < FIRINGS_PER_PACKET :=
  (Nat.sub_le _ _).trans_lt firIdx.isLt

/-- The step from a firing to the next; after the last firing it is the step before it. -/
def FiringStep (step : ℚ) : Prop :=
  if h : firIdx.val < FIRINGS_PER_PACKET - 1 then
    StepsTo (2 * M_PI) (firingAzimuth packet firIdx)
      (firingAzimuth packet ⟨firIdx.val + 1, next_lt h⟩) step
  else StepsTo (2 * M_PI) (firingAzimuth packet ⟨firIdx.val - 1, previous_lt firIdx⟩)
    (firingAzimuth packet firIdx) step

/-- The channel lies on the arc of one firing step from its firing, within one turn. -/
structure OnArc (scanFirIdx : Fin SCANS_PER_FIRING) : Prop where
  within : InTurn (2 * M_PI) ((decodePacket packet firIdx).azimuth scanFirIdx)
  arc : ∃ step share, FiringStep packet firIdx step ∧ 0 ≤ share ∧ share ≤ step ∧
    SameAngle (2 * M_PI) ((decodePacket packet firIdx).azimuth scanFirIdx)
      (firingAzimuth packet firIdx + share)

end Firing

def rotation (packet : RawPacket) (blkIdx : Fin BLOCKS_PER_PACKET) : Nat :=
  (packet.blocks blkIdx).rotation.toNat

/-- The rotations do not go back, and the last step fits in the turn. -/
structure Steady (packet : RawPacket) : Prop where
  sorted : ∀ (blkIdx : Fin BLOCKS_PER_PACKET) (h : blkIdx.val < BLOCKS_PER_PACKET - 1),
    rotation packet blkIdx ≤ rotation packet ⟨blkIdx.val + 1, by omega⟩
  room : 29 * rotation packet 11 ≤ 13 * rotation packet 10 + 576000

section Firings

variable (packet)

def even (blkIdx : Fin BLOCKS_PER_PACKET) : Fin FIRINGS_PER_PACKET :=
  ⟨2 * blkIdx.val, Nat.mul_lt_mul_of_pos_left blkIdx.isLt (by decide)⟩

def odd (blkIdx : Fin BLOCKS_PER_PACKET) : Fin FIRINGS_PER_PACKET :=
  ⟨2 * blkIdx.val + 1, by
    have hlt : blkIdx.val < 12 := blkIdx.isLt
    change 2 * blkIdx.val + 1 < 24
    omega⟩

def blockAzimuth (blkIdx : Fin BLOCKS_PER_PACKET) : ℚ :=
  rawAzimuthToDouble (packet.blocks blkIdx).rotation

theorem blockAzimuth_eq (blkIdx : Fin BLOCKS_PER_PACKET) :
    blockAzimuth packet blkIdx = (rotation packet blkIdx : ℚ) * (DEG_TO_RAD / 100) := by
  unfold blockAzimuth rawAzimuthToDouble rotation
  ring

theorem blockAzimuth_nonneg (blkIdx : Fin BLOCKS_PER_PACKET) : 0 ≤ blockAzimuth packet blkIdx := by
  rw [blockAzimuth_eq]
  exact mul_nonneg (Nat.cast_nonneg _) (by norm_num [DEG_TO_RAD])

/-- Half the way to the next block; for the last, half the way from the one before. -/
def halfStep (blkIdx : Fin BLOCKS_PER_PACKET) : ℚ :=
  if h : blkIdx.val < BLOCKS_PER_PACKET - 1 then
    (blockAzimuth packet ⟨blkIdx.val + 1, by omega⟩ - blockAzimuth packet blkIdx) / 2
  else (blockAzimuth packet blkIdx - blockAzimuth packet ⟨blkIdx.val - 1, by omega⟩) / 2

theorem halfStep_of_lt {blkIdx : Fin BLOCKS_PER_PACKET} (h : blkIdx.val < 11) :
    halfStep packet blkIdx =
      (blockAzimuth packet ⟨blkIdx.val + 1, Nat.succ_lt_succ h⟩ - blockAzimuth packet blkIdx) / 2 :=
  dif_pos h

theorem halfStep_last :
    halfStep packet 11 = (blockAzimuth packet 11 - blockAzimuth packet 10) / 2 := rfl

theorem block_cases (blkIdx : Fin BLOCKS_PER_PACKET) : blkIdx.val < 11 ∨ blkIdx = 11 :=
  (Nat.le_of_lt_succ blkIdx.isLt).lt_or_eq.imp_right fun hlast => Fin.ext hlast

theorem firing_cases (firIdx : Fin FIRINGS_PER_PACKET) :
    ∃ blkIdx, firIdx = even blkIdx ∨ firIdx = odd blkIdx := by
  refine ⟨⟨firIdx.val / 2, Nat.div_lt_of_lt_mul firIdx.isLt⟩, ?_⟩
  rcases Nat.mod_two_eq_zero_or_one firIdx.val with h | h
  · exact Or.inl (Fin.ext (by change firIdx.val = 2 * (firIdx.val / 2); omega))
  · exact Or.inr (Fin.ext (by change firIdx.val = 2 * (firIdx.val / 2) + 1; omega))

theorem measuredAzimuth_eq {firIdx : Fin FIRINGS_PER_PACKET} {blkIdx : Fin BLOCKS_PER_PACKET}
    (h : firIdx.val / 2 = blkIdx.val) :
    measuredAzimuth packet firIdx = blockAzimuth packet blkIdx := by
  have hblock : (⟨firIdx.val / 2, Nat.div_lt_of_lt_mul firIdx.isLt⟩ : Fin BLOCKS_PER_PACKET) =
      blkIdx := Fin.ext h
  rw [measuredAzimuth, block, hblock, blockAzimuth]

theorem firingAzimuth_even (blkIdx : Fin BLOCKS_PER_PACKET) :
    firingAzimuth packet (even blkIdx) = blockAzimuth packet blkIdx := by
  have heven : (even blkIdx).val % 2 = 0 := Nat.mul_mod_right 2 blkIdx.val
  rw [firingAzimuth, if_pos heven]
  exact measuredAzimuth_eq packet (Nat.mul_div_cancel_left blkIdx.val (by decide))

theorem interpolatedAzimuth_odd (blkIdx : Fin BLOCKS_PER_PACKET) :
    interpolatedAzimuth packet (odd blkIdx) =
      let diff := 2 * halfStep packet blkIdx
      let azimuth := blockAzimuth packet blkIdx +
        (if diff < 0 then diff + 2 * M_PI else diff) / 2
      if azimuth > 2 * M_PI then azimuth - 2 * M_PI else azimuth := by
  have hodd : (odd blkIdx).val = 2 * blkIdx.val + 1 := rfl
  have hlt : blkIdx.val < 12 := blkIdx.isLt
  have hprevious : measuredAzimuth packet ⟨(odd blkIdx).val - 1, by omega⟩ =
      blockAzimuth packet blkIdx :=
    measuredAzimuth_eq packet (by change ((odd blkIdx).val - 1) / 2 = blkIdx.val; omega)
  unfold interpolatedAzimuth halfStep
  dsimp only
  by_cases hlast : blkIdx.val = 11
  · have hfirst : measuredAzimuth packet ⟨(odd blkIdx).val - 3, by omega⟩ =
        blockAzimuth packet ⟨blkIdx.val - 1, by omega⟩ :=
      measuredAzimuth_eq packet (by change ((odd blkIdx).val - 3) / 2 = blkIdx.val - 1; omega)
    have hend : (odd blkIdx).val = FIRINGS_PER_PACKET - 1 := by
      change (odd blkIdx).val = 23
      omega
    have hblock : ¬ blkIdx.val < BLOCKS_PER_PACKET - 1 := by
      change ¬ blkIdx.val < 11
      omega
    rw [if_pos hend, dif_pos hend, dif_neg hblock, hprevious, hfirst,
      mul_div_cancel₀ _ two_ne_zero]
  · have hnext : (odd blkIdx).val + 1 < 24 := by omega
    have hstart : blkIdx.val + 1 < 12 := by omega
    have hsecond : measuredAzimuth packet ⟨(odd blkIdx).val + 1, hnext⟩ =
        blockAzimuth packet ⟨blkIdx.val + 1, hstart⟩ :=
      measuredAzimuth_eq packet (by change ((odd blkIdx).val + 1) / 2 = blkIdx.val + 1; omega)
    have hend : ¬ (odd blkIdx).val = FIRINGS_PER_PACKET - 1 := by
      change ¬ (odd blkIdx).val = 23
      omega
    have hblock : blkIdx.val < BLOCKS_PER_PACKET - 1 := by
      change blkIdx.val < 11
      omega
    rw [if_neg hend, dif_neg hend, dif_pos hblock, hprevious, hsecond,
      mul_div_cancel₀ _ two_ne_zero]

theorem firingAzimuth_odd {blkIdx : Fin BLOCKS_PER_PACKET} (hdiff : 0 ≤ halfStep packet blkIdx) :
    firingAzimuth packet (odd blkIdx) =
      if blockAzimuth packet blkIdx + halfStep packet blkIdx > 2 * M_PI then
        blockAzimuth packet blkIdx + halfStep packet blkIdx - 2 * M_PI
      else blockAzimuth packet blkIdx + halfStep packet blkIdx := by
  have hodd : ¬ (odd blkIdx).val % 2 = 0 := by
    change ¬ (2 * blkIdx.val + 1) % 2 = 0
    omega
  have hforward : ¬ 2 * halfStep packet blkIdx < 0 := by linarith
  rw [firingAzimuth, if_neg hodd, interpolatedAzimuth_odd]
  dsimp only
  rw [if_neg hforward, mul_div_cancel_left₀ _ two_ne_zero]

theorem azimuthDiff_even (blkIdx : Fin BLOCKS_PER_PACKET) :
    azimuthDiff packet (even blkIdx) =
      firingAzimuth packet (odd blkIdx) - firingAzimuth packet (even blkIdx) := by
  have hnext : (even blkIdx).val < FIRINGS_PER_PACKET - 1 := by
    have hlt : blkIdx.val < 12 := blkIdx.isLt
    change 2 * blkIdx.val < 23
    omega
  rw [azimuthDiff, dif_pos hnext]
  rfl

theorem azimuthDiff_odd (blkIdx : Fin BLOCKS_PER_PACKET) (h : blkIdx.val < 11) :
    azimuthDiff packet (odd blkIdx) =
      firingAzimuth packet (even ⟨blkIdx.val + 1, Nat.succ_lt_succ h⟩) -
        firingAzimuth packet (odd blkIdx) := by
  have hnext : (odd blkIdx).val < FIRINGS_PER_PACKET - 1 := by
    change 2 * blkIdx.val + 1 < 23
    omega
  rw [azimuthDiff, dif_pos hnext]
  rfl

theorem azimuthDiff_last :
    azimuthDiff packet (odd 11) = firingAzimuth packet (odd 11) - firingAzimuth packet (even 11) :=
  rfl

theorem azimuth_eq (firIdx : Fin FIRINGS_PER_PACKET) (scanFirIdx : Fin SCANS_PER_FIRING) :
    (decodePacket packet firIdx).azimuth scanFirIdx =
      firingAzimuth packet firIdx + (scanFirIdx.val : ℚ) / 24 * azimuthDiff packet firIdx := by
  have hpart : (scanFirIdx.val : ℚ) * DSR_TOFFSET / FIRING_TOFFSET = (scanFirIdx.val : ℚ) / 24 := by
    unfold DSR_TOFFSET FIRING_TOFFSET
    ring
  rw [← hpart]
  rfl

end Firings

theorem blockAzimuth_le_iff {first second : Fin BLOCKS_PER_PACKET} :
    blockAzimuth packet first ≤ blockAzimuth packet second ↔
      rotation packet first ≤ rotation packet second := by
  have hunit : 0 < DEG_TO_RAD / 100 := by norm_num [DEG_TO_RAD]
  rw [blockAzimuth_eq, blockAzimuth_eq, mul_le_mul_iff_left₀ hunit, Nat.cast_le]

theorem room_iff :
    blockAzimuth packet 11 + 13 / 8 * halfStep packet 11 < 2 * M_PI ↔
      29 * rotation packet 11 ≤ 13 * rotation packet 10 + 576000 := by
  rw [halfStep_last packet, blockAzimuth_eq, blockAzimuth_eq]
  unfold DEG_TO_RAD M_PI
  constructor
  · intro hless
    by_contra hroom
    have hover : (13 * rotation packet 10 + 576001 : ℚ) ≤ 29 * rotation packet 11 := by
      exact_mod_cast not_le.mp hroom
    linarith
  · intro hroom
    have hcast : (29 * rotation packet 11 : ℚ) ≤ 13 * rotation packet 10 + 576000 := by
      exact_mod_cast hroom
    linarith

section OnArcs

variable (h : ∀ firIdx scanFirIdx, OnArc packet firIdx scanFirIdx)
include h

theorem firingAzimuth_within (firIdx : Fin FIRINGS_PER_PACKET) :
    InTurn (2 * M_PI) (firingAzimuth packet firIdx) := by
  have hfirst := (h firIdx 0).within
  rw [azimuth_eq] at hfirst
  simpa using hfirst

/-- Without a correction of the difference the last channel only gets to its arc where the
azimuth does not wrap. -/
theorem firingAzimuth_le (firIdx : Fin FIRINGS_PER_PACKET)
    (hnext : firIdx.val < FIRINGS_PER_PACKET - 1) :
    firingAzimuth packet firIdx ≤ firingAzimuth packet ⟨firIdx.val + 1, next_lt hnext⟩ := by
  obtain ⟨step, share, hstep, hshare, hle, hsame⟩ := (h firIdx 15).arc
  rw [FiringStep, dif_pos hnext] at hstep
  rw [azimuth_eq, azimuthDiff, dif_pos hnext] at hsame
  have hpart : 0 < (((15 : Fin SCANS_PER_FIRING).val : ℚ) / 24) := by norm_num
  have hone : (((15 : Fin SCANS_PER_FIRING).val : ℚ) / 24) < 1 := by norm_num
  exact le_of_part (firingAzimuth_within h _) (firingAzimuth_within h _) hstep hshare hle hpart
    hone hsame

theorem steady_of_onArc : Steady packet := by
  have hpair (blkIdx : Fin BLOCKS_PER_PACKET) (hnext : blkIdx.val < 11) :
      blockAzimuth packet blkIdx ≤ blockAzimuth packet ⟨blkIdx.val + 1, Nat.succ_lt_succ hnext⟩ := by
    have heven := firingAzimuth_le h (even blkIdx) (by change 2 * blkIdx.val < 23; omega)
    have hodd := firingAzimuth_le h (odd blkIdx) (by change 2 * blkIdx.val + 1 < 23; omega)
    calc
      blockAzimuth packet blkIdx = firingAzimuth packet (even blkIdx) :=
        (firingAzimuth_even packet blkIdx).symm
      _ ≤ firingAzimuth packet (odd blkIdx) := heven
      _ ≤ firingAzimuth packet (even ⟨blkIdx.val + 1, Nat.succ_lt_succ hnext⟩) := hodd
      _ = blockAzimuth packet ⟨blkIdx.val + 1, Nat.succ_lt_succ hnext⟩ :=
        firingAzimuth_even packet _
  have hforward : 0 ≤ halfStep packet 11 := by
    have hle : blockAzimuth packet 10 ≤ blockAzimuth packet 11 := hpair 10 (by decide)
    rw [halfStep_last]
    linarith
  have hstart : 0 ≤ blockAzimuth packet 10 := blockAzimuth_nonneg packet 10
  have hend : blockAzimuth packet 11 < 2 * M_PI :=
    firingAzimuth_even packet 11 ▸ (firingAzimuth_within h (even 11)).2
  have hextrapolated : firingAzimuth packet (odd 11) =
      blockAzimuth packet 11 + halfStep packet 11 := by
    have hle : blockAzimuth packet 11 ≤ firingAzimuth packet (odd 11) :=
      firingAzimuth_even packet 11 ▸ firingAzimuth_le h (even 11) (by decide)
    rw [firingAzimuth_odd packet hforward] at hle ⊢
    rw [if_neg]
    intro hover
    rw [if_pos hover, halfStep_last] at hle
    have hpi : 0 < M_PI := by norm_num [M_PI]
    linarith
  refine ⟨fun blkIdx hnext => blockAzimuth_le_iff.mp (hpair blkIdx hnext), room_iff.mp ?_⟩
  have hwithin := (h (odd 11) 15).within.2
  rw [azimuth_eq, azimuthDiff_last, hextrapolated, firingAzimuth_even] at hwithin
  have hpart : (((15 : Fin SCANS_PER_FIRING).val : ℚ)) = 15 := rfl
  rw [hpart] at hwithin
  linarith

end OnArcs

theorem index_lt {azimuth : ℚ} (h : InTurn (2 * M_PI) azimuth) :
    0 ≤ ⌊azimuth * 1000 + 1 / 2⌋ ∧ ⌊azimuth * 1000 + 1 / 2⌋ < 6300 := by
  refine ⟨Int.floor_nonneg.mpr (by linarith [h.1]), ?_⟩
  have hturn : 2 * M_PI < 6.2835 := by norm_num [M_PI]
  rw [Int.floor_lt]
  push_cast
  linarith [h.2]

theorem tableIdx_toNat {azimuth : ℚ} (h : InTurn (2 * M_PI) azimuth) :
    ((tableIdx azimuth).toNat : ℤ) = ⌊azimuth * 1000 + 1 / 2⌋ := by
  obtain ⟨hnonneg, hless⟩ := index_lt h
  rw [tableIdx, BitVec.toNat_ofInt]
  omega

theorem tableIdx_lt {azimuth : ℚ} (h : InTurn (2 * M_PI) azimuth) :
    (tableIdx azimuth).toNat < 6300 := by
  have hless := (index_lt h).2
  rw [← tableIdx_toNat h] at hless
  exact_mod_cast hless

/-- With a difference that is forward and short, it is the step, and the channel has its part. -/
theorem onArc_of_azimuthDiff {firIdx : Fin FIRINGS_PER_PACKET} {scanFirIdx : Fin SCANS_PER_FIRING}
    (hforward : 0 ≤ azimuthDiff packet firIdx) (hshort : 2 * azimuthDiff packet firIdx < 2 * M_PI)
    (hwithin : InTurn (2 * M_PI) ((decodePacket packet firIdx).azimuth scanFirIdx)) :
    OnArc packet firIdx scanFirIdx := by
  have hscan : (scanFirIdx.val : ℚ) ≤ 24 := by
    have hlt : scanFirIdx.val < 16 := scanFirIdx.isLt
    exact_mod_cast hlt.le.trans (by decide)
  have hpart : 0 ≤ (scanFirIdx.val : ℚ) / 24 := by positivity
  have hone : (scanFirIdx.val : ℚ) / 24 ≤ 1 := by linarith
  refine ⟨hwithin, azimuthDiff packet firIdx,
    (scanFirIdx.val : ℚ) / 24 * azimuthDiff packet firIdx, ?_, mul_nonneg hpart hforward,
    mul_le_of_le_one_left hforward hone, ?_⟩
  · unfold FiringStep
    split
    case isTrue hnext =>
      refine ⟨hforward, hshort, ?_⟩
      rw [azimuthDiff, dif_pos hnext, add_sub_cancel]
      exact SameAngle.refl _
    case isFalse hend =>
      refine ⟨hforward, hshort, ?_⟩
      rw [azimuthDiff, dif_neg hend, add_sub_cancel]
      exact SameAngle.refl _
  · rw [azimuth_eq]
    exact SameAngle.refl _

section Steady

variable (h : Steady packet)
include h

theorem Steady.blockAzimuth_mono : Monotone (blockAzimuth packet) :=
  Fin.monotone_iff_le_succ.mpr fun blkIdx =>
    blockAzimuth_le_iff.mpr (h.sorted blkIdx.castSucc blkIdx.isLt)

theorem Steady.blockAzimuth_le {blkIdx : Fin BLOCKS_PER_PACKET} (hnext : blkIdx.val < 11) :
    blockAzimuth packet blkIdx ≤ blockAzimuth packet ⟨blkIdx.val + 1, Nat.succ_lt_succ hnext⟩ :=
  h.blockAzimuth_mono (Fin.mk_le_mk.mpr (Nat.le_succ blkIdx.val))

theorem Steady.halfStep_nonneg (blkIdx : Fin BLOCKS_PER_PACKET) : 0 ≤ halfStep packet blkIdx := by
  rcases block_cases blkIdx with hnext | rfl
  · rw [halfStep_of_lt packet hnext]
    linarith [h.blockAzimuth_le hnext]
  · have hle : blockAzimuth packet 10 ≤ blockAzimuth packet 11 := h.blockAzimuth_mono (by decide)
    rw [halfStep_last]
    linarith

theorem Steady.lastChannel_lt (blkIdx : Fin BLOCKS_PER_PACKET) :
    blockAzimuth packet blkIdx + 13 / 8 * halfStep packet blkIdx < 2 * M_PI := by
  have hlast := room_iff.mpr h.room
  rcases block_cases blkIdx with hnext | rfl
  · have hle := h.blockAzimuth_le hnext
    have hleLast : blockAzimuth packet ⟨blkIdx.val + 1, Nat.succ_lt_succ hnext⟩ ≤
        blockAzimuth packet 11 := h.blockAzimuth_mono (Fin.mk_le_mk.mpr hnext)
    have hnonneg := h.halfStep_nonneg 11
    rw [halfStep_of_lt packet hnext]
    linarith
  · exact hlast

theorem Steady.halfStep_short (blkIdx : Fin BLOCKS_PER_PACKET) :
    2 * halfStep packet blkIdx < 2 * M_PI := by
  have hless := h.lastChannel_lt blkIdx
  have hnonneg := h.halfStep_nonneg blkIdx
  rcases block_cases blkIdx with hnext | rfl
  · have hfirst := blockAzimuth_nonneg packet blkIdx
    have hnextLess := h.lastChannel_lt ⟨blkIdx.val + 1, Nat.succ_lt_succ hnext⟩
    have hnextNonneg := h.halfStep_nonneg ⟨blkIdx.val + 1, Nat.succ_lt_succ hnext⟩
    rw [halfStep_of_lt packet hnext]
    linarith
  · have hfirst := blockAzimuth_nonneg packet 10
    rw [halfStep_last] at hless hnonneg ⊢
    linarith

theorem Steady.firingAzimuth_odd (blkIdx : Fin BLOCKS_PER_PACKET) :
    firingAzimuth packet (odd blkIdx) = blockAzimuth packet blkIdx + halfStep packet blkIdx := by
  have hless := h.lastChannel_lt blkIdx
  have hnonneg := h.halfStep_nonneg blkIdx
  have hturn : ¬ blockAzimuth packet blkIdx + halfStep packet blkIdx > 2 * M_PI := by linarith
  rw [Lslidar.firingAzimuth_odd packet hnonneg, if_neg hturn]

theorem Steady.azimuthDiff_even (blkIdx : Fin BLOCKS_PER_PACKET) :
    azimuthDiff packet (even blkIdx) = halfStep packet blkIdx := by
  rw [Lslidar.azimuthDiff_even, h.firingAzimuth_odd, firingAzimuth_even, add_sub_cancel_left]

theorem Steady.azimuthDiff_odd (blkIdx : Fin BLOCKS_PER_PACKET) :
    azimuthDiff packet (odd blkIdx) = halfStep packet blkIdx := by
  rcases block_cases blkIdx with hnext | rfl
  · rw [Lslidar.azimuthDiff_odd packet blkIdx hnext, h.firingAzimuth_odd, firingAzimuth_even,
      halfStep_of_lt packet hnext]
    ring
  · rw [azimuthDiff_last, h.firingAzimuth_odd, firingAzimuth_even, add_sub_cancel_left]

theorem Steady.within (firIdx : Fin FIRINGS_PER_PACKET) (scanFirIdx : Fin SCANS_PER_FIRING) :
    InTurn (2 * M_PI) ((decodePacket packet firIdx).azimuth scanFirIdx) := by
  have hscan : (scanFirIdx.val : ℚ) ≤ 15 := by
    exact_mod_cast Nat.le_of_lt_succ scanFirIdx.isLt
  have hpart : 0 ≤ (scanFirIdx.val : ℚ) / 24 := by positivity
  have hlast : (scanFirIdx.val : ℚ) / 24 ≤ 5 / 8 := by linarith
  obtain ⟨blkIdx, rfl | rfl⟩ := firing_cases firIdx
  all_goals
    have hfirst := blockAzimuth_nonneg packet blkIdx
    have hnonneg := h.halfStep_nonneg blkIdx
    have hless := h.lastChannel_lt blkIdx
    have hshare := mul_nonneg hpart hnonneg
    have hshareLe := mul_le_mul_of_nonneg_right hlast hnonneg
    rw [azimuth_eq]
  · rw [firingAzimuth_even, h.azimuthDiff_even]
    constructor <;> linarith
  · rw [h.firingAzimuth_odd, h.azimuthDiff_odd]
    constructor <;> linarith

theorem Steady.onArc (firIdx : Fin FIRINGS_PER_PACKET) (scanFirIdx : Fin SCANS_PER_FIRING) :
    OnArc packet firIdx scanFirIdx := by
  obtain ⟨blkIdx, hfiring⟩ := firing_cases firIdx
  have hdiff : azimuthDiff packet firIdx = halfStep packet blkIdx := by
    rcases hfiring with rfl | rfl
    · exact h.azimuthDiff_even blkIdx
    · exact h.azimuthDiff_odd blkIdx
  exact onArc_of_azimuthDiff (hdiff ▸ h.halfStep_nonneg blkIdx) (hdiff ▸ h.halfStep_short blkIdx)
    (h.within firIdx scanFirIdx)

end Steady

/-- The channels lie on their arcs, with indices of the tables, for the steady packets only. -/
theorem interpolation_iff (packet : {packet : RawPacket // checkPacketValidity packet = true}) :
    (∀ firIdx scanFirIdx, OnArc packet.1 firIdx scanFirIdx ∧
      (tableIdx ((decodePacket packet.1 firIdx).azimuth scanFirIdx)).toNat < 6300) ↔
      Steady packet.1 := by
  constructor
  · intro h
    exact steady_of_onArc fun firIdx scanFirIdx => (h firIdx scanFirIdx).1
  · intro h firIdx scanFirIdx
    exact ⟨h.onArc firIdx scanFirIdx, tableIdx_lt (h.within firIdx scanFirIdx)⟩

def turning (rotation : Nat → Nat) : RawPacket where
  blocks blkIdx := ⟨UPPER_BANK, BitVec.ofNat 16 (rotation blkIdx.val), fun _ => 0⟩

theorem interpolation_fails :
    (¬ ∀ packet, checkPacketValidity packet = true →
      ∀ firIdx scanFirIdx, OnArc packet firIdx scanFirIdx) ∧
    ¬ ∀ packet, checkPacketValidity packet = true → ∀ firIdx scanFirIdx,
      (tableIdx ((decodePacket packet firIdx).azimuth scanFirIdx)).toNat < 6300 := by
  constructor
  · intro h
    -- The turn ends between the blocks 2 and 3.
    have hsteady := steady_of_onArc (h (turning fun blkIdx => (35900 + 40 * blkIdx) % 36000) rfl)
    exact absurd (hsteady.sorted 2 (by decide)) (by decide)
  · intro h
    -- The turn ends between the last measured firing and the extrapolated one.
    exact absurd (h (turning fun blkIdx => 35550 + 40 * blkIdx) rfl 23 15) (by decide +kernel)

end ApolloContrib.Lslidar
