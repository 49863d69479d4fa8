import ApolloContrib.Velodyne.Returns
import Mathlib.Algebra.Order.Floor.Ring
import Mathlib.Tactic.Linarith

namespace ApolloContrib.Velodyne

open ApolloContrib.Library
open Driver (Data)

/-! Which returns of a packet are in view. -/

/-- On the arc from the first angle to the second, in increasing azimuth; 36000 is the end of
the circle. -/
def Config.onArc (config : Config) (azimuth : BitVec 16) : Bool :=
  if config.minAngle < config.maxAngle then
    config.minAngle ≤ azimuth.toNat && azimuth.toNat ≤ config.maxAngle
  else (config.minAngle ≤ azimuth.toNat && azimuth.toNat ≤ 36000) ||
    azimuth.toNat ≤ config.maxAngle

namespace Sensor

variable (sensor : Sensor) (raw : RawData) (pkt : Data)

def viewed : List Return :=
  sensor.returns raw pkt ((sensor.reached pkt).filter fun i => raw.config.onArc (rotation pkt i))

/-- No table is read at its end, each conversion fits, and the returns of the blocks on the arc
are put into the cloud, these and no others. -/
def ViewRight (pc : VPointCloud) : Prop :=
  ∃ points, (sensor.viewed raw pkt).mapM (sensor.pointOf raw pkt) = .ok points ∧
    sensor.unpack raw pkt pc = .ok (pc.pushAll points)

structure ViewFits : Prop where
  /-- Where the arc goes through 0, there are returns on it only. -/
  window : raw.config.maxAngle < raw.config.minAngle → ∀ r : Return, r.1 ∈ sensor.reached pkt →
    sensor.inRange raw pkt r = true → raw.config.onArc (rotation pkt r.1) = true
  /-- The tables end before 36000. -/
  table : sensor = .hdl64 → ∀ r ∈ sensor.viewed raw pkt, (rotation pkt r.1).toNat ≠ 36000
  /-- The last block takes the difference of the one before, which may be negative. -/
  timing : ∀ timed, sensor.timed? = some timed → ∀ r ∈ sensor.viewed raw pkt, r.1 = 11 →
    (rotation pkt 11).toNat + 36000 < (rotation pkt 10).toNat →
    (((rotation pkt 10).toNat - (rotation pkt 11).toNat - 36000 : Int) : ℚ) * timed.share r.2 <
      (rotation pkt 11).toNat + 1 / 2

end Sensor

section Angles

structure Config.Angles (config : Config) : Prop where
  min : 0 ≤ config.minAngle ∧ config.minAngle ≤ 36000
  max : 0 ≤ config.maxAngle ∧ config.maxAngle ≤ 36000
  ne : config.minAngle ≠ config.maxAngle

theorem fmod_bounds {x y : ℚ} (hy : 0 < y) : -y < fmod x y ∧ fmod x y < y := by
  unfold fmod truncate
  split
  · have hnonneg := Int.sub_floor_div_mul_nonneg x hy
    have hlt := Int.sub_floor_div_mul_lt x hy
    constructor
    · linarith
    · linarith
  · have hle := (div_le_iff₀ hy).mp (Int.le_ceil (x / y))
    have hlt := mul_lt_mul_of_pos_right (Int.ceil_lt_add_one (x / y)) hy
    rw [add_mul, div_mul_cancel₀ x hy.ne', one_mul] at hlt
    constructor
    · linarith
    · linarith

theorem fmod_nonneg {x y : ℚ} (hx : 0 ≤ x) (hy : 0 < y) : 0 ≤ fmod x y := by
  have hdiv : 0 ≤ x / y := div_nonneg hx hy.le
  have hnonneg := Int.sub_floor_div_mul_nonneg x hy
  unfold fmod truncate
  rw [if_pos hdiv]
  linarith

theorem positiveModulo_bounds (angle : ℚ) :
    0 ≤ positiveModulo angle ∧ positiveModulo angle < 2 * M_PI := by
  have hpi : 0 < 2 * M_PI := by
    unfold M_PI
    norm_num
  have hinner := fmod_bounds (x := angle) hpi
  exact ⟨fmod_nonneg (by linarith) hpi, (fmod_bounds hpi).2⟩

theorem hardwareAngle_bounds {angle : ℚ} (hangle : 0 ≤ angle) (hless : angle < 2 * M_PI) :
    0 ≤ hardwareAngle angle ∧ hardwareAngle angle ≤ 36000 := by
  have hpi : 0 < M_PI := by
    unfold M_PI
    norm_num
  have hnonneg : 0 ≤ 100 * (2 * M_PI - angle) * 180 / M_PI :=
    div_nonneg (by linarith) hpi.le
  have hle : 100 * (2 * M_PI - angle) * 180 / M_PI ≤ 36000 := by
    rw [div_le_iff₀ hpi]
    linarith
  unfold hardwareAngle truncate
  rw [if_pos (by linarith)]
  refine ⟨Int.floor_nonneg.mpr (by linarith), Int.lt_add_one_iff.mp (Int.floor_lt.mpr ?_)⟩
  push_cast
  linarith

theorem angles_setParameters (raw : RawData) (minRange maxRange viewDirection viewWidth : ℚ) :
    (raw.setParameters minRange maxRange viewDirection viewWidth).config.Angles := by
  have hmin := positiveModulo_bounds (viewDirection + viewWidth / 2)
  have hmax := positiveModulo_bounds (viewDirection - viewWidth / 2)
  have hmin := hardwareAngle_bounds hmin.1 hmin.2
  have hmax := hardwareAngle_bounds hmax.1 hmax.2
  unfold RawData.setParameters
  dsimp only
  constructor
  · dsimp only
    split
    · decide
    · exact hmin
  · dsimp only
    split
    · decide
    · exact hmax
  · dsimp only
    split
    · decide
    next hne => exact hne

end Angles

section Lands

variable {raw : RawData} {sensor : Sensor} {pkt : Data} {r : Return}

theorem computeXyzi_iff {chanId azimuthUint : Nat} {distance intensity : ℚ} :
    (∃ point, raw.computeXyzi chanId azimuthUint distance intensity = .ok point) ↔
      azimuthUint < 36000 := by
  unfold RawData.computeXyzi lookup
  by_cases hless : azimuthUint < ROTATION_MAX_UNITS
  · rw [dif_pos hless, dif_pos hless]
    exact iff_of_true ⟨_, rfl⟩ hless
  · rw [dif_neg hless, dif_neg hless]
    exact iff_of_false nofun hless

theorem pointOf_iff : (∃ point, sensor.pointOf raw pkt r = .ok point) ↔
    ∃ azimuth, sensor.index pkt r = .ok azimuth ∧ azimuth < 36000 := by
  unfold Sensor.pointOf
  constructor
  · rintro ⟨point, hpoint⟩
    obtain ⟨azimuth, hindex, hpoint⟩ := bind_eq_ok.mp hpoint
    exact ⟨azimuth, hindex, computeXyzi_iff.mp ⟨point, hpoint⟩⟩
  · rintro ⟨azimuth, hindex, hless⟩
    rw [hindex]
    exact computeXyzi_iff.mpr hless

theorem round_nonneg_iff {x : ℚ} : 0 ≤ round x ↔ -(1 / 2) < x := by
  unfold round
  split
  next hx => exact iff_of_true (Int.floor_nonneg.mpr (by linarith)) (by linarith)
  next hx =>
    have hceil : -1 < ⌈x - 1 / 2⌉ ↔ ((-1 : Int) : ℚ) < x - 1 / 2 := Int.lt_ceil
    push_cast at hceil
    constructor
    · intro hround
      have hlt := hceil.mp (by omega)
      linarith
    · intro hlt
      have hround := hceil.mpr (by linarith)
      omega

theorem round_lt {x : ℚ} (hx : x < 65535 + 1 / 2) : round x < 2 ^ 16 := by
  unfold round
  split
  · refine Int.floor_lt.mpr ?_
    push_cast
    linarith
  · have hceil : ⌈x - 1 / 2⌉ ≤ 0 := Int.ceil_le.mpr (by push_cast; linarith)
    omega

theorem azimuthCorrected_iff {azimuth : BitVec 16} {diff : Int} {share : ℚ}
    (hless : (azimuth.toNat : ℚ) + diff * share < 65535 + 1 / 2) :
    (∃ index, RawData.azimuthCorrected azimuth diff share = .ok index ∧ index < 36000) ↔
      -(1 / 2) < (azimuth.toNat : ℚ) + diff * share := by
  rw [← round_nonneg_iff]
  unfold RawData.azimuthCorrected toUint16
  dsimp only
  by_cases hround : 0 ≤ round (azimuth.toNat + diff * share)
  · rw [if_pos ⟨hround, round_lt hless⟩]
    exact iff_of_true ⟨_, rfl, Nat.mod_lt _ (by decide)⟩ hround
  · rw [if_neg fun h => hround h.1]
    exact iff_of_false (fun ⟨_, h, _⟩ => nomatch h) hround

theorem azimuthDiff_bounds {azimuthNext azimuth : BitVec 16}
    (hle : azimuth.toNat ≤ azimuthNext.toNat + 36000) :
    0 ≤ RawData.azimuthDiff azimuthNext azimuth ∧
      RawData.azimuthDiff azimuthNext azimuth < 36000 :=
  ⟨Int.tmod_nonneg _ (by omega), Int.tmod_lt_of_pos _ (by decide)⟩

theorem azimuthDiff_neg {azimuthNext azimuth : BitVec 16}
    (hless : azimuthNext.toNat + 36000 < azimuth.toNat) :
    RawData.azimuthDiff azimuthNext azimuth =
      -((azimuth.toNat : Int) - azimuthNext.toNat - 36000) := by
  have hazimuth := azimuth.isLt
  have hnonneg : 0 ≤ (azimuth.toNat : Int) - azimuthNext.toNat - 36000 := by omega
  have hsmall := Int.tmod_eq_of_lt hnonneg (show _ < 36000 by omega)
  unfold RawData.azimuthDiff
  rw [← hsmall, ← Int.neg_tmod]
  congr 1
  omega

theorem share_bounds {timed : Timed} (htimed : sensor.timed? = some timed)
    (j : Fin NUM_CHANS_PER_BLOCK) : 0 ≤ timed.share j ∧ timed.share j ≤ 13 / 16 := by
  have hj : j.val < 32 := j.isLt
  have hnonneg (n : Nat) : 0 ≤ (n : ℚ) := n.cast_nonneg
  have hle {n m : Nat} (h : n ≤ m) : (n : ℚ) ≤ m := Nat.cast_le.mpr h
  cases sensor with
  | hdl64 => exact nomatch htimed
  | vlp16 =>
      cases htimed
      have hchan : ((j.val % 16 : Nat) : ℚ) ≤ (15 : Nat) := hle (by omega)
      have hseq : ((j.val / 16 : Nat) : ℚ) ≤ (1 : Nat) := hle (by omega)
      have hchan' := hnonneg (j.val % 16)
      have hseq' := hnonneg (j.val / 16)
      unfold Timed.vlp16 VLP16_BLOCK_TDURATION CHANNEL_TDURATION SEQ_TDURATION
      push_cast at *
      constructor
      · positivity
      · rw [div_le_iff₀ (by norm_num)]
        linarith
  | vlp32 =>
      cases htimed
      have horder : ((j.val / 2 : Nat) : ℚ) ≤ (15 : Nat) := hle (by omega)
      have horder' := hnonneg (j.val / 2)
      unfold Timed.vlp32 CHANNEL_TDURATION SEQ_TDURATION
      push_cast at *
      constructor
      · linarith
      · linarith
  | hdl32 =>
      cases htimed
      have hchan : (j.val : ℚ) ≤ (31 : Nat) := hle (by omega)
      have hchan' := hnonneg j.val
      unfold Timed.hdl32 HDL32_CHANNEL_TDURATION HDL32_SEQ_TDURATION
      push_cast at *
      constructor
      · linarith
      · linarith
  | vls128 =>
      cases htimed
      norm_num [Timed.vls128]

structure Sensor.Lands (sensor : Sensor) (pkt : Data) (r : Return) : Prop where
  table : sensor = .hdl64 → (rotation pkt r.1).toNat ≠ 36000
  timing : ∀ timed, sensor.timed? = some timed → r.1 = 11 →
    (rotation pkt 11).toNat + 36000 < (rotation pkt 10).toNat →
    (((rotation pkt 10).toNat - (rotation pkt 11).toNat - 36000 : Int) : ℚ) * timed.share r.2 <
      (rotation pkt 11).toNat + 1 / 2

/-- Only the last block has a negative difference, from one azimuth far behind the other. -/
theorem diffAt_cases {i : Fin NUM_BLOCKS_PER_PACKET} (hazimuth : (rotation pkt i).toNat ≤ 36000) :
    (i = 11 ∧ (rotation pkt 11).toNat + 36000 < (rotation pkt 10).toNat ∧
      diffAt pkt i =
        -((rotation pkt 10).toNat - (rotation pkt 11).toNat - 36000 : Int)) ∨
      ¬ (i = 11 ∧ (rotation pkt 11).toNat + 36000 < (rotation pkt 10).toNat) ∧
        0 ≤ diffAt pkt i ∧ diffAt pkt i < 36000 := by
  by_cases hlast : i = 11
  · subst hlast
    by_cases hfar : (rotation pkt 11).toNat + 36000 < (rotation pkt 10).toNat
    · exact Or.inl ⟨rfl, hfar, azimuthDiff_neg hfar⟩
    · refine Or.inr ⟨fun h => hfar h.2, ?_⟩
      have hle : (rotation pkt 10).toNat ≤ (rotation pkt 11).toNat + 36000 := by omega
      exact azimuthDiff_bounds hle
  · have hi : i.val < 11 := by
      have hlt : i.val < 12 := i.isLt
      have hne : i.val ≠ 11 := fun h => hlast (Fin.ext h)
      omega
    have hblock : diffBlock i = ⟨i.val, hi⟩ := dif_pos hi
    refine Or.inr ⟨fun h => hlast h.1, ?_⟩
    rw [diffAt, hblock]
    exact azimuthDiff_bounds (Nat.le_add_left_of_le hazimuth)

theorem lands_timed {timed : Timed} (htimed : sensor.timed? = some timed)
    (hazimuth : (rotation pkt r.1).toNat ≤ 36000) :
    (∃ azimuth, sensor.index pkt r = .ok azimuth ∧ azimuth < 36000) ↔
      (r.1 = 11 → (rotation pkt 11).toNat + 36000 < (rotation pkt 10).toNat →
        (((rotation pkt 10).toNat - (rotation pkt 11).toNat - 36000 : Int) : ℚ) * timed.share r.2 <
          (rotation pkt 11).toNat + 1 / 2) := by
  have hindex : sensor.index pkt r =
      RawData.azimuthCorrected (rotation pkt r.1) (diffAt pkt r.1) (timed.share r.2) := by
    rw [Sensor.index, htimed]
  obtain ⟨hshare, hshareLe⟩ := share_bounds htimed r.2
  have hle : ((rotation pkt r.1).toNat : ℚ) ≤ (36000 : Nat) := Nat.cast_le.mpr hazimuth
  have hnonneg : 0 ≤ ((rotation pkt r.1).toNat : ℚ) := Nat.cast_nonneg _
  push_cast at hle
  rw [hindex]
  rcases diffAt_cases hazimuth with ⟨hlast, hfar, hdiff⟩ | ⟨hnear, hdiff, hdiffLt⟩
  · have hpos : (0 : ℚ) ≤ ((rotation pkt 10).toNat - (rotation pkt 11).toNat - 36000 : Int) :=
      Int.cast_nonneg (by omega)
    have hmul := mul_nonneg hpos hshare
    have hcast : (diffAt pkt r.1 : ℚ) =
        -((rotation pkt 10).toNat - (rotation pkt 11).toNat - 36000 : Int) := by
      rw [hdiff, Int.cast_neg]
    rw [azimuthCorrected_iff (by rw [hcast]; linarith), hcast, hlast]
    constructor
    · intro hlt _ _
      linarith
    · intro hlt
      have hlt := hlt rfl hfar
      linarith
  · have hdiff : (0 : ℚ) ≤ diffAt pkt r.1 := Int.cast_nonneg hdiff
    have hdiffLt : (diffAt pkt r.1 : ℚ) < (36000 : Int) := Int.cast_lt.mpr hdiffLt
    push_cast at hdiffLt
    have hmul := mul_nonneg hdiff hshare
    have hmulLe := mul_le_mul hdiffLt.le hshareLe hshare (by norm_num)
    rw [azimuthCorrected_iff (by linarith)]
    exact iff_of_true (by linarith) fun hlast hfar => absurd ⟨hlast, hfar⟩ hnear

theorem timed?_eq_none : sensor.timed? = none ↔ sensor = .hdl64 := by
  cases sensor <;> simp [Sensor.timed?]

theorem lands_iff (hazimuth : (rotation pkt r.1).toNat ≤ 36000) :
    (∃ point, sensor.pointOf raw pkt r = .ok point) ↔ sensor.Lands pkt r := by
  rw [pointOf_iff]
  cases htimed : sensor.timed? with
  | none =>
      have hhdl64 := timed?_eq_none.mp htimed
      have hindex : sensor.index pkt r = .ok (rotation pkt r.1).toNat := by
        rw [Sensor.index, htimed]
      rw [hindex]
      constructor
      · rintro ⟨azimuth, heq, hless⟩
        cases heq
        refine ⟨fun _ => hless.ne, fun timed hsome => ?_⟩
        exact absurd (htimed.symm.trans hsome).symm (Option.some_ne_none timed)
      · intro hlands
        exact ⟨_, rfl, lt_of_le_of_ne hazimuth (hlands.table hhdl64)⟩
  | some timed =>
      rw [lands_timed htimed hazimuth]
      constructor
      · intro hlands
        refine ⟨fun h => ?_, fun timed' hsome => ?_⟩
        · rw [timed?_eq_none.mpr h] at htimed
          exact absurd htimed.symm (Option.some_ne_none timed)
        · obtain rfl := Option.some.inj (htimed.symm.trans hsome)
          exact hlands
      · intro hlands
        exact hlands.timing timed htimed

end Lands

section View

variable {sensor : Sensor} {raw : RawData} {pkt : Data} {pc : VPointCloud} {r : Return}

theorem mem_returns {blocks : List (Fin NUM_BLOCKS_PER_PACKET)} :
    r ∈ sensor.returns raw pkt blocks ↔ r.1 ∈ blocks ∧ sensor.inRange raw pkt r = true := by
  obtain ⟨i, j⟩ := r
  simp [Sensor.returns]

theorem inArea_of_onArc (hangles : raw.config.Angles) {azimuth : BitVec 16}
    (harc : raw.config.onArc azimuth = true) : raw.config.inArea azimuth = true := by
  unfold Config.inArea
  unfold Config.onArc at harc
  split at harc
  next hlt =>
    rw [Bool.or_eq_true]
    exact Or.inl (by simpa [hlt] using harc)
  next hge =>
    have hwraps : raw.config.maxAngle < raw.config.minAngle :=
      lt_of_le_of_ne (not_lt.mp hge) hangles.ne.symm
    simp [hwraps]

theorem le_of_onArc (hangles : raw.config.Angles) {azimuth : BitVec 16}
    (harc : raw.config.onArc azimuth = true) : azimuth.toNat ≤ 36000 := by
  have hmax := hangles.max.2
  unfold Config.onArc at harc
  split at harc
  · simp only [Bool.and_eq_true, decide_eq_true_eq] at harc
    omega
  · simp only [Bool.or_eq_true, Bool.and_eq_true, decide_eq_true_eq] at harc
    omega

theorem onArc_iff_inArea {azimuth : BitVec 16}
    (hstraight : raw.config.minAngle < raw.config.maxAngle) :
    raw.config.onArc azimuth = raw.config.inArea azimuth := by
  simp [Config.onArc, Config.inArea, hstraight, hstraight.not_gt]

/-- The returns of some of the blocks are those of all that are in such a block. -/
theorem returns_filter (blocks : List (Fin NUM_BLOCKS_PER_PACKET))
    (p : Fin NUM_BLOCKS_PER_PACKET → Bool) : sensor.returns raw pkt (blocks.filter p) =
      (sensor.returns raw pkt blocks).filter fun r => p r.1 := by
  induction blocks with
  | nil => rfl
  | cons i blocks ih =>
      have hblock (r : Return) (hr : r ∈ ((List.finRange NUM_CHANS_PER_BLOCK).map (i, ·)).filter
          (sensor.inRange raw pkt)) : p r.1 = p i := by
        obtain ⟨j, -, rfl⟩ := List.mem_map.mp (List.mem_filter.mp hr).1
        rfl
      have hcons (l : List (Fin NUM_BLOCKS_PER_PACKET)) : sensor.returns raw pkt (i :: l) =
          ((List.finRange NUM_CHANS_PER_BLOCK).map (i, ·)).filter (sensor.inRange raw pkt) ++
            sensor.returns raw pkt l := List.flatMap_cons
      rw [List.filter_cons, hcons, List.filter_append, List.filter_congr hblock, ← ih]
      cases p i with
      | true => rw [if_pos rfl, List.filter_true, hcons]
      | false => rw [if_neg Bool.false_ne_true, List.filter_false, List.nil_append]

theorem viewed_sublist (hangles : raw.config.Angles) :
    (sensor.viewed raw pkt).Sublist (sensor.unpacked raw pkt) := by
  rw [Sensor.viewed, Sensor.unpacked, returns_filter, returns_filter]
  exact List.monotone_filter_right _ fun _ => inArea_of_onArc hangles

theorem viewRight_iff_viewed (hangles : raw.config.Angles) : sensor.ViewRight raw pkt pc ↔
    sensor.viewed raw pkt = sensor.unpacked raw pkt ∧
      ∀ r ∈ sensor.viewed raw pkt, ∃ point, sensor.pointOf raw pkt r = .ok point := by
  rw [Sensor.ViewRight, unpack_eq]
  constructor
  · rintro ⟨points, hviewed, hunpack⟩
    obtain ⟨others, hunpacked, hsame⟩ := bind_eq_ok.mp hunpack
    have hpoints := congrArg VPointCloud.points (Except.ok.inj hsame)
    rw [VPointCloud.points_pushAll, VPointCloud.points_pushAll] at hpoints
    obtain rfl := List.append_cancel_left hpoints
    refine ⟨(viewed_sublist hangles).eq_of_length ?_, mapM_ok_iff.mp ⟨_, hviewed⟩⟩
    exact (mapM_forall₂ hviewed).length_eq.trans (mapM_forall₂ hunpacked).length_eq.symm
  · rintro ⟨hsame, hlands⟩
    obtain ⟨points, hpoints⟩ := mapM_total hlands
    refine ⟨points, hpoints, ?_⟩
    rw [← hsame, hpoints]
    rfl

theorem viewed_eq_iff (hangles : raw.config.Angles) :
    sensor.viewed raw pkt = sensor.unpacked raw pkt ↔
      (raw.config.maxAngle < raw.config.minAngle → ∀ r : Return, r.1 ∈ sensor.reached pkt →
        sensor.inRange raw pkt r = true → raw.config.onArc (rotation pkt r.1) = true) := by
  constructor
  · intro hsame hwraps r hreached hrange
    have hmem : r ∈ sensor.unpacked raw pkt :=
      mem_returns.mpr ⟨List.mem_filter.mpr ⟨hreached, by simp [Config.inArea, hwraps]⟩, hrange⟩
    rw [← hsame] at hmem
    exact (List.mem_filter.mp (mem_returns.mp hmem).1).2
  · intro hwindow
    rw [Sensor.viewed, Sensor.unpacked, returns_filter, returns_filter]
    refine List.filter_congr fun r hr => ?_
    rcases lt_or_gt_of_ne hangles.ne with hstraight | hwraps
    · exact onArc_iff_inArea hstraight
    · obtain ⟨hreached, hrange⟩ := mem_returns.mp hr
      have harc := hwindow hwraps r hreached hrange
      exact harc.trans (inArea_of_onArc hangles harc).symm

theorem viewRight_iff (hangles : raw.config.Angles) :
    sensor.ViewRight raw pkt pc ↔ sensor.ViewFits raw pkt := by
  have hlands (r : Return) (hr : r ∈ sensor.viewed raw pkt) :
      (∃ point, sensor.pointOf raw pkt r = .ok point) ↔ sensor.Lands pkt r :=
    lands_iff (le_of_onArc hangles (List.mem_filter.mp (mem_returns.mp hr).1).2)
  rw [viewRight_iff_viewed hangles, viewed_eq_iff hangles]
  constructor
  · rintro ⟨hwindow, hpoints⟩
    have hall (r : Return) (hr : r ∈ sensor.viewed raw pkt) := (hlands r hr).mp (hpoints r hr)
    exact ⟨hwindow, fun h r hr => (hall r hr).table h,
      fun timed h r hr => (hall r hr).timing timed h⟩
  · intro hfits
    refine ⟨hfits.window, fun r hr => (hlands r hr).mpr ⟨fun h => hfits.table h r hr, ?_⟩⟩
    exact fun timed h => hfits.timing timed h r hr

end View

/-- Whatever the parameters and the packet. -/
theorem view_iff (raw : RawData) (minRange maxRange viewDirection viewWidth : ℚ)
    (sensor : Sensor) (pkt : Data) (pc : VPointCloud) :
    sensor.ViewRight (raw.setParameters minRange maxRange viewDirection viewWidth) pkt pc ↔
      sensor.ViewFits (raw.setParameters minRange maxRange viewDirection viewWidth) pkt :=
  viewRight_iff (angles_setParameters raw minRange maxRange viewDirection viewWidth)

def LaserCorrection.zero : LaserCorrection :=
  ⟨0, false, 0, 0, 0, 0, 0, 0, 0, 0, 0, 0, 0, 0, 0⟩

/-- The half in front, so that the arc goes through 0. -/
def frontHalf : RawData :=
  (⟨⟨0, 0, 0, 0, 0, 0⟩, fun _ => .zero, fun _ => 0, fun _ => 0⟩ : RawData).setParameters (9 / 10)
    130 0 M_PI

def behind : Data := fun i =>
  if i = 2 then 0x50 else if i = 3 then 0x46 else if i = 4 then 0xE8 else if i = 5 then 0x03 else 0

/-- The return is put into the cloud. -/
theorem view_fails : ¬ Sensor.hdl64.ViewRight frontHalf behind ⟨[], 0⟩ := by
  intro hright
  have hangles : frontHalf.config.Angles := angles_setParameters _ _ _ _ _
  have hwraps : frontHalf.config.maxAngle < frontHalf.config.minAngle := by decide +kernel
  have hrange : Sensor.hdl64.inRange frontHalf behind (0, 0) = true := by decide +kernel
  have harc := (viewed_eq_iff hangles).mp ((viewRight_iff_viewed hangles).mp hright).1 hwraps
    (0, 0) (List.mem_finRange 0) hrange
  have hbehind : frontHalf.config.onArc (rotation behind 0) = false := by decide +kernel
  exact nomatch hbehind.symm.trans harc

end ApolloContrib.Velodyne
