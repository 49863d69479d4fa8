import ApolloContrib.Rslidar.Columns

namespace ApolloContrib.Rslidar

open ApolloContrib.Library

/-! What is stored of a scan, and where in the cloud it comes to stand. -/

variable {exp : ℚ → ℚ} {pow : ℚ → ℚ → ℚ} {model : Model}

section Cloud

open Process

variable {Coord : Type*} {place : ℚ → Int → Nat → Coord} {start process : Process}
  {measured : List Stored}

theorem Model.scansPerFiring_pos : 0 < model.scansPerFiring := by
  cases model <;> decide

theorem Model.firings_mul_scans (model : Model) :
    model.firingsPerBlock * model.scansPerFiring = SCANS_PER_BLOCK := by
  cases model <;> decide

theorem mem_rounds {col : Nat} {round : Nat × Nat × Nat} :
    round ∈ rounds model col ↔ round.1 < col ∧ round.2.1 < model.firingsPerBlock ∧
      round.2.2 < model.scansPerFiring := by
  obtain ⟨blockNum, firing, dsr⟩ := round
  simp only [rounds, SProd.sprod, List.pair_mem_product, List.mem_range]

/-- The round of a `point_count`. -/
def roundOf (model : Model) (i : Nat) : Nat × Nat × Nat :=
  (i / SCANS_PER_BLOCK, i % SCANS_PER_BLOCK / model.scansPerFiring, i % model.scansPerFiring)

variable (model) in
theorem roundOf_spec {col i : Nat} (hi : i < col * SCANS_PER_BLOCK) :
    roundOf model i ∈ rounds model col ∧
      model.firingsPerBlock * (roundOf model i).1 + (roundOf model i).2.1 =
        i / model.scansPerFiring ∧
      (roundOf model i).1 * SCANS_PER_BLOCK + (roundOf model i).2.2 +
        model.scansPerFiring * (roundOf model i).2.1 = i := by
  rw [mem_rounds]
  unfold roundOf SCANS_PER_BLOCK at *
  cases model with
  | RS16 =>
      change (_ < _ ∧ i % 32 / 16 < 2 ∧ i % 16 < 16) ∧ 2 * (i / 32) + i % 32 / 16 = i / 16 ∧
        i / 32 * 32 + i % 16 + 16 * (i % 32 / 16) = i
      omega
  | RS32 =>
      change (_ < _ ∧ i % 32 / 32 < 1 ∧ i % 32 < 32) ∧ 1 * (i / 32) + i % 32 / 32 = i / 32 ∧
        i / 32 * 32 + i % 32 + 32 * (i % 32 / 32) = i
      omega

theorem placed_inj {pic : Pic} {first second : Nat × Nat × Nat}
    (hfirst : first ∈ rounds model pic.col) (hsecond : second ∈ rounds model pic.col)
    (h : (placed model place pic first).1 = (placed model place pic second).1) :
    first = second := by
  obtain ⟨hblock, hfiring, -⟩ := mem_rounds.mp hfirst
  obtain ⟨hblock', hfiring', -⟩ := mem_rounds.mp hsecond
  have hcolumn {block firing : Nat} (hb : block < pic.col) (hf : firing < model.firingsPerBlock) :
      model.firingsPerBlock * block + firing < model.firingsPerBlock * pic.col := by
    rw [Nat.mul_comm, Nat.mul_comm model.firingsPerBlock pic.col]
    exact row_lt hb hf
  obtain ⟨hdsr, hcolumns⟩ := row_inj (hcolumn hblock hfiring) (hcolumn hblock' hfiring') h
  rw [Nat.mul_comm, Nat.mul_comm model.firingsPerBlock second.1] at hcolumns
  obtain ⟨hblocks, hfirings⟩ := row_inj hfiring hfiring' hcolumns
  exact Prod.ext hblocks (Prod.ext hfirings hdsr)

theorem placed_lt {pic : Pic} {round : Nat × Nat × Nat} (hround : round ∈ rounds model pic.col) :
    (placed model place pic round).1 <
      model.scansPerFiring * (model.firingsPerBlock * pic.col) := by
  obtain ⟨hblock, hfiring, hdsr⟩ := mem_rounds.mp hround
  refine row_lt hdsr ?_
  rw [Nat.mul_comm, Nat.mul_comm model.firingsPerBlock pic.col]
  exact row_lt hblock hfiring

variable (place) in
theorem organise_of_columns (h : Columns model start measured process) :
    ∃ cloud, organise model place (process.statics model).pic = some cloud ∧
      Organised place measured cloud := by
  have hfilled := h.pic
  have haligned := h.aligned
  generalize (process.statics model).pic = pic at hfilled haligned ⊢
  have hlength : measured.length = model.firingsPerBlock * pic.col * model.scansPerFiring := by
    rw [← haligned, ← model.firings_mul_scans,
      Nat.mul_comm model.firingsPerBlock pic.col, Nat.mul_assoc]
  have hplaces : ∀ write ∈ (rounds model pic.col).map (placed model place pic), write.1 <
      (List.replicate (model.scansPerFiring * (model.firingsPerBlock * pic.col))
        (none : Option (Point Coord))).length := by
    intro write hwrite
    obtain ⟨round, hround, rfl⟩ := List.mem_map.mp hwrite
    rw [List.length_replicate]
    exact placed_lt hround
  have hnodup : (((rounds model pic.col).map (placed model place pic)).map Prod.fst).Nodup := by
    rw [List.map_map]
    refine List.Nodup.map_on (fun first hfirst second hsecond => placed_inj hfirst hsecond) ?_
    exact List.nodup_range.product (List.nodup_range.product List.nodup_range)
  obtain ⟨points, hpoints, hsize, hset, -⟩ := scatter_of_nodup hplaces hnodup
  rw [List.length_replicate] at hsize
  refine ⟨⟨model.scansPerFiring, model.firingsPerBlock * pic.col, points⟩, ?_,
    fun i => i % model.scansPerFiring * (model.firingsPerBlock * pic.col) +
      i / model.scansPerFiring, ?_, fun i stored hi => ?_⟩
  · rw [organise, hpoints]
    rfl
  · rw [hsize, hlength]
    exact bijOn_transposed model.scansPerFiring_pos
  · obtain ⟨hround, hcolumn, hcount⟩ := roundOf_spec model
      (haligned ▸ (List.getElem?_eq_some_iff.mp hi).1)
    obtain ⟨hdistance, hintensity, hazimuth, hdsr⟩ := hfilled i stored hi
    have hcell := hset _ (List.mem_map_of_mem hround)
    change points[(roundOf model i).2.2 * _ + (model.firingsPerBlock * (roundOf model i).1 +
      (roundOf model i).2.1)]? = some (some (point place pic (roundOf model i).2.2
        ((roundOf model i).1 * SCANS_PER_BLOCK + (roundOf model i).2.2 +
          model.scansPerFiring * (roundOf model i).2.1))) at hcell
    rw [hcolumn, hcount, point, hdistance, hintensity, hazimuth] at hcell
    rw [Stored.point, ← hdsr]
    exact hcell

end Cloud

section Packets

open Process

variable {Coord : Type*} {place : ℚ → Int → Nat → Coord} {start process : Process}
  {measured : List Stored}

def scanList (model : Model) (statics : Statics) (packets : List RslidarPacket) : List Scan :=
  packets.flatMap fun pkt => (pkt.acceptedBlocks model).flatMap (model.scans statics pkt)

variable (exp pow place) in
theorem Process.Columns.convert (h : Columns model start measured process)
    (packets : List RslidarPacket) (pointcloud : PointCloud Coord) :
    match process.convertPacketsToPointcloud exp pow model place pointcloud packets with
    | none => model.dataNumberPerScan <
        measured.length + (scanList model (start.statics model) packets).length
    | some (next, cloud) => ∃ news,
        news.map (·.scan) = scanList model (start.statics model) packets ∧
        next.stored = start.stored ++ (measured ++ news) ∧
        (measured ++ news).length ≤ model.dataNumberPerScan ∧
        if packets = [] then cloud = pointcloud else Organised place (measured ++ news) cloud := by
  induction packets generalizing measured process with
  | nil =>
      refine ⟨[], rfl, ?_, ?_, rfl⟩
      · rw [List.append_nil, h.stored]
      · rw [List.append_nil]
        exact h.room
  | cons pkt packets ih =>
      have hblocks := h.unpackBlocks exp pow pkt (List.range BLOCKS_PER_PACKET)
      rw [← acceptedBlocks_eq] at hblocks
      have hscans : scanList model (start.statics model) (pkt :: packets) =
          (pkt.acceptedBlocks model).flatMap (model.scans (start.statics model) pkt) ++
            scanList model (start.statics model) packets := List.flatMap_cons
      rw [hscans, convertPacketsToPointcloud, unpackWithin]
      cases hresult : process.unpackBlocksWithin exp pow model pkt
          (List.range BLOCKS_PER_PACKET) with
      | none =>
          rw [hresult] at hblocks
          refine Nat.lt_of_lt_of_le hblocks (Nat.add_le_add_left ?_ _)
          rw [List.length_append]
          exact Nat.le_add_right _ _
      | some next =>
          rw [hresult] at hblocks
          obtain ⟨news, hnews, hnext⟩ := hblocks
          rw [Option.bind_some, ← hnews]
          cases packets with
          | nil =>
              obtain ⟨cloud, hcloud, horganised⟩ := organise_of_columns place hnext
              rw [List.isEmpty_nil, if_pos rfl, hcloud]
              refine ⟨news, (List.append_nil _).symm, hnext.stored, hnext.room, ?_⟩
              rw [if_neg (List.cons_ne_nil pkt [])]
              exact horganised
          | cons other packets =>
              rw [List.isEmpty_cons, if_neg Bool.false_ne_true, Option.bind_some]
              dsimp only
              have hrest := ih hnext
              cases hconvert : next.convertPacketsToPointcloud exp pow model place pointcloud
                  (other :: packets) with
              | none =>
                  rw [hconvert] at hrest
                  change _ < _ + _ at hrest
                  change _ < _ + _
                  rw [List.length_append] at hrest ⊢
                  rw [List.length_map]
                  omega
              | some result =>
                  rw [hconvert] at hrest
                  obtain ⟨more, hmore, hstored, hroom, horganised⟩ := hrest
                  refine ⟨news ++ more, ?_, ?_, ?_, ?_⟩
                  · rw [List.map_append, hmore]
                  · rw [← List.append_assoc measured]
                    exact hstored
                  · rw [← List.append_assoc]
                    exact hroom
                  · rw [if_neg (List.cons_ne_nil other packets)] at horganised
                    rw [if_neg (List.cons_ne_nil pkt _), ← List.append_assoc]
                    exact horganised

end Packets

section Azimuths

variable {statics : Statics} {pkt : RslidarPacket} {block : Nat}

theorem rotation_nonneg (pkt : RslidarPacket) (block : Nat) : 0 ≤ pkt.rotation block := by
  unfold RslidarPacket.rotation
  omega

theorem tmod_nonneg_iff {a b : Int} : 0 ≤ a.tmod b ↔ b ∣ a ∨ 0 ≤ a := by
  constructor
  · intro h
    rcases Int.le_total 0 a with ha | ha
    · exact Or.inr ha
    · have hneg : 0 ≤ (-a).tmod b := Int.tmod_nonneg b (Int.neg_nonneg_of_nonpos ha)
      rw [Int.neg_tmod] at hneg
      exact Or.inl (Int.dvd_of_tmod_eq_zero (by omega))
  · rintro (hdvd | ha)
    · exact (Int.dvd_iff_tmod_eq_zero.mp hdvd).ge
    · exact Int.tmod_nonneg b ha

theorem truncate_nonneg_iff {value : ℚ} : 0 ≤ truncate value ↔ -1 < value := by
  unfold truncate
  split_ifs with hvalue
  · exact iff_of_true (Int.floor_nonneg.mpr hvalue) (lt_of_lt_of_le (by norm_num) hvalue)
  · have hle : 0 ≤ ⌈value⌉ ↔ -1 < ⌈value⌉ := by omega
    rw [hle, Int.lt_ceil, Int.cast_neg, Int.cast_one]

theorem correctAzimuth_iff {azimuth : ℚ} {dsr : Nat} :
    (0 ≤ correctAzimuth statics azimuth dsr ∧ correctAzimuth statics azimuth dsr < 36000) ↔
      Rslidar32Parser.TurnedOn statics azimuth dsr := by
  unfold correctAzimuth Rslidar32Parser.TurnedOn
  dsimp only
  rw [tmod_nonneg_iff, truncate_nonneg_iff]
  exact and_iff_left (Int.tmod_lt_of_pos _ (by decide))

/-- A block of RS16 has azimuths of a turn; one of RS32 where its angles turn on. -/
theorem azimuths_iff (hstep : 0 < pkt.azimuthDiff block) :
    (∀ scan ∈ model.scans statics pkt block, 0 ≤ scan.azimuth ∧ scan.azimuth < 36000) ↔
      model.AnglesTurnOn statics pkt block := by
  cases model with
  | RS16 =>
      refine iff_of_true (fun scan hscan => ?_) trivial
      obtain ⟨firing, -, hfiring⟩ := List.mem_flatMap.mp hscan
      obtain ⟨dsr, -, rfl⟩ := List.mem_map.mp hfiring
      have hrotation : (0 : ℚ) ≤ pkt.rotation block := Int.cast_nonneg (rotation_nonneg pkt block)
      have hdiff : (0 : ℚ) ≤ pkt.azimuthDiff block := Int.cast_nonneg hstep.le
      have hazimuth : (0 : ℚ) ≤ pkt.rotation block +
          pkt.azimuthDiff block * ((dsr * 3 + firing * 50 : Nat) : ℚ) / 100 := by positivity
      dsimp only
      rw [roundAway, if_pos hazimuth]
      refine ⟨Int.tmod_nonneg _ (Int.floor_nonneg.mpr (by positivity)), ?_⟩
      exact Int.tmod_lt_of_pos _ (by decide)
  | RS32 =>
      refine List.forall_mem_map.trans ?_
      refine forall_congr' fun dsr => ?_
      rw [List.mem_range]
      refine forall_congr' fun hdsr => ?_
      have hmod : (if dsr ≥ 16 then dsr - 16 else dsr) = dsr % 16 := by
        split_ifs <;> omega
      dsimp only
      rw [hmod]
      exact correctAzimuth_iff

end Azimuths

section Exchanged

variable {pkt : RslidarPacket} {block : Nat}

theorem twoBytes_lt (pkt : RslidarPacket) (block k : Nat) : pkt.twoBytes block k < 65536 := by
  unfold RslidarPacket.twoBytes RslidarPacket.data RslidarPacket.raw
  omega

theorem isABPacket_eq {distance : Nat} (hdistance : distance < 65536) :
    isABPacket distance = distance / 32768 := by
  have hand : distance &&& 32768 = (distance.testBit 15).toNat * 2 ^ 15 :=
    Nat.and_two_pow distance 15
  rw [isABPacket, hand, Nat.testBit_eq_decide_div_mod_eq]
  rcases Nat.lt_or_ge distance 32768 with hlow | hhigh
  · rw [Nat.div_eq_of_lt hlow]
    rfl
  · have hone : distance / 32768 = 1 := by omega
    rw [show distance / 2 ^ 15 = 1 from hone, hone]
    rfl

theorem exchanged_data {k : Nat} (hk : k < 96) :
    (pkt.exchanged block).data block k =
      if k % 3 = 0 then pkt.data block ((k + 48) % 96) % 128
      else pkt.data block ((k + 48) % 96) := by
  have hplace : 42 + 100 * block + (4 + (k + 48) % 96) =
      46 + 100 * block + (k + 48) % 96 := by omega
  have hindex : 42 + 100 * block + (4 + k) - (46 + 100 * block) = k := by omega
  unfold RslidarPacket.data RslidarPacket.raw RslidarPacket.exchanged
  rw [if_pos (by omega), hplace]
  dsimp only
  rw [hindex]
  split_ifs
  · rw [BitVec.toNat_and]
    exact Nat.and_two_pow_sub_one_eq_mod _ 7
  · rfl

theorem exchanged_outside {i : Nat} (hi : i < 46 + 100 * block ∨ 142 + 100 * block ≤ i) :
    pkt.exchanged block i = pkt i := by
  unfold RslidarPacket.exchanged
  rw [if_neg (by omega)]

theorem exchanged_rotation (other : Nat) :
    (pkt.exchanged block).rotation other = pkt.rotation other := by
  unfold RslidarPacket.rotation RslidarPacket.raw
  rw [exchanged_outside (by omega), exchanged_outside (by omega)]

theorem exchanged_azimuthDiff (other : Nat) :
    (pkt.exchanged block).azimuthDiff other = pkt.azimuthDiff other := by
  unfold RslidarPacket.azimuthDiff
  simp only [exchanged_rotation]

/-- The distance of a channel is that of the other half, without the high bit. -/
theorem exchanged_twoBytes {dsr : Nat} (hdsr : dsr < 32) :
    (pkt.exchanged block).twoBytes block (3 * dsr) =
      pkt.twoBytes block ((3 * dsr + 48) % 96) % 32768 := by
  have hnext : (3 * dsr + 1 + 48) % 96 = (3 * dsr + 48) % 96 + 1 := by omega
  have hbyte : pkt.data block ((3 * dsr + 48) % 96 + 1) < 256 := BitVec.isLt _
  unfold RslidarPacket.twoBytes
  rw [exchanged_data (by omega), exchanged_data (by omega), if_pos (by omega), if_neg (by omega),
    hnext]
  omega

/-- A block that is marked B has the measurements of the block with its halves exchanged. -/
theorem scans_exchanged (statics : Statics) (hmarked : isABPacket (pkt.twoBytes block 0) = 1) :
    Rslidar32Parser.scans statics pkt block =
      Rslidar32Parser.scans statics (pkt.exchanged block) block := by
  have hunmarked {dsr : Nat} (hdsr : dsr < 32) :
      isABPacket ((pkt.exchanged block).twoBytes block (3 * dsr)) = 0 := by
    rw [exchanged_twoBytes hdsr, isABPacket_eq (by omega)]
    omega
  have hfirst := hunmarked (Nat.zero_lt_succ 31)
  rw [Nat.mul_zero] at hfirst
  unfold Rslidar32Parser.scans
  dsimp only
  rw [hmarked, hfirst]
  refine List.map_congr_left fun dsr hdsr => ?_
  have hdsr := List.mem_range.mp hdsr
  have hindex : (if 1 = 1 ∧ dsr < 16 then 3 * dsr + 48
      else if 1 = 1 ∧ dsr ≥ 16 then 3 * dsr - 48 else 3 * dsr) = (3 * dsr + 48) % 96 := by
    split_ifs <;> omega
  have hsame : (if 0 = 1 ∧ dsr < 16 then 3 * dsr + 48
      else if 0 = 1 ∧ dsr ≥ 16 then 3 * dsr - 48 else 3 * dsr) = 3 * dsr := by
    rw [if_neg fun h => absurd h.1 Nat.zero_ne_one, if_neg fun h => absurd h.1 Nat.zero_ne_one]
  have hnext : (3 * dsr + 2 + 48) % 96 = (3 * dsr + 48) % 96 + 2 := by omega
  have hintensity : (pkt.exchanged block).data block (3 * dsr + 2) =
      pkt.data block ((3 * dsr + 48) % 96 + 2) := by
    rw [exchanged_data (by omega), if_neg (by omega), hnext]
  have hdistance (bytes : Nat) : (bytes : Int) - ((bytes / 32768 : Nat) : Int) * 32768 =
      ((bytes % 32768 : Nat) : Int) - ((0 : Nat) : Int) * 32768 := by
    omega
  rw [hindex, hsame, hunmarked hdsr, exchanged_twoBytes hdsr, hintensity, exchanged_rotation,
    exchanged_azimuthDiff, isABPacket_eq (twoBytes_lt _ _ _), hdistance]

end Exchanged

section Scan

open Process

variable {Coord : Type*}

theorem length_blockScans (statics : Statics) (pkt : RslidarPacket) (blocks : List Nat) :
    (blocks.flatMap (model.scans statics pkt)).length = blocks.length * SCANS_PER_BLOCK := by
  induction blocks with
  | nil => rfl
  | cons block blocks ih =>
      rw [List.flatMap_cons, List.length_append, ih, length_scans, List.length_cons, Nat.succ_mul,
        Nat.add_comm]
      rfl

theorem length_scanList (statics : Statics) (packets : List RslidarPacket) :
    (scanList model statics packets).length =
      (packets.flatMap (·.acceptedBlocks model)).length * SCANS_PER_BLOCK := by
  induction packets with
  | nil => rfl
  | cons pkt packets ih =>
      rw [scanList] at ih ⊢
      rw [List.flatMap_cons, List.flatMap_cons, List.length_append, List.length_append, ih,
        length_blockScans, Nat.add_mul]

theorem organised_nil (place : ℚ → Int → Nat → Coord) : Organised place [] .empty :=
  ⟨id, ⟨fun _ h => h, Set.injOn_id _, fun i h => ⟨i, h, rfl⟩⟩, nofun⟩

theorem forall_scanList {statics : Statics} {packets : List RslidarPacket} {p : Scan → Prop} :
    (∀ scan ∈ scanList model statics packets, p scan) ↔
      ∀ pkt ∈ packets, ∀ block ∈ pkt.acceptedBlocks model,
        ∀ scan ∈ model.scans statics pkt block, p scan := by
  unfold scanList
  rw [List.forall_mem_flatMap]
  exact forall₂_congr fun _ _ => List.forall_mem_flatMap

variable (exp pow model) in
theorem assemblesScan_iff (place : ℚ → Int → Nat → Coord) (start : Idle model)
    (packets : List RslidarPacket) :
    AssemblesScan exp pow model place start packets ↔
      Fits model packets ∧ ∀ pkt ∈ packets, ∀ block ∈ pkt.acceptedBlocks model,
        model.AnglesTurnOn (start.process.statics model) pkt block := by
  have hcolumns : Columns model start.process [] start.process :=
    ⟨⟨(List.append_nil _).symm, rfl, nofun⟩, by rw [start.idle]; rfl, Nat.zero_le _⟩
  have hconvert := hcolumns.convert exp pow place packets .empty
  have hazimuths : (∀ scan ∈ scanList model (start.process.statics model) packets,
      0 ≤ scan.azimuth ∧ scan.azimuth < 36000) ↔
      ∀ pkt ∈ packets, ∀ block ∈ pkt.acceptedBlocks model,
        model.AnglesTurnOn (start.process.statics model) pkt block := by
    rw [forall_scanList]
    refine forall₂_congr fun pkt _ => forall₂_congr fun block hblock => azimuths_iff ?_
    exact (of_decide_eq_true (List.mem_filter.mp hblock).2).2.1
  rw [← hazimuths]
  cases hresult : start.process.convertPacketsToPointcloud exp pow model place .empty packets with
  | none =>
      rw [hresult] at hconvert
      change _ < 0 + _ at hconvert
      rw [Nat.zero_add, length_scanList] at hconvert
      refine iff_of_false ?_ fun h => hconvert.not_ge h.1
      rintro ⟨next, cloud, measured, hnone, -⟩
      rw [hresult] at hnone
      cases hnone
  | some result =>
      obtain ⟨next, cloud⟩ := result
      rw [hresult] at hconvert
      obtain ⟨news, hnews, hstored, hroom, hcloud⟩ := hconvert
      rw [List.nil_append] at hstored hroom hcloud
      have hfits : Fits model packets := by
        rw [Fits, ← length_scanList (start.process.statics model), ← hnews, List.length_map]
        exact hroom
      have horganised : Organised place news cloud := by
        by_cases hempty : packets = []
        · subst hempty
          obtain rfl : news = [] := List.map_eq_nil_iff.mp hnews
          rw [if_pos rfl] at hcloud
          exact hcloud ▸ organised_nil place
        · rw [if_neg hempty] at hcloud
          exact hcloud
      constructor
      · rintro ⟨_, _, measured, -, -, hscans, -, hall⟩
        refine ⟨hfits, fun scan hscan => ?_⟩
        rw [scanList, ← hscans] at hscan
        obtain ⟨stored, hmem, rfl⟩ := List.mem_map.mp hscan
        exact hall stored hmem
      · rintro ⟨-, hall⟩
        refine ⟨next, cloud, news, hresult, hstored, hnews, horganised, fun stored hmem => ?_⟩
        exact hall stored.scan (hnews ▸ List.mem_map_of_mem hmem)

/-- A scan is assembled as it should be exactly when its columns have room, and no channel's
angle makes an azimuth negative. -/
theorem assembly_iff (exp : ℚ → ℚ) (pow : ℚ → ℚ → ℚ) (model : Model)
    (place : ℚ → Int → Nat → Coord) (rpm : {rpm : ℚ // 0 < rpm}) (start : Idle model)
    (scan : RslidarScan (npackets rpm.val)) :
    (AssemblesScan exp pow model place start scan.packets ∧
      (∀ pkt ∈ scan.packets, ∀ block,
        (model.scans (start.process.statics model) pkt block).length = 32) ∧
      ∀ pkt ∈ scan.packets, ∀ block, isABPacket (pkt.twoBytes block 0) = 1 →
        Rslidar32Parser.scans (start.process.statics model) pkt block =
          Rslidar32Parser.scans (start.process.statics model) (pkt.exchanged block) block) ↔
    Fits model scan.packets ∧ ∀ pkt ∈ scan.packets, ∀ block ∈ pkt.acceptedBlocks model,
      model.AnglesTurnOn (start.process.statics model) pkt block := by
  rw [← assemblesScan_iff exp pow model place]
  refine and_iff_left ⟨fun _ _ _ => length_scans, fun _ _ _ hmarked => ?_⟩
  exact scans_exchanged _ hmarked

theorem npackets_le {rpm : ℚ} (hrpm : 0 < rpm) {count : Nat} (hfast : 50400 ≤ count * rpm) :
    npackets rpm ≤ count := by
  rw [npackets, Int.toNat_le, Int.ceil_le, Int.cast_natCast, div_le_iff₀ (by positivity)]
  linarith

theorem fits_of_npackets {count : Nat} (scan : RslidarScan count)
    (hroom : count * 384 ≤ model.dataNumberPerScan) : Fits model scan.packets := by
  have hblocks (packets : List RslidarPacket) :
      (packets.flatMap (·.acceptedBlocks model)).length ≤ packets.length * BLOCKS_PER_PACKET := by
    induction packets with
    | nil => exact Nat.zero_le _
    | cons pkt packets ih =>
        rw [List.flatMap_cons, List.length_append, List.length_cons, Nat.succ_mul, Nat.add_comm]
        refine Nat.add_le_add ih ((List.length_filter_le _ _).trans_eq List.length_range)
  have hscan := hblocks scan.packets
  rw [scan.full] at hscan
  unfold Fits SCANS_PER_BLOCK BLOCKS_PER_PACKET at *
  omega

/-- All twelve blocks are of the upper bank, and each goes on by 0.2 degrees. -/
def fullPacket : RslidarPacket := fun i =>
  match (i - 42) % 100 with
  | 0 => 0xff
  | 1 => 0xee
  | 3 => BitVec.ofNat 8 (20 * ((i - 42) / 100))
  | _ => 0

theorem length_acceptedBlocks_fullPacket : (fullPacket.acceptedBlocks .RS16).length = 12 := by
  decide +kernel

def fullScan : RslidarScan (npackets 480) where
  packets := List.replicate 105 fullPacket
  full := by
    rw [List.length_replicate]
    norm_num [npackets]
    rfl

def idleProcess : Idle .RS16 := ⟨⟨fun _ => Statics.init, [], []⟩, rfl⟩

theorem assembly_fails :
    ¬ (AssemblesScan id (fun x _ => x) .RS16 (fun _ _ _ => ()) idleProcess fullScan.packets ∧
      (∀ pkt ∈ fullScan.packets, ∀ block,
        (Model.RS16.scans (idleProcess.process.statics .RS16) pkt block).length = 32) ∧
      ∀ pkt ∈ fullScan.packets, ∀ block, isABPacket (pkt.twoBytes block 0) = 1 →
        Rslidar32Parser.scans (idleProcess.process.statics .RS16) pkt block =
          Rslidar32Parser.scans (idleProcess.process.statics .RS16) (pkt.exchanged block)
            block) := by
  rintro ⟨hassembles, -⟩
  have hfits := ((assemblesScan_iff _ _ _ _ _ _).mp hassembles).1
  have hlong : (fullScan.packets.flatMap (·.acceptedBlocks .RS16)).length = 105 * 12 := by
    rw [List.length_flatMap, fullScan, List.map_replicate, length_acceptedBlocks_fullPacket]
    decide +kernel
  rw [Fits, hlong] at hfits
  exact absurd hfits (by decide)

end Scan

end ApolloContrib.Rslidar
