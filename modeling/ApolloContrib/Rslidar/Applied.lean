import ApolloContrib.Rslidar.Parser
import Mathlib.Data.Nat.Bitwise

namespace ApolloContrib.Rslidar

/-! Whether the calibration that was loaded has any effect. -/

variable (exp : ℚ → ℚ) (pow : ℚ → ℚ → ℚ) (model : Model)

/-- What is loaded from the files, for the number of lasers and the temperatures of the
model. -/
def loaded (files : ConfigFiles) (garbage : Garbage) : Statics :=
  model.loadConfigFile files garbage
    { Statics.init with numOfLasers := model.lasers, temperatureRange := model.range }

/-- The loaded entry of the channel at the temperature of the last update. -/
def Stored.channelNum (tables : Statics) (stored : Stored) : Int :=
  tables.gChannelNum stored.scan.dsr { tables with temper := stored.temper }.indexTemper

/-- The loaded calibration is applied to what is stored, by an object that exists. -/
structure CalibrationApplied (tables : Statics) (process : Process) : Prop where
  distance : ∀ stored ∈ process.stored, stored.distance =
    1 / 100 * max 0 ((stored.scan.distance - stored.channelNum tables : Int) : ℚ)
  intensity : ∀ stored ∈ process.stored, stored.intensity =
    { tables with temper := stored.temper }.calibrateIntensity exp pow stored.scan.intensity
      stored.scan.dsr stored.scan.distance
  receivers : ∀ receiver ∈ process.receivers, receiver = true

theorem Model.unit_ne_calibration : model.unit ≠ .calibration := by
  cases model <;> decide

namespace Process

variable {model} {process : Process}

@[simp] theorem statics_setStatics (statics : Statics) :
    (process.setStatics model statics).statics model = statics := by
  simp [Process.statics, setStatics]

@[simp] theorem calibration_setStatics (statics : Statics) :
    (process.setStatics model statics).memory .calibration = process.memory .calibration :=
  Function.update_of_ne model.unit_ne_calibration.symm _ _

/-- Nothing that is loaded or read reaches `calibration.cpp`, and its object is called on a
null pointer. -/
structure Detached (model : Model) (process : Process) : Prop where
  calibration : process.memory .calibration = Statics.init
  pointer : (process.statics model).calibration = false
  receivers : ∀ receiver ∈ process.receivers, receiver = false
  started : (process.statics model).tempPacketNum ≠ 0 → process.receivers ≠ []
  stored : ∀ stored ∈ process.stored, 0 ≤ stored.scan.distance ∧
    stored.distance =
      Statics.init.pixelToDistance stored.scan.distance stored.scan.dsr * (1 / 100) ∧
    stored.intensity = Statics.init.calibrateIntensity exp pow stored.scan.intensity
      stored.scan.dsr stored.scan.distance

variable {exp pow}

theorem Detached.setStatics (hdetached : process.Detached exp pow model) {statics : Statics}
    (hpointer : statics.calibration = false)
    (hstarted : statics.tempPacketNum ≠ 0 → process.receivers ≠ []) :
    (process.setStatics model statics).Detached exp pow model where
  calibration := by rw [calibration_setStatics, hdetached.calibration]
  pointer := by rw [statics_setStatics, hpointer]
  receivers := hdetached.receivers
  started := by rwa [statics_setStatics]
  stored := hdetached.stored

theorem Detached.call (hdetached : process.Detached exp pow model) (count : Nat) :
    (process.call model count).Detached exp pow model where
  calibration := hdetached.calibration
  pointer := hdetached.pointer
  receivers := by
    intro receiver hreceiver
    rcases List.mem_append.mp hreceiver with hold | hnew
    · exact hdetached.receivers receiver hold
    · rw [List.eq_of_mem_replicate hnew, hdetached.pointer]
  started hnonzero := List.append_ne_nil_of_left_ne_nil (hdetached.started hnonzero) _
  stored := hdetached.stored

theorem Detached.updateTemperature (hdetached : process.Detached exp pow model)
    (pkt : RslidarPacket) :
    (process.updateTemperature model pkt).Detached exp pow model ∧
      ((process.updateTemperature model pkt).statics model).tempPacketNum ≠ 0 := by
  unfold Process.updateTemperature
  dsimp only
  split_ifs with hcounting
  · refine ⟨hdetached.setStatics hdetached.pointer fun _ => ?_, ?_⟩
    · exact hdetached.started (by omega)
    · rw [statics_setStatics]
      exact Nat.succ_ne_zero _
  · refine ⟨(hdetached.call 1).setStatics hdetached.pointer fun _ => ?_, ?_⟩
    · simp [Process.call]
    · rw [statics_setStatics]
      exact Nat.one_ne_zero

theorem Detached.addStored (hdetached : process.Detached exp pow model) {entry : Stored}
    (hentry : 0 ≤ entry.scan.distance ∧
      entry.distance =
        Statics.init.pixelToDistance entry.scan.distance entry.scan.dsr * (1 / 100) ∧
      entry.intensity = Statics.init.calibrateIntensity exp pow entry.scan.intensity
        entry.scan.dsr entry.scan.distance) :
    Detached exp pow model { process with stored := process.stored ++ [entry] } where
  calibration := hdetached.calibration
  pointer := hdetached.pointer
  receivers := hdetached.receivers
  started := hdetached.started
  stored := by
    intro other hother
    rcases List.mem_append.mp hother with hold | hnew
    · exact hdetached.stored other hold
    · rw [List.mem_singleton.mp hnew]
      exact hentry

theorem tempPacketNum_storeScan (scan : Scan) :
    ((process.storeScan exp pow model scan).statics model).tempPacketNum =
      (process.statics model).tempPacketNum := by
  unfold Process.storeScan
  change ((Process.setStatics model _ _).statics model).tempPacketNum = _
  rw [statics_setStatics]
  rfl

theorem Detached.storeScan (hdetached : process.Detached exp pow model) {scan : Scan}
    (hdistance : 0 ≤ scan.distance) :
    (process.storeScan exp pow model scan).Detached exp pow model := by
  have hcalibration : (process.call model model.callsPerScan).memory .calibration =
      Statics.init := hdetached.calibration
  have hcall := hdetached.call model.callsPerScan
  unfold Process.storeScan
  refine Detached.addStored ?_ ?_
  · exact hcall.setStatics hdetached.pointer hcall.started
  · refine ⟨hdistance, ?_, ?_⟩
    · rw [hcalibration]
    · rw [hcalibration]

theorem isABPacket_mul_le (distance : Nat) : isABPacket distance * 32768 ≤ distance := by
  unfold isABPacket
  split_ifs with hset
  · by_contra hless
    apply hset
    have hbit : distance < 2 ^ 15 := by omega
    have hand := Nat.and_two_pow distance 15
    rw [Nat.testBit_lt_two_pow hbit] at hand
    simpa using hand
  · omega

theorem scans_distance (statics : Statics) (pkt : RslidarPacket) (block : Nat) :
    ∀ scan ∈ model.scans statics pkt block, 0 ≤ scan.distance := by
  intro scan hscan
  cases model with
  | RS16 =>
      simp only [Model.scans, Rslidar16Parser.scans, List.mem_flatMap, List.mem_map] at hscan
      obtain ⟨firing, _, dsr, _, rfl⟩ := hscan
      exact Int.natCast_nonneg _
  | RS32 =>
      simp only [Model.scans, Rslidar32Parser.scans, List.mem_map] at hscan
      obtain ⟨dsr, _, rfl⟩ := hscan
      have hle := isABPacket_mul_le
      simp only [sub_nonneg]
      exact_mod_cast hle _

theorem Detached.storeScans (hdetached : process.Detached exp pow model) {scans : List Scan}
    (hdistance : ∀ scan ∈ scans, 0 ≤ scan.distance) :
    (scans.foldl (fun process scan => process.storeScan exp pow model scan) process).Detached
        exp pow model ∧
      ((scans.foldl (fun process scan => process.storeScan exp pow model scan)
        process).statics model).tempPacketNum = (process.statics model).tempPacketNum := by
  induction scans generalizing process with
  | nil => exact ⟨hdetached, rfl⟩
  | cons scan scans ih =>
      obtain ⟨hrest, hcount⟩ := ih (hdetached.storeScan (hdistance scan List.mem_cons_self))
        fun other hother => hdistance other (List.mem_cons_of_mem _ hother)
      exact ⟨hrest, hcount.trans (tempPacketNum_storeScan scan)⟩

theorem Detached.nextCol (hdetached : process.Detached exp pow model) :
    (process.nextCol model).Detached exp pow model :=
  hdetached.setStatics hdetached.pointer hdetached.started

theorem Detached.unpackBlock (hdetached : process.Detached exp pow model)
    (pkt : RslidarPacket) (block : Nat) :
    (process.unpackBlock exp pow model pkt block).Detached exp pow model ∧
      ((process.unpackBlock exp pow model pkt block).statics model).tempPacketNum ≠ 0 := by
  obtain ⟨htemperature, hcount⟩ := hdetached.updateTemperature pkt
  unfold Process.unpackBlock
  dsimp only
  split_ifs
  · exact ⟨htemperature, hcount⟩
  · obtain ⟨hscans, hkept⟩ := (htemperature.call model.callsPerBlock).storeScans
      (scans_distance (((process.updateTemperature model pkt).call model
        model.callsPerBlock).statics model) pkt block)
    refine ⟨hscans.nextCol, ?_⟩
    rw [Process.nextCol, statics_setStatics]
    exact hkept ▸ hcount

theorem Detached.unpackBlocks (hdetached : process.Detached exp pow model)
    (pkt : RslidarPacket) (blocks : List Nat) :
    (process.unpackBlocks exp pow model pkt blocks).Detached exp pow model ∧
      ((process.statics model).tempPacketNum ≠ 0 →
        ((process.unpackBlocks exp pow model pkt blocks).statics model).tempPacketNum ≠ 0) := by
  induction blocks generalizing process with
  | nil => exact ⟨hdetached, id⟩
  | cons block blocks ih =>
      unfold Process.unpackBlocks
      split_ifs
      · exact ⟨hdetached, id⟩
      · obtain ⟨hblock, hcount⟩ := hdetached.unpackBlock pkt block
        obtain ⟨hrest, hkept⟩ := ih hblock
        exact ⟨hrest, fun _ => hkept hcount⟩

theorem Detached.unpack (hdetached : process.Detached exp pow model) (pkt : RslidarPacket)
    (finish : Bool) :
    (process.unpack exp pow model pkt finish).Detached exp pow model ∧
      ((process.statics model).tempPacketNum ≠ 0 →
        ((process.unpack exp pow model pkt finish).statics model).tempPacketNum ≠ 0) := by
  obtain ⟨hblocks, hkept⟩ := hdetached.unpackBlocks pkt (List.range BLOCKS_PER_PACKET)
  unfold Process.unpack
  dsimp only
  split_ifs
  · refine ⟨hblocks.setStatics hblocks.pointer hblocks.started, fun hnonzero => ?_⟩
    rw [statics_setStatics]
    exact hkept hnonzero
  · exact ⟨hblocks, hkept⟩

theorem Detached.unpackAll (hdetached : process.Detached exp pow model)
    (packets : List (RslidarPacket × Bool)) :
    (process.unpackAll exp pow model packets).Detached exp pow model ∧
      ((process.statics model).tempPacketNum ≠ 0 →
        ((process.unpackAll exp pow model packets).statics model).tempPacketNum ≠ 0) := by
  induction packets generalizing process with
  | nil => exact ⟨hdetached, id⟩
  | cons packet packets ih =>
      obtain ⟨hpacket, hkept⟩ := hdetached.unpack packet.1 packet.2
      obtain ⟨hrest, hkeptRest⟩ := ih hpacket
      exact ⟨hrest, fun hnonzero => hkeptRest (hkept hnonzero)⟩

theorem detached_init (exp : ℚ → ℚ) (pow : ℚ → ℚ → ℚ) (model : Model) (files : ConfigFiles)
    (garbage : Garbage) : (init model files garbage).Detached exp pow model where
  calibration := by
    simp [init, convertInit, Function.update_of_ne model.unit_ne_calibration.symm]
  pointer := by
    cases model <;> rfl
  receivers := by simp [init]
  started := by
    intro hnonzero
    exfalso
    apply hnonzero
    cases model <;> rfl
  stored := by simp [init]

theorem unpackBlocks_of_lower {pkt : RslidarPacket} (hlower : pkt.upperBank 0 = false) :
    process.unpackBlocks exp pow model pkt (List.range BLOCKS_PER_PACKET) = process := by
  have hblocks : List.range BLOCKS_PER_PACKET = 0 :: (List.range 11).map Nat.succ := by decide
  rw [hblocks, unpackBlocks, hlower]
  rfl

theorem unpackAll_of_lower {packets : List (RslidarPacket × Bool)}
    (hlower : ∀ packet ∈ packets, packet.1.upperBank 0 = false) :
    (process.unpackAll exp pow model packets).stored = process.stored ∧
      (process.unpackAll exp pow model packets).receivers = process.receivers := by
  induction packets generalizing process with
  | nil => exact ⟨rfl, rfl⟩
  | cons packet packets ih =>
      let next := process.unpack exp pow model packet.1 packet.2
      have hrest : (next.unpackAll exp pow model packets).stored = next.stored ∧
          (next.unpackAll exp pow model packets).receivers = next.receivers :=
        ih fun other hother => hlower other (List.mem_cons_of_mem _ hother)
      have hpacket : (process.unpack exp pow model packet.1 packet.2).stored = process.stored ∧
          (process.unpack exp pow model packet.1 packet.2).receivers = process.receivers := by
        unfold unpack
        rw [unpackBlocks_of_lower (hlower packet List.mem_cons_self)]
        dsimp only
        split_ifs
        · exact ⟨rfl, rfl⟩
        · exact ⟨rfl, rfl⟩
      exact ⟨hrest.1.trans hpacket.1, hrest.2.trans hpacket.2⟩

theorem unpack_of_upper (hdetached : process.Detached exp pow model) {pkt : RslidarPacket}
    (hupper : pkt.upperBank 0 = true) (finish : Bool) :
    ((process.unpack exp pow model pkt finish).statics model).tempPacketNum ≠ 0 := by
  have hblocks : List.range BLOCKS_PER_PACKET = 0 :: (List.range 11).map Nat.succ := by decide
  have hcount : ((process.unpackBlocks exp pow model pkt
      (List.range BLOCKS_PER_PACKET)).statics model).tempPacketNum ≠ 0 := by
    obtain ⟨hblock, hnonzero⟩ := hdetached.unpackBlock pkt 0
    rw [hblocks, unpackBlocks, hupper]
    exact (hblock.unpackBlocks pkt _).2 hnonzero
  unfold unpack
  dsimp only
  split_ifs
  · rw [statics_setStatics]
    exact hcount
  · exact hcount

theorem unpackAll_of_upper (hdetached : process.Detached exp pow model)
    {packets : List (RslidarPacket × Bool)} {packet : RslidarPacket × Bool}
    (hmem : packet ∈ packets) (hupper : packet.1.upperBank 0 = true) :
    ((process.unpackAll exp pow model packets).statics model).tempPacketNum ≠ 0 := by
  induction packets generalizing process with
  | nil => cases hmem
  | cons first packets ih =>
      have hfirst := (hdetached.unpack first.1 first.2).1
      rcases List.mem_cons.mp hmem with rfl | hrest
      · exact (hfirst.unpackAll packets).2 (unpack_of_upper hdetached hupper _)
      · exact ih hfirst hrest

end Process

variable {model}

/-- Once a block was processed, a member function was called on the null pointer. -/
theorem CalibrationApplied.lower {files : ConfigFiles} {garbage : Garbage} {tables : Statics}
    {packets : List (RslidarPacket × Bool)}
    (happlied : CalibrationApplied exp pow tables
      ((Process.init model files garbage).unpackAll exp pow model packets)) :
    ∀ packet ∈ packets, packet.1.upperBank 0 = false := by
  have hinit := Process.detached_init exp pow model files garbage
  intro packet hmem
  by_contra hupper
  have hcount := Process.unpackAll_of_upper hinit hmem (by simpa using hupper)
  have hfinal := (hinit.unpackAll packets).1
  obtain ⟨receiver, hreceiver⟩ := List.exists_mem_of_ne_nil _ (hfinal.started hcount)
  have hnull := hfinal.receivers receiver hreceiver
  exact absurd (happlied.receivers receiver hreceiver) (by rw [hnull]; decide)

/-- The calibration is applied exactly as long as there is nothing to apply it to. -/
theorem calibrationApplied_iff (files : ConfigFiles) (garbage : Garbage)
    (packets : List (RslidarPacket × Bool)) :
    CalibrationApplied exp pow (loaded model files garbage)
        ((Process.init model files garbage).unpackAll exp pow model packets) ↔
      ∀ packet ∈ packets, packet.1.upperBank 0 = false := by
  constructor
  · intro happlied
    exact happlied.lower exp pow
  · intro hlower
    have hnothing : ((Process.init model files garbage).unpackAll exp pow model packets).stored =
          [] ∧
        ((Process.init model files garbage).unpackAll exp pow model packets).receivers = [] :=
      Process.unpackAll_of_lower hlower
    constructor
    · simp [hnothing.1]
    · simp [hnothing.1]
    · simp [hnothing.2]

def firingPacket : RslidarPacket := fun i => if i = 42 then 0xff else if i = 43 then 0xee else 0

theorem calibrationApplied_fails :
    ¬ CalibrationApplied (fun _ => 1) (fun _ _ => 1)
        (loaded .RS16 ⟨none, none, none, none⟩ ⟨fun _ => 0, fun _ => 0, fun _ => 0⟩)
        ((Process.init .RS16 ⟨none, none, none, none⟩ ⟨fun _ => 0, fun _ => 0, fun _ => 0⟩).unpackAll
          (fun _ => 1) (fun _ _ => 1) .RS16 [(firingPacket, true)]) := by
  intro happlied
  have hlower := happlied.lower _ _ (firingPacket, true) (by simp)
  exact absurd hlower (by decide)

theorem pixelToDistance_init {distance : Int} (hdistance : 0 ≤ distance) (passageway : Nat) :
    Statics.init.pixelToDistance distance passageway = distance := by
  unfold Statics.pixelToDistance Statics.init
  dsimp only
  split_ifs with hzero
  · rw [le_antisymm hzero hdistance]
    rfl
  · rw [Int.sub_zero]

theorem distance_applied_iff (files : ConfigFiles) (garbage : Garbage)
    (packets : List (RslidarPacket × Bool)) (tables : Statics) :
    ∀ stored ∈ ((Process.init model files garbage).unpackAll exp pow model packets).stored,
      stored.distance =
          1 / 100 * max 0 ((stored.scan.distance - stored.channelNum tables : Int) : ℚ) ↔
        stored.channelNum tables = 0 ∨
          stored.scan.distance = 0 ∧ 0 ≤ stored.channelNum tables := by
  intro stored hstored
  have hfinal := ((Process.detached_init exp pow model files garbage).unpackAll packets).1
  obtain ⟨hdistance, hequal, _⟩ := hfinal.stored stored hstored
  rw [hequal, pixelToDistance_init hdistance, mul_comm, mul_right_inj' (by norm_num)]
  constructor
  · intro hmax
    have hint : stored.scan.distance =
        max 0 (stored.scan.distance - stored.channelNum tables) := by exact_mod_cast hmax
    omega
  · intro hcases
    have hint : stored.scan.distance =
        max 0 (stored.scan.distance - stored.channelNum tables) := by omega
    exact_mod_cast hint

theorem refPwr_init (calIdx : Nat) (distance : ℚ) :
    Statics.init.refPwr exp pow calIdx distance = 4 := by
  unfold Statics.refPwr Statics.init
  dsimp only
  split_ifs
  · norm_num
  · norm_num

theorem calibrateIntensity_init (intensity : ℚ) (calIdx : Nat) (distance : Int) :
    Statics.init.calibrateIntensity exp pow intensity calIdx distance =
      if truncate (204 / Statics.init.realPwr intensity) > 255 then 255
      else 204 / Statics.init.realPwr intensity := by
  have hlasers : Statics.init.numOfLasers ≠ 32 := by decide
  have hreference : (51 * 4 : ℚ) = 204 := by norm_num
  unfold Statics.calibrateIntensity
  dsimp only
  rw [refPwr_init, if_neg hlasers, hreference]

theorem intensity_of_init (files : ConfigFiles) (garbage : Garbage)
    (packets : List (RslidarPacket × Bool)) :
    ∀ stored ∈ ((Process.init model files garbage).unpackAll exp pow model packets).stored,
      stored.intensity =
        if truncate (204 / Statics.init.realPwr stored.scan.intensity) > 255 then 255
        else 204 / Statics.init.realPwr stored.scan.intensity := by
  intro stored hstored
  have hfinal := ((Process.detached_init exp pow model files garbage).unpackAll packets).1
  rw [(hfinal.stored stored hstored).2.2, calibrateIntensity_init]

end ApolloContrib.Rslidar
