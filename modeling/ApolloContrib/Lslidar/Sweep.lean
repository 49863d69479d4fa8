import ApolloContrib.Library.Split
import ApolloContrib.Lslidar.Decoder

namespace ApolloContrib.Lslidar

open ApolloContrib.Library

/-! What a sweep holds of the firings that are put into it. -/

theorem remap_injective : Function.Injective remap := by
  unfold Function.Injective
  decide

def LslidarPoint.untimed (point : LslidarPoint) : LslidarPoint := { point with time := 0 }

variable (config : Config)

def measured (scanIdx : Fin SCANS_PER_FIRING) (firing : Firing) : LslidarPoint :=
  (point config 0 firing scanIdx).untimed

def inRange (scanIdx : Fin SCANS_PER_FIRING) (firing : Firing) : Bool :=
  isPointInRange config (firing.distance scanIdx)

/-- The points of each scan are what its firings measure in range, in their order. -/
def LslidarSweep.Filled (sweep : LslidarSweep) : Prop :=
  ∀ scanIdx, (sweep.scans (remap scanIdx)).points.map LslidarPoint.untimed =
    (sweep.firings.filter (inRange config scanIdx)).map (measured config scanIdx)

def LslidarSweep.Altitudes (sweep : LslidarSweep) : Prop :=
  ∀ scanIdx, (sweep.scans (remap scanIdx)).altitude = SCAN_ALTITUDE scanIdx

def LslidarScan.add (time : ℚ) (firing : Firing) (scanIdx : Fin SCANS_PER_FIRING)
    (scan : LslidarScan) : LslidarScan :=
  if inRange config scanIdx firing then
    { scan with points := scan.points ++ [point config time firing scanIdx] }
  else scan

theorem storeScan_eq (time : ℚ) (firing : Firing) (sweep : LslidarSweep)
    (scanIdx : Fin SCANS_PER_FIRING) :
    storeScan config time firing sweep scanIdx =
      { sweep with
        scans := Function.update sweep.scans (remap scanIdx)
          ((sweep.scans (remap scanIdx)).add config time firing scanIdx) } := by
  unfold storeScan LslidarScan.add inRange
  cases isPointInRange config (firing.distance scanIdx) with
  | false => simp
  | true => rfl

theorem foldl_storeScan (time : ℚ) (firing : Firing) (indices : List (Fin SCANS_PER_FIRING))
    (sweep : LslidarSweep) :
    indices.foldl (storeScan config time firing) sweep =
      { sweep with
        scans := indices.foldl (fun scans scanIdx => Function.update scans (remap scanIdx)
          ((scans (remap scanIdx)).add config time firing scanIdx)) sweep.scans } := by
  induction indices generalizing sweep with
  | nil => rfl
  | cons scanIdx indices ih => rw [List.foldl_cons, ih, storeScan_eq, List.foldl_cons]

theorem storeFiring_scan (time : ℚ) (firing : Firing) (sweep : LslidarSweep)
    (scanIdx : Fin SCANS_PER_FIRING) :
    (storeFiring config time firing sweep).scans (remap scanIdx) =
      (sweep.scans (remap scanIdx)).add config time firing scanIdx := by
  unfold storeFiring
  dsimp only
  rw [foldl_storeScan]
  exact foldl_update_of_mem
    (fun scanIdx (scan : LslidarScan) => scan.add config time firing scanIdx)
    remap_injective (List.nodup_finRange _) (List.mem_finRange scanIdx) sweep.scans

theorem storeFiring_firings (time : ℚ) (firing : Firing) (sweep : LslidarSweep) :
    (storeFiring config time firing sweep).firings = sweep.firings ++ [firing] := by
  unfold storeFiring
  dsimp only
  rw [foldl_storeScan]

variable {config}

theorem LslidarSweep.Filled.storeFiring {sweep : LslidarSweep} (hfilled : sweep.Filled config)
    (time : ℚ) (firing : Firing) :
    (storeFiring config time firing sweep).Filled config := by
  intro scanIdx
  rw [storeFiring_scan, storeFiring_firings, List.filter_append, List.map_append, ← hfilled scanIdx]
  unfold LslidarScan.add
  cases hrange : inRange config scanIdx firing with
  | false => simp [hrange]
  | true =>
      rw [if_pos rfl, List.map_append, List.filter_cons_of_pos hrange]
      rfl

theorem LslidarSweep.Filled.storeFirings {sweep : LslidarSweep} {firings : List Firing}
    (hfilled : sweep.Filled config) (packetStartTime : ℚ) (firIdx : Nat) :
    (storeFirings config packetStartTime firIdx firings sweep).Filled config := by
  induction firings generalizing firIdx sweep with
  | nil => exact hfilled
  | cons firing firings ih => exact ih (hfilled.storeFiring _ firing) _

theorem storeFirings_firings (packetStartTime : ℚ) (firIdx : Nat) (firings : List Firing)
    (sweep : LslidarSweep) :
    (storeFirings config packetStartTime firIdx firings sweep).firings =
      sweep.firings ++ firings := by
  induction firings generalizing firIdx sweep with
  | nil => exact (List.append_nil _).symm
  | cons firing firings ih =>
      unfold storeFirings
      rw [ih, storeFiring_firings, List.append_assoc]
      rfl

theorem storeFirings_altitude (packetStartTime : ℚ) (firIdx : Nat) (firings : List Firing)
    (sweep : LslidarSweep) (scanIdx : Fin SCANS_PER_FIRING) :
    ((storeFirings config packetStartTime firIdx firings sweep).scans (remap scanIdx)).altitude =
      (sweep.scans (remap scanIdx)).altitude := by
  induction firings generalizing firIdx sweep with
  | nil => rfl
  | cons firing firings ih =>
      unfold storeFirings
      rw [ih, storeFiring_scan]
      unfold LslidarScan.add
      split_ifs
      · rfl
      · rfl

theorem filled_new : LslidarSweep.new.Filled config := by
  intro scanIdx
  rfl

theorem new_altitude (scanIdx : Fin SCANS_PER_FIRING) :
    (LslidarSweep.new.scans (remap scanIdx)).altitude = 0 := rfl

theorem foldl_altitude (indices : List (Fin SCANS_PER_FIRING)) (sweep : LslidarSweep) :
    (indices.foldl (fun sweep scanIdx =>
      let scan := { sweep.scans (remap scanIdx) with altitude := SCAN_ALTITUDE scanIdx }
      { sweep with scans := Function.update sweep.scans (remap scanIdx) scan }) sweep) =
      { sweep with
        scans := indices.foldl (fun scans scanIdx => Function.update scans (remap scanIdx)
          { scans (remap scanIdx) with altitude := SCAN_ALTITUDE scanIdx }) sweep.scans } := by
  induction indices generalizing sweep with
  | nil => rfl
  | cons scanIdx indices ih => rw [List.foldl_cons, ih, List.foldl_cons]

theorem initialized_scan (scanIdx : Fin SCANS_PER_FIRING) :
    LslidarDecoder.initialized.sweepData.scans (remap scanIdx) = ⟨SCAN_ALTITUDE scanIdx, []⟩ := by
  unfold LslidarDecoder.initialized
  dsimp only
  rw [foldl_altitude]
  exact foldl_update_of_mem
    (fun scanIdx (scan : LslidarScan) => { scan with altitude := SCAN_ALTITUDE scanIdx })
    remap_injective (List.nodup_finRange _) (List.mem_finRange scanIdx) LslidarSweep.new.scans

theorem initialized_firings : LslidarDecoder.initialized.sweepData.firings = [] := by
  unfold LslidarDecoder.initialized
  dsimp only
  rw [foldl_altitude]
  rfl

end ApolloContrib.Lslidar
