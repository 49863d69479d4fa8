import Mathlib.Algebra.Order.Floor.Ring
import Mathlib.Data.Rat.Floor
import Mathlib.Data.Fin.VecNotation

namespace ApolloContrib.Lslidar

/-! `LslidarDecoder`: how the firings of the packets are put into sweeps. The arithmetic of
`double` is exact here. -/

abbrev FIRINGS_PER_PACKET : Nat := 24

abbrev SCANS_PER_FIRING : Nat := 16

def DSR_TOFFSET : ℚ := 2304 / 1000

def FIRING_TOFFSET : ℚ := 55296 / 1000

def SCAN_ALTITUDE : Fin SCANS_PER_FIRING → ℚ :=
  ![-2617993877991494 / 10 ^ 16, 17453292519943295 / 10 ^ 18,
    -22689280275926285 / 10 ^ 17, 5235987755982989 / 10 ^ 17,
    -19198621771937624 / 10 ^ 17, 8726646259971647 / 10 ^ 17,
    -15707963267948966 / 10 ^ 17, 12217304763960307 / 10 ^ 17,
    -12217304763960307 / 10 ^ 17, 15707963267948966 / 10 ^ 17,
    -8726646259971647 / 10 ^ 17, 19198621771937624 / 10 ^ 17,
    -5235987755982989 / 10 ^ 17, 22689280275926285 / 10 ^ 17,
    -17453292519943295 / 10 ^ 18, 2617993877991494 / 10 ^ 16]

structure Firing where
  firingAzimuth : ℚ
  azimuth : Fin SCANS_PER_FIRING → ℚ
  distance : Fin SCANS_PER_FIRING → ℚ
  intensity : Fin SCANS_PER_FIRING → ℚ

structure LslidarPacket where
  stamp : ℚ
  firings : List Firing
  complete : firings.length = FIRINGS_PER_PACKET

structure LslidarPoint where
  time : ℚ
  x : ℚ
  y : ℚ
  z : ℚ
  azimuth : ℚ
  distance : ℚ
  intensity : ℚ
deriving DecidableEq

structure LslidarScan where
  altitude : ℚ
  points : List LslidarPoint

/-- `firings` are the firings that have been put into the sweep. -/
structure LslidarSweep where
  frameId : String
  stamp : ℚ
  scans : Fin SCANS_PER_FIRING → LslidarScan
  firings : List Firing

def LslidarSweep.new : LslidarSweep := ⟨"", 0, fun _ => ⟨0, []⟩, []⟩

/-- The parameters, the value of `M_PI`, and the tables of sines and cosines. -/
structure Config where
  minRange : ℚ
  maxRange : ℚ
  halfTurn : ℚ
  cosAzimuthTable : Int → ℚ
  sinAzimuthTable : Int → ℚ
  cosScanAltitude : Fin SCANS_PER_FIRING → ℚ
  sinScanAltitude : Fin SCANS_PER_FIRING → ℚ

def remap (scanIdx : Fin 16) : Fin 16 :=
  if scanIdx.val % 2 = 0 then ⟨scanIdx.val / 2, by omega⟩ else ⟨scanIdx.val / 2 + 8, by omega⟩

structure LslidarDecoder where
  isFirstSweep : Bool
  lastAzimuth : ℚ
  sweepStartTime : ℚ
  packetStartTime : ℚ
  pointTime : ℚ
  sweepData : LslidarSweep

/-- What the constructor and `initialize` leave. -/
def LslidarDecoder.initialized : LslidarDecoder where
  isFirstSweep := true
  lastAzimuth := 0
  sweepStartTime := 0
  packetStartTime := 0
  pointTime := 0
  sweepData := (List.finRange SCANS_PER_FIRING).foldl (fun sweep scanIdx =>
    let scan := { sweep.scans (remap scanIdx) with altitude := SCAN_ALTITUDE scanIdx }
    { sweep with scans := Function.update sweep.scans (remap scanIdx) scan })
    LslidarSweep.new

section Store

variable (config : Config)

def isPointInRange (distance : ℚ) : Bool :=
  config.minRange ≤ distance && distance ≤ config.maxRange

def point (time : ℚ) (firing : Firing) (scanIdx : Fin SCANS_PER_FIRING) : LslidarPoint :=
  let tableIdx := ⌊firing.azimuth scanIdx * 1000 + 1 / 2⌋
  let x := firing.distance scanIdx * config.cosScanAltitude scanIdx *
    config.sinAzimuthTable tableIdx
  let y := firing.distance scanIdx * config.cosScanAltitude scanIdx *
    config.cosAzimuthTable tableIdx
  let z := firing.distance scanIdx * config.sinScanAltitude scanIdx
  { time := time + DSR_TOFFSET * (scanIdx.val : ℚ)
    x := y
    y := -x
    z := z
    azimuth := firing.azimuth scanIdx
    distance := firing.distance scanIdx
    intensity := firing.intensity scanIdx }

def storeScan (time : ℚ) (firing : Firing) (sweep : LslidarSweep)
    (scanIdx : Fin SCANS_PER_FIRING) : LslidarSweep :=
  if !isPointInRange config (firing.distance scanIdx) then sweep
  else
    let scan := sweep.scans (remap scanIdx)
    let scan := { scan with points := scan.points ++ [point config time firing scanIdx] }
    { sweep with scans := Function.update sweep.scans (remap scanIdx) scan }

def storeFiring (time : ℚ) (firing : Firing) (sweep : LslidarSweep) : LslidarSweep :=
  let sweep := (List.finRange SCANS_PER_FIRING).foldl (storeScan config time firing) sweep
  { sweep with firings := sweep.firings ++ [firing] }

/-- The loop over firings. `firIdx` is what the time of the first is counted from. -/
def storeFirings (packetStartTime : ℚ) : Nat → List Firing → LslidarSweep → LslidarSweep
  | _, [], sweep => sweep
  | firIdx, firing :: firings, sweep =>
      storeFirings packetStartTime (firIdx + 1) firings
        (storeFiring config (packetStartTime + FIRING_TOFFSET * firIdx) firing sweep)

/-- `last_azimuth` and `new_sweep_start` after the loop that looks for a new revolution. -/
def findNewSweep (lastAzimuth : ℚ) : List Firing → ℚ × Nat
  | [] => (lastAzimuth, 0)
  | firing :: firings =>
      if |firing.firingAzimuth - lastAzimuth| > config.halfTurn then (lastAzimuth, 0)
      else
        let (last, newSweepStart) := findNewSweep firing.firingAzimuth firings
        (last, newSweepStart + 1)

def packetCallback (decoder : LslidarDecoder) (msg : LslidarPacket) :
    LslidarDecoder × Option LslidarSweep :=
  let (lastAzimuth, newSweepStart) := findNewSweep config decoder.lastAzimuth msg.firings
  let decoder := { decoder with lastAzimuth := lastAzimuth, pointTime := msg.stamp }
  if decoder.isFirstSweep && newSweepStart == FIRINGS_PER_PACKET then (decoder, none)
  else
    let startFirIdx := if decoder.isFirstSweep then newSweepStart else 0
    let endFirIdx := if decoder.isFirstSweep then FIRINGS_PER_PACKET else newSweepStart
    let sweepStartTime :=
      if decoder.isFirstSweep then
        msg.stamp + FIRING_TOFFSET * (endFirIdx - startFirIdx : Nat) / 10 ^ 6
      else decoder.sweepStartTime
    let sweepData := storeFirings config decoder.packetStartTime startFirIdx
      ((msg.firings.take endFirIdx).drop startFirIdx) decoder.sweepData
    let packetStartTime :=
      decoder.packetStartTime + FIRING_TOFFSET * (endFirIdx - startFirIdx : Nat)
    if endFirIdx ≠ FIRINGS_PER_PACKET then
      let published := { sweepData with frameId := "sweep", stamp := sweepStartTime }
      ({ isFirstSweep := false
         lastAzimuth := (msg.firings.getLast?.map (·.firingAzimuth)).getD lastAzimuth
         sweepStartTime :=
           msg.stamp + FIRING_TOFFSET * (endFirIdx - startFirIdx : Nat) / 10 ^ 6
         packetStartTime := FIRING_TOFFSET * (FIRINGS_PER_PACKET - endFirIdx : Nat)
         pointTime := msg.stamp
         sweepData := storeFirings config 0 0 (msg.firings.drop endFirIdx) LslidarSweep.new },
        some published)
    else
      ({ isFirstSweep := false
         lastAzimuth := lastAzimuth
         sweepStartTime := sweepStartTime
         packetStartTime := packetStartTime
         pointTime := msg.stamp
         sweepData := sweepData }, none)

end Store

end ApolloContrib.Lslidar
