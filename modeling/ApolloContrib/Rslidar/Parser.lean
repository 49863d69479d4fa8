import ApolloContrib.Rslidar.Calibration
import Mathlib.Algebra.Order.Round

namespace ApolloContrib.Rslidar

/-! `rslidar16Parser`, `rslidar32Parser` and `Convert`. A parser reads and writes the copies
of its own file, and the member functions of `calibration_` those of `calibration.cpp`. -/

inductive Model where
  | RS16
  | RS32
deriving DecidableEq, Repr

namespace Model

def unit : Model → TranslationUnit
  | RS16 => .rslidar16Parser
  | RS32 => .rslidar32Parser

def lasers : Model → Nat
  | RS16 => 16
  | RS32 => 32

def range : Model → Nat
  | RS16 => 40
  | RS32 => 50

def maxAzimuthDiff : Model → Int
  | RS16 => 75
  | RS32 => 25

end Model

/-- What the buffers of `loadConfigFile` hold before anything is read. -/
structure Garbage where
  curves : Nat → ℚ
  angle : Nat → ℚ
  channel : Nat → Int

def loadTables (lasers : Nat) (files : ConfigFiles) (garbage : Garbage) (statics : Statics) :
    Statics :=
  { statics with
    aIntensityCal := (files.curves.map
      (loadCurves lasers garbage.curves statics.aIntensityCal 0)).getD statics.aIntensityCal
    horiAngle := (files.angle.map fun rows n =>
      if n < lasers then loadAngles lasers garbage.angle 0 rows n * 100
      else statics.horiAngle n).getD statics.horiAngle
    gChannelNum := (files.channel.map
      (loadChannels lasers statics.temperatureRange garbage.channel statics.gChannelNum 0)).getD
        statics.gChannelNum }

namespace Rslidar16Parser

def loadConfigFile (files : ConfigFiles) (garbage : Garbage) (statics : Statics) : Statics :=
  loadTables 16 files garbage statics

end Rslidar16Parser

namespace Rslidar32Parser

def loadConfigFile (files : ConfigFiles) (garbage : Garbage) (statics : Statics) : Statics :=
  let statics := loadTables 32 files garbage { statics with temperatureRange := 50 }
  { statics with
    curvesRate := (files.curvesRate.map
      (loadRates statics.numOfLasers statics.curvesRate 0)).getD statics.curvesRate }

end Rslidar32Parser

def Model.loadConfigFile : Model → ConfigFiles → Garbage → Statics → Statics
  | RS16 => Rslidar16Parser.loadConfigFile
  | RS32 => Rslidar32Parser.loadConfigFile

/-- The arrays of `pic` keep their values when they are resized. -/
def initSetup (statics : Statics) : Statics :=
  { statics with pic := { statics.pic with col := 0 } }

def convertInit (model : Model) (files : ConfigFiles) (garbage : Garbage) (memory : Memory) :
    Memory :=
  let convert := { memory .convert with calibration := true, temperatureRange := model.range }
  let memory := Function.update memory .convert convert
  Function.update memory model.unit
    (initSetup (model.loadConfigFile files garbage (memory model.unit)))

abbrev RslidarPacket := Nat → BitVec 8

def BLOCKS_PER_PACKET : Nat := 12

def SCANS_PER_BLOCK : Nat := 32

namespace RslidarPacket

variable (pkt : RslidarPacket)

def raw (block k : Nat) : Nat := (pkt (42 + 100 * block + k)).toNat

def upperBank (block : Nat) : Bool := pkt.raw block 0 + 256 * pkt.raw block 1 == 0xeeff

def rotation (block : Nat) : Int := 256 * pkt.raw block 2 + pkt.raw block 3

def data (block k : Nat) : Nat := pkt.raw block (4 + k)

def twoBytes (block k : Nat) : Nat := 256 * pkt.data block k + pkt.data block (k + 1)

def azimuthDiff (block : Nat) : Int :=
  if block < BLOCKS_PER_PACKET - 1 then
    (36000 + pkt.rotation (block + 1) - pkt.rotation block).tmod 36000
  else (36000 + pkt.rotation block - pkt.rotation (block - 1)).tmod 36000

end RslidarPacket

/-- One measurement of a block: where it is stored, its channel, and what it holds. -/
structure Scan where
  point : Nat
  dsr : Nat
  distance : Int
  intensity : Nat
  azimuth : Int
deriving DecidableEq, Repr

/-- What `unpack` has stored for a scan. `temper` is the temperature of the last update. -/
structure Stored where
  scan : Scan
  temper : ℚ
  distance : ℚ
  intensity : ℚ

/-- `receivers` tells of each call of a member function of `calibration_` whether the
pointer was set. -/
structure Process where
  memory : Memory
  stored : List Stored
  receivers : List Bool

/-- The conversion of a rounded value, halves away from zero. -/
def roundAway (value : ℚ) : Int := if 0 ≤ value then ⌊value + 1 / 2⌋ else ⌈value - 1 / 2⌉

def correctAzimuth (statics : Statics) (azimuth : ℚ) (passageway : Nat) : Int :=
  let azimuth :=
    if 0 < azimuth ∧ azimuth < 3000 then azimuth + statics.horiAngle passageway + 36000
    else azimuth + statics.horiAngle passageway
  (truncate azimuth).tmod 36000

def Rslidar16Parser.scans (_ : Statics) (pkt : RslidarPacket) (block : Nat) : List Scan :=
  (List.range 2).flatMap fun firing : Nat => (List.range 16).map fun dsr : Nat =>
    let k := 3 * (16 * firing + dsr)
    let azimuth : ℚ := pkt.rotation block +
      pkt.azimuthDiff block * ((dsr * 3 + firing * 50 : Nat) : ℚ) / 100
    { point := dsr + 16 * firing
      dsr := dsr
      distance := pkt.twoBytes block k
      intensity := pkt.data block (k + 2)
      azimuth := (roundAway azimuth).tmod 36000 }

def Rslidar32Parser.scans (statics : Statics) (pkt : RslidarPacket) (block : Nat) : List Scan :=
  let abFlag := isABPacket (pkt.twoBytes block 0)
  (List.range 32).map fun dsr : Nat =>
    let k := 3 * dsr
    let index :=
      if abFlag = 1 ∧ dsr < 16 then k + 48
      else if abFlag = 1 ∧ dsr ≥ 16 then k - 48
      else k
    let dsrTemp := if dsr ≥ 16 then dsr - 16 else dsr
    let azimuth : ℚ := pkt.rotation block +
      pkt.azimuthDiff block * ((dsrTemp * 3 : Nat) : ℚ) / 50
    let abFlagInBlock := isABPacket (pkt.twoBytes block index)
    { point := dsr
      dsr := dsr
      distance := pkt.twoBytes block index - abFlagInBlock * 32768
      intensity := pkt.data block (index + 2)
      azimuth := correctAzimuth statics azimuth dsr }

namespace Model

def scans : Model → Statics → RslidarPacket → Nat → List Scan
  | RS16 => Rslidar16Parser.scans
  | RS32 => Rslidar32Parser.scans

/-- How many member functions are called before the scans of a block, for `isABPacket`. -/
def callsPerBlock : Model → Nat
  | RS16 => 0
  | RS32 => 1

def callsPerScan : Model → Nat
  | RS16 => 2
  | RS32 => 3

end Model

namespace Process

variable (exp : ℚ → ℚ) (pow : ℚ → ℚ → ℚ) (model : Model)

def statics (process : Process) : Statics := process.memory model.unit

def setStatics (process : Process) (statics : Statics) : Process :=
  { process with memory := Function.update process.memory model.unit statics }

/-- Calls of member functions, on the pointer of the parser's file. -/
def call (process : Process) (count : Nat) : Process :=
  { process with
    receivers := process.receivers ++ List.replicate count (process.statics model).calibration }

/-- The temperature is read once in 20000 blocks. -/
def updateTemperature (process : Process) (pkt : RslidarPacket) : Process :=
  let statics := process.statics model
  if statics.tempPacketNum < 20000 ∧ statics.tempPacketNum > 0 then
    process.setStatics model { statics with tempPacketNum := statics.tempPacketNum + 1 }
  else
    (process.call model 1).setStatics model
      { statics with temper := computeTemperature (pkt 38) (pkt 39), tempPacketNum := 1 }

def storeScan (process : Process) (scan : Scan) : Process :=
  let process := process.call model model.callsPerScan
  let statics := process.statics model
  let calibration := process.memory .calibration
  let intensity := calibration.calibrateIntensity exp pow scan.intensity scan.dsr scan.distance
  let distance := calibration.pixelToDistance scan.distance scan.dsr * (1 / 100)
  let point := statics.pic.col * SCANS_PER_BLOCK + scan.point
  let pic := { statics.pic with
    distance := Function.update statics.pic.distance point distance
    intensity := Function.update statics.pic.intensity point intensity
    azimuthforeachP := Function.update statics.pic.azimuthforeachP point scan.azimuth }
  { process.setStatics model { statics with pic := pic } with
    stored := process.stored ++ [⟨scan, statics.temper, distance, intensity⟩] }

def nextCol (process : Process) : Process :=
  let statics := process.statics model
  process.setStatics model
    { statics with pic := { statics.pic with col := statics.pic.col + 1 } }

def unpackBlock (process : Process) (pkt : RslidarPacket) (block : Nat) : Process :=
  let process := process.updateTemperature model pkt
  let azimuthDiff := pkt.azimuthDiff block
  if azimuthDiff ≤ 0 ∨ azimuthDiff > model.maxAzimuthDiff then process
  else
    let process := process.call model model.callsPerBlock
    let scans := model.scans (process.statics model) pkt block
    (scans.foldl (fun process scan => process.storeScan exp pow model scan) process).nextCol model

/-- The blocks from the first on, up to one that is not of the upper bank. -/
def unpackBlocks (process : Process) (pkt : RslidarPacket) : List Nat → Process
  | [] => process
  | block :: blocks =>
      if !pkt.upperBank block then process
      else (process.unpackBlock exp pow model pkt block).unpackBlocks pkt blocks

/-- `finish` is `finish_packets_parse`. -/
def unpack (process : Process) (pkt : RslidarPacket) (finish : Bool) : Process :=
  let process := process.unpackBlocks exp pow model pkt (List.range BLOCKS_PER_PACKET)
  if finish then process.setStatics model (initSetup (process.statics model)) else process

def init (files : ConfigFiles) (garbage : Garbage) : Process :=
  ⟨convertInit model files garbage fun _ => Statics.init, [], []⟩

/-- The packets of one scan message after another, each with whether it is the last. -/
def unpackAll (process : Process) : List (RslidarPacket × Bool) → Process
  | [] => process
  | (pkt, finish) :: packets => (process.unpack exp pow model pkt finish).unpackAll packets

end Process

end ApolloContrib.Rslidar
