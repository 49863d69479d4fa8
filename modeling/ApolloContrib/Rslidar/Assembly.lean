import Mathlib.Data.List.ProdSigma
import ApolloContrib.Library.Scatter
import ApolloContrib.Rslidar.Parser

namespace ApolloContrib.Rslidar

open ApolloContrib.Library

/-! How the packets of a scan become a cloud. A write outside an array of `pic`, and a point
outside the cloud, leave no answer. -/

/-- The packets of a scan, from the driver's `init`: 840 in a second. -/
def npackets (rpm : ℚ) : Nat := ⌈840 / (rpm / 60)⌉.toNat

structure RslidarScan (count : Nat) where
  packets : List RslidarPacket
  full : packets.length = count

namespace Model

/-- The size of the arrays of `pic`. -/
def dataNumberPerScan : Model → Nat
  | RS16 => 40000
  | RS32 => 70000

def firingsPerBlock : Model → Nat
  | RS16 => 2
  | RS32 => 1

def scansPerFiring : Model → Nat
  | RS16 => 16
  | RS32 => 32

end Model

/-- A point out of range has no place and no intensity. -/
inductive Point (Coord : Type*) where
  | invalid
  | valid (place : Coord) (intensity : ℚ)

/-- Where it lies is floating point, from the distance, the azimuth and the channel. -/
def Point.measured {Coord : Type*} (place : ℚ → Int → Nat → Coord) (distance intensity : ℚ)
    (azimuth : Int) (dsr : Nat) : Point Coord :=
  if distance > 200 ∨ distance < 1 / 5 then .invalid
  else .valid (place distance azimuth dsr) intensity

structure PointCloud (Coord : Type*) where
  height : Nat
  width : Nat
  points : List (Option (Point Coord))

def PointCloud.empty {Coord : Type*} : PointCloud Coord := ⟨0, 0, []⟩

section Unpack

variable (exp : ℚ → ℚ) (pow : ℚ → ℚ → ℚ) (model : Model)

namespace Process

def storeScanWithin (process : Process) (scan : Scan) : Option Process :=
  if (process.statics model).pic.col * SCANS_PER_BLOCK + scan.point < model.dataNumberPerScan then
    some (process.storeScan exp pow model scan)
  else none

def unpackBlockWithin (process : Process) (pkt : RslidarPacket) (block : Nat) : Option Process :=
  let process := process.updateTemperature model pkt
  let azimuthDiff := pkt.azimuthDiff block
  if azimuthDiff ≤ 0 ∨ azimuthDiff > model.maxAzimuthDiff then some process
  else
    let process := process.call model model.callsPerBlock
    let scans := model.scans (process.statics model) pkt block
    (scans.foldlM (storeScanWithin exp pow model) process).map (nextCol model)

def unpackBlocksWithin (process : Process) (pkt : RslidarPacket) : List Nat → Option Process
  | [] => some process
  | block :: blocks =>
      if !pkt.upperBank block then some process
      else
        (process.unpackBlockWithin exp pow model pkt block).bind fun process =>
          process.unpackBlocksWithin pkt blocks

variable {Coord : Type*} (place : ℚ → Int → Nat → Coord)

/-- The point of `point_count`. -/
def point (pic : Pic) (dsr pointCount : Nat) : Point Coord :=
  .measured place (pic.distance pointCount) (pic.intensity pointCount)
    (pic.azimuthforeachP pointCount) dsr

/-- The rounds of the three loops: `block_num`, `firing` and `dsr`. -/
def rounds (col : Nat) : List (Nat × Nat × Nat) :=
  List.range col ×ˢ List.range model.firingsPerBlock ×ˢ List.range model.scansPerFiring

/-- `at` of a column and a row of the cloud, and the point. -/
def placed (pic : Pic) : Nat × Nat × Nat → Nat × Point Coord
  | (blockNum, firing, dsr) =>
      (dsr * (model.firingsPerBlock * pic.col) + (model.firingsPerBlock * blockNum + firing),
        point place pic dsr (blockNum * SCANS_PER_BLOCK + dsr + model.scansPerFiring * firing))

def organise (pic : Pic) : Option (PointCloud Coord) :=
  let height := model.scansPerFiring
  let width := model.firingsPerBlock * pic.col
  (scatter ((rounds model pic.col).map (placed model place pic))
    (List.replicate (height * width) none)).map fun points => ⟨height, width, points⟩

def unpackWithin (process : Process) (pointcloud : PointCloud Coord) (pkt : RslidarPacket)
    (finish : Bool) : Option (Process × PointCloud Coord) :=
  (process.unpackBlocksWithin exp pow model pkt (List.range BLOCKS_PER_PACKET)).bind fun process =>
    if finish then
      (organise model place (process.statics model).pic).map fun pointcloud =>
        (process.setStatics model (initSetup (process.statics model)), pointcloud)
    else some (process, pointcloud)

def convertPacketsToPointcloud (process : Process) (pointcloud : PointCloud Coord) :
    List RslidarPacket → Option (Process × PointCloud Coord)
  | [] => some (process, pointcloud)
  | pkt :: packets =>
      (process.unpackWithin exp pow model place pointcloud pkt packets.isEmpty).bind
        fun (process, pointcloud) => process.convertPacketsToPointcloud pointcloud packets

end Process

end Unpack

/-- A process between two scans: the columns are counted from 0. -/
structure Idle (model : Model) where
  process : Process
  idle : (process.statics model).pic.col = 0

namespace RslidarPacket

variable (pkt : RslidarPacket)

/-- The headers up to the block are of the upper bank, and the azimuth goes on by a step. -/
def Accepted (model : Model) (block : Nat) : Prop :=
  (∀ before ≤ block, pkt.upperBank before = true) ∧
    0 < pkt.azimuthDiff block ∧ pkt.azimuthDiff block ≤ model.maxAzimuthDiff

instance (model : Model) (block : Nat) : Decidable (pkt.Accepted model block) :=
  inferInstanceAs (Decidable ((∀ before ≤ block, _) ∧ _))

def acceptedBlocks (model : Model) : List Nat :=
  (List.range BLOCKS_PER_PACKET).filter fun block => pkt.Accepted model block

/-- The two halves of the channels are exchanged, and the high bits of their distances
cleared. -/
def exchanged (block : Nat) : RslidarPacket := fun i =>
  if 46 + 100 * block ≤ i ∧ i < 142 + 100 * block then
    let k := i - (46 + 100 * block)
    let byte := pkt (46 + 100 * block + (k + 48) % 96)
    if k % 3 = 0 then byte &&& 0x7f else byte
  else pkt i

end RslidarPacket

section Scan

variable (exp : ℚ → ℚ) (pow : ℚ → ℚ → ℚ) (model : Model) {Coord : Type*}
  (place : ℚ → Int → Nat → Coord)

def Stored.point (stored : Stored) : Point Coord :=
  .measured place stored.distance stored.intensity stored.scan.azimuth stored.scan.dsr

/-- Each measurement has one cell of the cloud, and each cell one measurement. -/
def Organised (measured : List Stored) (cloud : PointCloud Coord) : Prop :=
  ∃ cell : Nat → Nat,
    Set.BijOn cell {i | i < measured.length} {i | i < cloud.points.length} ∧
    ∀ i stored, measured[i]? = some stored →
      cloud.points[cell i]? = some (some (stored.point place))

/-- Nothing is written out of bounds; the measurements are those of the accepted blocks, and in
the cloud; and their azimuths are those of a turn. -/
def AssemblesScan (start : Idle model) (packets : List RslidarPacket) : Prop :=
  ∃ next cloud measured,
    start.process.convertPacketsToPointcloud exp pow model place .empty packets =
      some (next, cloud) ∧
    next.stored = start.process.stored ++ measured ∧
    measured.map (·.scan) = packets.flatMap (fun pkt => (pkt.acceptedBlocks model).flatMap
      (model.scans (start.process.statics model) pkt)) ∧
    Organised place measured cloud ∧
    ∀ stored ∈ measured, 0 ≤ stored.scan.azimuth ∧ stored.scan.azimuth < 36000

def Fits (packets : List RslidarPacket) : Prop :=
  (packets.flatMap (·.acceptedBlocks model)).length * SCANS_PER_BLOCK ≤ model.dataNumberPerScan

end Scan

/-- With its angle a channel is at a multiple of a turn, or over -1. -/
def Rslidar32Parser.TurnedOn (statics : Statics) (azimuth : ℚ) (dsr : Nat) : Prop :=
  let sum := if 0 < azimuth ∧ azimuth < 3000 then azimuth + statics.horiAngle dsr + 36000
    else azimuth + statics.horiAngle dsr
  36000 ∣ truncate sum ∨ -1 < sum

/-- The azimuths of the channels of a block do not become negative. -/
def Model.AnglesTurnOn (statics : Statics) (pkt : RslidarPacket) (block : Nat) : Model → Prop
  | RS16 => True
  | RS32 => ∀ dsr < 32, Rslidar32Parser.TurnedOn statics
      (pkt.rotation block + pkt.azimuthDiff block * ((dsr % 16 * 3 : Nat) : ℚ) / 50) dsr

end ApolloContrib.Rslidar
