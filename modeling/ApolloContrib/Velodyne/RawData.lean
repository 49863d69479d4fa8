import ApolloContrib.Velodyne.Driver
import Mathlib.Data.List.FinRange

namespace ApolloContrib.Velodyne

open Driver (Data)

/-! `RawData`: how the packets of the sensors become points. The arithmetic of `float` and
`double` is exact here. -/

def M_PI : ℚ := 314159265358979323846 / 10 ^ 20

abbrev NUM_BLOCKS_PER_PACKET : Nat := 12

abbrev NUM_CHANS_PER_BLOCK : Nat := 32

abbrev CHANNEL_SIZE : Nat := 3

instance : NeZero CHANNEL_SIZE := ⟨by decide⟩

abbrev BLOCK_DATA_SIZE : Nat := 96

abbrev ROTATION_MAX_UNITS : Nat := 36000

def UPPER_BANK : BitVec 16 := 0xeeff

def LOWER_BANK : BitVec 16 := 0xddff

def DISTANCE_RESOLUTION : ℚ := 2 / 1000

def VLP32_DISTANCE_RESOLUTION : ℚ := 4 / 1000

def CHANNEL_TDURATION : ℚ := 2304 / 1000

def SEQ_TDURATION : ℚ := 55296 / 1000

def VLP16_BLOCK_TDURATION : ℚ := 2 * SEQ_TDURATION

def HDL32_CHANNEL_TDURATION : ℚ := 1152 / 1000

def HDL32_SEQ_TDURATION : ℚ := 46080 / 1000

inductive Fault where
  /-- A table of sines or cosines is read at its end or behind it. -/
  | table
  /-- A value does not fit into `uint16_t`. -/
  | conversion
deriving DecidableEq

def truncate (x : ℚ) : Int := if 0 ≤ x then ⌊x⌋ else ⌈x⌉

def fmod (x y : ℚ) : ℚ := x - y * truncate (x / y)

/-- Halves go away from 0. -/
def round (x : ℚ) : Int := if 0 ≤ x then ⌊x + 1 / 2⌋ else ⌈x - 1 / 2⌉

def toUint16 (x : Int) : Except Fault Nat :=
  if 0 ≤ x ∧ x < 2 ^ 16 then .ok x.toNat else .error .conversion

structure Config where
  minRange : ℚ
  maxRange : ℚ
  minAngle : Int
  maxAngle : Int
  tmpMinAngle : ℚ
  tmpMaxAngle : ℚ

structure LaserCorrection where
  distCorrection : ℚ
  twoPtCorrectionAvailable : Bool
  distCorrectionX : ℚ
  distCorrectionY : ℚ
  vertOffsetCorrection : ℚ
  horizOffsetCorrection : ℚ
  maxIntensity : Int
  minIntensity : Int
  focalDistance : ℚ
  focalSlope : ℚ
  cosRotCorrection : ℚ
  sinRotCorrection : ℚ
  cosVertCorrection : ℚ
  sinVertCorrection : ℚ
  laserRing : Int

/-- The tables hold what `setup` has put there, whatever the sines and cosines are. -/
structure RawData where
  config : Config
  laserCorrections : Nat → LaserCorrection
  sinRotTable : Fin ROTATION_MAX_UNITS → ℚ
  cosRotTable : Fin ROTATION_MAX_UNITS → ℚ

def positiveModulo (angle : ℚ) : ℚ := fmod (fmod angle (2 * M_PI) + 2 * M_PI) (2 * M_PI)

/-- In hundredths of a degree, against the direction of the parameters. -/
def hardwareAngle (angle : ℚ) : Int := truncate (100 * (2 * M_PI - angle) * 180 / M_PI + 1 / 2)

def RawData.setParameters (raw : RawData) (minRange maxRange viewDirection viewWidth : ℚ) :
    RawData :=
  let tmpMinAngle := positiveModulo (viewDirection + viewWidth / 2)
  let tmpMaxAngle := positiveModulo (viewDirection - viewWidth / 2)
  let minAngle := hardwareAngle tmpMinAngle
  let maxAngle := hardwareAngle tmpMaxAngle
  { raw with
    config :=
      { minRange := minRange
        maxRange := maxRange
        minAngle := if minAngle = maxAngle then 0 else minAngle
        maxAngle := if minAngle = maxAngle then 36000 else maxAngle
        tmpMinAngle := tmpMinAngle
        tmpMaxAngle := tmpMaxAngle } }

def Config.pointInRange (config : Config) (range : ℚ) : Bool :=
  config.minRange ≤ range && range ≤ config.maxRange

/-- The condition that was added to avoid calculating points outside the defined area. -/
def Config.inArea (config : Config) (azimuth : BitVec 16) : Bool :=
  (config.minAngle < config.maxAngle && config.minAngle ≤ azimuth.toNat &&
    azimuth.toNat ≤ config.maxAngle) || config.maxAngle < config.minAngle

def lookup (table : Fin ROTATION_MAX_UNITS → ℚ) (i : Nat) : Except Fault ℚ :=
  if h : i < ROTATION_MAX_UNITS then .ok (table ⟨i, h⟩) else .error .table

structure VPoint where
  x : ℚ
  y : ℚ
  z : ℚ
  intensity : ℚ
  ring : BitVec 16

structure VPointCloud where
  points : List VPoint
  width : Nat

def VPointCloud.push (pc : VPointCloud) (point : VPoint) : VPointCloud :=
  ⟨pc.points ++ [point], pc.width + 1⟩

def RawData.computeXyzi (raw : RawData) (chanId azimuthUint : Nat) (distance intensity : ℚ) :
    Except Fault VPoint := do
  let corrections := raw.laserCorrections chanId
  let cosVertAngle := corrections.cosVertCorrection
  let sinVertAngle := corrections.sinVertCorrection
  let cosRotCorrection := corrections.cosRotCorrection
  let sinRotCorrection := corrections.sinRotCorrection
  let cosRot ← lookup raw.cosRotTable azimuthUint
  let sinRot ← lookup raw.sinRotTable azimuthUint
  let cosRotAngle := cosRot * cosRotCorrection + sinRot * sinRotCorrection
  let sinRotAngle := sinRot * cosRotCorrection - cosRot * sinRotCorrection
  let horizOffset := corrections.horizOffsetCorrection
  let vertOffset := corrections.vertOffsetCorrection
  let xyDistance := distance * cosVertAngle - vertOffset * sinVertAngle
  let xx := |xyDistance * sinRotAngle - horizOffset * cosRotAngle|
  let yy := |xyDistance * cosRotAngle + horizOffset * sinRotAngle|
  let distanceCorrX :=
    if corrections.twoPtCorrectionAvailable then
      (corrections.distCorrection - corrections.distCorrectionX) * (xx - 24 / 10) /
        (2504 / 100 - 24 / 10) + corrections.distCorrectionX - corrections.distCorrection
    else 0
  let distanceCorrY :=
    if corrections.twoPtCorrectionAvailable then
      (corrections.distCorrection - corrections.distCorrectionY) * (yy - 193 / 100) /
        (2504 / 100 - 193 / 100) + corrections.distCorrectionY - corrections.distCorrection
    else 0
  let distanceX := distance + distanceCorrX
  let xyDistance := distanceX * cosVertAngle - vertOffset * sinVertAngle
  let x := xyDistance * sinRotAngle - horizOffset * cosRotAngle
  let distanceY := distance + distanceCorrY
  let xyDistance := distanceY * cosVertAngle - vertOffset * sinVertAngle
  let y := xyDistance * cosRotAngle + horizOffset * sinRotAngle
  let z := distanceY * sinVertAngle + vertOffset * cosVertAngle
  let focalOffset := 256 * (1 - corrections.focalDistance / 13100) *
    (1 - corrections.focalDistance / 13100)
  let intensity := intensity + corrections.focalSlope *
    |focalOffset - 256 * (1 - (azimuthUint : ℚ) / 65535) * (1 - (azimuthUint : ℚ) / 65535)|
  let minIntensity : ℚ := corrections.minIntensity
  let maxIntensity : ℚ := corrections.maxIntensity
  let intensity := if intensity < minIntensity then minIntensity else intensity
  let intensity := if intensity > maxIntensity then maxIntensity else intensity
  return ⟨y, -x, z, intensity, BitVec.ofInt 16 corrections.laserRing⟩

structure RawBlock where
  header : BitVec 16
  rotation : BitVec 16
  data : Fin BLOCK_DATA_SIZE → BitVec 8

theorem blockByte_lt (block : Fin NUM_BLOCKS_PER_PACKET) {k : Nat} (hk : k < 100) :
    100 * block.val + k < Driver.PACKET_SIZE := by
  have hblock : block.val < 12 := block.isLt
  change _ < 1206
  omega

def blockByte (pkt : Data) (block : Fin NUM_BLOCKS_PER_PACKET) (k : Fin 100) : BitVec 8 :=
  pkt ⟨100 * block.val + k.val, blockByte_lt block k.isLt⟩

def rawBlock (pkt : Data) (block : Fin NUM_BLOCKS_PER_PACKET) : RawBlock where
  header := blockByte pkt block 1 ++ blockByte pkt block 0
  rotation := blockByte pkt block 3 ++ blockByte pkt block 2
  data := fun k => blockByte pkt block (k.natAdd 4)

theorem channelByte_lt (j : Fin NUM_CHANS_PER_BLOCK) {k : Nat} (hk : k < CHANNEL_SIZE) :
    CHANNEL_SIZE * j.val + k < BLOCK_DATA_SIZE := by
  have hj : j.val < 32 := j.isLt
  change 3 * j.val + k < 96
  change k < 3 at hk
  omega

def RawBlock.channelByte (block : RawBlock) (j : Fin NUM_CHANS_PER_BLOCK) (k : Fin CHANNEL_SIZE) :
    BitVec 8 :=
  block.data ⟨CHANNEL_SIZE * j.val + k.val, channelByte_lt j k.isLt⟩

def RawBlock.uint (block : RawBlock) (j : Fin NUM_CHANS_PER_BLOCK) : BitVec 16 :=
  block.channelByte j 1 ++ block.channelByte j 0

/-- What the sensors have of their own: whether the header is checked, the resolution, the
channel, and the part of the difference of the azimuths that a channel is corrected by. -/
structure Timed where
  checksHeader : Bool
  resolution : ℚ
  chanId : Fin NUM_BLOCKS_PER_PACKET → Fin NUM_CHANS_PER_BLOCK → Nat
  share : Fin NUM_CHANS_PER_BLOCK → ℚ

structure Carry where
  azimuthNext : BitVec 16
  lastAzimuthDiff : Int

namespace RawData

variable (raw : RawData)

/-- One round of the loop over the channels; `index` is where the tables are to be read. -/
def unpackReturn (resolution : ℚ) (block : RawBlock) (chanId : Nat) (index : Except Fault Nat)
    (pc : VPointCloud) (j : Fin NUM_CHANS_PER_BLOCK) : Except Fault VPointCloud :=
  let distance := (block.uint j).toNat * resolution + (raw.laserCorrections chanId).distCorrection
  if raw.config.pointInRange distance then do
    let azimuth ← index
    let point ← raw.computeXyzi chanId azimuth distance (block.channelByte j 2).toNat
    return pc.push point
  else return pc

def unpackHdl64 (pkt : Data) (pc : VPointCloud) : Except Fault VPointCloud :=
  (List.finRange NUM_BLOCKS_PER_PACKET).foldlM (fun pc i =>
    let block := rawBlock pkt i
    let bankOrigin := if block.header = LOWER_BANK then 32 else 0
    let azimuth := block.rotation
    if raw.config.inArea azimuth then
      (List.finRange NUM_CHANS_PER_BLOCK).foldlM (fun pc j =>
        raw.unpackReturn DISTANCE_RESOLUTION block (j.val + bankOrigin) (.ok azimuth.toNat) pc j)
        pc
    else return pc) pc

/-- `azimuth_corrected`, from the firing order in time. -/
def azimuthCorrected (azimuth : BitVec 16) (azimuthDiff : Int) (share : ℚ) : Except Fault Nat := do
  let azimuthCorrectedF : ℚ := azimuth.toNat + azimuthDiff * share
  return (← toUint16 (round azimuthCorrectedF)) % 36000

/-- The `int` of the difference keeps the sign of what is divided. -/
def azimuthDiff (azimuthNext azimuth : BitVec 16) : Int :=
  (36000 + azimuthNext.toNat - azimuth.toNat : Int).tmod 36000

theorem nextBlock_lt {i : Fin NUM_BLOCKS_PER_PACKET} (h : i.val < NUM_BLOCKS_PER_PACKET - 1) :
    i.val + 1 < NUM_BLOCKS_PER_PACKET := Nat.add_lt_of_lt_sub h

/-- The loop over the blocks; the first header that is wrong ends it. -/
def unpackBlocks (timed : Timed) (pkt : Data) :
    List (Fin NUM_BLOCKS_PER_PACKET) → Carry → VPointCloud → Except Fault VPointCloud
  | [], _, pc => return pc
  | i :: blocks, carry, pc => do
      let block := rawBlock pkt i
      if timed.checksHeader && block.header ≠ UPPER_BANK then return pc
      else
        let azimuth := if i = 0 then block.rotation else carry.azimuthNext
        let carry :=
          if h : i.val < NUM_BLOCKS_PER_PACKET - 1 then
            let azimuthNext := (rawBlock pkt ⟨i.val + 1, nextBlock_lt h⟩).rotation
            ⟨azimuthNext, azimuthDiff azimuthNext azimuth⟩
          else carry
        let pc ←
          if raw.config.inArea azimuth then
            (List.finRange NUM_CHANS_PER_BLOCK).foldlM (fun pc j =>
              raw.unpackReturn timed.resolution block (timed.chanId i j)
                (azimuthCorrected azimuth carry.lastAzimuthDiff (timed.share j)) pc j) pc
          else pure pc
        unpackBlocks timed pkt blocks carry pc

def unpackTimed (timed : Timed) (pkt : Data) (pc : VPointCloud) : Except Fault VPointCloud :=
  raw.unpackBlocks timed pkt (List.finRange NUM_BLOCKS_PER_PACKET) ⟨0, 0⟩ pc

end RawData

namespace Timed

def vlp16 : Timed where
  checksHeader := true
  resolution := DISTANCE_RESOLUTION
  chanId := fun _ j => j.val % 16
  share := fun j => ((j.val % 16 : Nat) * CHANNEL_TDURATION + (j.val / 16 : Nat) * SEQ_TDURATION) /
    VLP16_BLOCK_TDURATION

def vlp32 : Timed where
  checksHeader := true
  resolution := VLP32_DISTANCE_RESOLUTION
  chanId := fun _ j => j.val
  share := fun j => (j.val / 2 : Nat) * CHANNEL_TDURATION / SEQ_TDURATION

def hdl32 : Timed where
  checksHeader := true
  resolution := DISTANCE_RESOLUTION
  chanId := fun _ j => j.val
  share := fun j => j.val * HDL32_CHANNEL_TDURATION / HDL32_SEQ_TDURATION

/-- Four blocks make the 128 channels; the firing order is 0 for all. -/
def vls128 : Timed where
  checksHeader := false
  resolution := VLP32_DISTANCE_RESOLUTION
  chanId := fun i j => j.val + i.val % 4 * 32
  share := fun _ => (0 : Nat) * CHANNEL_TDURATION / SEQ_TDURATION

end Timed

namespace RawData

variable (raw : RawData)

def unpackVlp16 : Data → VPointCloud → Except Fault VPointCloud := raw.unpackTimed .vlp16

def unpackVlp32 : Data → VPointCloud → Except Fault VPointCloud := raw.unpackTimed .vlp32

def unpackHdl32 : Data → VPointCloud → Except Fault VPointCloud := raw.unpackTimed .hdl32

def unpackVls128 : Data → VPointCloud → Except Fault VPointCloud := raw.unpackTimed .vls128

def unpack (pkt : Data) (pc : VPointCloud) : Except Fault VPointCloud :=
  if pkt 1205 = 34 then raw.unpackVlp16 pkt pc
  else if pkt 1205 = 40 then raw.unpackVlp32 pkt pc
  else if pkt 1205 = 33 then raw.unpackHdl32 pkt pc
  else if pkt 1205 = 161 then raw.unpackVls128 pkt pc
  else raw.unpackHdl64 pkt pc

end RawData

end ApolloContrib.Velodyne
