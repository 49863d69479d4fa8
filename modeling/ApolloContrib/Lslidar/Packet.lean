import Mathlib.Data.List.FinRange
import ApolloContrib.Lslidar.Decoder

namespace ApolloContrib.Lslidar

/-! How a raw packet is decoded. `DEG_TO_RAD` and `M_PI` are the decimals of the headers. -/

def DEG_TO_RAD : ℚ := 17453292 / 10 ^ 9

def M_PI : ℚ := 314159265358979323846 / 10 ^ 20

def DISTANCE_RESOLUTION : ℚ := 1 / 100

def UPPER_BANK : BitVec 16 := 0xeeff

abbrev BLOCKS_PER_PACKET : Nat := 12

abbrev RAW_SCAN_SIZE : Nat := 3

abbrev BLOCK_DATA_SIZE : Nat := 96

structure RawBlock where
  header : BitVec 16
  rotation : BitVec 16
  data : Fin BLOCK_DATA_SIZE → BitVec 8

structure RawPacket where
  blocks : Fin BLOCKS_PER_PACKET → RawBlock

def checkPacketValidity (packet : RawPacket) : Bool :=
  (List.finRange BLOCKS_PER_PACKET).all fun blkIdx => (packet.blocks blkIdx).header == UPPER_BANK

def rawAzimuthToDouble (rawAzimuth : BitVec 16) : ℚ := (rawAzimuth.toNat : ℚ) / 100 * DEG_TO_RAD

section Decode

variable (packet : RawPacket)

def block (firIdx : Fin FIRINGS_PER_PACKET) : RawBlock :=
  packet.blocks ⟨firIdx.val / 2, Nat.div_lt_of_lt_mul firIdx.isLt⟩

/-- What the first loop stores for the even firings. -/
def measuredAzimuth (firIdx : Fin FIRINGS_PER_PACKET) : ℚ :=
  rawAzimuthToDouble (block packet firIdx).rotation

/-- What the second loop stores for an odd firing. -/
def interpolatedAzimuth (firIdx : Fin FIRINGS_PER_PACKET) : ℚ :=
  let previous : Fin FIRINGS_PER_PACKET := ⟨firIdx.val - 1, by omega⟩
  let lfirIdx : Fin FIRINGS_PER_PACKET :=
    if firIdx.val = FIRINGS_PER_PACKET - 1 then ⟨firIdx.val - 3, by omega⟩ else previous
  let rfirIdx : Fin FIRINGS_PER_PACKET :=
    if h : firIdx.val = FIRINGS_PER_PACKET - 1 then previous else ⟨firIdx.val + 1, by omega⟩
  let azimuthDiff := measuredAzimuth packet rfirIdx - measuredAzimuth packet lfirIdx
  let azimuthDiff := if azimuthDiff < 0 then azimuthDiff + 2 * M_PI else azimuthDiff
  let azimuth := measuredAzimuth packet previous + azimuthDiff / 2
  if azimuth > 2 * M_PI then azimuth - 2 * M_PI else azimuth

def firingAzimuth (firIdx : Fin FIRINGS_PER_PACKET) : ℚ :=
  if firIdx.val % 2 = 0 then measuredAzimuth packet firIdx else interpolatedAzimuth packet firIdx

/-- The difference that the channels of a firing get their part of. -/
def azimuthDiff (firIdx : Fin FIRINGS_PER_PACKET) : ℚ :=
  if h : firIdx.val < FIRINGS_PER_PACKET - 1 then
    firingAzimuth packet ⟨firIdx.val + 1, by omega⟩ - firingAzimuth packet firIdx
  else firingAzimuth packet firIdx - firingAzimuth packet ⟨firIdx.val - 1, by omega⟩

theorem byteIdx_lt (firIdx : Fin FIRINGS_PER_PACKET) (scanFirIdx : Fin SCANS_PER_FIRING)
    (i : Fin RAW_SCAN_SIZE) :
    RAW_SCAN_SIZE * (SCANS_PER_FIRING * (firIdx.val % 2) + scanFirIdx.val) + i.val <
      BLOCK_DATA_SIZE := by
  have hscan : scanFirIdx.val < 16 := scanFirIdx.isLt
  have hi : i.val < 3 := i.isLt
  change 3 * (16 * (firIdx.val % 2) + scanFirIdx.val) + i.val < 96
  omega

def scanByte (firIdx : Fin FIRINGS_PER_PACKET) (scanFirIdx : Fin SCANS_PER_FIRING)
    (i : Fin RAW_SCAN_SIZE) : Nat :=
  ((block packet firIdx).data ⟨_, byteIdx_lt firIdx scanFirIdx i⟩).toNat

def decodePacket (firIdx : Fin FIRINGS_PER_PACKET) : Firing where
  firingAzimuth := firingAzimuth packet firIdx
  azimuth scanFirIdx := firingAzimuth packet firIdx +
    (scanFirIdx.val : ℚ) * DSR_TOFFSET / FIRING_TOFFSET * azimuthDiff packet firIdx
  distance scanFirIdx :=
    ((scanByte packet firIdx scanFirIdx 0 + 256 * scanByte packet firIdx scanFirIdx 1 : Nat) : ℚ) *
      DISTANCE_RESOLUTION
  intensity scanFirIdx := scanByte packet firIdx scanFirIdx 2

end Decode

/-- `table_idx`, a `size_t`: a negative number wraps. -/
def tableIdx (azimuth : ℚ) : BitVec 64 := BitVec.ofInt 64 ⌊azimuth * 1000 + 1 / 2⌋

def rawPacketCallback (config : Config) (decoder : LslidarDecoder) (stamp : ℚ)
    (packet : RawPacket) : LslidarDecoder × Option LslidarSweep :=
  if !checkPacketValidity packet then (decoder, none)
  else
    packetCallback config decoder ⟨stamp, List.ofFn (decodePacket packet), List.length_ofFn⟩

end ApolloContrib.Lslidar
