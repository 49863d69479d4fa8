import ApolloContrib.Library.Fallible
import ApolloContrib.Velodyne.RawData
import Mathlib.Data.List.Chain

namespace ApolloContrib.Velodyne

open ApolloContrib.Library
open Driver (Data)

/-! The five functions put the returns of a packet into the cloud, one after the other. -/

abbrev Return := Fin NUM_BLOCKS_PER_PACKET × Fin NUM_CHANS_PER_BLOCK

inductive Sensor where
  | hdl64
  | vlp16
  | vlp32
  | hdl32
  | vls128
deriving DecidableEq

namespace Sensor

def timed? : Sensor → Option Timed
  | hdl64 => none
  | vlp16 => some .vlp16
  | vlp32 => some .vlp32
  | hdl32 => some .hdl32
  | vls128 => some .vls128

def unpack (sensor : Sensor) (raw : RawData) : Data → VPointCloud → Except Fault VPointCloud :=
  match sensor with
  | hdl64 => raw.unpackHdl64
  | vlp16 => raw.unpackVlp16
  | vlp32 => raw.unpackVlp32
  | hdl32 => raw.unpackHdl32
  | vls128 => raw.unpackVls128

/-- By the byte that `unpack` looks at. -/
def ofPacket (pkt : Data) : Sensor :=
  if pkt 1205 = 34 then vlp16
  else if pkt 1205 = 40 then vlp32
  else if pkt 1205 = 33 then hdl32
  else if pkt 1205 = 161 then vls128
  else hdl64

theorem unpack_ofPacket (raw : RawData) (pkt : Data) (pc : VPointCloud) :
    (ofPacket pkt).unpack raw pkt pc = raw.unpack pkt pc := by
  unfold ofPacket RawData.unpack
  split
  · rfl
  · split
    · rfl
    · split
      · rfl
      · split <;> rfl

end Sensor

section Return

variable (sensor : Sensor) (raw : RawData) (pkt : Data)

def rotation (i : Fin NUM_BLOCKS_PER_PACKET) : BitVec 16 := (rawBlock pkt i).rotation

/-- The last block takes the difference of the one before. -/
def diffBlock (i : Fin NUM_BLOCKS_PER_PACKET) : Fin 11 :=
  if h : i.val < 11 then ⟨i.val, h⟩ else 10

def diffAt (i : Fin NUM_BLOCKS_PER_PACKET) : Int :=
  RawData.azimuthDiff (rotation pkt (diffBlock i).succ) (rotation pkt (diffBlock i).castSucc)

def Timed.valid (timed : Timed) (i : Fin NUM_BLOCKS_PER_PACKET) : Bool :=
  !(timed.checksHeader && (rawBlock pkt i).header ≠ UPPER_BANK)

namespace Sensor

def resolution : ℚ :=
  match sensor.timed? with
  | none => DISTANCE_RESOLUTION
  | some timed => timed.resolution

def chanId (i : Fin NUM_BLOCKS_PER_PACKET) (j : Fin NUM_CHANS_PER_BLOCK) : Nat :=
  match sensor.timed? with
  | none => j.val + if (rawBlock pkt i).header = LOWER_BANK then 32 else 0
  | some timed => timed.chanId i j

def index (r : Return) : Except Fault Nat :=
  match sensor.timed? with
  | none => .ok (rotation pkt r.1).toNat
  | some timed => RawData.azimuthCorrected (rotation pkt r.1) (diffAt pkt r.1) (timed.share r.2)

def reached : List (Fin NUM_BLOCKS_PER_PACKET) :=
  match sensor.timed? with
  | none => List.finRange NUM_BLOCKS_PER_PACKET
  | some timed => (List.finRange NUM_BLOCKS_PER_PACKET).takeWhile (timed.valid pkt)

def distance (r : Return) : ℚ :=
  ((rawBlock pkt r.1).uint r.2).toNat * sensor.resolution +
    (raw.laserCorrections (sensor.chanId pkt r.1 r.2)).distCorrection

def inRange (r : Return) : Bool := raw.config.pointInRange (sensor.distance raw pkt r)

def pointOf (r : Return) : Except Fault VPoint := do
  raw.computeXyzi (sensor.chanId pkt r.1 r.2) (← sensor.index pkt r) (sensor.distance raw pkt r)
    ((rawBlock pkt r.1).channelByte r.2 2).toNat

def returns (blocks : List (Fin NUM_BLOCKS_PER_PACKET)) : List Return :=
  blocks.flatMap fun i => ((List.finRange NUM_CHANS_PER_BLOCK).map (i, ·)).filter
    (sensor.inRange raw pkt)

def unpacked : List Return :=
  sensor.returns raw pkt ((sensor.reached pkt).filter fun i => raw.config.inArea (rotation pkt i))

end Sensor

end Return

def VPointCloud.pushAll (pc : VPointCloud) (points : List VPoint) : VPointCloud :=
  points.foldl VPointCloud.push pc

@[simp] theorem VPointCloud.points_pushAll (pc : VPointCloud) (points : List VPoint) :
    (pc.pushAll points).points = pc.points ++ points := by
  induction points generalizing pc with
  | nil => exact (List.append_nil _).symm
  | cons point points ih => exact (ih (pc.push point)).trans (List.append_assoc _ [point] _)

section Loops

variable {sensor : Sensor} {raw : RawData} {pkt : Data} {pc : VPointCloud}

theorem foldlM_channels {i : Fin NUM_BLOCKS_PER_PACKET} {resolution : ℚ}
    {chanId : Fin NUM_CHANS_PER_BLOCK → Nat} {index : Fin NUM_CHANS_PER_BLOCK → Except Fault Nat}
    (hresolution : sensor.resolution = resolution)
    (hchanId : ∀ j, sensor.chanId pkt i j = chanId j)
    (hindex : ∀ j, sensor.index pkt (i, j) = index j) :
    (List.finRange NUM_CHANS_PER_BLOCK).foldlM (fun pc j =>
      raw.unpackReturn resolution (rawBlock pkt i) (chanId j) (index j) pc j) pc =
      (sensor.returns raw pkt [i]).foldlM
        (fun pc r => do return pc.push (← sensor.pointOf raw pkt r)) pc := by
  have hreturn (pc : VPointCloud) (j : Fin NUM_CHANS_PER_BLOCK) :
      raw.unpackReturn resolution (rawBlock pkt i) (chanId j) (index j) pc j =
      if sensor.inRange raw pkt (i, j) then
        do return pc.push (← sensor.pointOf raw pkt (i, j))
      else return pc := by
    rw [← hresolution, ← hchanId, ← hindex]
    refine if_congr Iff.rfl ?_ rfl
    rw [Sensor.pointOf, bind_assoc]
    rfl
  rw [funext₂ hreturn, Sensor.returns, List.flatMap_singleton, List.foldlM_filter,
    List.foldlM_map]

def addBlock (sensor : Sensor) (raw : RawData) (pkt : Data) (pc : VPointCloud)
    (i : Fin NUM_BLOCKS_PER_PACKET) : Except Fault VPointCloud :=
  if raw.config.inArea (rotation pkt i) then
    (sensor.returns raw pkt [i]).foldlM
      (fun pc r => do return pc.push (← sensor.pointOf raw pkt r)) pc
  else return pc

theorem foldlM_addBlock (blocks : List (Fin NUM_BLOCKS_PER_PACKET)) :
    blocks.foldlM (addBlock sensor raw pkt) pc =
      (do return pc.pushAll (← (sensor.returns raw pkt
        (blocks.filter fun i => raw.config.inArea (rotation pkt i))).mapM
        (sensor.pointOf raw pkt))) := by
  have hflat (l : List (Fin NUM_BLOCKS_PER_PACKET)) : sensor.returns raw pkt l =
      l.flatMap fun i => sensor.returns raw pkt [i] := by
    simp [Sensor.returns]
  rw [hflat]
  refine Eq.trans ?_ foldlM_push
  rw [foldlM_flatMap, List.foldlM_filter]
  rfl

theorem unpackHdl64_eq : raw.unpackHdl64 pkt pc =
    (List.finRange NUM_BLOCKS_PER_PACKET).foldlM (addBlock .hdl64 raw pkt) pc := by
  unfold RawData.unpackHdl64
  congr 1
  funext pc i
  refine if_congr Iff.rfl ?_ rfl
  exact foldlM_channels rfl (fun _ => rfl) fun _ => rfl

structure Carry.At (carry : Carry) (pkt : Data) (i : Fin NUM_BLOCKS_PER_PACKET) : Prop where
  azimuthNext : i ≠ 0 → carry.azimuthNext = rotation pkt i
  lastAzimuthDiff : i.val = 11 → carry.lastAzimuthDiff = diffAt pkt i

def Carry.next (carry : Carry) (pkt : Data) (i : Fin NUM_BLOCKS_PER_PACKET)
    (azimuth : BitVec 16) : Carry :=
  if h : i.val < NUM_BLOCKS_PER_PACKET - 1 then
    ⟨rotation pkt ⟨i.val + 1, RawData.nextBlock_lt h⟩,
      RawData.azimuthDiff (rotation pkt ⟨i.val + 1, RawData.nextBlock_lt h⟩) azimuth⟩
  else carry

theorem Carry.At.next_lastAzimuthDiff {carry : Carry} {i : Fin NUM_BLOCKS_PER_PACKET}
    (hcarry : carry.At pkt i) :
    (carry.next pkt i (rotation pkt i)).lastAzimuthDiff = diffAt pkt i := by
  unfold Carry.next
  split
  next h =>
    have hblock : diffBlock i = ⟨i.val, h⟩ := dif_pos h
    rw [diffAt, hblock]
    rfl
  next h =>
    refine hcarry.lastAzimuthDiff ?_
    have hi : i.val < 12 := i.isLt
    change ¬ i.val < 11 at h
    omega

theorem Carry.At.next {carry : Carry} {i k : Fin NUM_BLOCKS_PER_PACKET}
    (hcarry : carry.At pkt i) (hk : k.val = i.val + 1) :
    (carry.next pkt i (rotation pkt i)).At pkt k := by
  have hi : i.val < NUM_BLOCKS_PER_PACKET - 1 := by
    have hk' : k.val < 12 := k.isLt
    change i.val < 11
    omega
  have hnext : k = ⟨i.val + 1, RawData.nextBlock_lt hi⟩ := Fin.ext hk
  refine ⟨fun _ => ?_, fun hlast => ?_⟩
  · rw [Carry.next, dif_pos hi, hnext]
  · rw [hcarry.next_lastAzimuthDiff]
    have hi : diffBlock i = 10 := by
      have hi' : i.val = 10 := by omega
      obtain rfl : i = 10 := Fin.ext hi'
      rfl
    have hk : diffBlock k = 10 := by
      obtain rfl : k = 11 := Fin.ext hlast
      rfl
    rw [diffAt, diffAt, hi, hk]

theorem unpackBlocks_eq {timed : Timed} (htimed : sensor.timed? = some timed)
    {blocks : List (Fin NUM_BLOCKS_PER_PACKET)} {carry : Carry}
    (hblocks : blocks.IsChain fun i k => k.val = i.val + 1)
    (hcarry : ∀ i ∈ blocks.head?, carry.At pkt i) :
    raw.unpackBlocks timed pkt blocks carry pc =
      (blocks.takeWhile (timed.valid pkt)).foldlM (addBlock sensor raw pkt) pc := by
  have hresolution : sensor.resolution = timed.resolution := by
    rw [Sensor.resolution, htimed]
  have hchanId (i : Fin NUM_BLOCKS_PER_PACKET) (j : Fin NUM_CHANS_PER_BLOCK) :
      sensor.chanId pkt i j = timed.chanId i j := by
    rw [Sensor.chanId, htimed]
  have hindex (i : Fin NUM_BLOCKS_PER_PACKET) (j : Fin NUM_CHANS_PER_BLOCK) :
      sensor.index pkt (i, j) =
        RawData.azimuthCorrected (rotation pkt i) (diffAt pkt i) (timed.share j) := by
    rw [Sensor.index, htimed]
  induction blocks generalizing carry pc with
  | nil => rfl
  | cons i blocks ih =>
      obtain ⟨hchain, hblocks⟩ := List.isChain_cons.mp hblocks
      have hat : carry.At pkt i := hcarry i rfl
      have hazimuth : (if i = 0 then (rawBlock pkt i).rotation else carry.azimuthNext) =
          rotation pkt i := by
        split
        · rfl
        next hi => exact hat.azimuthNext hi
      rw [RawData.unpackBlocks, List.takeWhile_cons]
      dsimp only
      rw [hazimuth]
      cases hvalid : timed.valid pkt i with
      | false =>
          have hbad : (timed.checksHeader && decide ((rawBlock pkt i).header ≠ UPPER_BANK)) =
              true := (Bool.not_eq_false' _).mp hvalid
          rw [if_pos hbad]
          rfl
      | true =>
          have hgood : ¬ (timed.checksHeader && decide ((rawBlock pkt i).header ≠ UPPER_BANK)) =
              true := Bool.not_eq_true _ ▸ (Bool.not_eq_true' _).mp hvalid
          rw [if_neg hgood, if_pos rfl, List.foldlM_cons]
          change (if raw.config.inArea (rotation pkt i) = true then
            (List.finRange NUM_CHANS_PER_BLOCK).foldlM (fun pc j =>
              raw.unpackReturn timed.resolution (rawBlock pkt i) (timed.chanId i j)
                (RawData.azimuthCorrected (rotation pkt i)
                  (carry.next pkt i (rotation pkt i)).lastAzimuthDiff (timed.share j)) pc j) pc >>=
              fun pc => raw.unpackBlocks timed pkt blocks (carry.next pkt i (rotation pkt i)) pc
            else raw.unpackBlocks timed pkt blocks (carry.next pkt i (rotation pkt i)) pc) = _
          have hnext : ∀ k ∈ blocks.head?, (carry.next pkt i (rotation pkt i)).At pkt k := by
            exact fun k hk => hat.next (hchain k hk)
          have hrest (pc : VPointCloud) := @ih pc _ hblocks hnext
          rw [hat.next_lastAzimuthDiff, addBlock]
          split
          · rw [foldlM_channels hresolution (hchanId i) (hindex i)]
            exact bind_congr hrest
          · exact hrest pc

theorem unpackTimed_eq {timed : Timed} (htimed : sensor.timed? = some timed) :
    raw.unpackTimed timed pkt pc =
      ((List.finRange NUM_BLOCKS_PER_PACKET).takeWhile (timed.valid pkt)).foldlM
        (addBlock sensor raw pkt) pc := by
  refine unpackBlocks_eq htimed (by decide) fun i hi => ?_
  obtain rfl : 0 = i := Option.some.inj hi
  exact ⟨fun hne => absurd rfl hne, fun hlast => absurd hlast (by decide)⟩

/-- Of the blocks that are reached, those in the area put their returns into the cloud. -/
theorem unpack_eq (sensor : Sensor) (raw : RawData) (pkt : Data) (pc : VPointCloud) :
    sensor.unpack raw pkt pc =
      (do return pc.pushAll (← (sensor.unpacked raw pkt).mapM (sensor.pointOf raw pkt))) := by
  rw [Sensor.unpacked, ← foldlM_addBlock]
  cases sensor with
  | hdl64 => exact unpackHdl64_eq
  | vlp16 => exact unpackTimed_eq (show Sensor.vlp16.timed? = some .vlp16 from rfl)
  | vlp32 => exact unpackTimed_eq (show Sensor.vlp32.timed? = some .vlp32 from rfl)
  | hdl32 => exact unpackTimed_eq (show Sensor.hdl32.timed? = some .hdl32 from rfl)
  | vls128 => exact unpackTimed_eq (show Sensor.vls128.timed? = some .vls128 from rfl)

end Loops

end ApolloContrib.Velodyne
