import Mathlib.Data.List.FinRange
import Mathlib.Order.Bounds.Basic
import Mathlib.Algebra.Order.Group.Unbundled.Int
import ApolloContrib.Library.Run

namespace ApolloContrib.Pandora

open ApolloContrib.Library

/-! How `pandar40p_internal.cc` cuts the blocks of its packets into clouds. -/

abbrev RATE_PER_PACKET : Int := 2

abbrev PACKETS_PER_ROUND : Int := 360 / RATE_PER_PACKET

abbrev LASER_COUNT : Nat := 40

abbrev BLOCKS_PER_PACKET : Nat := 10

/-- `distance` is 0.004 times the range. -/
structure Pandar40PUnit where
  range : BitVec 16
  intensity : BitVec 8

structure Pandar40PBlock where
  azimuth : BitVec 16
  units : Fin LASER_COUNT → Pandar40PUnit

/-- `stamp` is what the time of a point comes from: `t`, `usec` and `echo`. -/
structure Pandar40PPacket (Stamp : Type*) where
  blocks : Fin BLOCKS_PER_PACKET → Pandar40PBlock
  stamp : Stamp

structure PPoint (Coord Time : Type*) where
  place : Coord
  intensity : BitVec 8
  timestamp : Time
  ring : Fin LASER_COUNT

/-- A cloud as the callback gets it; and for the record the number of packets by then and the
azimuth of the block. -/
structure Delivery (Coord Time : Type*) where
  cloud : List (PPoint Coord Time)
  timestamp : Time
  received : Nat
  azimuth : BitVec 16

/-- What does not change: the callback may not be set; where a point lies and which time it has
is floating point, the place from the range, the azimuth and the laser. -/
structure Lidar (Stamp Coord Time : Type*) where
  startAngle : Fin 36001
  callback : Bool
  place : BitVec 16 → BitVec 16 → Fin LASER_COUNT → Coord
  time : Stamp → Fin BLOCKS_PER_PACKET → Fin LASER_COUNT → Time

/-- `packetIndex` is an `int`; `received` counts all packets. -/
structure Sweep (Coord Time : Type*) where
  packetIndex : BitVec 32
  timestamp : Time
  outMsg : List (PPoint Coord Time)
  received : Nat
  delivered : List (Delivery Coord Time)

variable {Stamp Coord Time : Type*}

/-- `unit.distance` is over 0.5 and at most 200.0, which as doubles too are 125 and 50000 times
0.004. -/
def Pandar40PUnit.accepted (unit : Pandar40PUnit) : Prop :=
  125 < unit.range.toNat ∧ unit.range.toNat ≤ 50000

instance (unit : Pandar40PUnit) : Decidable unit.accepted := inferInstanceAs (Decidable (_ ∧ _))

def gap (azimuth : BitVec 16) (startAngle : Nat) : Int :=
  min (|(azimuth.toNat : Int) - startAngle|) (36000 - |(azimuth.toNat : Int) - startAngle|)

section Process

variable (lidar : Lidar Stamp Coord Time)

def Lidar.point (pkt : Pandar40PPacket Stamp) (blockid : Fin BLOCKS_PER_PACKET)
    (i : Fin LASER_COUNT) : PPoint Coord Time where
  place := lidar.place ((pkt.blocks blockid).units i).range (pkt.blocks blockid).azimuth i
  intensity := ((pkt.blocks blockid).units i).intensity
  timestamp := lidar.time pkt.stamp blockid i
  ring := i

def Lidar.points (pkt : Pandar40PPacket Stamp) (blockid : Fin BLOCKS_PER_PACKET) :
    List (PPoint Coord Time) :=
  ((List.finRange LASER_COUNT).filter fun i => ((pkt.blocks blockid).units i).accepted).map
    (lidar.point pkt blockid)

variable [LinearOrder Time] [Zero Time]

/-- `timestamp_` after a point. -/
def smallest (timestamp time : Time) : Time :=
  if (0 < timestamp ∧ timestamp < time) ∨ timestamp ≤ 0 then time else timestamp

def calcPoint (pkt : Pandar40PPacket Stamp) (blockid : Fin BLOCKS_PER_PACKET)
    (state : Sweep Coord Time) (i : Fin LASER_COUNT) : Sweep Coord Time :=
  if ((pkt.blocks blockid).units i).accepted then
    let point := lidar.point pkt blockid i
    { state with
      timestamp := smallest state.timestamp point.timestamp
      outMsg := state.outMsg ++ [point] }
  else state

def calcPointXYZIT (pkt : Pandar40PPacket Stamp) (blockid : Fin BLOCKS_PER_PACKET)
    (state : Sweep Coord Time) : Sweep Coord Time :=
  (List.finRange LASER_COUNT).foldl (calcPoint lidar pkt blockid) state

omit [LinearOrder Time] [Zero Time] in
def Closes (state : Sweep Coord Time) (azimuth : BitVec 16) : Prop :=
  ((PACKETS_PER_ROUND * 5 / 6 < state.packetIndex.toInt ∧
      gap azimuth lidar.startAngle.val ≤ RATE_PER_PACKET * 100 / 2) ∨
    PACKETS_PER_ROUND + 1 < state.packetIndex.toInt) ∧
  lidar.callback = true ∧ 0 < state.outMsg.length

instance (state : Sweep Coord Time) (azimuth : BitVec 16) :
    Decidable (Closes lidar state azimuth) := inferInstanceAs (Decidable ((_ ∨ _) ∧ _))

def Sweep.close (state : Sweep Coord Time) (azimuth : BitVec 16) : Sweep Coord Time :=
  { state with
    packetIndex := 0
    timestamp := 0
    outMsg := []
    delivered := state.delivered ++ [⟨state.outMsg, state.timestamp, state.received, azimuth⟩] }

def processBlock (pkt : Pandar40PPacket Stamp) (state : Sweep Coord Time)
    (i : Fin BLOCKS_PER_PACKET) : Sweep Coord Time :=
  let currentAzimuth := (pkt.blocks i).azimuth
  calcPointXYZIT lidar pkt i
    (if Closes lidar state currentAzimuth then state.close currentAzimuth else state)

omit [LinearOrder Time] [Zero Time] in
def Sweep.count (state : Sweep Coord Time) : Sweep Coord Time :=
  { state with packetIndex := state.packetIndex + 1, received := state.received + 1 }

def processLiarPacket (state : Sweep Coord Time) (pkt : Pandar40PPacket Stamp) :
    Sweep Coord Time :=
  (List.finRange BLOCKS_PER_PACKET).foldl (processBlock lidar pkt) state.count

def Sweep.init : Sweep Coord Time := ⟨0, 0, [], 0, []⟩

end Process

end ApolloContrib.Pandora
