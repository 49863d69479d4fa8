import Mathlib.Algebra.Field.Defs
import ApolloContrib.Security.Verify
import ApolloContrib.TrafficLight.Messages

namespace ApolloContrib.TrafficLight

open ApolloContrib.Security (OctetString)

/-! `ReadMap` and `ReadSpat` of `v2x_traffic_light.cc`. -/

/-! A decoded MAP and a decoded SPAT, with the fields that are read. Of the union of an
offset there is the member that its tag selects. The ranges of the numbers fit the fields
they are stored to. -/

namespace Asn

structure PositionOffsetLL where
  present : Int
  lat : Int
  lon : Int
deriving DecidableEq, Repr

structure RoadPoint where
  posOffset : PositionOffsetLL
deriving DecidableEq, Repr

structure ConnectingLane where
  maneuver : Option OctetString
deriving DecidableEq, Repr

structure Connection where
  connectingLane : Option ConnectingLane
  phaseId : Option Int
deriving DecidableEq, Repr

structure Lane where
  laneID : Int
  maneuvers : Option OctetString
  connectsTo : Option (List (Option Connection))
  points : Option (List (Option RoadPoint))
deriving DecidableEq, Repr

structure Link where
  upstreamNodeId : Int
  lanes : List (Option Lane)
deriving DecidableEq, Repr

structure Node where
  id : Int
  refLat : Int
  refLong : Int
  inLinks : Option (List (Option Link))
deriving DecidableEq, Repr

structure MapData where
  msgCnt : Int
  nodes : List (Option Node)
deriving DecidableEq, Repr

structure TimeCountingDown where
  startTime : Int
  likelyEndTime : Int
deriving DecidableEq, Repr

structure PhaseState where
  light : Int
  timing : Option TimeCountingDown
deriving DecidableEq, Repr

structure Phase where
  id : Int
  phaseStates : List (Option PhaseState)
deriving DecidableEq, Repr

structure IntersectionState where
  intersectionId : Int
  moy : Option Int
  timeStamp : Option Int
  phases : List (Option Phase)
deriving DecidableEq, Repr

structure SPAT where
  msgCnt : Int
  intersections : List (Option IntersectionState)
deriving DecidableEq, Repr

end Asn

/-- A function returns false, or follows a null pointer or writes past an `int`. -/
inductive ReadStop where
  | refused
  | fault
deriving DecidableEq, Repr

section Map

variable {K : Type} [Field K]

def kResolutionRatio : K := 10000000

variable (latLonToUTMXY : K → K → Position2D K)

def utm (lat lon : Int) : Position2D K :=
  latLonToUTMXY (lat / kResolutionRatio) (lon / kResolutionRatio)

def readMapPosition : Option Asn.RoadPoint → Except ReadStop (Position2D K)
  | none => throw .refused
  | some roadPoint =>
      let offsetLL := roadPoint.posOffset
      if 1 ≤ offsetLL.present ∧ offsetLL.present ≤ 7 then
        pure (utm latLonToUTMXY offsetLL.lat offsetLL.lon)
      else throw .refused

/-- The bits as `memcpy` leaves them in an `int`, swapped by `ntohs` when there is more
than one byte of them. -/
def maneuvers (bits : OctetString) : Except ReadStop Nat :=
  if bits.size > 4 then throw .fault
  else
    match bits.read with
    | none => throw .fault
    | some [] => pure 0
    | some [first] => pure first.toNat
    | some (first :: second :: _) => pure (first.toNat * 256 + second.toNat)

def behavior : Nat → Except ReadStop Connection.Behavior
  | 0 => pure .STRAIGHT
  | 1 => pure .LEFT
  | 2 => pure .RIGHT
  | 3 => pure .U_TURN
  | _ => throw .refused

def connectingBehavior : Option Asn.ConnectingLane → Except ReadStop Connection.Behavior
  | none => pure .STRAIGHT
  | some connectingLane =>
      match connectingLane.maneuver with
      | none => throw .fault
      | some maneuver => maneuvers maneuver >>= behavior

def readMapConnectsTo : Option Asn.Connection → Except ReadStop Connection
  | none => throw .refused
  | some connectsTo => do
      let allowDrivingBehavior ← connectingBehavior connectsTo.connectingLane
      pure { allowDrivingBehavior, phaseId := connectsTo.phaseId }

def readMapLane : Option Asn.Lane → Except ReadStop (Lane K)
  | none => throw .refused
  | some lane => do
      let _ ← lane.maneuvers.mapM maneuvers
      let connections ← (lane.connectsTo.getD []).mapM readMapConnectsTo
      let positionOffset ← (lane.points.getD []).mapM (readMapPosition latLonToUTMXY)
      pure { laneId := lane.laneID, positionOffset, connections }

def readMapRoad : Option Asn.Link → Except ReadStop (Road K)
  | none => throw .fault
  | some inLink => do
      let lanes ← inLink.lanes.mapM (readMapLane latLonToUTMXY)
      pure { upstreamNodeId := inLink.upstreamNodeId, lanes }

def readMapIntersection : Option Asn.Node → Except ReadStop (Intersection K)
  | none => throw .fault
  | some node =>
      match node.inLinks with
      | none => throw .fault
      | some inLinks => do
          let roads ← inLinks.mapM (readMapRoad latLonToUTMXY)
          pure { id := node.id, position := utm latLonToUTMXY node.refLat node.refLong, roads }

def readMap : Option Asn.MapData → Except ReadStop (Map K)
  | none => throw .refused
  | some rsuMap => do
      let intersections ← rsuMap.nodes.mapM (readMapIntersection latLonToUTMXY)
      pure { msgCnt := rsuMap.msgCnt, intersections }

end Map

def lightColor : Int → Option Phase.Color
  | 0 => some .UNKNOWN
  | 1 => some .BLACK
  | 3 => some .RED
  | 7 => some .YELLOW
  | 5 => some .GREEN
  | 6 => some .GREEN
  | 8 => some .FLASH_GREEN
  | _ => none

def readPhaseState (phase : Phase) : Option Asn.PhaseState → Except ReadStop Phase
  | none => throw .refused
  | some phaseState =>
      match phaseState.timing with
      | none => throw .fault
      | some timing =>
          if timing.startTime = 0 then
            match lightColor phaseState.light with
            | none => throw .refused
            | some color =>
                pure { phase with color, colorRemainingTimeS := timing.likelyEndTime.tdiv 10 }
          else pure phase

def readPhase : Option Asn.Phase → Except ReadStop Phase
  | none => throw .refused
  | some phase =>
      phase.phaseStates.foldlM readPhaseState
        { id := phase.id, color := .UNKNOWN, colorRemainingTimeS := 0 }

/-- `moy` and `time_stamp_dsecond` are set when both are there. -/
def readIntersectionState : Option Asn.IntersectionState → Except ReadStop IntersectionState
  | none => throw .refused
  | some state => do
      let phases ← state.phases.mapM readPhase
      pure
        { intersectionId := state.intersectionId
          phases
          moy := state.timeStamp.bind fun _ => state.moy
          timeStampDsecond := state.moy.bind fun _ => state.timeStamp }

def readSpat : Option Asn.SPAT → Except ReadStop Spat
  | none => throw .refused
  | some rsuSpat => do
      let intersections ← rsuSpat.intersections.mapM readIntersectionState
      pure { msgCnt := rsuSpat.msgCnt, intersections }

end ApolloContrib.TrafficLight
