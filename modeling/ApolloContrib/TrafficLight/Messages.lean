import Mathlib.Data.Int.Notation

namespace ApolloContrib.TrafficLight

/-! The messages of `v2x_trafficlight_policy.proto`, and what is written of the lights
that are sent, over the type `K` of coordinates. A field is an `Option` where its
presence is looked at; another one that is absent reads as the default of its type. -/

variable {K : Type*}

structure Position2D (K : Type*) where
  x : K
  y : K
deriving DecidableEq, Repr

inductive Connection.Behavior where
  | STRAIGHT
  | LEFT
  | RIGHT
  | U_TURN
deriving DecidableEq, Repr

structure Connection where
  allowDrivingBehavior : Connection.Behavior
  phaseId : Option Int
deriving DecidableEq, Repr

/-- `phase_id()` of an absent field is 0. -/
def Connection.phase (connection : Connection) : Int := connection.phaseId.getD 0

structure Lane (K : Type*) where
  laneId : Int
  positionOffset : List (Position2D K)
  connections : List Connection
deriving DecidableEq, Repr

structure Road (K : Type*) where
  upstreamNodeId : Int
  lanes : List (Lane K)
deriving DecidableEq, Repr

structure Intersection (K : Type*) where
  id : Int
  position : Position2D K
  roads : List (Road K)
deriving DecidableEq, Repr

structure Map (K : Type*) where
  msgCnt : Int
  intersections : List (Intersection K)
deriving DecidableEq, Repr

inductive Phase.Color where
  | UNKNOWN
  | RED
  | YELLOW
  | GREEN
  | BLACK
  | FLASH_GREEN
deriving DecidableEq, Repr

structure Phase where
  id : Int
  color : Phase.Color
  colorRemainingTimeS : Int
deriving DecidableEq, Repr

structure IntersectionState where
  intersectionId : Int
  phases : List Phase
  moy : Option Int
  timeStampDsecond : Option Int
deriving DecidableEq, Repr

structure Spat where
  msgCnt : Int
  intersections : List IntersectionState
deriving DecidableEq, Repr

structure PolicyData (K : Type*) where
  map : Map K
  spat : Spat
deriving DecidableEq, Repr

structure CarStatus (K : Type*) where
  position : Position2D K
  linearVelocity : Position2D K
deriving DecidableEq, Repr

inductive SingleTrafficLight.Color where
  | UNKNOWN
  | RED
  | YELLOW
  | GREEN
  | BLACK
  | FLASH_GREEN
deriving DecidableEq, Repr

structure SingleTrafficLight where
  color : SingleTrafficLight.Color
deriving DecidableEq, Repr

structure LaneTrafficLight (K : Type*) where
  gpsXM : K
  gpsYM : K
  singleTrafficLight : List SingleTrafficLight
deriving DecidableEq, Repr

structure RoadTrafficLight (K : Type*) where
  laneTrafficLight : List (LaneTrafficLight K)
deriving DecidableEq, Repr

structure Header (K : Type*) where
  timestampSec : K
  sequenceNum : Int
  moduleName : String
deriving DecidableEq, Repr

structure ObuTrafficLight (K : Type*) where
  header : Option (Header K)
  roadTrafficLight : List (RoadTrafficLight K)
deriving DecidableEq, Repr

end ApolloContrib.TrafficLight
