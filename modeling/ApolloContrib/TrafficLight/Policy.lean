import Mathlib.Algebra.Order.Field.Basic
import ApolloContrib.Library.Nearest
import ApolloContrib.TrafficLight.Messages

namespace ApolloContrib.TrafficLight

open ApolloContrib.Library

/-! `TrafficLightPolicy` of `v2x_traffic_light.cc`. Distances are compared by their
squares. -/

/-- Where the function stops short of `return true`: it returns false, or indexes an empty
repeated field. -/
inductive PolicyStop where
  | noPosition
  | noRoad
  | noLane
  | noOffset
  | messageDelay
  | noMatch
  | fault
deriving DecidableEq, Repr

def PolicyStop.log : PolicyStop → Option String
  | noPosition => some "ERROR: Failed to get carstatus position"
  | noRoad => some "ERROR: map info deficiency, no road info"
  | noLane => some "ERROR: map info deficiency, no lane info"
  | noOffset => some "ERROR: map info deficiency, no lane position_offset info"
  | messageDelay => some "Message delay, Timestamp smaller"
  | noMatch => none
  | fault => none

structure Trafficlight (K : Type*) where
  timestamp : K
  sequenceNum : Int
  previousMoy : Int
  previousDsecond : Int
  currentYearMoy : Int
deriving DecidableEq, Repr

variable {K : Type*} [Field K] [LinearOrder K]

def Trafficlight.init (currentYearMoy : Int) : Trafficlight K where
  timestamp := 0
  sequenceNum := 0
  previousMoy := 0
  previousDsecond := 0
  currentYearMoy := currentYearMoy

def kReferenceValue : K := 5000

section Orientation

variable (carStatus : CarStatus K)

def distanceSquared (position : Position2D K) : K :=
  (position.x - carStatus.position.x) ^ 2 + (position.y - carStatus.position.y) ^ 2

def steady (velocity : K) : K := if |velocity| < 1 / 100 then 0 else velocity

def Ahead (position : Position2D K) : Prop :=
  (position.x - carStatus.position.x) * steady carStatus.linearVelocity.x ≥ 0 ∧
    (position.y - carStatus.position.y) * steady carStatus.linearVelocity.y ≥ 0

instance (position : Position2D K) : Decidable (Ahead carStatus position) :=
  inferInstanceAs (Decidable (_ ∧ _))

def orientIntersection (best : K × Nat) (entry : Intersection K × Nat) : K × Nat :=
  if Ahead carStatus entry.1.position then
    closer best (distanceSquared carStatus entry.1.position, entry.2)
  else best

/-- `distance_among_two_min_` and `intersection_index`. -/
def orientIntersections (map : Map K) : K × Nat :=
  map.intersections.zipIdx.foldl (orientIntersection carStatus) (kReferenceValue ^ 2, 0)

def Lane.stopPosition (lane : Lane K) : Option (Position2D K) := lane.positionOffset.getLast?

def orientLane (j : Nat) (best : K × Nat ×ₗ Nat) (entry : Lane K × Nat) :
    Except PolicyStop (K × Nat ×ₗ Nat) :=
  match entry.1.stopPosition with
  | none => throw .noOffset
  | some stop => pure (closer best (distanceSquared carStatus stop, toLex (j, entry.2)))

def orientRoad (best : K × Nat ×ₗ Nat) (entry : Road K × Nat) :
    Except PolicyStop (K × Nat ×ₗ Nat) :=
  if entry.1.lanes = [] then throw .noLane
  else entry.1.lanes.zipIdx.foldlM (orientLane carStatus entry.2) best

/-- `distance_among_two_min_`, `road_index` and `lane_index`. -/
def orientRoads (intersection : Intersection K) : Except PolicyStop (K × Nat ×ₗ Nat) :=
  intersection.roads.zipIdx.foldlM (orientRoad carStatus) (kReferenceValue ^ 2, toLex (0, 0))

def Intersection.laneAt (intersection : Intersection K) (index : Nat ×ₗ Nat) : Option (Lane K) :=
  intersection.roads[(ofLex index).1]?.bind fun road => road.lanes[(ofLex index).2]?

/-- `intersection_current` and `lane_current`, with their indices. -/
structure Current (K : Type*) where
  intersectionIndex : Nat
  intersection : Intersection K
  laneIndex : Nat ×ₗ Nat
  lane : Lane K
deriving DecidableEq

def orient (map : Map K) : Except PolicyStop (Current K) :=
  if carStatus.position.x = 0 ∨ carStatus.position.y = 0 then throw .noPosition
  else
    let intersectionIndex := (orientIntersections carStatus map).2
    match map.intersections[intersectionIndex]? with
    | none => throw .fault
    | some intersection =>
        if intersection.roads = [] then throw .noRoad
        else do
          let (_, laneIndex) ← orientRoads carStatus intersection
          match intersection.laneAt laneIndex with
          | none => throw .fault
          | some lane => pure { intersectionIndex, intersection, laneIndex, lane }

end Orientation

def IntersectionState.time (state : IntersectionState) : Option (Int × Int) :=
  match state.moy, state.timeStampDsecond with
  | some moy, some dsecond => some (moy, dsecond)
  | _, _ => none

def Phase.Color.sent : Phase.Color → SingleTrafficLight.Color
  | UNKNOWN => .UNKNOWN
  | RED => .RED
  | YELLOW => .YELLOW
  | GREEN => .GREEN
  | BLACK => .BLACK
  | FLASH_GREEN => .FLASH_GREEN

def laneTrafficLight (stop : Position2D K) (phase : Phase) : LaneTrafficLight K where
  gpsXM := stop.x
  gpsYM := stop.y
  singleTrafficLight := [{ color := phase.color.sent }]

/-- A lane that `orient` ends at has a stop position. -/
def roadTrafficLight (lane : Lane K) (state : IntersectionState) : RoadTrafficLight K where
  laneTrafficLight :=
    state.phases.flatMap fun phase =>
      lane.connections.filterMap fun connection =>
        if phase.id = connection.phase then
          lane.stopPosition.map fun stop => laneTrafficLight stop phase
        else none

def sendLights (tl : Trafficlight K) (lane : Lane K) (state : IntersectionState)
    (out : ObuTrafficLight K) : Trafficlight K × Except PolicyStop (ObuTrafficLight K) :=
  ({ tl with sequenceNum := tl.sequenceNum + 1 },
    .ok
      { header := some ⟨tl.timestamp, tl.sequenceNum, "v2x"⟩
        roadTrafficLight := out.roadTrafficLight ++ [roadTrafficLight lane state] })

/-- `systemTime` is what `GetSystemTime` returns. -/
def trafficLightPolicy (systemTime : K) (tl : Trafficlight K) (policyData : PolicyData K)
    (carStatus : CarStatus K) (out : ObuTrafficLight K) :
    Trafficlight K × Except PolicyStop (ObuTrafficLight K) :=
  match orient carStatus policyData.map with
  | .error stop => (tl, .error stop)
  | .ok current =>
      match policyData.spat.intersections.find? (·.intersectionId = current.intersection.id) with
      | none => (tl, .error .noMatch)
      | some state =>
          match state.time with
          | none => sendLights { tl with timestamp := systemTime } current.lane state out
          | some (moy, dsecond) =>
              let tl :=
                { tl with timestamp := ((moy + tl.currentYearMoy) * 60 : Int) + dsecond / 1000 }
              if ¬ (moy ≥ tl.previousMoy ∧ dsecond ≥ tl.previousDsecond) then
                ({ tl with previousMoy := moy, previousDsecond := dsecond }, .error .messageDelay)
              else sendLights tl current.lane state out

section Calls

variable {systemTime : K} {tl : Trafficlight K} {policyData : PolicyData K}
  {carStatus : CarStatus K} {out : ObuTrafficLight K}

theorem policy_error {stop : PolicyStop} (horient : orient carStatus policyData.map = .error stop) :
    trafficLightPolicy systemTime tl policyData carStatus out = (tl, .error stop) := by
  unfold trafficLightPolicy
  rw [horient]

theorem policy_fresh {current : Current K} {state : IntersectionState}
    (horient : orient carStatus policyData.map = .ok current)
    (hfind : policyData.spat.intersections.find? (·.intersectionId = current.intersection.id) =
      some state)
    (htime : ∀ moy dsecond, state.time = some (moy, dsecond) →
      moy ≥ tl.previousMoy ∧ dsecond ≥ tl.previousDsecond) :
    ∃ timestamp, trafficLightPolicy systemTime tl policyData carStatus out =
      sendLights { tl with timestamp } current.lane state out := by
  unfold trafficLightPolicy
  rw [horient]
  dsimp only
  rw [hfind]
  dsimp only
  cases hstate : state.time with
  | none => exact ⟨_, rfl⟩
  | some time =>
      dsimp only
      rw [if_neg (not_not.mpr (htime time.1 time.2 hstate))]
      exact ⟨_, rfl⟩

end Calls

end ApolloContrib.TrafficLight
