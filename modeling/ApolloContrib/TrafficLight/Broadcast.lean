import Mathlib.Data.List.ReduceOption
import Mathlib.Data.Prod.Lex
import ApolloContrib.Library.Fallible
import ApolloContrib.TrafficLight.Policy
import ApolloContrib.TrafficLight.Read

namespace ApolloContrib.TrafficLight

open ApolloContrib.Library

/-! What a decoded MAP and a decoded SPAT say, and what `ReadMap` and `ReadSpat` make of
it. -/

variable {K : Type} [Field K] (latLonToUTMXY : K → K → Position2D K)

namespace Asn

def MapData.nodeAt (map : MapData) (i : Nat) : Option Node := map.nodes[i]?.join

def Node.laneAt (node : Node) (index : Nat ×ₗ Nat) : Option Lane := do
  let inLinks ← node.inLinks
  let inLink ← inLinks[(ofLex index).1]?.join
  inLink.lanes[(ofLex index).2]?.join

def Lane.connections (lane : Lane) : List Connection := (lane.connectsTo.getD []).reduceOption

def Lane.stopPosition (lane : Lane) : Option (Position2D K) :=
  (lane.points.getD []).getLast?.join.map fun roadPoint =>
    utm latLonToUTMXY roadPoint.posOffset.lat roadPoint.posOffset.lon

def SPAT.entry (spat : SPAT) (id : Int) : Option IntersectionState :=
  spat.intersections.reduceOption.find? (·.intersectionId = id)

def PhaseState.Started (phaseState : PhaseState) : Prop :=
  ∃ timing ∈ phaseState.timing, timing.startTime = 0

instance (phaseState : PhaseState) : Decidable phaseState.Started :=
  inferInstanceAs (Decidable (∃ timing ∈ phaseState.timing, timing.startTime = 0))

/-- The light of the last phase state with `startTime` 0. -/
def Phase.color (phase : Phase) : TrafficLight.Phase.Color :=
  ((phase.phaseStates.reduceOption.filter (·.Started)).getLast?.map fun phaseState =>
    (lightColor phaseState.light).getD .UNKNOWN).getD .UNKNOWN

/-- One light for each phase and each connection of the lane that carries its id. -/
def lights (lane : Lane) (entry : IntersectionState) : List (LaneTrafficLight K) :=
  entry.phases.reduceOption.flatMap fun phase =>
    lane.connections.filterMap fun connection =>
      if connection.phaseId = some phase.id then
        (lane.stopPosition latLonToUTMXY).map fun stop =>
          ⟨stop.x, stop.y, [⟨phase.color.sent⟩]⟩
      else none

def PhaseState.Complete (phaseState : Option PhaseState) : Prop :=
  ∃ s ∈ phaseState, ∃ timing ∈ s.timing, timing.startTime = 0 → (lightColor s.light).isSome

def Phase.Complete (phase : Option Phase) : Prop :=
  ∃ p ∈ phase, ∀ phaseState ∈ p.phaseStates, PhaseState.Complete phaseState

def IntersectionState.Complete (state : Option IntersectionState) : Prop :=
  ∃ s ∈ state, ∀ phase ∈ s.phases, Phase.Complete phase

def SPAT.Complete (spat : SPAT) : Prop :=
  ∀ state ∈ spat.intersections, IntersectionState.Complete state

instance : DecidablePred PhaseState.Complete := fun phaseState =>
  inferInstanceAs (Decidable (∃ s ∈ phaseState, ∃ timing ∈ s.timing, _))

instance : DecidablePred Phase.Complete := fun phase =>
  inferInstanceAs (Decidable (∃ p ∈ phase, ∀ phaseState ∈ p.phaseStates, _))

instance : DecidablePred IntersectionState.Complete := fun state =>
  inferInstanceAs (Decidable (∃ s ∈ state, ∀ phase ∈ s.phases, _))

instance : DecidablePred SPAT.Complete := fun spat =>
  inferInstanceAs (Decidable (∀ state ∈ spat.intersections, _))

def PhaseState.Untimed (phaseState : Option PhaseState) : Prop :=
  ∃ s ∈ phaseState, s.timing = none

def Phase.Untimed (phase : Option Phase) : Prop :=
  ∃ p ∈ phase, FirstWrong PhaseState.Complete PhaseState.Untimed p.phaseStates

def IntersectionState.Untimed (state : Option IntersectionState) : Prop :=
  ∃ s ∈ state, FirstWrong Phase.Complete Phase.Untimed s.phases

def SPAT.Untimed (spat : SPAT) : Prop :=
  FirstWrong IntersectionState.Complete IntersectionState.Untimed spat.intersections

instance : DecidablePred PhaseState.Untimed := fun phaseState =>
  inferInstanceAs (Decidable (∃ s ∈ phaseState, _))

instance : DecidablePred Phase.Untimed := fun phase =>
  inferInstanceAs (Decidable (∃ p ∈ phase, FirstWrong _ _ _))

instance : DecidablePred IntersectionState.Untimed := fun state =>
  inferInstanceAs (Decidable (∃ s ∈ state, FirstWrong _ _ _))

instance : DecidablePred SPAT.Untimed := fun _ => inferInstanceAs (Decidable (FirstWrong _ _ _))

end Asn

theorem reduceOption_map_some {α β : Type} (l : List α) (f : α → β) :
    (l.map fun x => some (f x)).reduceOption = l.map f := by
  rw [List.reduceOption, List.filterMap_map]
  exact congrFun List.filterMap_eq_map l

section Spat

theorem readPhaseState_complete {phaseState : Option Asn.PhaseState}
    (hcomplete : Asn.PhaseState.Complete phaseState) (phase : Phase) :
    ∃ s next, phaseState = some s ∧ readPhaseState phase phaseState = .ok next ∧
      next.id = phase.id ∧
      next.color = if s.Started then (lightColor s.light).getD .UNKNOWN else phase.color := by
  obtain ⟨s, rfl, timing, htiming, hlight⟩ := hcomplete
  have hstarted : s.Started ↔ timing.startTime = 0 := by
    unfold Asn.PhaseState.Started
    rw [htiming]
    simp
  unfold readPhaseState
  dsimp only
  rw [htiming]
  dsimp only
  by_cases hstart : timing.startTime = 0
  · obtain ⟨color, hcolor⟩ := Option.isSome_iff_exists.mp (hlight hstart)
    rw [if_pos hstart, hcolor]
    exact ⟨s, _, rfl, rfl, rfl, (if_pos (hstarted.mpr hstart)).symm ▸ hcolor ▸ rfl⟩
  · rw [if_neg hstart]
    exact ⟨s, _, rfl, rfl, rfl, (if_neg (mt hstarted.mp hstart)).symm⟩

theorem readPhaseState_incomplete {phaseState : Option Asn.PhaseState}
    (hcomplete : ¬ Asn.PhaseState.Complete phaseState) (phase : Phase) :
    ∃ stop, readPhaseState phase phaseState = .error stop ∧
      (stop = .fault ↔ Asn.PhaseState.Untimed phaseState) := by
  cases phaseState with
  | none => exact ⟨.refused, rfl, iff_of_false nofun nofun⟩
  | some s =>
      unfold readPhaseState
      dsimp only
      cases htiming : s.timing with
      | none => exact ⟨.fault, rfl, iff_of_true rfl ⟨s, rfl, htiming⟩⟩
      | some timing =>
          have htimed : ¬ Asn.PhaseState.Untimed (some s) := by
            rintro ⟨_, heq, hnone⟩
            obtain rfl := Option.mem_some.mp heq
            exact nomatch htiming.symm.trans hnone
          have hlight : ¬ (timing.startTime = 0 → (lightColor s.light).isSome) :=
            fun hlight => hcomplete ⟨s, rfl, timing, htiming, hlight⟩
          obtain ⟨hstart, hlight⟩ := Classical.not_imp.mp hlight
          dsimp only
          rw [if_pos hstart, Option.not_isSome_iff_eq_none.mp hlight]
          exact ⟨.refused, rfl, iff_of_false nofun htimed⟩

theorem readPhaseStates_complete {phaseStates : List (Option Asn.PhaseState)}
    (hcomplete : ∀ phaseState ∈ phaseStates, Asn.PhaseState.Complete phaseState) (phase : Phase) :
    ∃ next, phaseStates.foldlM readPhaseState phase = .ok next ∧ next.id = phase.id ∧
      next.color = ((phaseStates.reduceOption.filter (·.Started)).getLast?.map fun s =>
        (lightColor s.light).getD .UNKNOWN).getD phase.color := by
  induction phaseStates using List.reverseRec with
  | nil => exact ⟨phase, rfl, rfl, rfl⟩
  | append_singleton phaseStates last ih =>
      obtain ⟨hearlier, hlast⟩ := List.forall_mem_append.mp hcomplete
      obtain ⟨middle, hmiddle, hid, hcolor⟩ := ih hearlier
      obtain ⟨s, next, rfl, hnext, hnextId, hnextColor⟩ :=
        readPhaseState_complete (hlast last List.mem_cons_self) middle
      refine ⟨next, ?_, hnextId.trans hid, ?_⟩
      · rw [List.foldlM_append, hmiddle]
        change (readPhaseState middle (some s) >>= pure) = _
        rw [hnext]
        rfl
      · rw [hnextColor, List.reduceOption_append, List.filter_append]
        by_cases hstarted : s.Started
        · rw [if_pos hstarted]
          simp [hstarted]
        · rw [if_neg hstarted, hcolor]
          simp [hstarted]

theorem readPhase_complete {phase : Option Asn.Phase} (hcomplete : Asn.Phase.Complete phase) :
    ∃ next, readPhase phase = .ok next ∧
      phase.map (fun p => (p.id, p.color)) = some (next.id, next.color) := by
  obtain ⟨p, rfl, hstates⟩ := hcomplete
  obtain ⟨next, hnext, hid, hcolor⟩ := readPhaseStates_complete hstates ⟨p.id, .UNKNOWN, 0⟩
  exact ⟨next, hnext, congrArg some (Prod.ext hid.symm hcolor.symm)⟩

theorem readPhase_incomplete {phase : Option Asn.Phase} (hcomplete : ¬ Asn.Phase.Complete phase) :
    ∃ stop, readPhase phase = .error stop ∧ (stop = .fault ↔ Asn.Phase.Untimed phase) := by
  cases phase with
  | none => exact ⟨.refused, rfl, iff_of_false nofun nofun⟩
  | some p =>
      have huntimed : Asn.Phase.Untimed (some p) ↔
          FirstWrong Asn.PhaseState.Complete Asn.PhaseState.Untimed p.phaseStates := by
        simp [Asn.Phase.Untimed]
      rw [huntimed]
      refine foldlM_error (fun phase phaseState hstate => ?_)
        (fun phase phaseState hstate => readPhaseState_incomplete hstate phase)
        (fun hstates => hcomplete ⟨p, rfl, hstates⟩) _
      obtain ⟨_, next, -, hnext, -⟩ := readPhaseState_complete hstate phase
      exact ⟨next, hnext⟩

theorem readIntersectionState_complete {state : Option Asn.IntersectionState}
    (hcomplete : Asn.IntersectionState.Complete state) :
    ∃ next, readIntersectionState state = .ok next := by
  obtain ⟨s, rfl, hphases⟩ := hcomplete
  have hread : ∃ phases, s.phases.mapM readPhase = .ok phases :=
    mapM_total fun phase hphase =>
      (readPhase_complete (hphases phase hphase)).imp fun _ hnext => hnext.1
  obtain ⟨phases, hread⟩ := hread
  unfold readIntersectionState
  dsimp only
  rw [hread]
  exact ⟨_, rfl⟩

theorem readIntersectionState_incomplete {state : Option Asn.IntersectionState}
    (hcomplete : ¬ Asn.IntersectionState.Complete state) :
    ∃ stop, readIntersectionState state = .error stop ∧
      (stop = .fault ↔ Asn.IntersectionState.Untimed state) := by
  cases state with
  | none => exact ⟨.refused, rfl, iff_of_false nofun nofun⟩
  | some s =>
      have huntimed : Asn.IntersectionState.Untimed (some s) ↔
          FirstWrong Asn.Phase.Complete Asn.Phase.Untimed s.phases := by
        simp [Asn.IntersectionState.Untimed]
      have hread : ∃ stop, s.phases.mapM readPhase = .error stop ∧ (stop = .fault ↔ _) :=
        mapM_error (fun phase hphase => (readPhase_complete hphase).imp fun _ hnext => hnext.1)
          (fun phase hphase => readPhase_incomplete hphase)
          (fun hphases => hcomplete ⟨s, rfl, hphases⟩)
      obtain ⟨stop, hread, hstop⟩ := hread
      unfold readIntersectionState
      dsimp only
      rw [hread]
      exact ⟨stop, rfl, hstop.trans huntimed.symm⟩

theorem readSpat_complete {spat : Asn.SPAT} (hcomplete : spat.Complete) :
    ∃ spatPb, readSpat (some spat) = .ok spatPb := by
  have hread : ∃ intersections, spat.intersections.mapM readIntersectionState = .ok intersections :=
    mapM_total fun state hstate => readIntersectionState_complete (hcomplete state hstate)
  obtain ⟨intersections, hread⟩ := hread
  unfold readSpat
  dsimp only
  rw [hread]
  exact ⟨_, rfl⟩

theorem readSpat_incomplete {spat : Asn.SPAT} (hcomplete : ¬ spat.Complete) :
    ∃ stop, readSpat (some spat) = .error stop ∧ (stop = .fault ↔ spat.Untimed) := by
  have hread : ∃ stop, spat.intersections.mapM readIntersectionState = .error stop ∧
      (stop = .fault ↔ _) :=
    mapM_error (fun state hstate => readIntersectionState_complete hstate)
      (fun state hstate => readIntersectionState_incomplete hstate) hcomplete
  obtain ⟨stop, hread, hstop⟩ := hread
  unfold readSpat
  dsimp only
  rw [hread]
  exact ⟨stop, rfl, hstop⟩

theorem readPhase_kept {phase : Option Asn.Phase} {next : Phase}
    (hnext : readPhase phase = .ok next) :
    phase.map (fun p => (p.id, p.color)) = some (next.id, next.color) := by
  rcases Classical.em (Asn.Phase.Complete phase) with hcomplete | hcomplete
  · obtain ⟨other, hother, hkept⟩ := readPhase_complete hcomplete
    obtain rfl := Except.ok.inj (hother.symm.trans hnext)
    exact hkept
  · obtain ⟨stop, hstop, -⟩ := readPhase_incomplete hcomplete
    exact nomatch hstop.symm.trans hnext

theorem readIntersectionState_kept {entry : Asn.IntersectionState} {state : IntersectionState}
    (hstate : readIntersectionState (some entry) = .ok state) :
    entry.phases.reduceOption.map (fun p => (p.id, p.color)) =
        state.phases.map (fun p => (p.id, p.color)) ∧
      ∀ moy dsecond, state.time = some (moy, dsecond) ↔
        entry.moy = some moy ∧ entry.timeStamp = some dsecond := by
  obtain ⟨phases, hphases, hstate⟩ := bind_eq_ok.mp hstate
  obtain rfl := Except.ok.inj hstate
  have hkept := mapM_map_eq hphases fun _ _ h => readPhase_kept h
  refine ⟨?_, fun moy dsecond => ?_⟩
  · rw [← List.reduceOption_map, hkept, reduceOption_map_some]
  · unfold IntersectionState.time
    cases entry.moy <;> cases entry.timeStamp <;> simp

theorem readSpat_entry {spat : Asn.SPAT} {spatPb : Spat} (hspat : readSpat (some spat) = .ok spatPb)
    (id : Int) :
    (spat.entry id = none ∧ spatPb.intersections.find? (·.intersectionId = id) = none) ∨
      ∃ entry state, spat.entry id = some entry ∧
        spatPb.intersections.find? (·.intersectionId = id) = some state ∧
        readIntersectionState (some entry) = .ok state := by
  obtain ⟨intersections, hintersections, hspat⟩ := bind_eq_ok.mp hspat
  obtain rfl := Except.ok.inj hspat
  have hid (entry : Option Asn.IntersectionState) (state : IntersectionState)
      (hstate : readIntersectionState entry = .ok state) :
      (entry.any fun entry => entry.intersectionId = id) = decide (state.intersectionId = id) := by
    cases entry with
    | none => exact nomatch hstate
    | some entry =>
        obtain ⟨phases, -, hstate⟩ := bind_eq_ok.mp hstate
        obtain rfl := Except.ok.inj hstate
        rfl
  unfold Asn.SPAT.entry
  rw [List.reduceOption, List.find?_filterMap]
  rcases mapM_find? hintersections hid with ⟨hnone, hnone'⟩ | ⟨entry, state, hentry, hfind, hread⟩
  · exact Or.inl ⟨congrArg Option.join hnone, hnone'⟩
  · cases entry with
    | none => exact nomatch hread
    | some entry =>
        exact Or.inr ⟨entry, state, congrArg Option.join hentry, hfind, hread⟩

end Spat

section Map

variable {latLonToUTMXY}

theorem readMapConnectsTo_kept {connectsTo : Option Asn.Connection} {connection : Connection}
    (hconnection : readMapConnectsTo connectsTo = .ok connection) :
    connectsTo.map (·.phaseId) = some connection.phaseId := by
  cases connectsTo with
  | none => exact nomatch hconnection
  | some connectsTo =>
      obtain ⟨_, -, hconnection⟩ := bind_eq_ok.mp hconnection
      obtain rfl := Except.ok.inj hconnection
      rfl

theorem readMapPosition_kept {roadPoint : Option Asn.RoadPoint} {position : Position2D K}
    (hposition : readMapPosition latLonToUTMXY roadPoint = .ok position) :
    (roadPoint.map fun roadPoint =>
      utm latLonToUTMXY roadPoint.posOffset.lat roadPoint.posOffset.lon) = some position := by
  cases roadPoint with
  | none => exact nomatch hposition
  | some roadPoint =>
      unfold readMapPosition at hposition
      dsimp only at hposition
      split_ifs at hposition
      exact congrArg some (Except.ok.inj hposition)

theorem readMapLane_kept {lane : Asn.Lane} {lanePb : Lane K}
    (hlane : readMapLane latLonToUTMXY (some lane) = .ok lanePb) :
    lane.connections.map (·.phaseId) = lanePb.connections.map (·.phaseId) ∧
      lane.stopPosition latLonToUTMXY = lanePb.stopPosition := by
  obtain ⟨_, -, hlane⟩ := bind_eq_ok.mp hlane
  obtain ⟨connections, hconnections, hlane⟩ := bind_eq_ok.mp hlane
  obtain ⟨positionOffset, hpositionOffset, hlane⟩ := bind_eq_ok.mp hlane
  obtain rfl := Except.ok.inj hlane
  constructor
  · have hkept := mapM_map_eq hconnections fun _ _ h => readMapConnectsTo_kept h
    unfold Asn.Lane.connections
    rw [← List.reduceOption_map, hkept, reduceOption_map_some]
  · have hkept := mapM_map_eq hpositionOffset fun _ _ h => readMapPosition_kept h
    have hlast := congrArg (fun points => points.getLast?.join) hkept
    rw [List.getLast?_map, List.getLast?_map, Option.join_map_eq_map_join] at hlast
    refine hlast.trans ?_
    unfold Lane.stopPosition
    cases positionOffset.getLast? <;> rfl

theorem readMapIntersection_id {node : Asn.Node} {intersection : Intersection K}
    (hnode : readMapIntersection latLonToUTMXY (some node) = .ok intersection) :
    intersection.id = node.id := by
  unfold readMapIntersection at hnode
  dsimp only at hnode
  split at hnode
  · exact nomatch hnode
  · obtain ⟨roads, -, hnode⟩ := bind_eq_ok.mp hnode
    obtain rfl := Except.ok.inj hnode
    rfl

theorem readMapIntersection_laneAt {node : Asn.Node} {intersection : Intersection K}
    (hnode : readMapIntersection latLonToUTMXY (some node) = .ok intersection)
    {index : Nat ×ₗ Nat} {lanePb : Lane K} (hlane : intersection.laneAt index = some lanePb) :
    ∃ lane, node.laneAt index = some lane ∧
      readMapLane latLonToUTMXY (some lane) = .ok lanePb := by
  unfold readMapIntersection at hnode
  dsimp only at hnode
  cases hinLinks : node.inLinks with
  | none =>
      rw [hinLinks] at hnode
      exact nomatch hnode
  | some inLinks =>
      rw [hinLinks] at hnode
      obtain ⟨roads, hroads, hnode⟩ := bind_eq_ok.mp hnode
      obtain rfl := Except.ok.inj hnode
      obtain ⟨road, hroad, hlane⟩ := Option.bind_eq_some_iff.mp hlane
      obtain ⟨inLink, hinLink, hread⟩ := mapM_getElem? hroads hroad
      cases inLink with
      | none => exact nomatch hread
      | some inLink =>
          obtain ⟨lanes, hlanes, hread⟩ := bind_eq_ok.mp hread
          obtain rfl := Except.ok.inj hread
          obtain ⟨lane, hat, hread⟩ := mapM_getElem? hlanes hlane
          cases lane with
          | none => exact nomatch hread
          | some lane =>
              refine ⟨lane, ?_, hread⟩
              unfold Asn.Node.laneAt
              rw [hinLinks]
              change (inLinks[(ofLex index).1]?.join.bind fun inLink =>
                inLink.lanes[(ofLex index).2]?.join) = some lane
              rw [hinLink]
              exact congrArg Option.join hat

theorem readMap_nodeAt {map : Asn.MapData} {mapPb : Map K}
    (hmap : readMap latLonToUTMXY (some map) = .ok mapPb) {i : Nat} {intersection : Intersection K}
    (hat : mapPb.intersections[i]? = some intersection) :
    ∃ node, map.nodeAt i = some node ∧
      readMapIntersection latLonToUTMXY (some node) = .ok intersection := by
  obtain ⟨intersections, hintersections, hmap⟩ := bind_eq_ok.mp hmap
  obtain rfl := Except.ok.inj hmap
  obtain ⟨node, hnode, hread⟩ := mapM_getElem? hintersections hat
  cases node with
  | none => exact nomatch hread
  | some node => exact ⟨node, congrArg Option.join hnode, hread⟩

end Map

end ApolloContrib.TrafficLight
