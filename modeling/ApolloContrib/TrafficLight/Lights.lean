import Mathlib.Algebra.Order.BigOperators.Group.List
import ApolloContrib.TrafficLight.Broadcast
import ApolloContrib.TrafficLight.LaneChoice

namespace ApolloContrib.TrafficLight

open ApolloContrib.Library

/-! `TrafficLightApp` of `v2x_traffic_light.cc`, and the lights it sends. -/

inductive ErrorInfo where
  | Successful
  | ReadMapFailed
  | ReadSpatFailed
  | PolicyFailed
deriving DecidableEq, Repr

variable {K : Type} [Field K] [LinearOrder K] (latLonToUTMXY : K → K → Position2D K)

/-- There is no result when a null pointer is followed, an `int` is written past or an
empty field is indexed. -/
def trafficLightApp (systemTime : K) (tl : Trafficlight K) (map : Option Asn.MapData)
    (spat : Option Asn.SPAT) (carStatus : CarStatus K) (out : ObuTrafficLight K) :
    Option (ErrorInfo × Trafficlight K × ObuTrafficLight K) :=
  match readMap latLonToUTMXY map with
  | .error .fault => none
  | .error .refused => some (.ReadMapFailed, tl, out)
  | .ok mapPb =>
      match readSpat spat with
      | .error .fault => none
      | .error .refused => some (.ReadSpatFailed, tl, out)
      | .ok spatPb =>
          match trafficLightPolicy systemTime tl ⟨mapPb, spatPb⟩ carStatus out with
          | (_, .error .fault) => none
          | (tl, .error _) => some (.PolicyFailed, tl, out)
          | (tl, .ok sent) => some (.Successful, tl, sent)

section Join

/-- For each phase, one light for each connection whose phase id matches. -/
def joined (matched : Int → Option Int → Bool) (stop : Position2D K)
    (phases : List (Int × Phase.Color)) (phaseIds : List (Option Int)) :
    List (LaneTrafficLight K) :=
  phases.flatMap fun phase =>
    phaseIds.filterMap fun phaseId =>
      if matched phase.1 phaseId then some ⟨stop.x, stop.y, [⟨phase.2.sent⟩]⟩ else none

/-- As `phase_id()` reads. -/
def byDefault (id : Int) (phaseId : Option Int) : Bool := id = phaseId.getD 0

def carried (id : Int) (phaseId : Option Int) : Bool := phaseId = some id

variable {stop : Position2D K} {phases : List (Int × Phase.Color)} {phaseIds : List (Option Int)}

theorem byDefault_eq_carried {id : Int} {phaseId : Option Int} (h : phaseId = none → id ≠ 0) :
    byDefault id phaseId = carried id phaseId := by
  unfold byDefault carried
  cases phaseId with
  | none => simpa using h rfl
  | some other => simp [eq_comm]

theorem countP_carried_le (id : Int) (phaseIds : List (Option Int)) :
    phaseIds.countP (carried id) ≤ phaseIds.countP (byDefault id) := by
  refine List.countP_mono_left fun phaseId _ hcarried => ?_
  rw [byDefault_eq_carried]
  · exact hcarried
  · rintro rfl
    exact nomatch of_decide_eq_true hcarried

theorem countP_carried_lt (hnone : none ∈ phaseIds) :
    phaseIds.countP (carried 0) < phaseIds.countP (byDefault 0) := by
  obtain ⟨before, after, rfl⟩ := List.append_of_mem hnone
  have hbefore := countP_carried_le 0 before
  have hafter := countP_carried_le 0 after
  rw [List.countP_append, List.countP_append, List.countP_cons, List.countP_cons]
  have hleft : carried 0 none = false := rfl
  have hright : byDefault 0 none = true := rfl
  rw [hleft, hright, if_neg Bool.false_ne_true, if_pos rfl]
  omega

omit [Field K] [LinearOrder K] in
theorem length_joined (matched : Int → Option Int → Bool) (stop : Position2D K)
    (phases : List (Int × Phase.Color)) (phaseIds : List (Option Int)) :
    (joined matched stop phases phaseIds).length =
      (phases.map fun phase => phaseIds.countP (matched phase.1)).sum := by
  unfold joined
  rw [List.length_flatMap]
  refine congrArg List.sum (List.map_congr_left fun phase _ => ?_)
  rw [List.length_filterMap_eq_countP]
  exact List.countP_congr fun phaseId _ => by cases matched phase.1 phaseId <;> rfl

omit [Field K] [LinearOrder K] in
theorem joined_eq_iff :
    joined byDefault stop phases phaseIds = joined carried stop phases phaseIds ↔
      none ∉ phaseIds ∨ ∀ phase ∈ phases, phase.1 ≠ 0 := by
  constructor
  · intro heq
    refine or_iff_not_imp_left.mpr fun hnone phase hphase hzero => ?_
    have hless : (phases.map fun phase => phaseIds.countP (carried phase.1)).sum <
        (phases.map fun phase => phaseIds.countP (byDefault phase.1)).sum := by
      refine List.sum_lt_sum _ _ (fun phase _ => countP_carried_le phase.1 phaseIds)
        ⟨phase, hphase, ?_⟩
      rw [hzero]
      exact countP_carried_lt (not_not.mp hnone)
    rw [← length_joined _ stop, ← length_joined _ stop, heq] at hless
    exact lt_irrefl _ hless
  · intro hnever
    unfold joined
    refine List.flatMap_congr fun phase hphase => List.filterMap_congr fun phaseId hphaseId => ?_
    rw [byDefault_eq_carried]
    rintro rfl
    exact hnever.resolve_left (not_not.mpr hphaseId) phase hphase

end Join

section Calls

variable (systemTime : K) (tl : Trafficlight K) (map : Asn.MapData) (spat : Asn.SPAT)
  (carStatus : CarStatus K) (out : ObuTrafficLight K)

/-- The lane is the one chosen, and the entry the first of its intersection. -/
def Chosen (lane : Asn.Lane) (entry : Asn.IntersectionState) : Prop :=
  ∃ mapPb current node, readMap latLonToUTMXY (some map) = .ok mapPb ∧
    orient carStatus mapPb = .ok current ∧ map.nodeAt current.intersectionIndex = some node ∧
    node.laneAt current.laneIndex = some lane ∧ spat.entry node.id = some entry

structure Broadcasts : Prop where
  lights : ∀ tl' sent,
    trafficLightApp latLonToUTMXY systemTime tl (some map) (some spat) carStatus out =
        some (.Successful, tl', sent) →
      ∃ lane entry, Chosen latLonToUTMXY map spat carStatus lane entry ∧
        sent.roadTrafficLight = out.roadTrafficLight ++ [⟨Asn.lights latLonToUTMXY lane entry⟩]
  refuses : ∀ mapPb, readMap latLonToUTMXY (some map) = .ok mapPb → ¬ spat.Complete →
    ∃ info tl' sent, info ≠ .Successful ∧
      trafficLightApp latLonToUTMXY systemTime tl (some map) (some spat) carStatus out =
        some (info, tl', sent)

def Asn.IntersectionState.Fresh (entry : Asn.IntersectionState) : Prop :=
  ∀ moy timeStamp, entry.moy = some moy → entry.timeStamp = some timeStamp →
    moy ≥ tl.previousMoy ∧ timeStamp ≥ tl.previousDsecond

/-- A missing timing is not the first thing wrong with the SPAT, and where nothing is, no
connection without a phase id meets the phase 0. -/
structure Distinguishes : Prop where
  timed : ∀ mapPb, readMap latLonToUTMXY (some map) = .ok mapPb → ¬ spat.Untimed
  carried : spat.Complete → ∀ lane entry, Chosen latLonToUTMXY map spat carStatus lane entry →
    entry.Fresh tl → (∀ connection ∈ lane.connections, connection.phaseId ≠ none) ∨
      ∀ phase ∈ entry.phases.reduceOption, phase.id ≠ 0

variable {latLonToUTMXY systemTime tl map spat carStatus out}

omit [LinearOrder K] in
theorem lights_eq_joined {lane : Asn.Lane} {stop : Position2D K}
    (hstop : lane.stopPosition latLonToUTMXY = some stop) (entry : Asn.IntersectionState) :
    Asn.lights latLonToUTMXY lane entry =
      joined carried stop (entry.phases.reduceOption.map fun p => (p.id, p.color))
        (lane.connections.map (·.phaseId)) := by
  unfold Asn.lights joined
  rw [List.flatMap_map]
  refine List.flatMap_congr fun phase _ => ?_
  rw [List.filterMap_map, hstop]
  exact List.filterMap_congr fun connection _ => by simp [carried]

omit [Field K] [LinearOrder K] in
theorem roadTrafficLight_eq_joined {lane : Lane K} {stop : Position2D K}
    (hstop : lane.stopPosition = some stop) (state : IntersectionState) :
    roadTrafficLight lane state =
      ⟨joined byDefault stop (state.phases.map fun p => (p.id, p.color))
        (lane.connections.map (·.phaseId))⟩ := by
  unfold roadTrafficLight joined
  rw [List.flatMap_map]
  refine congrArg RoadTrafficLight.mk (List.flatMap_congr fun phase _ => ?_)
  rw [List.filterMap_map, hstop]
  exact List.filterMap_congr fun connection _ => if_congr decide_eq_true_iff.symm rfl rfl

variable (latLonToUTMXY) in
structure ReadTo (lane : Asn.Lane) (entry : Asn.IntersectionState) (lanePb : Lane K)
    (state : IntersectionState) : Prop where
  lane_eq : readMapLane latLonToUTMXY (some lane) = .ok lanePb
  entry_eq : readIntersectionState (some entry) = .ok state

omit [LinearOrder K] in
theorem ReadTo.lights_iff {lane : Asn.Lane} {entry : Asn.IntersectionState} {lanePb : Lane K}
    {state : IntersectionState} (hread : ReadTo latLonToUTMXY lane entry lanePb state)
    {stop : Position2D K} (hstop : lanePb.stopPosition = some stop) :
    roadTrafficLight lanePb state = ⟨Asn.lights latLonToUTMXY lane entry⟩ ↔
      (∀ connection ∈ lane.connections, connection.phaseId ≠ none) ∨
        ∀ phase ∈ entry.phases.reduceOption, phase.id ≠ 0 := by
  obtain ⟨hconnections, hposition⟩ := readMapLane_kept hread.lane_eq
  obtain ⟨hphases, -⟩ := readIntersectionState_kept hread.entry_eq
  rw [roadTrafficLight_eq_joined hstop, lights_eq_joined (hposition.trans hstop), ← hconnections,
    ← hphases, RoadTrafficLight.mk.injEq, joined_eq_iff]
  simp [List.mem_map]

omit [LinearOrder K] in
theorem ReadTo.fresh_iff {lane : Asn.Lane} {entry : Asn.IntersectionState} {lanePb : Lane K}
    {state : IntersectionState} (hread : ReadTo latLonToUTMXY lane entry lanePb state) :
    entry.Fresh tl ↔ ∀ moy dsecond, state.time = some (moy, dsecond) →
      moy ≥ tl.previousMoy ∧ dsecond ≥ tl.previousDsecond := by
  obtain ⟨-, htime⟩ := readIntersectionState_kept hread.entry_eq
  refine forall₂_congr fun moy dsecond => ?_
  rw [htime, and_imp]

theorem chosen_of_orient {mapPb : Map K} {spatPb : Spat} {current : Current K}
    {state : IntersectionState} (hmap : readMap latLonToUTMXY (some map) = .ok mapPb)
    (hspat : readSpat (some spat) = .ok spatPb) (horient : orient carStatus mapPb = .ok current)
    (hfind : spatPb.intersections.find? (·.intersectionId = current.intersection.id) =
      some state) :
    ∃ lane entry, Chosen latLonToUTMXY map spat carStatus lane entry ∧
      ReadTo latLonToUTMXY lane entry current.lane state := by
  obtain ⟨hat, hlaneAt, -⟩ := orient_ok horient
  obtain ⟨node, hnode, hintersection⟩ := readMap_nodeAt hmap hat
  obtain ⟨lane, hlane, hreadLane⟩ := readMapIntersection_laneAt hintersection hlaneAt
  have hid : current.intersection.id = node.id := readMapIntersection_id hintersection
  rcases readSpat_entry hspat current.intersection.id with ⟨-, hnone⟩ | hfound
  · exact nomatch hnone.symm.trans hfind
  · obtain ⟨entry, other, hentry, hother, hreadEntry⟩ := hfound
    obtain rfl := Option.some.inj (hother.symm.trans hfind)
    exact ⟨lane, entry, ⟨mapPb, current, node, hmap, horient, hnode, hlane, hid ▸ hentry⟩,
      hreadLane, hreadEntry⟩

theorem Chosen.unique {lane lane' : Asn.Lane} {entry entry' : Asn.IntersectionState}
    (hchosen : Chosen latLonToUTMXY map spat carStatus lane entry)
    (hother : Chosen latLonToUTMXY map spat carStatus lane' entry') :
    lane = lane' ∧ entry = entry' := by
  obtain ⟨mapPb, current, node, hmap, horient, hnode, hlane, hentry⟩ := hchosen
  obtain ⟨mapPb', current', node', hmap', horient', hnode', hlane', hentry'⟩ := hother
  obtain rfl := Except.ok.inj (hmap.symm.trans hmap')
  obtain rfl := Except.ok.inj (horient.symm.trans horient')
  obtain rfl := Option.some.inj (hnode.symm.trans hnode')
  exact ⟨Option.some.inj (hlane.symm.trans hlane'), Option.some.inj (hentry.symm.trans hentry')⟩

theorem Chosen.read {lane : Asn.Lane} {entry : Asn.IntersectionState} {spatPb : Spat}
    (hchosen : Chosen latLonToUTMXY map spat carStatus lane entry)
    (hspat : readSpat (some spat) = .ok spatPb) :
    ∃ mapPb current state, readMap latLonToUTMXY (some map) = .ok mapPb ∧
      orient carStatus mapPb = .ok current ∧
      spatPb.intersections.find? (·.intersectionId = current.intersection.id) = some state ∧
      ReadTo latLonToUTMXY lane entry current.lane state := by
  obtain ⟨mapPb, current, node, hmap, horient, hnode, hlane, hentry⟩ := hchosen
  obtain ⟨hat, hlaneAt, -⟩ := orient_ok horient
  obtain ⟨other, hother, hintersection⟩ := readMap_nodeAt hmap hat
  obtain rfl := Option.some.inj (hother.symm.trans hnode)
  obtain ⟨otherLane, hotherLane, hreadLane⟩ := readMapIntersection_laneAt hintersection hlaneAt
  obtain rfl := Option.some.inj (hotherLane.symm.trans hlane)
  have hid : current.intersection.id = other.id := readMapIntersection_id hintersection
  rcases readSpat_entry hspat other.id with ⟨hnone, -⟩ | hfound
  · exact nomatch hnone.symm.trans hentry
  · obtain ⟨otherEntry, state, hotherEntry, hfind, hreadEntry⟩ := hfound
    obtain rfl := Option.some.inj (hotherEntry.symm.trans hentry)
    exact ⟨mapPb, current, state, hmap, horient, hid ▸ hfind, hreadLane, hreadEntry⟩

theorem app_successful_iff {tl' : Trafficlight K} {sent : ObuTrafficLight K} :
    trafficLightApp latLonToUTMXY systemTime tl (some map) (some spat) carStatus out =
        some (.Successful, tl', sent) ↔
      ∃ mapPb spatPb, readMap latLonToUTMXY (some map) = .ok mapPb ∧
        readSpat (some spat) = .ok spatPb ∧
        trafficLightPolicy systemTime tl ⟨mapPb, spatPb⟩ carStatus out = (tl', .ok sent) := by
  constructor
  · intro happ
    unfold trafficLightApp at happ
    split at happ
    · exact nomatch happ
    · exact nomatch happ
    next mapPb hmap =>
      split at happ
      · exact nomatch happ
      · exact nomatch happ
      next spatPb hspat =>
        split at happ
        · exact nomatch happ
        · exact nomatch happ
        next hpolicy =>
          cases happ
          exact ⟨mapPb, spatPb, hmap, hspat, hpolicy⟩
  · rintro ⟨mapPb, spatPb, hmap, hspat, hpolicy⟩
    unfold trafficLightApp
    rw [hmap, hspat]
    dsimp only
    rw [hpolicy]

theorem app_of_incomplete {mapPb : Map K}
    (hmap : readMap latLonToUTMXY (some map) = .ok mapPb) (hcomplete : ¬ spat.Complete) :
    (∃ info tl' sent, info ≠ .Successful ∧
      trafficLightApp latLonToUTMXY systemTime tl (some map) (some spat) carStatus out =
        some (info, tl', sent)) ↔ ¬ spat.Untimed := by
  obtain ⟨stop, hspat, hstop⟩ := readSpat_incomplete hcomplete
  rw [← hstop]
  unfold trafficLightApp
  rw [hmap, hspat]
  cases stop with
  | refused => exact iff_of_true ⟨.ReadSpatFailed, tl, out, nofun, rfl⟩ nofun
  | fault =>
      refine iff_of_false ?_ (not_not.mpr rfl)
      rintro ⟨_, _, _, _, h⟩
      exact nomatch h

theorem app_lights {tl' : Trafficlight K} {sent : ObuTrafficLight K}
    (happ : trafficLightApp latLonToUTMXY systemTime tl (some map) (some spat) carStatus out =
      some (.Successful, tl', sent)) :
    ∃ lane entry, Chosen latLonToUTMXY map spat carStatus lane entry ∧ spat.Complete ∧
      entry.Fresh tl ∧
        (sent.roadTrafficLight =
            out.roadTrafficLight ++ [⟨Asn.lights latLonToUTMXY lane entry⟩] ↔
          (∀ connection ∈ lane.connections, connection.phaseId ≠ none) ∨
            ∀ phase ∈ entry.phases.reduceOption, phase.id ≠ 0) := by
  obtain ⟨mapPb, spatPb, hmap, hspat, hpolicy⟩ := app_successful_iff.mp happ
  obtain ⟨current, horient, state, hfind, htime⟩ := policy_ok (congrArg Prod.snd hpolicy)
  obtain ⟨timestamp, hsends⟩ := policy_fresh horient hfind htime
  obtain ⟨rfl, heq⟩ := Prod.mk.inj (hsends.symm.trans hpolicy)
  obtain rfl := Except.ok.inj heq
  obtain ⟨lane, entry, hchosen, hread⟩ := chosen_of_orient hmap hspat horient hfind
  obtain ⟨-, hlaneAt, hcomplete⟩ := orient_ok horient
  obtain ⟨stop, hstop⟩ := hcomplete.stopPosition hlaneAt
  have hspatComplete : spat.Complete := Classical.byContradiction fun hincomplete => by
    obtain ⟨stop, hstop, -⟩ := readSpat_incomplete hincomplete
    exact nomatch hstop.symm.trans hspat
  refine ⟨lane, entry, hchosen, hspatComplete, hread.fresh_iff.mpr htime, ?_⟩
  exact (List.append_right_inj _).trans (List.singleton_inj.trans (hread.lights_iff hstop))

theorem Broadcasts.distinguishes
    (hbroadcasts : Broadcasts latLonToUTMXY systemTime tl map spat carStatus out) :
    Distinguishes latLonToUTMXY tl map spat carStatus := by
  refine ⟨fun mapPb hmap huntimed => ?_, fun hcomplete lane entry hchosen hfresh => ?_⟩
  · have hincomplete : ¬ spat.Complete := huntimed.not_forall
    exact (app_of_incomplete hmap hincomplete).mp
      (hbroadcasts.refuses mapPb hmap hincomplete) huntimed
  · obtain ⟨spatPb, hspat⟩ := readSpat_complete hcomplete
    obtain ⟨mapPb, current, state, hmap, horient, hfind, hread⟩ := hchosen.read hspat
    have hsends : ∃ timestamp,
        trafficLightPolicy systemTime tl ⟨mapPb, spatPb⟩ carStatus out =
          sendLights { tl with timestamp } current.lane state out :=
      policy_fresh horient hfind (hread.fresh_iff.mp hfresh)
    obtain ⟨timestamp, hpolicy⟩ := hsends
    have happ := app_successful_iff.mpr ⟨mapPb, spatPb, hmap, hspat, hpolicy⟩
    obtain ⟨lane', entry', hchosen', hsent⟩ := hbroadcasts.lights _ _ happ
    obtain ⟨lane'', entry'', hchosen'', -, -, hiff⟩ := app_lights happ
    obtain ⟨rfl, rfl⟩ := hchosen.unique hchosen'
    obtain ⟨rfl, rfl⟩ := hchosen.unique hchosen''
    exact hiff.mp hsent

end Calls

theorem broadcasts_iff (latLonToUTMXY : K → K → Position2D K) (systemTime : K)
    (tl : Trafficlight K) (map : Asn.MapData) (spat : Asn.SPAT) (carStatus : CarStatus K)
    (out : ObuTrafficLight K) :
    Broadcasts latLonToUTMXY systemTime tl map spat carStatus out ↔
      Distinguishes latLonToUTMXY tl map spat carStatus := by
  constructor
  · exact fun hbroadcasts => hbroadcasts.distinguishes
  · intro hdistinguishes
    refine ⟨fun tl' sent happ => ?_, fun mapPb hmap hincomplete => ?_⟩
    · obtain ⟨lane, entry, hchosen, hcomplete, hfresh, hiff⟩ := app_lights happ
      exact ⟨lane, entry, hchosen,
        hiff.mpr (hdistinguishes.carried hcomplete lane entry hchosen hfresh)⟩
    · exact (app_of_incomplete hmap hincomplete).mpr (hdistinguishes.timed mapPb hmap)

def plainLane : Asn.Lane :=
  ⟨0, none, some [some ⟨none, none⟩], some [some ⟨⟨7, 80000000, 80000000⟩⟩]⟩

def plainNode : Asn.Node := ⟨1, 80000000, 80000000, some [some ⟨0, [some plainLane]⟩]⟩

def plainEntry (timing : Option Asn.TimeCountingDown) : Asn.IntersectionState :=
  ⟨1, none, none, [some ⟨0, [some ⟨3, timing⟩]⟩]⟩

def plainLanePb : Lane ℚ := ⟨0, [⟨8, 8⟩], [⟨.STRAIGHT, none⟩]⟩

def plainNodePb : Intersection ℚ := ⟨1, ⟨8, 8⟩, [⟨0, [plainLanePb]⟩]⟩

theorem readMap_plain :
    readMap (fun lat lon : ℚ => ⟨lat, lon⟩) (some ⟨0, [some plainNode]⟩) =
      .ok ⟨0, [plainNodePb]⟩ := by
  decide +kernel

/-- The light of phase 0 is sent for a connection without phase id, and a phase state
without timing is read all the same. -/
theorem broadcasts_fails :
    ¬ Broadcasts (fun lat lon : ℚ => ⟨lat, lon⟩) 0 (Trafficlight.init 0) ⟨0, [some plainNode]⟩
        ⟨0, [some (plainEntry (some ⟨0, 100⟩))]⟩ parked ⟨none, []⟩ ∧
      ¬ Broadcasts (fun lat lon : ℚ => ⟨lat, lon⟩) 0 (Trafficlight.init 0) ⟨0, [some plainNode]⟩
        ⟨0, [some (plainEntry none)]⟩ parked ⟨none, []⟩ := by
  constructor
  · intro hbroadcasts
    have hchosen : Chosen (fun lat lon : ℚ => ⟨lat, lon⟩) ⟨0, [some plainNode]⟩
        ⟨0, [some (plainEntry (some ⟨0, 100⟩))]⟩ parked plainLane (plainEntry (some ⟨0, 100⟩)) := by
      refine ⟨_, ⟨0, plainNodePb, toLex (0, 0), plainLanePb⟩, plainNode, readMap_plain, ?_, rfl,
        rfl, rfl⟩
      decide +kernel
    have hcomplete : Asn.SPAT.Complete ⟨0, [some (plainEntry (some ⟨0, 100⟩))]⟩ := by
      decide
    rcases hbroadcasts.distinguishes.carried hcomplete _ _ hchosen nofun with hnone | hzero
    · exact hnone ⟨none, none⟩ List.mem_cons_self rfl
    · exact hzero _ List.mem_cons_self rfl
  · intro hbroadcasts
    exact hbroadcasts.distinguishes.timed _ readMap_plain (by decide)

end ApolloContrib.TrafficLight
