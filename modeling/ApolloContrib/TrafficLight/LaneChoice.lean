import Mathlib.Algebra.Field.Rat
import Mathlib.Algebra.Order.Ring.Rat
import ApolloContrib.Library.Fallible
import ApolloContrib.TrafficLight.Policy

namespace ApolloContrib.TrafficLight

open ApolloContrib.Library

/-! Which lane of which intersection `TrafficLightPolicy` takes for that of the car. -/

variable {K : Type*} [Field K] [LinearOrder K] (carStatus : CarStatus K)

/-- The intersections not behind the car, by distance and then by index. -/
def intersectionRanks (map : Map K) : Set (K ×ₗ Nat) :=
  {rank | ∃ intersection, map.intersections[(ofLex rank).2]? = some intersection ∧
    Ahead carStatus intersection.position ∧
    (ofLex rank).1 = distanceSquared carStatus intersection.position}

/-- The lanes, by the distance of the stop position and then by index. -/
def laneRanks (intersection : Intersection K) : Set (K ×ₗ Nat ×ₗ Nat) :=
  {rank | ∃ lane stop, intersection.laneAt (ofLex rank).2 = some lane ∧
    lane.stopPosition = some stop ∧ (ofLex rank).1 = distanceSquared carStatus stop}

structure Current.Nearest (map : Map K) (current : Current K) : Prop where
  intersection_at : map.intersections[current.intersectionIndex]? = some current.intersection
  intersection_least : ∃ least ≤ kReferenceValue ^ 2,
    IsLeast (intersectionRanks carStatus map) (toLex (least, current.intersectionIndex))
  lane_at : current.intersection.laneAt current.laneIndex = some current.lane
  lane_least : ∃ least ≤ kReferenceValue ^ 2,
    IsLeast (laneRanks carStatus current.intersection) (toLex (least, current.laneIndex))

/-- `result` is what a call returns. -/
structure ChoosesNearest (map : Map K) (result : Except PolicyStop (ObuTrafficLight K)) :
    Prop where
  inside : result ≠ .error .fault
  nearest : ∀ out, result = .ok out →
    ∃ current, orient carStatus map = .ok current ∧ current.Nearest carStatus map
  refuses : (¬ ∃ current : Current K, current.Nearest carStatus map) →
    ∃ stop ≠ .fault, result = .error stop

def Road.Complete (road : Road K) : Prop :=
  road.lanes ≠ [] ∧ ∀ lane ∈ road.lanes, lane.positionOffset ≠ []

def Intersection.Complete (intersection : Intersection K) : Prop :=
  intersection.roads ≠ [] ∧ ∀ road ∈ intersection.roads, road.Complete

/-- The entry of the intersection is one that the check of the time lets pass. -/
def Timely (tl : Trafficlight K) (spat : Spat) (intersection : Intersection K) : Prop :=
  ∃ state, spat.intersections.find? (·.intersectionId = intersection.id) = some state ∧
    ∀ moy dsecond, state.time = some (moy, dsecond) →
      moy ≥ tl.previousMoy ∧ dsecond ≥ tl.previousDsecond

/-- There is an intersection, and the one the search stands at is not taken, or is the
nearest and has a nearest lane. -/
def HasNearest (tl : Trafficlight K) (policyData : PolicyData K) : Prop :=
  ∃ i intersection,
    Stands (intersectionRanks carStatus policyData.map) (kReferenceValue ^ 2, 0) i ∧
      policyData.map.intersections[i]? = some intersection ∧
      (intersection.Complete → Timely tl policyData.spat intersection →
        Within (intersectionRanks carStatus policyData.map) (kReferenceValue ^ 2, 0) ∧
          Within (laneRanks carStatus intersection) (kReferenceValue ^ 2, toLex (0, 0)))

section Searches

theorem pairwise_zipIdx {α : Type*} (l : List α) (n : Nat) :
    (l.zipIdx n).Pairwise fun earlier later => earlier.2 < later.2 := by
  induction l generalizing n with
  | nil => exact List.Pairwise.nil
  | cons x l ih =>
      rw [List.zipIdx_cons]
      refine List.pairwise_cons.mpr ⟨fun later hlater => ?_, ih (n + 1)⟩
      exact List.le_snd_of_mem_zipIdx hlater

theorem forall_mem_zipIdx {α : Type*} {l : List α} {p : α → Prop} :
    (∀ entry ∈ l.zipIdx, p entry.1) ↔ ∀ x ∈ l, p x := by
  rw [← List.forall_mem_map, List.zipIdx_map_fst]

def intersectionFound (entry : Intersection K × Nat) : Option (K × Nat) :=
  if Ahead carStatus entry.1.position then
    some (distanceSquared carStatus entry.1.position, entry.2)
  else none

def intersectionsFound (map : Map K) : List (K × Nat) :=
  map.intersections.zipIdx.filterMap (intersectionFound carStatus)

def laneFound (j : Nat) (entry : Lane K × Nat) : List (K × Nat ×ₗ Nat) :=
  (entry.1.stopPosition.map fun stop =>
    (distanceSquared carStatus stop, toLex (j, entry.2))).toList

def roadFound (entry : Road K × Nat) : List (K × Nat ×ₗ Nat) :=
  entry.1.lanes.zipIdx.flatMap (laneFound carStatus entry.2)

def lanesFound (intersection : Intersection K) : List (K × Nat ×ₗ Nat) :=
  intersection.roads.zipIdx.flatMap (roadFound carStatus)

variable {carStatus}

theorem intersectionFound_eq_some {entry : Intersection K × Nat} {found : K × Nat} :
    intersectionFound carStatus entry = some found ↔
      Ahead carStatus entry.1.position ∧
        found = (distanceSquared carStatus entry.1.position, entry.2) := by
  unfold intersectionFound
  split_ifs with hahead
  · exact Option.some_inj.trans (eq_comm.trans (and_iff_right hahead).symm)
  · exact iff_of_false nofun fun h => hahead h.1

omit [LinearOrder K] in
theorem mem_laneFound {j : Nat} {entry : Lane K × Nat} {found : K × Nat ×ₗ Nat} :
    found ∈ laneFound carStatus j entry ↔
      ∃ stop, entry.1.stopPosition = some stop ∧
        (distanceSquared carStatus stop, toLex (j, entry.2)) = found := by
  unfold laneFound
  rw [Option.mem_toList, Option.map_eq_some_iff]

variable (carStatus)

theorem orientIntersections_eq (map : Map K) :
    orientIntersections carStatus map =
      (intersectionsFound carStatus map).foldl closer (kReferenceValue ^ 2, 0) := by
  unfold orientIntersections intersectionsFound
  rw [List.foldl_filterMap]
  refine congrArg (fun round => List.foldl round _ _) (funext₂ fun best entry => ?_)
  unfold orientIntersection intersectionFound
  split_ifs <;> rfl

theorem indexed_intersectionsFound (map : Map K) : Indexed (intersectionsFound carStatus map) := by
  refine List.pairwise_filterMap.mpr ((pairwise_zipIdx _ 0).imp ?_)
  intro earlier later hindex first hfirst second hsecond
  obtain ⟨-, rfl⟩ := intersectionFound_eq_some.mp hfirst
  obtain ⟨-, rfl⟩ := intersectionFound_eq_some.mp hsecond
  exact hindex

theorem ranked_intersectionsFound (map : Map K) :
    ranked (intersectionsFound carStatus map) = intersectionRanks carStatus map := by
  ext rank
  refine List.mem_filterMap.trans ?_
  constructor
  · rintro ⟨⟨intersection, i⟩, hentry, hfound⟩
    obtain ⟨hahead, hrank⟩ := intersectionFound_eq_some.mp hfound
    refine ⟨intersection, ?_, hahead, congrArg Prod.fst hrank⟩
    rw [hrank]
    exact List.mk_mem_zipIdx_iff_getElem?.mp hentry
  · rintro ⟨intersection, hat, hahead, hdistance⟩
    refine ⟨(intersection, (ofLex rank).2), List.mk_mem_zipIdx_iff_getElem?.mpr hat, ?_⟩
    exact intersectionFound_eq_some.mpr ⟨hahead, Prod.ext hdistance rfl⟩

omit [LinearOrder K] in
theorem indexed_lanesFound (intersection : Intersection K) :
    Indexed (lanesFound carStatus intersection) := by
  refine List.pairwise_flatMap.mpr ⟨fun road _ => ?_, (pairwise_zipIdx _ 0).imp ?_⟩
  · refine List.pairwise_flatMap.mpr ⟨fun lane _ => ?_, (pairwise_zipIdx _ 0).imp ?_⟩
    · unfold laneFound
      cases lane.1.stopPosition with
      | none => exact List.Pairwise.nil
      | some stop => exact List.pairwise_singleton _ _
    · intro earlier later hindex first hfirst second hsecond
      obtain ⟨_, -, rfl⟩ := mem_laneFound.mp hfirst
      obtain ⟨_, -, rfl⟩ := mem_laneFound.mp hsecond
      exact Prod.Lex.toLex_lt_toLex.mpr (Or.inr ⟨rfl, hindex⟩)
  · intro earlier later hindex first hfirst second hsecond
    obtain ⟨_, -, hfirst⟩ := List.mem_flatMap.mp hfirst
    obtain ⟨_, -, hsecond⟩ := List.mem_flatMap.mp hsecond
    obtain ⟨_, -, rfl⟩ := mem_laneFound.mp hfirst
    obtain ⟨_, -, rfl⟩ := mem_laneFound.mp hsecond
    exact Prod.Lex.toLex_lt_toLex.mpr (Or.inl hindex)

omit [LinearOrder K] in
theorem ranked_lanesFound (intersection : Intersection K) :
    ranked (lanesFound carStatus intersection) = laneRanks carStatus intersection := by
  ext rank
  refine List.mem_flatMap.trans ?_
  constructor
  · rintro ⟨⟨road, j⟩, hroad, hfound⟩
    obtain ⟨⟨lane, k⟩, hlane, hfound⟩ := List.mem_flatMap.mp hfound
    obtain ⟨stop, hstop, hrank⟩ := mem_laneFound.mp hfound
    refine ⟨lane, stop, ?_, hstop, (congrArg Prod.fst hrank).symm⟩
    rw [← hrank]
    exact Option.bind_eq_some_iff.mpr
      ⟨road, List.mk_mem_zipIdx_iff_getElem?.mp hroad, List.mk_mem_zipIdx_iff_getElem?.mp hlane⟩
  · rintro ⟨lane, stop, hat, hstop, hdistance⟩
    obtain ⟨road, hroad, hlane⟩ := Option.bind_eq_some_iff.mp hat
    refine ⟨(road, _), List.mk_mem_zipIdx_iff_getElem?.mpr hroad, ?_⟩
    refine List.mem_flatMap.mpr ⟨(lane, _), List.mk_mem_zipIdx_iff_getElem?.mpr hlane, ?_⟩
    exact mem_laneFound.mpr ⟨stop, hstop, Prod.ext hdistance.symm rfl⟩

variable {carStatus}

theorem orientLane_eq {entry : Lane K × Nat} (hentry : entry.1.positionOffset ≠ []) (j : Nat)
    (best : K × Nat ×ₗ Nat) :
    orientLane carStatus j best entry = .ok ((laneFound carStatus j entry).foldl closer best) := by
  have hstop : entry.1.stopPosition = some (entry.1.positionOffset.getLast hentry) :=
    List.getLast?_eq_some_getLast hentry
  unfold orientLane laneFound
  rw [hstop]
  rfl

theorem orientLane_error {entry : Lane K × Nat} (hentry : ¬ entry.1.positionOffset ≠ []) (j : Nat)
    (best : K × Nat ×ₗ Nat) : orientLane carStatus j best entry = .error .noOffset := by
  have hstop : entry.1.stopPosition = none := List.getLast?_eq_none_iff.mpr (not_not.mp hentry)
  unfold orientLane
  rw [hstop]
  rfl

theorem orientRoad_eq {entry : Road K × Nat} (hentry : entry.1.Complete)
    (best : K × Nat ×ₗ Nat) :
    orientRoad carStatus best entry = .ok ((roadFound carStatus entry).foldl closer best) := by
  unfold orientRoad
  rw [if_neg hentry.1]
  have hlanes : ∀ lane ∈ entry.1.lanes.zipIdx, lane.1.positionOffset ≠ [] :=
    forall_mem_zipIdx.mpr hentry.2
  exact foldlM_closer (fun best lane hlane => orientLane_eq hlane entry.2 best) hlanes best

theorem orientRoad_error {entry : Road K × Nat} (hentry : ¬ entry.1.Complete)
    (best : K × Nat ×ₗ Nat) :
    ∃ stop, orientRoad carStatus best entry = .error stop ∧ stop ≠ .fault := by
  unfold orientRoad
  split_ifs with hroad
  · exact ⟨.noLane, rfl, nofun⟩
  · have hlanes : ¬ ∀ lane ∈ entry.1.lanes.zipIdx, lane.1.positionOffset ≠ [] :=
      fun hall => hentry ⟨hroad, forall_mem_zipIdx.mp hall⟩
    exact foldlM_error_of_all (fun best lane hlane => ⟨_, orientLane_eq hlane entry.2 best⟩)
      (fun best lane hlane => ⟨_, orientLane_error hlane entry.2 best, nofun⟩) hlanes best

theorem orientRoads_eq {intersection : Intersection K} (hcomplete : intersection.Complete) :
    orientRoads carStatus intersection =
      .ok ((lanesFound carStatus intersection).foldl closer
        (kReferenceValue ^ 2, toLex (0, 0))) := by
  have hroads : ∀ road ∈ intersection.roads.zipIdx, road.1.Complete :=
    forall_mem_zipIdx.mpr hcomplete.2
  exact foldlM_closer (fun best road hroad => orientRoad_eq hroad best) hroads _

theorem orientRoads_error {intersection : Intersection K} (hsome : intersection.roads ≠ [])
    (hcomplete : ¬ intersection.Complete) :
    ∃ stop, orientRoads carStatus intersection = .error stop ∧ stop ≠ .fault := by
  have hroads : ¬ ∀ road ∈ intersection.roads.zipIdx, road.1.Complete :=
    fun hall => hcomplete ⟨hsome, forall_mem_zipIdx.mp hall⟩
  exact foldlM_error_of_all (fun best road hroad => ⟨_, orientRoad_eq hroad best⟩)
    (fun best road hroad => orientRoad_error hroad best) hroads _

theorem Intersection.Complete.laneAt {intersection : Intersection K}
    (hcomplete : intersection.Complete) {laneIndex : Nat ×ₗ Nat}
    (hstands : Stands (laneRanks carStatus intersection) (kReferenceValue ^ 2, toLex (0, 0))
      laneIndex) : ∃ lane, intersection.laneAt laneIndex = some lane := by
  rcases hstands with ⟨least, -, ⟨lane, stop, hlane, -⟩, -⟩ | ⟨rfl, -⟩
  · exact ⟨lane, hlane⟩
  · obtain ⟨road, roads, hroads⟩ := List.exists_cons_of_ne_nil hcomplete.1
    have hroad : road ∈ intersection.roads := hroads ▸ List.mem_cons_self
    obtain ⟨lane, lanes, hlanes⟩ := List.exists_cons_of_ne_nil (hcomplete.2 road hroad).1
    refine ⟨lane, ?_⟩
    unfold Intersection.laneAt
    rw [hroads]
    exact congrArg (·[0]?) hlanes

end Searches

section Calls

variable {carStatus} {map : Map K} {i : Nat} {intersection : Intersection K}
  {systemTime : K} {tl : Trafficlight K} {policyData : PolicyData K} {out : ObuTrafficLight K}

theorem intersectionAt (hmap : map.intersections ≠ [])
    (hstands : Stands (intersectionRanks carStatus map) (kReferenceValue ^ 2, 0) i) :
    ∃ intersection, map.intersections[i]? = some intersection := by
  rcases hstands with ⟨least, -, ⟨intersection, hat, -⟩, -⟩ | ⟨rfl, -⟩
  · exact ⟨intersection, hat⟩
  · obtain ⟨first, rest, hintersections⟩ := List.exists_cons_of_ne_nil hmap
    exact ⟨first, congrArg (·[0]?) hintersections⟩

theorem stands_orientIntersections (carStatus : CarStatus K) (map : Map K) :
    Stands (intersectionRanks carStatus map) (kReferenceValue ^ 2, 0)
      (orientIntersections carStatus map).2 := by
  rw [orientIntersections_eq, ← ranked_intersectionsFound]
  exact stands_foldl_closer _ (indexed_intersectionsFound carStatus map)

theorem orient_eq (hposition : ¬ (carStatus.position.x = 0 ∨ carStatus.position.y = 0))
    (hat : map.intersections[(orientIntersections carStatus map).2]? = some intersection)
    (hcomplete : intersection.Complete) :
    ∃ laneIndex lane, orient carStatus map =
        .ok ⟨(orientIntersections carStatus map).2, intersection, laneIndex, lane⟩ ∧
      intersection.laneAt laneIndex = some lane ∧
      Stands (laneRanks carStatus intersection) (kReferenceValue ^ 2, toLex (0, 0))
        laneIndex := by
  have hstands := stands_foldl_closer (kReferenceValue ^ 2, toLex (0, 0))
    (indexed_lanesFound carStatus intersection)
  rw [ranked_lanesFound] at hstands
  obtain ⟨lane, hlane⟩ := hcomplete.laneAt hstands
  refine ⟨_, lane, ?_, hlane, hstands⟩
  unfold orient
  rw [if_neg hposition]
  dsimp only
  rw [hat]
  dsimp only
  rw [if_neg hcomplete.1, orientRoads_eq hcomplete]
  refine (pure_bind _ _).trans ?_
  rw [hlane]
  rfl

theorem orient_incomplete (hposition : ¬ (carStatus.position.x = 0 ∨ carStatus.position.y = 0))
    (hat : map.intersections[(orientIntersections carStatus map).2]? = some intersection)
    (hcomplete : ¬ intersection.Complete) :
    ∃ stop, orient carStatus map = .error stop ∧ stop ≠ .fault := by
  unfold orient
  rw [if_neg hposition]
  dsimp only
  rw [hat]
  dsimp only
  split_ifs with hroads
  · exact ⟨.noRoad, rfl, nofun⟩
  · have hfails : ∃ stop, orientRoads carStatus intersection = .error stop ∧ stop ≠ .fault :=
      orientRoads_error hroads hcomplete
    obtain ⟨stop, hstop, hfault⟩ := hfails
    rw [hstop]
    exact ⟨stop, rfl, hfault⟩

theorem orient_ok {current : Current K} (horient : orient carStatus map = .ok current) :
    map.intersections[current.intersectionIndex]? = some current.intersection ∧
      current.intersection.laneAt current.laneIndex = some current.lane ∧
      current.intersection.Complete := by
  rcases Classical.em (carStatus.position.x = 0 ∨ carStatus.position.y = 0) with hzero | hposition
  · exact nomatch horient.symm.trans (if_pos hzero)
  cases hat : map.intersections[(orientIntersections carStatus map).2]? with
  | none =>
      unfold orient at horient
      rw [if_neg hposition] at horient
      dsimp only at horient
      rw [hat] at horient
      exact nomatch horient
  | some intersection =>
      rcases Classical.em intersection.Complete with hcomplete | hcomplete
      · obtain ⟨laneIndex, lane, hok, hlane, -⟩ := orient_eq hposition hat hcomplete
        obtain rfl := Except.ok.inj (hok.symm.trans horient)
        exact ⟨hat, hlane, hcomplete⟩
      · obtain ⟨stop, hstop, -⟩ := orient_incomplete hposition hat hcomplete
        exact nomatch hstop.symm.trans horient

omit [Field K] [LinearOrder K] in
theorem Intersection.Complete.stopPosition (hcomplete : intersection.Complete)
    {laneIndex : Nat ×ₗ Nat} {lane : Lane K} (hlane : intersection.laneAt laneIndex = some lane) :
    ∃ stop, lane.stopPosition = some stop := by
  obtain ⟨road, hroad, hlane⟩ := Option.bind_eq_some_iff.mp hlane
  have hoffset := (hcomplete.2 road (List.mem_of_getElem? hroad)).2 lane
    (List.mem_of_getElem? hlane)
  exact ⟨_, List.getLast?_eq_some_getLast hoffset⟩

theorem policy_timely {current : Current K}
    (horient : orient carStatus policyData.map = .ok current)
    (htimely : Timely tl policyData.spat current.intersection) :
    ∃ sent, (trafficLightPolicy systemTime tl policyData carStatus out).2 = .ok sent := by
  obtain ⟨state, hfind, htime⟩ := htimely
  obtain ⟨timestamp, hpolicy⟩ := policy_fresh horient hfind htime
  exact ⟨_, congrArg Prod.snd hpolicy⟩

theorem policy_late {current : Current K}
    (horient : orient carStatus policyData.map = .ok current)
    (htimely : ¬ Timely tl policyData.spat current.intersection) :
    ∃ stop, (trafficLightPolicy systemTime tl policyData carStatus out).2 = .error stop ∧
      stop ≠ .fault := by
  unfold trafficLightPolicy
  rw [horient]
  dsimp only
  cases hfind :
    policyData.spat.intersections.find? (·.intersectionId = current.intersection.id) with
  | none => exact ⟨.noMatch, rfl, nofun⟩
  | some state =>
      dsimp only
      cases hstate : state.time with
      | none =>
          have hnone : ∀ moy dsecond, state.time ≠ some (moy, dsecond) := by
            rw [hstate]
            exact nofun
          exact absurd ⟨state, hfind, fun moy dsecond h => absurd h (hnone moy dsecond)⟩ htimely
      | some time =>
          dsimp only
          split_ifs with hlate
          · refine absurd ⟨state, hfind, fun moy dsecond h => ?_⟩ htimely
            obtain rfl := Option.some.inj (hstate.symm.trans h)
            exact hlate
          · exact ⟨.messageDelay, rfl, nofun⟩

theorem policy_ok {sent : ObuTrafficLight K}
    (hsent : (trafficLightPolicy systemTime tl policyData carStatus out).2 = .ok sent) :
    ∃ current, orient carStatus policyData.map = .ok current ∧
      Timely tl policyData.spat current.intersection := by
  cases horient : orient carStatus policyData.map with
  | error stop =>
      rw [policy_error horient] at hsent
      exact nomatch hsent
  | ok current =>
      refine ⟨current, rfl, Classical.byContradiction fun hlate => ?_⟩
      obtain ⟨stop, hstop, -⟩ := policy_late horient hlate
      exact nomatch hstop.symm.trans hsent

theorem choosesNearest_of_error {result : Except PolicyStop (ObuTrafficLight K)}
    (hresult : ∃ stop, result = .error stop ∧ stop ≠ .fault) :
    ChoosesNearest carStatus map result := by
  obtain ⟨stop, rfl, hstop⟩ := hresult
  exact ⟨fun h => hstop (Except.error.inj h), nofun, fun _ => ⟨stop, hstop, rfl⟩⟩

theorem choosesNearest_iff_of_ok {current : Current K} {sent : ObuTrafficLight K}
    (horient : orient carStatus map = .ok current) :
    ChoosesNearest carStatus map (.ok sent) ↔ current.Nearest carStatus map := by
  constructor
  · intro hchooses
    obtain ⟨other, hother, hnearest⟩ := hchooses.nearest sent rfl
    obtain rfl := Except.ok.inj (horient.symm.trans hother)
    exact hnearest
  · intro hnearest
    exact ⟨nofun, fun _ _ => ⟨current, horient, hnearest⟩, fun hnone => absurd ⟨_, hnearest⟩ hnone⟩

theorem current_nearest_iff {laneIndex : Nat ×ₗ Nat} {lane : Lane K}
    (hat : map.intersections[i]? = some intersection)
    (hlane : intersection.laneAt laneIndex = some lane)
    (hstands : Stands (intersectionRanks carStatus map) (kReferenceValue ^ 2, 0) i)
    (hlaneStands : Stands (laneRanks carStatus intersection) (kReferenceValue ^ 2, toLex (0, 0))
      laneIndex) :
    (⟨i, intersection, laneIndex, lane⟩ : Current K).Nearest carStatus map ↔
      Within (intersectionRanks carStatus map) (kReferenceValue ^ 2, 0) ∧
        Within (laneRanks carStatus intersection) (kReferenceValue ^ 2, toLex (0, 0)) := by
  have hfirst (index : Nat ×ₗ Nat) : toLex (0, 0) ≤ index :=
    Prod.Lex.le_iff'.mpr ⟨Nat.zero_le _, fun _ => Nat.zero_le _⟩
  rw [← hstands.isLeast_iff Nat.zero_le, ← hlaneStands.isLeast_iff hfirst]
  constructor
  · rintro ⟨-, hintersection, -, hleast⟩
    exact ⟨hintersection, hleast⟩
  · rintro ⟨hintersection, hleast⟩
    exact ⟨hat, hintersection, hlane, hleast⟩

theorem hasNearest_iff
    (hat : policyData.map.intersections[(orientIntersections carStatus policyData.map).2]? =
      some intersection) :
    HasNearest carStatus tl policyData ↔
      (intersection.Complete → Timely tl policyData.spat intersection →
        Within (intersectionRanks carStatus policyData.map) (kReferenceValue ^ 2, 0) ∧
          Within (laneRanks carStatus intersection) (kReferenceValue ^ 2, toLex (0, 0))) := by
  have hstands := stands_orientIntersections carStatus policyData.map
  constructor
  · rintro ⟨i, other, hi, hother, hnearest⟩
    obtain rfl := hi.unique hstands
    obtain rfl := Option.some.inj (hother.symm.trans hat)
    exact hnearest
  · exact fun hnearest => ⟨_, intersection, hstands, hat, hnearest⟩

end Calls

theorem choosesNearest_iff (systemTime : K) (tl : Trafficlight K) (policyData : PolicyData K)
    (carStatus : CarStatus K) (out : ObuTrafficLight K) :
    ChoosesNearest carStatus policyData.map
        (trafficLightPolicy systemTime tl policyData carStatus out).2 ↔
      carStatus.position.x = 0 ∨ carStatus.position.y = 0 ∨
        HasNearest carStatus tl policyData := by
  rw [← or_assoc]
  by_cases hposition : carStatus.position.x = 0 ∨ carStatus.position.y = 0
  · have horient : orient carStatus policyData.map = .error .noPosition := if_pos hposition
    exact iff_of_true (choosesNearest_of_error ⟨_, congrArg Prod.snd (policy_error horient), nofun⟩)
      (Or.inl hposition)
  rw [or_iff_right hposition]
  by_cases hmap : policyData.map.intersections = []
  · have horient : orient carStatus policyData.map = .error .fault := by
      unfold orient
      rw [if_neg hposition, hmap]
      rfl
    refine iff_of_false
      (fun hchooses => hchooses.inside (congrArg Prod.snd (policy_error horient))) ?_
    rintro ⟨i, intersection, -, hat, -⟩
    rw [hmap] at hat
    exact nomatch hat
  have hstands := stands_orientIntersections carStatus policyData.map
  obtain ⟨intersection, hat⟩ := intersectionAt hmap hstands
  rw [hasNearest_iff hat]
  by_cases hcomplete : intersection.Complete
  · obtain ⟨laneIndex, lane, horient, hlane, hlaneStands⟩ := orient_eq hposition hat hcomplete
    by_cases htimely : Timely tl policyData.spat intersection
    · have hok : ∃ sent, (trafficLightPolicy systemTime tl policyData carStatus out).2 = .ok sent :=
        policy_timely horient htimely
      obtain ⟨sent, hsent⟩ := hok
      rw [hsent, choosesNearest_iff_of_ok horient,
        current_nearest_iff hat hlane hstands hlaneStands]
      exact ⟨fun hwithin _ _ => hwithin, fun hwithin => hwithin hcomplete htimely⟩
    · exact iff_of_true (choosesNearest_of_error (policy_late horient htimely))
        fun _ h => absurd h htimely
  · obtain ⟨stop, hstop, hfault⟩ := orient_incomplete hposition hat hcomplete
    exact iff_of_true
      (choosesNearest_of_error ⟨stop, congrArg Prod.snd (policy_error hstop), hfault⟩)
      fun h => absurd h hcomplete

def parked : CarStatus ℚ := ⟨⟨8, 8⟩, ⟨0, 0⟩⟩

def farLane : Lane ℚ := ⟨0, [⟨10000, 8⟩], []⟩

def farIntersection : Intersection ℚ := ⟨1, ⟨10000, 8⟩, [⟨0, [farLane]⟩]⟩

def farAway : PolicyData ℚ := ⟨⟨0, [farIntersection]⟩, ⟨0, [⟨1, [], none, none⟩]⟩⟩

/-- An empty map is indexed, and an intersection nearly 10 km away is taken. -/
theorem choosesNearest_fails :
    ¬ ChoosesNearest parked ⟨0, []⟩
        (trafficLightPolicy 0 (Trafficlight.init 0) ⟨⟨0, []⟩, ⟨0, []⟩⟩ parked ⟨none, []⟩).2 ∧
      ¬ ChoosesNearest parked farAway.map
        (trafficLightPolicy 0 (Trafficlight.init 0) farAway parked ⟨none, []⟩).2 := by
  constructor
  · exact fun hchooses => hchooses.inside (by decide +kernel)
  · intro hchooses
    have horient : orient parked farAway.map =
        .ok ⟨0, farIntersection, toLex (0, 0), farLane⟩ := by
      decide +kernel
    have htimely : Timely (Trafficlight.init 0 : Trafficlight ℚ) farAway.spat farIntersection :=
      ⟨⟨1, [], none, none⟩, rfl, nofun⟩
    obtain ⟨sent, hsent⟩ := policy_timely horient htimely
    obtain ⟨current, hcurrent, hnearest⟩ := hchooses.nearest sent hsent
    obtain rfl := Except.ok.inj (horient.symm.trans hcurrent)
    obtain ⟨least, hle, ⟨intersection, hat, -, hleast⟩, -⟩ := hnearest.intersection_least
    obtain rfl := Option.some.inj hat
    rw [show least = _ from hleast] at hle
    exact absurd hle (by decide +kernel)

end ApolloContrib.TrafficLight
