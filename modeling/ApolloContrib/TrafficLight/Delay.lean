import Mathlib.Algebra.Field.Rat
import Mathlib.Algebra.Order.Ring.Rat
import Mathlib.Data.Int.ConditionallyCompleteOrder
import Mathlib.Data.List.Chain
import Mathlib.Order.ConditionallyCompleteLattice.Basic
import Mathlib.Order.Interval.Set.Defs
import ApolloContrib.Library.Run
import ApolloContrib.TrafficLight.Policy

namespace ApolloContrib.TrafficLight

open ApolloContrib.Library

/-! Which of the messages that carry a time `TrafficLightPolicy` takes for delayed. -/

variable {K : Type*} [Field K] [LinearOrder K]

/-- A call whose inputs pass the checks before the time, and match an entry with a time. -/
structure TimedCall (K : Type*) [Field K] [LinearOrder K] where
  systemTime : K
  policyData : PolicyData K
  carStatus : CarStatus K
  out : ObuTrafficLight K
  current : Current K
  orient_eq : orient carStatus policyData.map = .ok current
  state : IntersectionState
  find_eq : policyData.spat.intersections.find?
    (·.intersectionId = current.intersection.id) = some state
  moy : Int
  dsecond : Int
  time_eq : state.time = some (moy, dsecond)
  moy_nonneg : 0 ≤ moy
  dsecond_mem : dsecond ∈ Set.Icc 0 59999

namespace TimedCall

def time (call : TimedCall K) : Int ×ₗ Int := toLex (call.moy, call.dsecond)

def result (call : TimedCall K) (tl : Trafficlight K) :
    Trafficlight K × Except PolicyStop (ObuTrafficLight K) :=
  trafficLightPolicy call.systemTime tl call.policyData call.carStatus call.out

end TimedCall

structure DelayRun (K : Type*) where
  tl : Trafficlight K
  accepted : List (Int ×ₗ Int)

namespace DelayRun

def start (currentYearMoy : Int) : DelayRun K := ⟨Trafficlight.init currentYearMoy, []⟩

def step (s : DelayRun K) (call : TimedCall K) : Option (DelayRun K) :=
  let (tl, result) := call.result s.tl
  match result with
  | .ok _ => some ⟨tl, s.accepted ++ [call.time]⟩
  | .error _ => some ⟨tl, s.accepted⟩

def Forward (s : DelayRun K) : Prop := s.accepted.IsChain (· ≤ ·)

structure Judges (s : DelayRun K) (call : TimedCall K) : Prop where
  delayed_iff : (call.result s.tl).2 = .error .messageDelay ↔
    ∃ latest ∈ s.accepted.getLast?, call.time < latest
  newer : (∀ time ∈ s.accepted, time < call.time) → ∃ out, (call.result s.tl).2 = .ok out

def InOrder (s : DelayRun K) (call : TimedCall K) : Prop :=
  ∀ latest ∈ s.accepted.getLast?, latest ≤ call.time

/-- No rejection has set the time to compare with. -/
structure Unset (s : DelayRun K) : Prop where
  previousMoy : s.tl.previousMoy = 0
  previousDsecond : s.tl.previousDsecond = 0

variable {s next : DelayRun K} {call : TimedCall K}

theorem Unset.result_eq (hs : s.Unset) (call : TimedCall K) :
    ∃ timestamp, call.result s.tl =
      sendLights { s.tl with timestamp } call.current.lane call.state call.out := by
  refine policy_fresh call.orient_eq call.find_eq fun moy dsecond htime => ?_
  obtain ⟨rfl, rfl⟩ := Prod.mk.inj (Option.some.inj (call.time_eq.symm.trans htime))
  rw [hs.previousMoy, hs.previousDsecond]
  exact ⟨call.moy_nonneg, call.dsecond_mem.1⟩

theorem step_total (s : DelayRun K) (call : TimedCall K) : ∃ next, s.step call = some next := by
  unfold step
  dsimp only
  split
  · exact ⟨_, rfl⟩
  · exact ⟨_, rfl⟩

theorem Unset.step_eq (hs : s.Unset) (call : TimedCall K) :
    ∃ tl, s.step call = some ⟨tl, s.accepted ++ [call.time]⟩ ∧
      tl.previousMoy = 0 ∧ tl.previousDsecond = 0 := by
  obtain ⟨timestamp, hresult⟩ := hs.result_eq call
  unfold step
  rw [hresult]
  exact ⟨_, rfl, hs.previousMoy, hs.previousDsecond⟩

theorem Unset.unset_next (hs : s.Unset) (hstep : s.step call = some next) :
    next.Unset ∧ next.accepted = s.accepted ++ [call.time] := by
  obtain ⟨tl, htl, hmoy, hdsecond⟩ := hs.step_eq call
  obtain rfl := Option.some.inj (htl.symm.trans hstep)
  exact ⟨⟨hmoy, hdsecond⟩, rfl⟩

theorem forward_append_iff :
    (s.accepted ++ [call.time]).IsChain (· ≤ ·) ↔ s.Forward ∧ s.InOrder call := by
  rw [List.isChain_append]
  refine and_congr_right' ((and_iff_right (List.isChain_singleton _)).trans ?_)
  exact forall_congr' fun latest => forall_congr' fun _ => by simp

theorem Unset.judges_iff (hs : s.Unset) : s.Judges call ↔ s.InOrder call := by
  obtain ⟨timestamp, hresult⟩ := hs.result_eq call
  have haccepted : (call.result s.tl).2 ≠ .error .messageDelay := by
    rw [hresult]
    exact nofun
  constructor
  · intro hjudges latest hlatest
    exact not_lt.mp fun hlt => haccepted (hjudges.delayed_iff.mpr ⟨latest, hlatest, hlt⟩)
  · intro horder
    refine ⟨iff_of_false haccepted ?_, fun _ => ⟨_, congrArg Prod.snd hresult⟩⟩
    rintro ⟨latest, hlatest, hlt⟩
    exact absurd (horder latest hlatest) (not_le.mpr hlt)

theorem stepsMeet_inOrder_iff (hs : s.Unset) (hforward : s.Forward)
    (calls : List (TimedCall K)) :
    StepsMeet step InOrder s calls ↔
      (s.accepted ++ calls.map TimedCall.time).IsChain (· ≤ ·) := by
  induction calls generalizing s with
  | nil =>
      rw [List.map_nil, List.append_nil]
      exact iff_of_true stepsMeet_nil hforward
  | cons call calls ih =>
      obtain ⟨tl, hstep, -⟩ := hs.step_eq call
      obtain ⟨hnext, haccepted⟩ := hs.unset_next hstep
      have hrest (horder : s.InOrder call) :=
        ih hnext (haccepted ▸ forward_append_iff.mpr ⟨hforward, horder⟩)
      rw [List.map_cons, List.append_cons, ← haccepted, stepsMeet_cons]
      constructor
      · rintro ⟨horder, hmeet⟩
        exact (hrest horder).mp (hmeet _ hstep)
      · intro hchain
        have horder := (forward_append_iff.mp (haccepted ▸ (List.isChain_append.mp hchain).1)).2
        refine ⟨horder, fun other hother => ?_⟩
        obtain rfl := Option.some.inj (hstep.symm.trans hother)
        exact (hrest horder).mpr hchain

end DelayRun

open DelayRun in
/-- The time to compare with is set on rejection only, so nothing is ever rejected. -/
theorem messageDelay_iff (currentYearMoy : Int) (calls : List (TimedCall K)) :
    (Throughout step Forward (start currentYearMoy) calls ∧
      StepsMeet step Judges (start currentYearMoy) calls) ↔
    (calls.map TimedCall.time).IsChain (· ≤ ·) := by
  have hstart : (start currentYearMoy : DelayRun K).Unset := ⟨rfl, rfl⟩
  refine Iff.trans ?_ (stepsMeet_inOrder_iff hstart List.isChain_nil calls)
  refine throughout_and_stepsMeet_iff step_total (fun s (hs : s.Unset ∧ s.Forward) => hs.2)
    ?_ ?_ ⟨hstart, List.isChain_nil⟩
  · rintro s call next ⟨hunset, hforward⟩ hstep
    have hnext : next.Forward ↔ s.InOrder call := by
      unfold Forward
      rw [(hunset.unset_next hstep).2, forward_append_iff]
      exact and_iff_right hforward
    rw [hunset.judges_iff, hnext, and_self]
  · rintro s call next ⟨hunset, hforward⟩ horder hstep
    obtain ⟨hnext, haccepted⟩ := hunset.unset_next hstep
    refine ⟨hnext, ?_⟩
    unfold Forward
    rw [haccepted]
    exact forward_append_iff.mpr ⟨hforward, horder⟩

def crossingLane : Lane ℚ := ⟨0, [⟨9, 9⟩], []⟩

def crossing : Intersection ℚ := ⟨1, ⟨10, 10⟩, [⟨0, [crossingLane]⟩]⟩

def atCrossing : CarStatus ℚ := ⟨⟨8, 8⟩, ⟨0, 0⟩⟩

theorem orient_crossing :
    orient atCrossing ⟨0, [crossing]⟩ = .ok ⟨0, crossing, toLex (0, 0), crossingLane⟩ := by
  decide +kernel

/-- A message about `crossing`, without lights. -/
def crossingAt (moy dsecond : Nat) (hdsecond : dsecond ≤ 59999) : TimedCall ℚ where
  systemTime := 0
  policyData := ⟨⟨0, [crossing]⟩, ⟨0, [⟨1, [], some moy, some dsecond⟩]⟩⟩
  carStatus := atCrossing
  out := ⟨none, []⟩
  current := ⟨0, crossing, toLex (0, 0), crossingLane⟩
  orient_eq := orient_crossing
  state := ⟨1, [], some moy, some dsecond⟩
  find_eq := rfl
  moy := moy
  dsecond := dsecond
  time_eq := rfl
  moy_nonneg := Int.natCast_nonneg moy
  dsecond_mem := ⟨Int.natCast_nonneg dsecond, by exact_mod_cast hdsecond⟩

open DelayRun in
/-- A message of minute 0 is accepted after one of minute 1. -/
theorem messageDelay_fails :
    ¬ StepsMeet step Judges (start 0)
        [crossingAt 1 0 (by decide), crossingAt 0 0 (by decide)] := by
  intro hmeet
  have hstart : (start 0 : DelayRun ℚ).Unset := ⟨rfl, rfl⟩
  obtain ⟨tl, hstep, htl⟩ := hstart.step_eq (crossingAt 1 0 (by decide))
  have hnext := (hstart.unset_next hstep).1
  have hjudges := (stepsMeet_cons.mp ((stepsMeet_cons.mp hmeet).2 _ hstep)).1
  have hlate : toLex (1, 0) ≤ toLex ((0 : Int), (0 : Int)) :=
    hnext.judges_iff.mp hjudges (toLex (1, 0)) rfl
  exact absurd hlate (by decide)

end ApolloContrib.TrafficLight
