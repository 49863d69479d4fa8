import Mathlib.Algebra.Order.Group.Abs
import Mathlib.Algebra.Order.Group.Int
import Mathlib.Algebra.Ring.Int.Defs
import Mathlib.Data.List.Induction
import Mathlib.Data.List.Chain
import ApolloContrib.Pandora.Sweep

namespace ApolloContrib.Pandora

open ApolloContrib.Library

/-! What the clouds of a sweep hold, when they end, and which time they get. -/

variable {Stamp Coord Time : Type*} [LinearOrder Time] [Zero Time]

section Events

variable (lidar : Lidar Stamp Coord Time)

inductive SweepEvent (Stamp : Type*) where
  | packet
  | block (pkt : Pandar40PPacket Stamp) (i : Fin BLOCKS_PER_PACKET)

def packetEvents (pkt : Pandar40PPacket Stamp) : List (SweepEvent Stamp) :=
  .packet :: (List.finRange BLOCKS_PER_PACKET).map (.block pkt)

def sweepStep (state : Sweep Coord Time) : SweepEvent Stamp → Option (Sweep Coord Time)
  | .packet => some state.count
  | .block pkt i => some (processBlock lidar pkt state i)

def sweep (packets : List (Pandar40PPacket Stamp)) : Sweep Coord Time :=
  packets.foldl (processLiarPacket lidar) Sweep.init

omit [LinearOrder Time] [Zero Time] in
def Sweep.points (state : Sweep Coord Time) : List (PPoint Coord Time) :=
  state.delivered.flatMap (·.cloud) ++ state.outMsg

omit [LinearOrder Time] [Zero Time] in
def Lidar.packetPoints (pkt : Pandar40PPacket Stamp) : List (PPoint Coord Time) :=
  (List.finRange BLOCKS_PER_PACKET).flatMap (lidar.points pkt)

def CircularDistance (azimuth startAngle : Nat) (distance : Int) : Prop :=
  IsLeast {d : Int | ∃ turns : Int, d = |(azimuth : Int) - startAngle + 36000 * turns|} distance

/-- There are more than 150 packets and at most 182 from one cloud to the next, and the next ends
within a degree of the start angle or with the last of them. -/
def Follows (first second : Delivery Coord Time) : Prop :=
  ∃ counted, second.received = first.received + counted ∧ 150 < counted ∧ counted ≤ 182 ∧
    (gap second.azimuth lidar.startAngle.val ≤ 100 ∨ counted = 182)

def times (cloud : List (PPoint Coord Time)) : List Time := cloud.map (·.timestamp)

def Timely (log : List (Delivery Coord Time)) : Prop :=
  ∀ delivery ∈ log, IsLeast {time | time ∈ times delivery.cloud} delivery.timestamp

/-- All times are one, or none is positive and the last is the smallest. -/
def Steady (all : List Time) : Prop :=
  (∀ time ∈ all, ∀ other ∈ all, time = other) ∨
    (∀ time ∈ all, time ≤ 0) ∧ ∀ last ∈ all.getLast?, ∀ time ∈ all, last ≤ time

def SteadyTimes (state : Sweep Coord Time) : SweepEvent Stamp → Prop
  | .packet => True
  | .block pkt i => Closes lidar state (pkt.blocks i).azimuth → Steady (times state.outMsg)

end Events

section Times

theorem foldl_smallest (all : List Time) :
    (0 < all.foldl smallest 0 → IsGreatest {time | time ∈ all} (all.foldl smallest 0)) ∧
      (all.foldl smallest 0 ≤ 0 → (∀ time ∈ all, time ≤ 0) ∧
        all.foldl smallest 0 = all.getLast?.getD 0) := by
  induction all using List.reverseRecOn with
  | nil => exact ⟨fun h => absurd h (lt_irrefl 0), fun _ => ⟨nofun, rfl⟩⟩
  | append_singleton all time ih =>
      obtain ⟨hpositive, hnone⟩ := ih
      rw [List.foldl_append, List.foldl_cons, List.foldl_nil, List.getLast?_append]
      generalize all.foldl smallest 0 = kept at hpositive hnone
      have hmem (other : Time) : other ∈ all ++ [time] ↔ other ∈ all ∨ other = time := by
        rw [List.mem_append, List.mem_singleton]
      simp only [hmem]
      unfold smallest
      rcases le_or_gt kept 0 with hkept | hkept
      · obtain ⟨hall, -⟩ := hnone hkept
        rw [if_pos (Or.inr hkept)]
        refine ⟨fun htime => ⟨Or.inr rfl, ?_⟩, fun htime => ⟨?_, rfl⟩⟩
        · rintro other (hother | rfl)
          · exact (hall other hother).trans htime.le
          · exact le_rfl
        · rintro other (hother | rfl)
          · exact hall other hother
          · exact htime
      · obtain ⟨hin, hgreatest⟩ := hpositive hkept
        rcases lt_or_ge kept time with hless | hmore
        · rw [if_pos (Or.inl ⟨hkept, hless⟩)]
          refine ⟨fun _ => ⟨Or.inr rfl, ?_⟩, fun h => absurd h (hkept.trans hless).not_ge⟩
          rintro other (hother | rfl)
          · exact (hgreatest hother).trans hless.le
          · exact le_rfl
        · rw [if_neg (not_or.mpr ⟨fun h => hmore.not_gt h.2, hkept.not_ge⟩)]
          refine ⟨fun _ => ⟨Or.inl hin, ?_⟩, fun h => absurd h hkept.not_ge⟩
          rintro other (hother | rfl)
          · exact hgreatest hother
          · exact hmore

theorem isLeast_iff_steady {all : List Time} (hall : all ≠ []) :
    IsLeast {time | time ∈ all} (all.foldl smallest 0) ↔ Steady all := by
  obtain ⟨hpositive, hnone⟩ := foldl_smallest all
  rcases le_or_gt (all.foldl smallest 0) 0 with hkept | hkept
  · obtain ⟨hle, hlast⟩ := hnone hkept
    obtain ⟨last, hgetLast⟩ : ∃ last, all.getLast? = some last :=
      ⟨_, List.getLast?_eq_some_getLast hall⟩
    rw [hgetLast, Option.getD_some] at hlast
    rw [hlast]
    have hin : last ∈ all := List.mem_of_getLast? hgetLast
    constructor
    · intro hleast
      refine Or.inr ⟨hle, fun other hother time htime => ?_⟩
      obtain rfl := Option.mem_unique hgetLast hother
      exact hleast.2 htime
    · rintro (hsame | ⟨-, hlow⟩)
      · exact ⟨hin, fun time htime => (hsame last hin time htime).le⟩
      · exact ⟨hin, fun time htime => hlow last hgetLast time htime⟩
  · obtain ⟨hin, hgreatest⟩ := hpositive hkept
    constructor
    · intro hleast
      have hkeptEq (time : Time) (htime : time ∈ all) : time = all.foldl smallest 0 :=
        le_antisymm (hgreatest htime) (hleast.2 htime)
      exact Or.inl fun time htime other hother =>
        (hkeptEq time htime).trans (hkeptEq other hother).symm
    · rintro (hsame | ⟨hle, -⟩)
      · exact ⟨hin, fun time htime => (hsame _ hin time htime).le⟩
      · exact absurd (hle _ hin) hkept.not_ge

end Times

section Block

variable {lidar : Lidar Stamp Coord Time} {state : Sweep Coord Time}

/-- The points that are not skipped are added, and the time goes over theirs. -/
theorem calcPointXYZIT_eq (pkt : Pandar40PPacket Stamp) (blockid : Fin BLOCKS_PER_PACKET) :
    calcPointXYZIT lidar pkt blockid state =
      { state with
        timestamp := (times (lidar.points pkt blockid)).foldl smallest state.timestamp
        outMsg := state.outMsg ++ lidar.points pkt blockid } := by
  unfold calcPointXYZIT Lidar.points
  induction List.finRange LASER_COUNT generalizing state with
  | nil => rw [List.foldl_nil, List.filter_nil, List.map_nil, List.append_nil]; rfl
  | cons i lasers ih =>
      rw [List.foldl_cons, ih, calcPoint]
      by_cases haccepted : ((pkt.blocks blockid).units i).accepted
      · rw [if_pos haccepted, List.filter_cons, if_pos (decide_eq_true haccepted)]
        dsimp only
        rw [List.append_assoc]
        rfl
      · rw [if_neg haccepted, List.filter_cons, if_neg (by simpa using haccepted)]

theorem processBlock_of_closes {pkt : Pandar40PPacket Stamp} {i : Fin BLOCKS_PER_PACKET}
    (h : Closes lidar state (pkt.blocks i).azimuth) :
    processBlock lidar pkt state i =
      calcPointXYZIT lidar pkt i (state.close (pkt.blocks i).azimuth) := by
  rw [processBlock, if_pos h]

theorem processBlock_of_not_closes {pkt : Pandar40PPacket Stamp} {i : Fin BLOCKS_PER_PACKET}
    (h : ¬ Closes lidar state (pkt.blocks i).azimuth) :
    processBlock lidar pkt state i = calcPointXYZIT lidar pkt i state := by
  rw [processBlock, if_neg h]

omit [LinearOrder Time] [Zero Time] in
theorem Closes.pending {azimuth : BitVec 16} (h : Closes lidar state azimuth) :
    state.outMsg ≠ [] :=
  List.ne_nil_of_length_pos h.2.2

end Block

section Points

variable (lidar : Lidar Stamp Coord Time)

theorem processBlock_points (pkt : Pandar40PPacket Stamp) (state : Sweep Coord Time)
    (i : Fin BLOCKS_PER_PACKET) :
    (processBlock lidar pkt state i).points = state.points ++ lidar.points pkt i := by
  by_cases hcloses : Closes lidar state (pkt.blocks i).azimuth
  · rw [processBlock_of_closes hcloses, calcPointXYZIT_eq]
    simp only [Sweep.points, Sweep.close, List.flatMap_append, List.flatMap_singleton,
      List.nil_append]
  · rw [processBlock_of_not_closes hcloses, calcPointXYZIT_eq]
    simp only [Sweep.points, List.append_assoc]

theorem foldl_processBlock_points (pkt : Pandar40PPacket Stamp)
    (blocks : List (Fin BLOCKS_PER_PACKET)) (state : Sweep Coord Time) :
    (blocks.foldl (processBlock lidar pkt) state).points =
      state.points ++ blocks.flatMap (lidar.points pkt) := by
  induction blocks generalizing state with
  | nil => exact (List.append_nil state.points).symm
  | cons i blocks ih =>
      rw [List.foldl_cons, ih, processBlock_points, List.flatMap_cons, List.append_assoc]

theorem processLiarPacket_points (state : Sweep Coord Time) (pkt : Pandar40PPacket Stamp) :
    (processLiarPacket lidar state pkt).points = state.points ++ lidar.packetPoints pkt :=
  foldl_processBlock_points lidar pkt (List.finRange BLOCKS_PER_PACKET) state.count

theorem sweep_points (packets : List (Pandar40PPacket Stamp)) :
    (sweep lidar packets).points = packets.flatMap lidar.packetPoints := by
  induction packets using List.reverseRecOn with
  | nil => rfl
  | append_singleton packets pkt ih =>
      rw [sweep, List.foldl_append, List.foldl_cons, List.foldl_nil, processLiarPacket_points,
        List.flatMap_append, List.flatMap_singleton]
      exact congrArg (· ++ lidar.packetPoints pkt) ih

end Points

section Packets

variable {lidar : Lidar Stamp Coord Time} {state : Sweep Coord Time}

structure Counted (lidar : Lidar Stamp Coord Time) (state : Sweep Coord Time) : Prop where
  counted : state.packetIndex.toNat ≤ 182
  pending : state.packetIndex.toNat = 182 → state.outMsg ≠ []
  received : ∀ last ∈ state.delivered.getLast?,
    state.received = last.received + state.packetIndex.toNat
  follows : state.delivered.IsChain (Follows lidar)

omit [LinearOrder Time] [Zero Time] in
theorem closes_iff (hcallback : lidar.callback = true) (hcounted : state.packetIndex.toNat ≤ 182)
    (azimuth : BitVec 16) :
    Closes lidar state azimuth ↔
      ((150 < state.packetIndex.toNat ∧ gap azimuth lidar.startAngle.val ≤ 100) ∨
        state.packetIndex.toNat = 182) ∧ state.outMsg ≠ [] := by
  have htoInt : state.packetIndex.toInt = state.packetIndex.toNat :=
    BitVec.toInt_eq_toNat_of_lt (by omega)
  have hrate : PACKETS_PER_ROUND * 5 / 6 = 150 := by decide
  have hround : PACKETS_PER_ROUND + 1 = 181 := by decide
  have hlimit : RATE_PER_PACKET * 100 / 2 = 100 := by decide
  unfold Closes
  rw [htoInt, hrate, hround, hlimit, List.length_pos_iff]
  constructor
  · rintro ⟨hnear | hlong, -, hpending⟩
    · exact ⟨Or.inl ⟨by omega, hnear.2⟩, hpending⟩
    · exact ⟨Or.inr (by omega), hpending⟩
  · rintro ⟨⟨hmany, hnear⟩ | hlong, hpending⟩
    · exact ⟨Or.inl ⟨by omega, hnear⟩, hcallback, hpending⟩
    · exact ⟨Or.inr (by omega), hcallback, hpending⟩

omit [LinearOrder Time] [Zero Time] in
theorem Counted.count (h : Counted lidar state) (hcounted : state.packetIndex.toNat ≤ 181)
    (hpending : state.packetIndex = 0 ∨ state.outMsg ≠ []) : Counted lidar state.count := by
  have hnext : (state.packetIndex + 1).toNat = state.packetIndex.toNat + 1 := by
    rw [BitVec.toNat_add_of_lt]
    · rfl
    · exact Nat.lt_of_le_of_lt (Nat.succ_le_succ hcounted) (by decide)
  refine ⟨hnext.trans_le (Nat.succ_le_succ hcounted), fun hlong => ?_, fun last hlast => ?_,
    h.follows⟩
  · refine hpending.resolve_left fun hzero => ?_
    rw [Sweep.count, hnext, hzero] at hlong
    cases hlong
  · exact (congrArg (· + 1) (h.received last hlast)).trans
      ((Nat.add_assoc _ _ _).trans (congrArg (last.received + ·) hnext.symm))

theorem Counted.processBlock (hcallback : lidar.callback = true) (h : Counted lidar state)
    (pkt : Pandar40PPacket Stamp) (i : Fin BLOCKS_PER_PACKET) :
    Counted lidar (processBlock lidar pkt state i) ∧
      (processBlock lidar pkt state i).packetIndex.toNat ≤ 181 := by
  have hiff := closes_iff hcallback h.counted (pkt.blocks i).azimuth
  by_cases hcloses : Closes lidar state (pkt.blocks i).azimuth
  · rw [processBlock_of_closes hcloses, calcPointXYZIT_eq]
    have hzero : (0 : BitVec 32).toNat = 0 := rfl
    refine ⟨⟨hzero.trans_le (Nat.zero_le _), fun h => absurd h (Nat.zero_ne_add_one 181), ?_, ?_⟩,
      hzero.trans_le (Nat.zero_le _)⟩
    · intro last hlast
      dsimp only [Sweep.close] at hlast ⊢
      rw [List.getLast?_concat] at hlast
      obtain rfl := Option.some.inj hlast
      exact (Nat.add_zero _).symm
    · refine List.isChain_append.mpr ⟨h.follows, List.isChain_singleton _, ?_⟩
      intro first hfirst second hsecond
      obtain rfl := Option.some.inj hsecond
      refine ⟨_, h.received first hfirst, ?_, h.counted, ?_⟩
      · rcases (hiff.mp hcloses).1 with ⟨hmany, -⟩ | hlong
        · exact hmany
        · exact hlong ▸ by decide
      · exact (hiff.mp hcloses).1.imp And.right id
  · rw [processBlock_of_not_closes hcloses, calcPointXYZIT_eq]
    have hroom : state.packetIndex.toNat ≠ 182 := fun hlong =>
      hcloses (hiff.mpr ⟨Or.inr hlong, h.pending hlong⟩)
    exact ⟨⟨h.counted, fun hlong => absurd hlong hroom, h.received, h.follows⟩,
      Nat.le_of_lt_succ (Nat.lt_of_le_of_ne h.counted hroom)⟩

theorem Counted.foldl_processBlock (hcallback : lidar.callback = true) (h : Counted lidar state)
    (pkt : Pandar40PPacket Stamp) (blocks : List (Fin BLOCKS_PER_PACKET)) :
    Counted lidar (blocks.foldl (Pandora.processBlock lidar pkt) state) ∧
      (blocks ≠ [] →
        (blocks.foldl (Pandora.processBlock lidar pkt) state).packetIndex.toNat ≤ 181) := by
  induction blocks using List.reverseRecOn with
  | nil => exact ⟨h, fun h => absurd rfl h⟩
  | append_singleton blocks i ih =>
      rw [List.foldl_append, List.foldl_cons, List.foldl_nil]
      obtain ⟨hnext, hroom⟩ := ih.1.processBlock hcallback pkt i
      exact ⟨hnext, fun _ => hroom⟩

theorem foldl_processBlock_pending (pkt : Pandar40PPacket Stamp)
    (blocks : List (Fin BLOCKS_PER_PACKET)) :
    (blocks.foldl (processBlock lidar pkt) state).packetIndex = 0 ∨
      (blocks.foldl (processBlock lidar pkt) state).outMsg =
        state.outMsg ++ blocks.flatMap (lidar.points pkt) := by
  induction blocks using List.reverseRecOn with
  | nil => exact Or.inr (List.append_nil state.outMsg).symm
  | append_singleton blocks i ih =>
      rw [List.foldl_append, List.foldl_cons, List.foldl_nil]
      generalize blocks.foldl (processBlock lidar pkt) state = middle at ih
      by_cases hcloses : Closes lidar middle (pkt.blocks i).azimuth
      · rw [processBlock_of_closes hcloses, calcPointXYZIT_eq]
        exact Or.inl rfl
      · rw [processBlock_of_not_closes hcloses, calcPointXYZIT_eq]
        refine ih.imp id fun hpending => ?_
        rw [List.flatMap_append, List.flatMap_singleton, ← List.append_assoc]
        exact congrArg (· ++ lidar.points pkt i) hpending

structure Counted.Between (lidar : Lidar Stamp Coord Time) (state : Sweep Coord Time) : Prop where
  counted : Counted lidar state
  room : state.packetIndex.toNat ≤ 181
  pending : state.packetIndex = 0 ∨ state.outMsg ≠ []

theorem Counted.Between.processLiarPacket (hcallback : lidar.callback = true)
    (h : Between lidar state) {pkt : Pandar40PPacket Stamp}
    (hpoints : lidar.packetPoints pkt ≠ []) :
    Between lidar (processLiarPacket lidar state pkt) := by
  have hcount := h.counted.count h.room h.pending
  obtain ⟨hcounted, hroom⟩ :=
    hcount.foldl_processBlock hcallback pkt (List.finRange BLOCKS_PER_PACKET)
  refine ⟨hcounted, hroom (by decide), ?_⟩
  refine (foldl_processBlock_pending pkt (List.finRange BLOCKS_PER_PACKET)).imp id ?_
  intro hpending hnone
  exact hpoints (List.append_eq_nil_iff.mp (hpending.symm.trans hnone)).2

theorem sweep_between (hcallback : lidar.callback = true) {packets : List (Pandar40PPacket Stamp)}
    (hpoints : ∀ pkt ∈ packets, lidar.packetPoints pkt ≠ []) :
    Counted.Between lidar (sweep lidar packets) := by
  induction packets using List.reverseRecOn with
  | nil =>
      exact ⟨⟨Nat.zero_le _, fun h => absurd h (Nat.zero_ne_add_one 181), nofun, List.isChain_nil⟩,
        Nat.zero_le _, Or.inl rfl⟩
  | append_singleton packets pkt ih =>
      rw [sweep, List.foldl_append, List.foldl_cons, List.foldl_nil]
      refine (ih fun other hother => ?_).processLiarPacket hcallback ?_
      · exact hpoints other (List.mem_append_left _ hother)
      · exact hpoints pkt (List.mem_append_right _ (List.mem_singleton_self pkt))

end Packets

section Run

variable (lidar : Lidar Stamp Coord Time)

theorem run_blocks (pkt : Pandar40PPacket Stamp) (blocks : List (Fin BLOCKS_PER_PACKET))
    (state : Sweep Coord Time) :
    run (sweepStep lidar) state (blocks.map (.block pkt)) =
      some (blocks.foldl (processBlock lidar pkt) state) := by
  induction blocks generalizing state with
  | nil => rfl
  | cons i blocks ih => exact ih (processBlock lidar pkt state i)

theorem run_packetEvents (pkt : Pandar40PPacket Stamp) (state : Sweep Coord Time) :
    run (sweepStep lidar) state (packetEvents pkt) = some (processLiarPacket lidar state pkt) := by
  rw [packetEvents, run_cons, sweepStep, Option.bind_some, run_blocks, processLiarPacket]

theorem run_sweep (packets : List (Pandar40PPacket Stamp)) :
    run (sweepStep lidar) Sweep.init (packets.flatMap packetEvents) =
      some (sweep lidar packets) := by
  induction packets using List.reverseRecOn with
  | nil => rfl
  | append_singleton packets pkt ih =>
      rw [List.flatMap_append, List.flatMap_singleton, run_append_of_eq _ ih, run_packetEvents,
        sweep, sweep, List.foldl_append, List.foldl_cons, List.foldl_nil]

theorem sweep_invariant (Inv : Sweep Coord Time → Prop) (hinit : Inv Sweep.init)
    (hcount : ∀ state, Inv state → Inv state.count)
    (hblock : ∀ state pkt i, Inv state → Inv (processBlock lidar pkt state i))
    (packets : List (Pandar40PPacket Stamp)) : Inv (sweep lidar packets) := by
  refine run_invariant ?_ hinit (run_sweep lidar packets)
  rintro state (_ | ⟨pkt, i⟩) next hinv hstep
  · obtain rfl := Option.some.inj hstep
    exact hcount state hinv
  · obtain rfl := Option.some.inj hstep
    exact hblock state pkt i hinv

theorem sweep_delivered_of_callback (hcallback : lidar.callback = false)
    (packets : List (Pandar40PPacket Stamp)) : (sweep lidar packets).delivered = [] := by
  refine sweep_invariant lidar (fun state => state.delivered = []) rfl (fun _ => id) ?_ packets
  intro state pkt i hnone
  have hcloses : ¬ Closes lidar state (pkt.blocks i).azimuth := fun h =>
    Bool.false_ne_true (hcallback.symm.trans h.2.1)
  rw [processBlock_of_not_closes hcloses, calcPointXYZIT_eq]
  exact hnone

theorem sweep_follows {packets : List (Pandar40PPacket Stamp)}
    (hpoints : ∀ pkt ∈ packets, lidar.packetPoints pkt ≠ []) :
    (sweep lidar packets).delivered.IsChain (Follows lidar) := by
  cases hcallback : lidar.callback with
  | true => exact (sweep_between hcallback hpoints).counted.follows
  | false =>
      rw [sweep_delivered_of_callback lidar hcallback]
      exact List.isChain_nil

end Run

theorem circularDistance_gap (azimuth : BitVec 16) (hturn : azimuth.toNat < 36000)
    (startAngle : Fin 36001) :
    CircularDistance azimuth.toNat startAngle.val (gap azimuth startAngle.val) := by
  have hstart := startAngle.isLt
  unfold CircularDistance gap
  have hlow : -36000 ≤ (azimuth.toNat : Int) - startAngle.val := by omega
  have hhigh : (azimuth.toNat : Int) - startAngle.val ≤ 36000 := by omega
  generalize (azimuth.toNat : Int) - startAngle.val = difference at *
  constructor
  · rcases min_choice |difference| (36000 - |difference|) with hmin | hmin
    · rw [hmin]
      exact ⟨0, by rw [Int.mul_zero, Int.add_zero]⟩
    · rw [hmin]
      rcases abs_cases difference with ⟨habs, hsign⟩ | ⟨habs, hsign⟩
      · refine ⟨-1, ?_⟩
        rw [habs, abs_of_nonpos (by omega)]
        omega
      · refine ⟨1, ?_⟩
        rw [habs, abs_of_nonneg (by omega)]
        omega
  · rintro distance ⟨turns, rfl⟩
    rcases eq_or_ne turns 0 with rfl | hturns
    · rw [Int.mul_zero, Int.add_zero]
      exact min_le_left _ _
    · -- a turn more or less is at least the rest of the circle
      refine (min_le_right _ _).trans ?_
      rcases abs_cases difference with ⟨habs, hsign⟩ | ⟨habs, hsign⟩ <;>
        rcases abs_cases (difference + 36000 * turns) with ⟨hfar, hside⟩ | ⟨hfar, hside⟩ <;>
          omega

section Timestamp

variable {lidar : Lidar Stamp Coord Time} {state : Sweep Coord Time}

omit [LinearOrder Time] [Zero Time] in
theorem times_append (first second : List (PPoint Coord Time)) :
    times (first ++ second) = times first ++ times second := List.map_append

/-- The time went over the points of the pending cloud, and over those alone. -/
def TimeKept (state : Sweep Coord Time) : Prop :=
  state.timestamp = (times state.outMsg).foldl smallest 0

theorem TimeKept.processBlock (h : TimeKept state) (pkt : Pandar40PPacket Stamp)
    (i : Fin BLOCKS_PER_PACKET) : TimeKept (processBlock lidar pkt state i) := by
  unfold TimeKept at *
  by_cases hcloses : Closes lidar state (pkt.blocks i).azimuth
  · rw [processBlock_of_closes hcloses, calcPointXYZIT_eq]
    rfl
  · rw [processBlock_of_not_closes hcloses, calcPointXYZIT_eq]
    dsimp only
    rw [times_append, List.foldl_append, h]

theorem timely_processBlock (h : TimeKept state) (pkt : Pandar40PPacket Stamp)
    (i : Fin BLOCKS_PER_PACKET) :
    Timely (processBlock lidar pkt state i).delivered ↔
      Timely state.delivered ∧ SteadyTimes lidar state (.block pkt i) := by
  by_cases hcloses : Closes lidar state (pkt.blocks i).azimuth
  · have hpending : times state.outMsg ≠ [] := fun hnone =>
      hcloses.pending (List.map_eq_nil_iff.mp hnone)
    have hsteady : SteadyTimes lidar state (.block pkt i) ↔ Steady (times state.outMsg) :=
      forall_prop_of_true hcloses
    rw [processBlock_of_closes hcloses, calcPointXYZIT_eq, hsteady,
      ← isLeast_iff_steady hpending, ← h]
    exact List.forall_mem_append.trans (and_congr_right fun _ => List.forall_mem_singleton)
  · rw [processBlock_of_not_closes hcloses, calcPointXYZIT_eq]
    exact (and_iff_left fun h => absurd h hcloses).symm

theorem timely_sweep (packets : List (Pandar40PPacket Stamp)) :
    Timely (sweep lidar packets).delivered ↔
      StepsMeet (sweepStep lidar) (SteadyTimes lidar) Sweep.init
        (packets.flatMap packetEvents) := by
  have hpreserved {state : Sweep Coord Time} {event : SweepEvent Stamp}
      {next : Sweep Coord Time} (hkept : TimeKept state)
      (hstep : sweepStep lidar state event = some next) : TimeKept next := by
    cases event with
    | packet =>
        obtain rfl := Option.some.inj hstep
        exact hkept
    | block pkt i =>
        obtain rfl := Option.some.inj hstep
        exact hkept.processBlock pkt i
  have hadds {state : Sweep Coord Time} {event : SweepEvent Stamp}
      {next : Sweep Coord Time} (hkept : TimeKept state)
      (hstep : sweepStep lidar state event = some next) :
      Timely next.delivered ↔ Timely state.delivered ∧ SteadyTimes lidar state event := by
    cases event with
    | packet =>
        obtain rfl := Option.some.inj hstep
        exact (and_iff_left trivial).symm
    | block pkt i =>
        obtain rfl := Option.some.inj hstep
        exact timely_processBlock hkept pkt i
  have hinit : TimeKept (Sweep.init : Sweep Coord Time) := rfl
  exact (run_iff_stepsMeet hpreserved hadds hinit (run_sweep lidar packets)).trans
    (and_iff_right nofun)

end Timestamp

section Few

variable {lidar : Lidar Stamp Coord Time} {state : Sweep Coord Time}

omit [LinearOrder Time] [Zero Time] in
theorem not_closes_of_few (hfew : state.packetIndex.toNat ≤ 150) (azimuth : BitVec 16) :
    ¬ Closes lidar state azimuth := by
  have htoInt : state.packetIndex.toInt = state.packetIndex.toNat :=
    BitVec.toInt_eq_toNat_of_lt (by omega)
  rintro ⟨⟨hmany, -⟩ | hlong, -⟩
  · have hrate : PACKETS_PER_ROUND * 5 / 6 = 150 := by decide
    omega
  · have hround : PACKETS_PER_ROUND + 1 = 181 := by decide
    omega

theorem foldl_processBlock_of_few (hfew : state.packetIndex.toNat ≤ 150)
    (pkt : Pandar40PPacket Stamp) (blocks : List (Fin BLOCKS_PER_PACKET)) :
    blocks.foldl (processBlock lidar pkt) state =
      { state with
        timestamp := (times (blocks.flatMap (lidar.points pkt))).foldl smallest state.timestamp
        outMsg := state.outMsg ++ blocks.flatMap (lidar.points pkt) } := by
  induction blocks generalizing state with
  | nil => rw [List.flatMap_nil, List.append_nil]; rfl
  | cons i blocks ih =>
      rw [List.foldl_cons, processBlock_of_not_closes (not_closes_of_few hfew _),
        calcPointXYZIT_eq]
      refine (ih ?_).trans ?_
      · exact hfew
      · rw [List.flatMap_cons, times_append, List.foldl_append, List.append_assoc]

theorem sweep_of_few {packets : List (Pandar40PPacket Stamp)} (hfew : packets.length ≤ 150) :
    sweep lidar packets =
      { packetIndex := BitVec.ofNat 32 packets.length
        timestamp := (times (packets.flatMap lidar.packetPoints)).foldl smallest 0
        outMsg := packets.flatMap lidar.packetPoints
        received := packets.length
        delivered := [] } := by
  induction packets using List.reverseRecOn with
  | nil => rfl
  | append_singleton packets pkt ih =>
      rw [List.length_append, List.length_singleton] at hfew ⊢
      have hindex : (BitVec.ofNat 32 (packets.length + 1)).toNat ≤ 150 := by
        rw [BitVec.toNat_ofNat, Nat.mod_eq_of_lt (by omega)]
        exact hfew
      rw [sweep, List.foldl_append, List.foldl_cons, List.foldl_nil, ← sweep,
        ih (Nat.le_of_succ_le hfew), processLiarPacket, List.flatMap_append,
        List.flatMap_singleton, times_append, List.foldl_append]
      refine (foldl_processBlock_of_few ?_ pkt (List.finRange BLOCKS_PER_PACKET)).trans ?_
      · rw [BitVec.ofNat_add] at hindex
        exact hindex
      · rw [BitVec.ofNat_add]
        rfl

theorem steady_of_timely {packets : List (Pandar40PPacket Stamp)} (hfew : packets.length = 150)
    (hpending : packets.flatMap lidar.packetPoints ≠ []) (hcallback : lidar.callback = true)
    {pkt : Pandar40PPacket Stamp} (hgap : gap (pkt.blocks 0).azimuth lidar.startAngle.val ≤ 100)
    (htimely : Timely (sweep lidar (packets ++ [pkt])).delivered) :
    Steady (times (packets.flatMap lidar.packetPoints)) := by
  have hsteady := (timely_sweep (packets ++ [pkt])).mp htimely
  have hevents : packets.flatMap packetEvents ++ [.packet] ++ [.block pkt 0] <+:
      (packets ++ [pkt]).flatMap packetEvents := by
    rw [List.flatMap_append, List.flatMap_singleton, List.append_assoc]
    exact (List.prefix_append_right_inj _).mpr ⟨_, rfl⟩
  have hrun := run_append_of_eq (sweepStep lidar) (run_sweep lidar packets) [.packet]
  have hblock := hsteady _ _ hevents _ hrun
  rw [sweep_of_few hfew.le, hfew] at hblock
  have hmany : PACKETS_PER_ROUND * 5 / 6 < (BitVec.ofNat 32 150 + 1).toInt := by decide
  exact hblock ⟨Or.inl ⟨hmany, hgap⟩, hcallback, List.length_pos_of_ne_nil hpending⟩

end Few

/-- The clouds hold all accepted points in order, end where a round does, and have the smallest
time of their points, exactly when what is handed out has steady times. -/
theorem sweep_iff (lidar : Lidar Stamp Coord Time) (packets : List (Pandar40PPacket Stamp)) :
    ((sweep lidar packets).points = packets.flatMap lidar.packetPoints ∧
      (∀ pkt ∈ packets, ∀ i, (pkt.blocks i).azimuth.toNat < 36000 →
        CircularDistance (pkt.blocks i).azimuth.toNat lidar.startAngle.val
          (gap (pkt.blocks i).azimuth lidar.startAngle.val)) ∧
      ((∀ pkt ∈ packets, lidar.packetPoints pkt ≠ []) →
        (sweep lidar packets).delivered.IsChain (Follows lidar)) ∧
      Timely (sweep lidar packets).delivered) ↔
      StepsMeet (sweepStep lidar) (SteadyTimes lidar) Sweep.init
        (packets.flatMap packetEvents) := by
  constructor
  · rintro ⟨-, -, -, htimely⟩
    exact (timely_sweep packets).mp htimely
  · intro hsteady
    refine ⟨sweep_points lidar packets, fun pkt _ i hturn => ?_, sweep_follows lidar,
      (timely_sweep packets).mpr hsteady⟩
    exact circularDistance_gap _ hturn lidar.startAngle

def twoTimes : Lidar Unit Unit Int where
  startAngle := 0
  callback := true
  place := fun _ _ _ => ()
  time := fun _ _ i => i.val + 1

def twoUnits : Pandar40PPacket Unit where
  blocks := fun _ => ⟨0, fun i => ⟨if i.val < 2 then 1000 else 0, 0⟩⟩
  stamp := ()

theorem sweep_fails :
    ¬ ((sweep twoTimes (List.replicate 151 twoUnits)).points =
        (List.replicate 151 twoUnits).flatMap twoTimes.packetPoints ∧
      (∀ pkt ∈ List.replicate 151 twoUnits, ∀ i, (pkt.blocks i).azimuth.toNat < 36000 →
        CircularDistance (pkt.blocks i).azimuth.toNat twoTimes.startAngle.val
          (gap (pkt.blocks i).azimuth twoTimes.startAngle.val)) ∧
      ((∀ pkt ∈ List.replicate 151 twoUnits, twoTimes.packetPoints pkt ≠ []) →
        (sweep twoTimes (List.replicate 151 twoUnits)).delivered.IsChain (Follows twoTimes)) ∧
      Timely (sweep twoTimes (List.replicate 151 twoUnits)).delivered) := by
  rintro ⟨-, -, -, htimely⟩
  have htimes : ∀ time ∈ [1, 2], time ∈ times (twoTimes.packetPoints twoUnits) := by
    decide +kernel
  have hall (time : Int) (htime : time ∈ [1, 2]) :
      time ∈ times ((List.replicate 150 twoUnits).flatMap twoTimes.packetPoints) := by
    rw [List.replicate_succ, List.flatMap_cons, times_append]
    exact List.mem_append_left _ (htimes time htime)
  rw [List.replicate_succ'] at htimely
  have hpending : (List.replicate 150 twoUnits).flatMap twoTimes.packetPoints ≠ [] := fun hnone =>
    List.ne_nil_of_mem (hall 1 (by decide)) (congrArg times hnone)
  rcases steady_of_timely List.length_replicate hpending rfl (by decide) htimely with
    hsame | ⟨hnone, -⟩
  · exact absurd (hsame 1 (hall 1 (by decide)) 2 (hall 2 (by decide))) (by decide)
  · exact absurd (hnone 1 (hall 1 (by decide))) (by decide)

end ApolloContrib.Pandora
