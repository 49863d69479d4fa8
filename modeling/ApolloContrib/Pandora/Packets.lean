import Mathlib.Algebra.Ring.Int.Defs
import ApolloContrib.Library.CountedQueue
import ApolloContrib.Pandora.Sweep

namespace ApolloContrib.Pandora

open ApolloContrib.Library

/-! The two threads of `Pandar40P_Internal`, started and stopped again and again: `RecvTask`
receives packets, and `ProcessLiarPacket` cuts them into clouds. -/

/-- A packet that is no packet of the GPS: of `PACKET_SIZE`, or of another size. -/
inductive PandarPacket (Stamp : Type*)
  | lidar (pkt : Pandar40PPacket Stamp)
  | other

/-- What `getPacket` gives: -1, a packet of the GPS, or another. -/
inductive Datagram (Stamp : Type*)
  | failed
  | gps
  | packet (packet : PandarPacket Stamp)

/-- Where `RecvTask` is. -/
inductive RecvTask
  | test
  | receive
  deriving DecidableEq

/-- Where `ProcessLiarPacket` is. -/
inductive ProcessTask
  | test
  | wait
  | take
  deriving DecidableEq

/-- The flags, the thread behind each pointer and where it is, and a call of `Stop` under way,
which may be that of `Start`. -/
structure Pandar40P (Stamp Coord Time : Type*) where
  enableLidarRecvThr : Bool
  enableLidarProcessThr : Bool
  lidarRecvThr : Option RecvTask
  lidarProcessThr : Option ProcessTask
  stopping : Option Bool
  lidarPackets : CountedQueue (PandarPacket Stamp)
  sweep : Sweep Coord Time

inductive PandarStep (Stamp : Type*)
  | stop (start : Bool)
  /-- Both threads have ended; `Start` makes new ones. -/
  | join
  | testRecv
  | receive (received : Datagram Stamp)
  | testProcess
  | timeout
  | semWait
  | take

/-- The documented largest value of a semaphore. -/
abbrev SEM_VALUE_MAX : Nat := 2147483647

variable {Stamp Coord Time : Type*} [LinearOrder Time] [Zero Time]

/-- The thread starts with a new cloud, and what was in the old one is gone. -/
def Sweep.reset (sweep : Sweep Coord Time) : Sweep Coord Time := { sweep with outMsg := [] }

def processPacket (lidar : Lidar Stamp Coord Time) (sweep : Sweep Coord Time) :
    PandarPacket Stamp → Sweep Coord Time
  | .lidar pkt => processLiarPacket lidar sweep pkt
  | .other => sweep

namespace Pandar40P

def init : Pandar40P Stamp Coord Time :=
  { enableLidarRecvThr := false, enableLidarProcessThr := false, lidarRecvThr := none
    lidarProcessThr := none, stopping := none, lidarPackets := .init, sweep := .init }

variable (s : Pandar40P Stamp Coord Time)

def pushLiDARData (packet : PandarPacket Stamp) : Pandar40P Stamp Coord Time :=
  { s with lidarPackets := (s.lidarPackets.pushBack packet).semPost SEM_VALUE_MAX }

/-- `none` is the front of an empty list. -/
def step (lidar : Lidar Stamp Coord Time) (s : Pandar40P Stamp Coord Time) :
    PandarStep Stamp → Option (Pandar40P Stamp Coord Time)
  | .stop start =>
      some { s with
        enableLidarRecvThr := false
        enableLidarProcessThr := false
        stopping := some start }
  | .join =>
      if s.stopping = some true then
        some { s with
          enableLidarRecvThr := true
          enableLidarProcessThr := true
          lidarRecvThr := some .test
          lidarProcessThr := some .test
          stopping := none
          sweep := s.sweep.reset }
      else some { s with stopping := none }
  | .testRecv =>
      some { s with lidarRecvThr := if s.enableLidarRecvThr then some .receive else none }
  | .receive (.packet packet) =>
      some { s.pushLiDARData packet with lidarRecvThr := some .test }
  | .receive _ => some { s with lidarRecvThr := some .test }
  | .testProcess =>
      some { s with lidarProcessThr := if s.enableLidarProcessThr then some .wait else none }
  | .timeout => some { s with lidarProcessThr := some .test }
  | .semWait =>
      s.lidarPackets.semWait.map fun packets =>
        { s with lidarPackets := packets, lidarProcessThr := some .take }
  | .take =>
      s.lidarPackets.popFront.map fun (packet, packets) =>
        { s with
          lidarPackets := packets
          lidarProcessThr := some .test
          sweep := processPacket lidar s.sweep packet }

/-- The thread is there, and nobody calls `Start` or `Stop` during such a call. -/
def Due : PandarStep Stamp → Prop
  | .stop _ => s.stopping = none
  | .join => s.stopping ≠ none ∧ s.lidarRecvThr = none ∧ s.lidarProcessThr = none
  | .testRecv => s.lidarRecvThr = some .test
  | .receive _ => s.lidarRecvThr = some .receive
  | .testProcess => s.lidarProcessThr = some .test
  | .timeout => s.lidarProcessThr = some .wait
  | .semWait => s.lidarProcessThr = some .wait ∧ s.lidarPackets.permits ≠ 0
  | .take => s.lidarProcessThr = some .take

instance (label : PandarStep Stamp) : Decidable (s.Due label) :=
  match label with
  | .stop _ => inferInstanceAs (Decidable (_ = _))
  | .join => inferInstanceAs (Decidable (_ ∧ _ ∧ _))
  | .testRecv => inferInstanceAs (Decidable (_ = _))
  | .receive _ => inferInstanceAs (Decidable (_ = _))
  | .testProcess => inferInstanceAs (Decidable (_ = _))
  | .timeout => inferInstanceAs (Decidable (_ = _))
  | .semWait => inferInstanceAs (Decidable (_ ∧ _))
  | .take => inferInstanceAs (Decidable (_ = _))

end Pandar40P

inductive Handled (Stamp : Type*)
  | packet (packet : PandarPacket Stamp)
  | restart

def Handled.received : Handled Stamp → Option (PandarPacket Stamp)
  | .packet received => some received
  | .restart => none

def Sweep.process (lidar : Lidar Stamp Coord Time) (sweep : Sweep Coord Time) :
    Handled Stamp → Sweep Coord Time
  | .packet received => processPacket lidar sweep received
  | .restart => sweep.reset

def replay (lidar : Lidar Stamp Coord Time) (processed : List (Handled Stamp)) :
    Sweep Coord Time :=
  processed.foldl (Sweep.process lidar) .init

def PandarStep.pushed : PandarStep Stamp → Option (PandarPacket Stamp)
  | .receive (.packet packet) => some packet
  | _ => none

/-- A queue without semaphore: whether the stop under way is that of a start, the packets that
wait, and what has been gone through. -/
structure Turns (Stamp : Type*) where
  starts : Bool
  waiting : List (PandarPacket Stamp)
  processed : List (Handled Stamp)

namespace Turns

def init : Turns Stamp := ⟨false, [], []⟩

variable (turns : Turns Stamp)

/-- The clouds start anew where a start has joined the threads. -/
def next : PandarStep Stamp → Turns Stamp
  | .stop start => { turns with starts := start }
  | .join =>
      { turns with
        starts := false
        processed := turns.processed ++ if turns.starts then [.restart] else [] }
  | .receive (.packet packet) => { turns with waiting := turns.waiting ++ [packet] }
  | .take =>
      { turns with
        waiting := turns.waiting.tail
        processed := turns.processed ++ (turns.waiting.head?.map Handled.packet).toList }
  | .receive _ | .testRecv | .testProcess | .timeout | .semWait => turns

def after (labels : List (PandarStep Stamp)) : Turns Stamp := labels.foldl next init

theorem received_next (label : PandarStep Stamp) :
    (turns.next label).processed.filterMap Handled.received ++ (turns.next label).waiting =
      turns.processed.filterMap Handled.received ++ turns.waiting ++ label.pushed.toList := by
  cases label with
  | stop start => simp [next, PandarStep.pushed]
  | join => cases hstarts : turns.starts <;> simp [next, hstarts, Handled.received, PandarStep.pushed]
  | receive received => cases received <;> simp [next, PandarStep.pushed]
  | take =>
      cases hwaiting : turns.waiting <;> simp [next, hwaiting, Handled.received, PandarStep.pushed]
  | testRecv => simp [next, PandarStep.pushed]
  | testProcess => simp [next, PandarStep.pushed]
  | timeout => simp [next, PandarStep.pushed]
  | semWait => simp [next, PandarStep.pushed]

theorem received_foldl (labels : List (PandarStep Stamp)) :
    (labels.foldl next turns).processed.filterMap Handled.received ++
        (labels.foldl next turns).waiting =
      turns.processed.filterMap Handled.received ++ turns.waiting ++
        labels.filterMap PandarStep.pushed := by
  induction labels generalizing turns with
  | nil => simp
  | cons label labels ih =>
      rw [List.foldl_cons, ih, received_next, List.append_assoc]
      cases hpushed : label.pushed <;> simp [hpushed]

end Turns

/-- The semaphore does not refuse a packet's post. -/
def Pandar40P.Room (s : Pandar40P Stamp Coord Time) (label : PandarStep Stamp) : Prop :=
  label.pushed.isSome → s.lidarPackets.permits < SEM_VALUE_MAX

instance (s : Pandar40P Stamp Coord Time) (label : PandarStep Stamp) : Decidable (s.Room label) :=
  inferInstanceAs (Decidable (_ → _))

/-- Each packet of the list has its permit, unless posts may be `refused`; and the packets and
the clouds are those of the `turns`. -/
structure InTurn (lidar : Lidar Stamp Coord Time) (refused : Prop)
    (s : Pandar40P Stamp Coord Time) (turns : Turns Stamp) : Prop where
  counted : ∃ lost, s.lidarPackets.Counted lost ∧ (lost ≠ 0 → refused)
  posting : s.lidarPackets.posting = 0
  taking : s.lidarPackets.taking = if s.lidarProcessThr = some .take then 1 else 0
  starts : s.stopping = some true ↔ turns.starts = true
  items : s.lidarPackets.items = turns.waiting
  sweep : s.sweep = replay lidar turns.processed

namespace InTurn

variable {lidar : Lidar Stamp Coord Time} {refused : Prop} {s : Pandar40P Stamp Coord Time}
  {turns : Turns Stamp}

theorem init : InTurn lidar refused Pandar40P.init Turns.init where
  counted := ⟨0, CountedQueue.counted_init, absurd rfl⟩
  posting := rfl
  taking := rfl
  starts := by simp [Pandar40P.init, Turns.init]
  items := rfl
  sweep := rfl

theorem push (hturn : InTurn lidar refused s turns) (packet : PandarPacket Stamp)
    (hroom : s.lidarPackets.permits < SEM_VALUE_MAX ∨ refused) :
    InTurn lidar refused (s.pushLiDARData packet) (turns.next (.receive (.packet packet))) := by
  obtain ⟨⟨lost, hcounted, hlost⟩, hposting, htaking, hstarts, hitems, hsweep⟩ := hturn
  refine ⟨?_, ?_, htaking, hstarts, ?_, hsweep⟩
  · have hposts : (s.lidarPackets.pushBack packet).posting ≠ 0 := Nat.succ_ne_zero _
    by_cases hpost : (s.lidarPackets.pushBack packet).permits < SEM_VALUE_MAX
    · exact ⟨lost, (hcounted.pushBack packet).semPost hposts hpost, hlost⟩
    · exact ⟨lost + 1, (hcounted.pushBack packet).semPost_refused hposts hpost,
        fun _ => hroom.resolve_left hpost⟩
  · change s.lidarPackets.posting + 1 - 1 = 0
    omega
  · change s.lidarPackets.items ++ [packet] = turns.waiting ++ [packet]
    rw [hitems]

theorem same (hturn : InTurn lidar refused s turns) {next : Pandar40P Stamp Coord Time}
    (hpackets : next.lidarPackets = s.lidarPackets)
    (htake : next.lidarProcessThr = some .take ↔ s.lidarProcessThr = some .take)
    (hstopping : next.stopping = s.stopping) (hsweep : next.sweep = s.sweep) :
    InTurn lidar refused next turns := by
  obtain ⟨hcounted, hposting, htaking, hstarts, hitems, hprocessed⟩ := hturn
  refine ⟨hpackets ▸ hcounted, hpackets ▸ hposting, ?_, hstopping ▸ hstarts, hpackets ▸ hitems,
    hsweep.trans hprocessed⟩
  rw [hpackets, htaking]
  simp only [htake]

theorem stop (hturn : InTurn lidar refused s turns) (start : Bool) :
    InTurn lidar refused
      { s with
        enableLidarRecvThr := false
        enableLidarProcessThr := false
        stopping := some start } (turns.next (.stop start)) := by
  obtain ⟨hcounted, hposting, htaking, -, hitems, hsweep⟩ := hturn
  exact ⟨hcounted, hposting, htaking, by simp [Turns.next], hitems, hsweep⟩

theorem join (hturn : InTurn lidar refused s turns) (hended : s.lidarProcessThr = none) :
    ∃ next, s.step lidar .join = some next ∧ InTurn lidar refused next (turns.next .join) := by
  obtain ⟨hcounted, hposting, htaking, hstarts, hitems, hsweep⟩ := hturn
  rw [hended] at htaking
  by_cases hstart : s.stopping = some true
  · refine ⟨_, if_pos hstart, hcounted, hposting, htaking, by simp [Turns.next], hitems, ?_⟩
    rw [Turns.next, hstarts.mp hstart, if_pos rfl, replay, List.foldl_append, ← replay, ← hsweep]
    rfl
  · have hnot : turns.starts = false := Bool.eq_false_iff.mpr (mt hstarts.mpr hstart)
    refine ⟨_, if_neg hstart, hcounted, hposting, ?_, by simp [Turns.next], hitems, ?_⟩
    · rw [hended]
      exact htaking
    · rw [Turns.next, hnot, if_neg Bool.false_ne_true, List.append_nil]
      exact hsweep

theorem semWait (hturn : InTurn lidar refused s turns)
    (hwaits : s.lidarProcessThr = some .wait) (hpermits : s.lidarPackets.permits ≠ 0) :
    ∃ packets, s.lidarPackets.semWait = some packets ∧ packets.items = s.lidarPackets.items ∧
      InTurn lidar refused { s with lidarPackets := packets, lidarProcessThr := some .take }
        turns := by
  obtain ⟨⟨lost, hcounted, hlost⟩, hposting, htaking, hstarts, hitems, hsweep⟩ := hturn
  obtain ⟨packets, hwait, hcounts, hsame, hposts, htakes⟩ := hcounted.semWait hpermits
  refine ⟨packets, hwait, hsame, ⟨lost, hcounts, hlost⟩, hposts.trans hposting, ?_, hstarts,
    hsame.trans hitems, hsweep⟩
  rw [htakes, htaking, hwaits]
  rfl

theorem take (hturn : InTurn lidar refused s turns) (htakes : s.lidarProcessThr = some .take) :
    ∃ packet packets, s.lidarPackets.popFront = some (packet, packets) ∧
      s.lidarPackets.items = packet :: packets.items ∧
      InTurn lidar refused
        { s with
          lidarPackets := packets
          lidarProcessThr := some .test
          sweep := processPacket lidar s.sweep packet } (turns.next .take) := by
  obtain ⟨⟨lost, hcounted, hlost⟩, hposting, htaking, hstarts, hitems, hsweep⟩ := hturn
  rw [if_pos htakes] at htaking
  obtain ⟨packet, packets, hpop, hcounts, hfront, hposts, hleft⟩ :=
    hcounted.popFront (by rw [htaking]; exact Nat.one_ne_zero)
  have hwaiting : turns.waiting = packet :: packets.items := hitems.symm.trans hfront
  refine ⟨packet, packets, hpop, hfront, ⟨lost, hcounts, hlost⟩, hposts.trans hposting, ?_,
    hstarts, ?_, ?_⟩
  · rw [hleft, htaking]
    rfl
  · rw [Turns.next, hwaiting]
    rfl
  · rw [Turns.next, hwaiting, replay, List.foldl_append, ← replay, ← hsweep]
    rfl

theorem step (hturn : InTurn lidar refused s turns) {label : PandarStep Stamp}
    (hdue : s.Due label) (hroom : s.Room label ∨ refused) :
    ∃ next, s.step lidar label = some next ∧ InTurn lidar refused next (turns.next label) := by
  cases label with
  | stop start => exact ⟨_, rfl, hturn.stop start⟩
  | join => exact hturn.join hdue.2.2
  | testRecv => exact ⟨_, rfl, hturn.same rfl Iff.rfl rfl rfl⟩
  | receive received =>
      cases received with
      | failed => exact ⟨_, rfl, hturn.same rfl Iff.rfl rfl rfl⟩
      | gps => exact ⟨_, rfl, hturn.same rfl Iff.rfl rfl rfl⟩
      | packet packet =>
          have hpost : s.lidarPackets.permits < SEM_VALUE_MAX ∨ refused :=
            hroom.imp_left fun hpermits => hpermits rfl
          exact ⟨_, rfl, (hturn.push packet hpost).same rfl Iff.rfl rfl rfl⟩
  | testProcess =>
      have htest : s.lidarProcessThr = some .test := hdue
      refine ⟨_, rfl, hturn.same rfl ?_ rfl rfl⟩
      cases s.enableLidarProcessThr <;> simp [htest]
  | timeout =>
      have hwaits : s.lidarProcessThr = some .wait := hdue
      exact ⟨_, rfl, hturn.same rfl (by simp [hwaits]) rfl rfl⟩
  | semWait =>
      obtain ⟨packets, hwait, -, hnext⟩ := hturn.semWait hdue.1 hdue.2
      exact ⟨_, by simp [Pandar40P.step, hwait], hnext⟩
  | take =>
      obtain ⟨packet, packets, hpop, -, hnext⟩ := hturn.take hdue
      exact ⟨_, by simp [Pandar40P.step, hpop], hnext⟩

theorem run (hturn : InTurn lidar refused s turns) {labels : List (PandarStep Stamp)}
    (hdue : StepsMeet (Pandar40P.step lidar)
      (fun s label => s.Due label ∧ (s.Room label ∨ refused)) s labels) :
    ∃ final, Library.run (Pandar40P.step lidar) s labels = some final ∧
      InTurn lidar refused final (labels.foldl Turns.next turns) := by
  induction labels generalizing s turns with
  | nil => exact ⟨s, rfl, hturn⟩
  | cons label labels ih =>
      obtain ⟨hlabel, hrest⟩ := stepsMeet_cons.mp hdue
      obtain ⟨next, hstep, hnext⟩ := hturn.step hlabel.1 hlabel.2
      obtain ⟨final, hrun, hfinal⟩ := ih hnext (hrest next hstep)
      refine ⟨final, ?_, hfinal⟩
      rw [run_cons, hstep]
      exact hrun

theorem permits_eq (hturn : InTurn lidar False s turns)
    (htest : s.lidarProcessThr ≠ some .take) :
    s.lidarPackets.permits = s.lidarPackets.items.length := by
  obtain ⟨⟨lost, hcounted, hlost⟩, hposting, htaking, -, -, -⟩ := hturn
  rw [if_neg htest] at htaking
  have hnone : lost = 0 := by_contra hlost
  unfold CountedQueue.Counted at hcounted
  omega

theorem round (hturn : InTurn lidar False s turns) (htest : s.lidarProcessThr = some .test)
    (henable : s.enableLidarProcessThr = true) (hsome : s.lidarPackets.items ≠ []) :
    StepsMeet (Pandar40P.step lidar) Pandar40P.Due s [.testProcess, .semWait, .take] ∧
    ∃ packet next,
      Library.run (Pandar40P.step lidar) s [.testProcess, .semWait, .take] = some next ∧
      s.lidarPackets.items = packet :: next.lidarPackets.items ∧
      next.sweep = processPacket lidar s.sweep packet ∧
      next.lidarProcessThr = some .test ∧ next.enableLidarProcessThr = true ∧
      InTurn lidar False next (turns.next .take) := by
  have hpermits : s.lidarPackets.permits ≠ 0 := by
    rw [hturn.permits_eq (by simp [htest])]
    exact fun hzero => hsome (List.length_eq_zero_iff.mp hzero)
  have hfirst : s.step lidar .testProcess = some { s with lidarProcessThr := some .wait } := by
    simp [Pandar40P.step, henable]
  have hwaiting : InTurn lidar False { s with lidarProcessThr := some .wait } turns :=
    hturn.same rfl (by simp [htest]) rfl rfl
  obtain ⟨packets, hwait, hitems, hwaited⟩ := hwaiting.semWait rfl hpermits
  have hsecond : Pandar40P.step lidar { s with lidarProcessThr := some .wait } .semWait =
      some { s with lidarPackets := packets, lidarProcessThr := some .take } := by
    simp [Pandar40P.step, hwait]
  obtain ⟨packet, rest, hpop, hfront, hnext⟩ := hwaited.take rfl
  have hthird : Pandar40P.step lidar
      { s with lidarPackets := packets, lidarProcessThr := some .take } .take =
        some { s with
          lidarPackets := rest
          lidarProcessThr := some .test
          sweep := processPacket lidar s.sweep packet } := by
    simp [Pandar40P.step, hpop]
  constructor
  · refine stepsMeet_cons.mpr ⟨htest, fun next hnext => ?_⟩
    obtain rfl := Option.some.inj (hfirst.symm.trans hnext)
    refine stepsMeet_cons.mpr ⟨⟨rfl, hpermits⟩, fun next hnext => ?_⟩
    obtain rfl := Option.some.inj (hsecond.symm.trans hnext)
    exact stepsMeet_cons.mpr ⟨rfl, fun _ _ => stepsMeet_nil⟩
  · refine ⟨packet, { s with
      lidarPackets := rest
      lidarProcessThr := some .test
      sweep := processPacket lidar s.sweep packet }, ?_, hitems.symm.trans hfront, rfl, rfl,
      henable, hnext⟩
    rw [run_cons, hfirst, Option.bind_some, run_cons, hsecond, Option.bind_some, run_cons, hthird]
    rfl

theorem drain (hturn : InTurn lidar False s turns) (htest : s.lidarProcessThr = some .test)
    (henable : s.enableLidarProcessThr = true) {count : Nat}
    (hcount : count = s.lidarPackets.items.length) :
    StepsMeet (Pandar40P.step lidar) Pandar40P.Due s
        (List.replicate count [.testProcess, .semWait, .take]).flatten ∧
    ∃ final,
      Library.run (Pandar40P.step lidar) s
        (List.replicate count [.testProcess, .semWait, .take]).flatten = some final ∧
      final.lidarPackets.items = [] ∧
      final.sweep = s.lidarPackets.items.foldl (processPacket lidar) s.sweep := by
  induction count generalizing s turns with
  | zero =>
      have hempty := List.length_eq_zero_iff.mp hcount.symm
      exact ⟨stepsMeet_nil, s, rfl, hempty, by rw [hempty]; rfl⟩
  | succ count ih =>
      have hsome : s.lidarPackets.items ≠ [] := by
        intro hempty
        rw [hempty] at hcount
        cases hcount
      obtain ⟨hdue, packet, next, hround, hitems, hsweep, hthread, hflag, hnext⟩ :=
        hturn.round htest henable hsome
      rw [hitems, List.length_cons] at hcount
      obtain ⟨hrest, final, hrun, hempty, hfinal⟩ := ih hnext hthread hflag (Nat.succ.inj hcount)
      rw [List.replicate_succ, List.flatten_cons]
      refine ⟨stepsMeet_append.mpr ⟨hdue, ?_⟩, final, ?_, hempty, ?_⟩
      · intro other hother
        obtain rfl := Option.some.inj (hround.symm.trans hother)
        exact hrest
      · rw [run_append_of_eq _ hround]
        exact hrun
      · rw [hfinal, hsweep, hitems]
        rfl

end InTurn

/-- However the threads are interleaved, started and stopped: no front is taken of an empty
list, and the packets and the clouds are those of the turns, in the order the packets came. -/
theorem packets_in_turn (lidar : Lidar Stamp Coord Time) (labels : List (PandarStep Stamp))
    (hdue : StepsMeet (Pandar40P.step lidar) Pandar40P.Due Pandar40P.init labels) :
    ∃ final, run (Pandar40P.step lidar) Pandar40P.init labels = some final ∧
      final.lidarPackets.items = (Turns.after labels).waiting ∧
      final.sweep = replay lidar (Turns.after labels).processed ∧
      (Turns.after labels).processed.filterMap Handled.received ++ final.lidarPackets.items =
        labels.filterMap PandarStep.pushed := by
  have hmeet : StepsMeet (Pandar40P.step lidar)
      (fun s label => s.Due label ∧ (s.Room label ∨ True)) Pandar40P.init labels :=
    fun before label hbefore reached hrun =>
      ⟨hdue before label hbefore reached hrun, .inr trivial⟩
  obtain ⟨final, hrun, hturn⟩ := InTurn.init.run hmeet
  refine ⟨final, hrun, hturn.items, hturn.sweep, ?_⟩
  rw [hturn.items]
  exact Turns.received_foldl Turns.init labels

def sampleLidar : Lidar Unit Unit Int :=
  ⟨⟨0, Nat.succ_pos _⟩, true, fun _ _ _ => (), fun _ _ _ => 1⟩

def samplePacket : PandarPacket Unit :=
  .lidar ⟨fun _ => ⟨0, fun i => ⟨if i.val < 2 then 1000 else 0, 0⟩⟩, ()⟩

/-- `Start` is called again with a cloud that is open and a packet in the list. -/
def restartLabels : List (PandarStep Unit) :=
  [.stop true, .join, .testRecv, .receive (.packet samplePacket), .testRecv,
    .receive (.packet samplePacket), .testProcess, .semWait, .take, .stop true, .testRecv,
    .testProcess, .join]

theorem packets_in_turn_restart :
    ∃ final, run (Pandar40P.step sampleLidar) Pandar40P.init restartLabels = some final ∧
      final.lidarPackets.items = [samplePacket] ∧
      final.sweep = replay sampleLidar [.restart, .packet samplePacket, .restart] ∧
      ([.restart, .packet samplePacket, .restart] : List (Handled Unit)).filterMap
        Handled.received ++ final.lidarPackets.items = [samplePacket, samplePacket] :=
  packets_in_turn sampleLidar restartLabels (by decide)

/-- While the semaphore takes every post, the processing thread never waits with packets in the
list: it has them all processed when it has gone round as often as there are packets. -/
theorem packets_drained (lidar : Lidar Stamp Coord Time) (labels : List (PandarStep Stamp))
    (hdue : StepsMeet (Pandar40P.step lidar) (fun s label => s.Due label ∧ s.Room label)
      Pandar40P.init labels) {s : Pandar40P Stamp Coord Time}
    (hrun : run (Pandar40P.step lidar) Pandar40P.init labels = some s)
    (htest : s.lidarProcessThr = some .test) (henable : s.enableLidarProcessThr = true) :
    let rounds := (List.replicate s.lidarPackets.items.length
      [PandarStep.testProcess, .semWait, .take]).flatten
    StepsMeet (Pandar40P.step lidar) Pandar40P.Due s rounds ∧
    ∃ final, run (Pandar40P.step lidar) s rounds = some final ∧
      final.lidarPackets.items = [] ∧
      final.sweep = s.lidarPackets.items.foldl (processPacket lidar) s.sweep := by
  have hmeet : StepsMeet (Pandar40P.step lidar)
      (fun s label => s.Due label ∧ (s.Room label ∨ False)) Pandar40P.init labels :=
    fun before label hbefore reached hrun =>
      (hdue before label hbefore reached hrun).imp id .inl
  obtain ⟨final, hfinal, hturn⟩ := InTurn.init.run hmeet
  obtain rfl := Option.some.inj (hrun.symm.trans hfinal)
  exact hturn.drain htest henable rfl

theorem packets_drained_two :
    ∃ s final, run (Pandar40P.step sampleLidar) Pandar40P.init
        [.stop true, .join, .testRecv, .receive (.packet samplePacket), .testRecv,
          .receive (.packet samplePacket)] = some s ∧
      run (Pandar40P.step sampleLidar) s
        [.testProcess, .semWait, .take, .testProcess, .semWait, .take] = some final ∧
      final.lidarPackets.items = [] ∧
      final.sweep =
        [samplePacket, samplePacket].foldl (processPacket sampleLidar) s.sweep := by
  obtain ⟨-, final, hfinal, hempty, hsweep⟩ := packets_drained sampleLidar
    [.stop true, .join, .testRecv, .receive (.packet samplePacket), .testRecv,
      .receive (.packet samplePacket)] (by decide) rfl rfl rfl
  exact ⟨_, final, rfl, hfinal, hempty, hsweep⟩

end ApolloContrib.Pandora
