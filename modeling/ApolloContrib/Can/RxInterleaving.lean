import ApolloContrib.Can.RxRing
import ApolloContrib.Library.Numbering
import ApolloContrib.Library.Run

namespace ApolloContrib.Can

open ApolloContrib.Library

/-! The producer and the receivers of one receive ring, interleaved at the steps
the code takes. The producer tests for a full ring without the lock; advancing
the head, copying to the user and clearing each hold `zcan_pio_rx_lock`. -/

inductive Producer where
  | idle
  | full
  | ready
  | written (msg : Msg)
  | stored
deriving DecidableEq

namespace Producer

def BetweenMessages : Producer → Prop
  | idle | stored => True
  | full | ready | written _ => False

def Storing : Producer → Prop
  | ready | written _ => True
  | idle | full | stored => False

end Producer

structure Entry where
  origin : Option Nat
  msg : Msg

def Entry.decode (entry : Entry) : Entry :=
  { entry with msg := zcanToBcan entry.msg }

/-- `origin` gives for each slot the number of the message pushed there, until
the slot is consumed. The other fields record what happened so far. -/
structure RxState where
  zcan : ZynqCanRx
  producer : Producer
  origin : Nat → Option Nat
  pushed : List Msg
  delivered : List Entry
  cleared : Nat
  faults : Nat

inductive RxStep where
  | testFull
  | incHead
  | writeSlot (msg : Msg)
  | storeTail
  | notify
  | copyToUser (usrBuf usrBufNum usrRxNum : Nat) (copyFails : Nat → Bool)
  | clearBuf

def consume (origin : Nat → Option Nat) (slots : List Nat) (i : Nat) :
    Option Nat :=
  if i ∈ slots then none else origin i

namespace RxState

def afterTest (s : RxState) : RxState :=
  { s with producer := if s.zcan.zcanBufRxFull then .full else .ready }

def afterIncHead (s : RxState) : RxState :=
  { s with
    zcan := s.zcan.zcanBufIncRxHead ZCAN_IP_RXFIFO_MAX
    producer := .ready
    origin := consume s.origin (ringIndices s.zcan.zcanBufRxNum
      s.zcan.zcanBufRxHead ZCAN_IP_RXFIFO_MAX) }

def afterWriteSlot (s : RxState) (msg : Msg) : RxState :=
  { s with zcan := s.zcan.writeTail msg, producer := .written msg }

def afterStoreTail (s : RxState) (msg : Msg) : RxState :=
  { s with
    zcan := s.zcan.storeTail
    producer := .stored
    origin := Function.update s.origin s.zcan.zcanBufRxTail (some s.pushed.length)
    pushed := s.pushed ++ [msg] }

def afterNotify (s : RxState) : RxState :=
  { s with zcan := s.zcan.zcanUsrRxComplete, producer := .idle }

def afterClear (s : RxState) : RxState :=
  { s with
    zcan := s.zcan.zcanClearBufRx
    origin := consume s.origin s.zcan.rxSlots
    cleared := s.cleared + s.zcan.rxNum }

def asked (s : RxState) (usrBuf usrBufNum usrRxNum : Nat) : ZynqCanRx :=
  { s.zcan with
    zcanUsrBuf := usrBuf
    zcanUsrBufNum := usrBufNum
    zcanUsrRxNum := usrRxNum
    usrMsgs := [] }

def afterCopy (s : RxState) (result : BcanErrCode × ZynqCanRx) : RxState :=
  let slots := ringIndices s.zcan.zcanBufRxNum s.zcan.zcanBufRxHead
    result.2.usrMsgs.length
  { s with
    zcan := result.2
    origin := consume s.origin slots
    delivered := s.delivered ++
      List.zipWith (fun i stored => ⟨s.origin i, stored.2⟩) slots result.2.usrMsgs
    faults := if result.1 = .BCAN_FAIL then s.faults + 1 else s.faults }

end RxState

def rxStep (s : RxState) : RxStep → Option RxState
  | .testFull =>
      match s.producer with
      | .idle => some s.afterTest
      | _ => none
  | .incHead =>
      match s.producer with
      | .full => some s.afterIncHead
      | _ => none
  | .writeSlot msg =>
      match s.producer with
      | .ready => some (s.afterWriteSlot msg)
      | _ => none
  | .storeTail =>
      match s.producer with
      | .written msg => some (s.afterStoreTail msg)
      | _ => none
  | .notify =>
      match s.producer with
      | .stored => some s.afterNotify
      | _ => none
  | .copyToUser usrBuf usrBufNum usrRxNum copyFails =>
      if usrRxNum ≤ usrBufNum then
        some (s.afterCopy
          ((s.asked usrBuf usrBufNum usrRxNum).zcanCopyToUser copyFails))
      else none
  | .clearBuf => some s.afterClear

/-- Any ring that holds nothing and has dropped nothing, the producer idle. -/
def RxState.init (zcan : ZynqCanRx) : RxState where
  zcan := { zcan.zcanClearBufRx with chanStatsRxDrop := 0 }
  producer := .idle
  origin := fun _ => none
  pushed := []
  delivered := []
  cleared := 0
  faults := 0

/-- `entry` carries the message pushed under its number, decoded `extra` times
and once more for at most each faulting copy. -/
def DecodedFrom (pushed : List Msg) (faults extra : Nat) (entry : Entry) : Prop :=
  ∃ seq msg again, entry.origin = some seq ∧ pushed[seq]? = some msg ∧
    again ≤ faults ∧ entry.msg = zcanToBcan^[again + extra] msg

/-- No loss, no duplication. Every delivered slot still carried the number of a
push, these numbers increase, and every push is accounted for. -/
structure RxSpec (s : RxState) : Prop where
  ordered : Increasing s.pushed.length (s.delivered.map Entry.origin)
  decoded : ∀ entry ∈ s.delivered, DecodedFrom s.pushed s.faults 1 entry
  conserved : s.producer.BetweenMessages →
    s.pushed.length =
      s.delivered.length + s.zcan.rxNum + s.cleared + s.zcan.chanStatsRxDrop

/-- The ring is full although the producer has made room: its head advance found
exactly 63 messages and moved the head just past the tail. -/
def RxState.Overtaken (s : RxState) : Prop :=
  s.producer.Storing ∧ s.zcan.zcanBufRxFull = true

/-- The receiver has not taken messages between the full test and the head
advance that this advance then drops again. -/
def RxStepOk (s : RxState) : RxStep → Prop
  | .incHead => ZCAN_IP_RXFIFO_MAX ≤ s.zcan.rxNum + 1
  | .copyToUser usrBuf usrBufNum usrRxNum copyFails =>
      ¬ s.Overtaken ∨
        (s.asked usrBuf usrBufNum usrRxNum).copyCount copyFails = 0
  | .clearBuf => ¬ s.Overtaken
  | .testFull | .writeSlot _ | .storeTail | .notify => True

/-! The messages in flight as a queue of entries, apart from the slots they sit
in. -/

structure Recorded (pushed : List Msg) (faults : Nat)
    (delivered pending : List Entry) : Prop where
  numbered : Increasing pushed.length ((delivered ++ pending).map Entry.origin)
  decoded : ∀ entry ∈ delivered, DecodedFrom pushed faults 1 entry
  buffered : ∀ entry ∈ pending, DecodedFrom pushed faults 0 entry

section Queue

variable {pushed : List Msg} {faults : Nat} {delivered pending rest : List Entry}
  {entry : Entry} {extra : Nat}

theorem DecodedFrom.push (hfrom : DecodedFrom pushed faults extra entry)
    (msg : Msg) : DecodedFrom (pushed ++ [msg]) faults extra entry := by
  obtain ⟨seq, source, again, horigin, hsource, hagain, hmsg⟩ := hfrom
  obtain ⟨hlt, _⟩ := List.getElem?_eq_some_iff.mp hsource
  exact ⟨seq, source, again, horigin,
    by rw [List.getElem?_append_left hlt, hsource], hagain, hmsg⟩

theorem DecodedFrom.fault (hfrom : DecodedFrom pushed faults extra entry) :
    DecodedFrom pushed (faults + 1) extra entry := by
  obtain ⟨seq, source, again, horigin, hsource, hagain, hmsg⟩ := hfrom
  exact ⟨seq, source, again, horigin, hsource, Nat.le_succ_of_le hagain, hmsg⟩

theorem DecodedFrom.deliver (hfrom : DecodedFrom pushed faults 0 entry) :
    DecodedFrom pushed faults 1 entry.decode := by
  obtain ⟨seq, source, again, horigin, hsource, hagain, hmsg⟩ := hfrom
  refine ⟨seq, source, again, horigin, hsource, hagain, ?_⟩
  rw [Function.iterate_succ_apply', Entry.decode, hmsg]
  rfl

theorem DecodedFrom.convert (hfrom : DecodedFrom pushed faults 0 entry) :
    DecodedFrom pushed (faults + 1) 0 entry.decode := by
  obtain ⟨seq, source, again, horigin, hsource, hagain, hmsg⟩ := hfrom
  refine ⟨seq, source, again + 1, horigin, hsource,
    Nat.succ_le_succ hagain, ?_⟩
  rw [Nat.add_zero, Function.iterate_succ_apply', Entry.decode, hmsg]
  rfl

theorem Recorded.push (hrec : Recorded pushed faults delivered pending)
    (msg : Msg) :
    Recorded (pushed ++ [msg]) faults delivered
      (pending ++ [⟨some pushed.length, msg⟩]) where
  numbered := by
    have hnext := hrec.numbered.push
    simpa [List.append_assoc] using hnext
  decoded entry hmem := (hrec.decoded entry hmem).push msg
  buffered entry hmem := by
    rcases List.mem_append.mp hmem with hold | hnew
    · exact (hrec.buffered entry hold).push msg
    · obtain rfl := List.mem_singleton.mp hnew
      exact ⟨pushed.length, msg, 0, rfl, by simp, Nat.zero_le _, rfl⟩

theorem Recorded.drop (hrec : Recorded pushed faults delivered pending)
    (count : Nat) : Recorded pushed faults delivered (pending.drop count) where
  numbered := hrec.numbered.sublist
    (((List.drop_sublist count pending).append_left delivered).map _)
  decoded := hrec.decoded
  buffered entry hmem := hrec.buffered entry (List.mem_of_mem_drop hmem)

theorem Recorded.deliver (hrec : Recorded pushed faults delivered pending)
    (count : Nat) :
    Recorded pushed faults
      (delivered ++ (pending.take count).map Entry.decode)
      (pending.drop count) where
  numbered := by
    have horigin : ((pending.take count).map Entry.decode).map Entry.origin =
        (pending.take count).map Entry.origin := by
      rw [List.map_map]
      rfl
    have hnumbered := hrec.numbered
    rw [← List.take_append_drop count pending] at hnumbered
    simpa only [List.map_append, horigin, List.append_assoc] using hnumbered
  decoded entry hmem := by
    rcases List.mem_append.mp hmem with hold | hnew
    · exact hrec.decoded entry hold
    · obtain ⟨source, hsource, rfl⟩ := List.mem_map.mp hnew
      exact (hrec.buffered source (List.mem_of_mem_take hsource)).deliver
  buffered entry hmem := hrec.buffered entry (List.mem_of_mem_drop hmem)

theorem Recorded.fault
    (hrec : Recorded pushed faults delivered (entry :: rest)) :
    Recorded pushed (faults + 1) delivered (entry.decode :: rest) where
  numbered := by
    have hnumbered := hrec.numbered
    rw [List.map_append, List.map_cons] at hnumbered ⊢
    exact hnumbered
  decoded other hmem := (hrec.decoded other hmem).fault
  buffered other hmem := by
    rcases List.mem_cons.mp hmem with rfl | hrest
    · exact (hrec.buffered entry List.mem_cons_self).convert
    · exact (hrec.buffered other (List.mem_cons_of_mem _ hrest)).fault

end Queue

namespace RxState

def entry (s : RxState) (i : Nat) : Entry := ⟨s.origin i, s.zcan.zcanBufRxMsg i⟩

def pending (s : RxState) : List Entry := s.zcan.rxSlots.map s.entry

def Records (s : RxState) : Prop :=
  Recorded s.pushed s.faults s.delivered s.pending

@[simp] theorem length_pending (s : RxState) :
    s.pending.length = s.zcan.rxNum := by
  simp [pending]

end RxState

theorem consume_of_notMem (origin : Nat → Option Nat) {slots : List Nat} {i : Nat}
    (hi : i ∉ slots) : consume origin slots i = origin i :=
  if_neg hi

theorem notMem_taken {zcan : ZynqCanRx} {count i : Nat}
    (hcount : count ≤ zcan.rxNum) (hi : i ∈ zcan.rxSlots.drop count) :
    i ∉ ringIndices zcan.zcanBufRxNum zcan.zcanBufRxHead count := by
  rw [← take_ringIndices hcount]
  intro htaken
  exact List.disjoint_take_drop zcan.rxSlots_nodup (Nat.le_refl count) htaken hi

section Copy

variable (s : RxState) (usrBuf usrBufNum usrRxNum : Nat) (copyFails : Nat → Bool)

/-- The state after a receiver took `count` messages and converted `touched`
slots, `fault` telling whether its last copy failed. -/
def RxState.taken (s : RxState) (zcan : ZynqCanRx) (count touched : Nat)
    (fault : Bool) : RxState :=
  { s with
    zcan := zcan.copied count touched
    origin := consume s.origin
      (ringIndices s.zcan.zcanBufRxNum s.zcan.zcanBufRxHead count)
    delivered := s.delivered ++ (s.pending.take count).map Entry.decode
    faults := if fault then s.faults + 1 else s.faults }

theorem afterCopy_eq :
    let asked := s.asked usrBuf usrBufNum usrRxNum
    let count := asked.copyCount copyFails
    s.afterCopy (asked.zcanCopyToUser copyFails) =
      s.taken asked count (min (count + 1) asked.copyLimit)
        (decide (count < asked.copyLimit)) := by
  intro asked count
  have hcount : count ≤ s.zcan.rxNum := asked.copyCount_le_rxNum copyFails
  have hzcan : (asked.zcanCopyToUser copyFails).2 =
      asked.copied count (min (count + 1) asked.copyLimit) :=
    asked.zcanCopyToUser_snd copyFails
  have hmsgs : (asked.copied count (min (count + 1) asked.copyLimit)).usrMsgs =
      (List.range count).map fun i => (asked.usrAddr + i, zcanToBcan
        (s.zcan.zcanBufRxMsg
          ((s.zcan.zcanBufRxHead + i) % s.zcan.zcanBufRxNum))) :=
    List.nil_append _
  have hlen : (asked.copied count (min (count + 1) asked.copyLimit)).usrMsgs.length =
      count := by
    rw [hmsgs, List.length_map, List.length_range]
  have hdelivered : List.zipWith (fun i stored => (⟨s.origin i, stored.2⟩ : Entry))
      (ringIndices s.zcan.zcanBufRxNum s.zcan.zcanBufRxHead count)
      (asked.copied count (min (count + 1) asked.copyLimit)).usrMsgs =
      (s.pending.take count).map Entry.decode := by
    rw [hmsgs, RxState.pending, ← List.map_take, ZynqCanRx.rxSlots,
      take_ringIndices hcount, ringIndices, List.map_map, List.map_map,
      List.zipWith_map, List.zipWith_self]
    rfl
  have hfail := asked.zcanCopyToUser_fail_iff copyFails
  unfold RxState.afterCopy RxState.taken
  simp only [hlen, hdelivered, hzcan, hfail, decide_eq_true_eq]
  rfl

theorem entry_taken {count i : Nat} (touched : Nat) (fault : Bool)
    (hcount : count ≤ s.zcan.rxNum) (hi : i ∈ s.zcan.rxSlots.drop count) :
    (s.taken (s.asked usrBuf usrBufNum usrRxNum) count touched fault).entry i =
      if i ∈ ringIndices s.zcan.zcanBufRxNum s.zcan.zcanBufRxHead touched then
        (s.entry i).decode
      else s.entry i := by
  have horigin := consume_of_notMem s.origin (notMem_taken hcount hi)
  unfold RxState.entry Entry.decode
  dsimp only [RxState.taken, RxState.asked, ZynqCanRx.copied,
    ZynqCanRx.convertSlots]
  rw [horigin]
  split <;> rfl

theorem rxNum_taken {count : Nat} (touched : Nat) (fault : Bool)
    (hcount : count ≤ s.zcan.rxNum) :
    (s.taken (s.asked usrBuf usrBufNum usrRxNum) count touched fault).zcan.rxNum =
      s.zcan.rxNum - count :=
  (s.asked usrBuf usrBufNum usrRxNum).rxNum_copied touched hcount

theorem rxSlots_taken {count : Nat} (touched : Nat) (fault : Bool)
    (hcount : count ≤ s.zcan.rxNum) :
    (s.taken (s.asked usrBuf usrBufNum usrRxNum) count touched fault).zcan.rxSlots =
      s.zcan.rxSlots.drop count :=
  (s.asked usrBuf usrBufNum usrRxNum).rxSlots_copied touched hcount

theorem pending_taken_all {count : Nat} (fault : Bool)
    (hcount : count ≤ s.zcan.rxNum) :
    (s.taken (s.asked usrBuf usrBufNum usrRxNum) count count fault).pending =
      s.pending.drop count := by
  unfold RxState.pending
  rw [← List.map_drop, rxSlots_taken _ _ _ _ _ _ hcount]
  apply List.map_congr_left
  intro i hi
  rw [entry_taken _ _ _ _ _ fault hcount hi, if_neg (notMem_taken hcount hi)]

theorem pending_taken_fault {count : Nat} (fault : Bool)
    (hcount : count < s.zcan.rxNum) :
    ∃ head rest, s.pending.drop count = head :: rest ∧
      (s.taken (s.asked usrBuf usrBufNum usrRxNum) count (count + 1) fault).pending =
        head.decode :: rest := by
  have hlen : count < s.zcan.rxSlots.length := by rwa [s.zcan.length_rxSlots]
  have hdrop := List.drop_eq_getElem_cons hlen
  refine ⟨s.entry s.zcan.rxSlots[count],
    (s.zcan.rxSlots.drop (count + 1)).map s.entry, ?_, ?_⟩
  · rw [RxState.pending, ← List.map_drop, hdrop, List.map_cons]
  · unfold RxState.pending
    rw [rxSlots_taken _ _ _ _ _ _ (Nat.le_of_lt hcount)]
    have hkept : ∀ i ∈ s.zcan.rxSlots.drop count, _ := fun i hi =>
      entry_taken s usrBuf usrBufNum usrRxNum (count + 1) fault
        (Nat.le_of_lt hcount) hi
    rw [List.map_congr_left hkept, hdrop, List.map_cons]
    congr 1
    · apply if_pos
      rw [← take_ringIndices (Nat.succ_le_of_lt hcount)]
      change _ ∈ s.zcan.rxSlots.take (count + 1)
      exact List.mem_take_iff_getElem.mpr ⟨count, by omega, rfl⟩
    · apply List.map_congr_left
      intro i hi
      exact if_neg (notMem_taken (Nat.succ_le_of_lt hcount) hi)

end Copy

end ApolloContrib.Can
