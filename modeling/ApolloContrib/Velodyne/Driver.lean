import ApolloContrib.Library.While
import ApolloContrib.Ros.Time
import Mathlib.Data.Rat.Floor
import Mathlib.Tactic.Ring

namespace ApolloContrib.Velodyne.Driver

open ApolloContrib.Library ApolloContrib.Ros

/-! `VelodyneDriver::poll`: reading a scan and stamping it. The arithmetic of `double` is exact
here. -/

abbrev PACKET_SIZE : Nat := 1206

instance : NeZero PACKET_SIZE := ⟨by decide⟩

abbrev Data := Fin PACKET_SIZE → BitVec 8

/-- What keeps `poll` from publishing. -/
inductive Stop where
  | waiting
  | endOfFile
  | endless
  | outside
  | overflow
deriving DecidableEq

def digitRound (state : List Char × Nat) : List Char × Nat :=
  ((if state.2 % 2 = 0 then '0' else '1') :: state.1, state.2 / 2)

/-- Eight rounds of each loop; with more than eight digits the second one does not end. -/
def toBinary (n : Nat) : Option (List Char) := do
  let (r, _) ← whileLoop (fun state => decide (state.2 ≠ 0)) digitRound 8 ([], n)
  whileLoop (fun r => decide (r.length ≠ 8)) ('0' :: ·) 8 r

def convertBinaryToDecimal (binaryString : List Char) : Nat :=
  (binaryString.reverse.foldl (fun (value, indexCounter) digit =>
    (if digit = '1' then value + 2 ^ indexCounter else value, indexCounter + 1)) (0, 0)).1

def digits (data : Data) : Option (List Char) := do
  let digit4 ← toBinary (data 1203).toNat
  let digit3 ← toBinary (data 1202).toNat
  let digit2 ← toBinary (data 1201).toNat
  let digit1 ← toBinary (data 1200).toNat
  return digit4 ++ digit3 ++ digit2 ++ digit1

def computeTimeStamp (scan : List Data) (index : Nat) : Except Stop ℚ :=
  match scan[index]? with
  | none => throw .outside
  | some data =>
      match digits data with
      | none => throw .endless
      | some digit => return convertBinaryToDecimal digit / 1000000

/-- What a call of `getPacket` gives: a packet with 0, nothing with 1, -1 at the end. -/
inductive Input where
  | full (data : Data)
  | again
  | endOfFile

def readPacket : List Input → Except Stop (Data × List Input)
  | [] => throw .waiting
  | .full data :: input => return (data, input)
  | .again :: input => readPacket input
  | .endOfFile :: _ => throw .endOfFile

def readPackets : Nat → List Input → Except Stop (List Data)
  | 0, _ => return []
  | npackets + 1, input => do
      let (data, input) ← readPacket input
      let packets ← readPackets npackets input
      return data :: packets

/-- Of a result that does not fit into an `int`, nothing is said. -/
def toInt (x : Int) : Except Stop Int :=
  if -2 ^ 31 ≤ x ∧ x < 2 ^ 31 then return x else throw .overflow

/-- The middle of a scan; `time(NULL)` is the whole part of `now`. -/
def meanStamp (ros : RosTime) (firstTimeStamp lastTimeStamp now : ℚ) : Except Stop ros.Time := do
  let meanTimeStamp := (firstTimeStamp + lastTimeStamp) / 2
  let seconds := ⌊now⌋
  let hour ← toInt ((seconds / 3600).bmod (2 ^ 32) * 3600)
  let gpsSeconds ← toInt (hour + ⌊meanTimeStamp⌋)
  let nanSecs ← toInt ⌊(meanTimeStamp - ⌊meanTimeStamp⌋) * 10 ^ 9⌋
  return ros.make (BitVec.ofInt 32 gpsSeconds) (BitVec.ofInt 32 nanSecs)

/-- The stamp that is published. -/
def poll (ros : RosTime) (npackets : Nat) (input : List Input) (now : ℚ) :
    Except Stop ros.Time := do
  let scan ← readPackets npackets input
  let firstTimeStamp ← computeTimeStamp scan 0
  let lastTimeStamp ← computeTimeStamp scan (npackets - 1)
  meanStamp ros firstTimeStamp lastTimeStamp now

def micros (data : Data) : Nat :=
  (data 1200).toNat + (data 1201).toNat * 2 ^ 8 + (data 1202).toNat * 2 ^ 16 +
    (data 1203).toNat * 2 ^ 24

section Digits

theorem foldl_counter (r : List Char) (value indexCounter : Nat) :
    (r.foldl (fun (value, indexCounter) digit =>
      (if digit = '1' then value + 2 ^ indexCounter else value, indexCounter + 1))
      (value, indexCounter)).2 = indexCounter + r.length := by
  induction r generalizing value indexCounter with
  | nil => rfl
  | cons digit r ih =>
      rw [List.foldl_cons, ih, List.length_cons]
      omega

theorem convertBinaryToDecimal_cons (digit : Char) (r : List Char) :
    convertBinaryToDecimal (digit :: r) =
      (if digit = '1' then 2 ^ r.length else 0) + convertBinaryToDecimal r := by
  have hcounter := foldl_counter r.reverse 0 0
  rw [List.length_reverse, Nat.zero_add] at hcounter
  unfold convertBinaryToDecimal
  rw [List.reverse_cons, List.foldl_append, List.foldl_cons, List.foldl_nil]
  dsimp only
  rw [hcounter]
  split
  · exact Nat.add_comm _ _
  · exact (Nat.zero_add _).symm

theorem convertBinaryToDecimal_append (s r : List Char) :
    convertBinaryToDecimal (s ++ r) =
      convertBinaryToDecimal s * 2 ^ r.length + convertBinaryToDecimal r := by
  induction s with
  | nil => simp [convertBinaryToDecimal]
  | cons digit s ih =>
      rw [List.cons_append, convertBinaryToDecimal_cons, convertBinaryToDecimal_cons, ih,
        List.length_append]
      split
      · ring
      · ring

structure ByteLeft (n : Nat) (state : List Char × Nat) : Prop where
  length : state.1.length ≤ 8
  left : state.2 < 2 ^ (8 - state.1.length)
  value : state.2 * 2 ^ state.1.length + convertBinaryToDecimal state.1 = n

theorem byteLeft_round {n : Nat} {state : List Char × Nat} (hleft : ByteLeft n state)
    (hmore : state.2 ≠ 0) : ByteLeft n (digitRound state) ∧
      8 - (digitRound state).1.length < 8 - state.1.length := by
  obtain ⟨r, m⟩ := state
  obtain ⟨hlength, hless, hvalue⟩ := hleft
  dsimp only at hlength hless hvalue hmore
  have hshort : r.length < 8 := by
    rcases Nat.lt_or_eq_of_le hlength with hlt | heq
    · exact hlt
    · rw [heq] at hless
      omega
  have hpow : 2 ^ (8 - r.length) = 2 * 2 ^ (8 - (r.length + 1)) := by
    rw [← Nat.pow_succ', Nat.succ_eq_add_one, Nat.sub_add_eq, Nat.sub_add_cancel (by omega)]
  refine ⟨⟨hshort, ?_, ?_⟩, ?_⟩
  · change m / 2 < 2 ^ (8 - (r.length + 1))
    omega
  · change m / 2 * 2 ^ (r.length + 1) +
      convertBinaryToDecimal ((if m % 2 = 0 then '0' else '1') :: r) = n
    have hhalf := Nat.div_add_mod m 2
    have hbit : (if (if m % 2 = 0 then '0' else '1') = '1' then 2 ^ r.length else 0) =
        m % 2 * 2 ^ r.length := by
      rcases Nat.mod_two_eq_zero_or_one m with hm | hm
      · simp [hm]
      · simp [hm]
    calc m / 2 * 2 ^ (r.length + 1) + convertBinaryToDecimal (_ :: r)
        = (2 * (m / 2) + m % 2) * 2 ^ r.length + convertBinaryToDecimal r := by
          rw [convertBinaryToDecimal_cons, hbit]
          ring
      _ = n := by rw [hhalf, hvalue]
  · change 8 - (r.length + 1) < 8 - r.length
    omega

theorem toBinary_byte {n : Nat} (hn : n < 2 ^ 8) :
    ∃ r, toBinary n = some r ∧ r.length = 8 ∧ convertBinaryToDecimal r = n := by
  have hstart : ByteLeft n ([], n) := ⟨Nat.zero_le 8, hn, by simp [convertBinaryToDecimal]⟩
  have hround (state : List Char × Nat) (hleft : ByteLeft n state)
      (hmore : decide (state.2 ≠ 0) = true) := byteLeft_round hleft (of_decide_eq_true hmore)
  obtain ⟨⟨r, m⟩, hdigits, ⟨hlength, -, hvalue⟩, hzero⟩ :=
    whileLoop_total (fun state => 8 - state.1.length) hround hstart (Nat.sub_le 8 _)
  have hpad (s : List Char) (hs : s.length ≤ 8 ∧ convertBinaryToDecimal s = n)
      (hmore : decide (s.length ≠ 8) = true) :
      (('0' :: s).length ≤ 8 ∧ convertBinaryToDecimal ('0' :: s) = n) ∧
        8 - ('0' :: s).length < 8 - s.length := by
    have hshort := of_decide_eq_true hmore
    refine ⟨⟨?_, ?_⟩, ?_⟩
    · rw [List.length_cons]
      omega
    · rw [convertBinaryToDecimal_cons, if_neg (by decide), Nat.zero_add, hs.2]
    · rw [List.length_cons]
      omega
  obtain rfl : m = 0 := by simpa using hzero
  rw [Nat.zero_mul, Nat.zero_add] at hvalue
  obtain ⟨s, hpadded, ⟨-, hsame⟩, hfull⟩ :=
    whileLoop_total (fun s : List Char => 8 - s.length) hpad (And.intro hlength hvalue)
      (Nat.sub_le 8 _)
  refine ⟨s, ?_, by simpa using hfull, hsame⟩
  rw [toBinary, hdigits]
  exact hpadded

theorem digits_data (data : Data) :
    ∃ digit, digits data = some digit ∧ convertBinaryToDecimal digit = micros data := by
  obtain ⟨r4, hr4, hlength4, hvalue4⟩ := toBinary_byte (data 1203).isLt
  obtain ⟨r3, hr3, hlength3, hvalue3⟩ := toBinary_byte (data 1202).isLt
  obtain ⟨r2, hr2, hlength2, hvalue2⟩ := toBinary_byte (data 1201).isLt
  obtain ⟨r1, hr1, hlength1, hvalue1⟩ := toBinary_byte (data 1200).isLt
  refine ⟨r4 ++ r3 ++ r2 ++ r1, ?_, ?_⟩
  · rw [digits, hr4, hr3, hr2, hr1]
    rfl
  · rw [convertBinaryToDecimal_append, convertBinaryToDecimal_append,
      convertBinaryToDecimal_append, hlength1, hlength2, hlength3, hvalue1, hvalue2, hvalue3,
      hvalue4, micros]
    ring

/-- The way through the digits and back is the one that the bytes go themselves. -/
theorem computeTimeStamp_eq {scan : List Data} {index : Nat} {data : Data}
    (hdata : scan[index]? = some data) :
    computeTimeStamp scan index = .ok (micros data / 1000000) := by
  obtain ⟨digit, hdigits, hvalue⟩ := digits_data data
  rw [computeTimeStamp, hdata]
  dsimp only
  rw [hdigits]
  dsimp only
  rw [hvalue]
  rfl

end Digits

def Input.packet? : Input → Option Data
  | .full data => some data
  | _ => none

theorem readPacket_eq {input : List Input} {data : Data} {rest : List Data}
    (hpackets : input.filterMap Input.packet? = data :: rest) (hend : .endOfFile ∉ input) :
    ∃ after, readPacket input = .ok (data, after) ∧ after.filterMap Input.packet? = rest ∧
      .endOfFile ∉ after := by
  induction input with
  | nil => exact nomatch hpackets
  | cons call input ih =>
      have hend' : Input.endOfFile ∉ input := fun h => hend (List.mem_cons_of_mem _ h)
      cases call with
      | full data' =>
          obtain ⟨rfl, hrest⟩ := List.cons.inj hpackets
          exact ⟨input, rfl, hrest, hend'⟩
      | again => exact ih hpackets hend'
      | endOfFile => exact absurd List.mem_cons_self hend

theorem readPackets_eq {input : List Input} {packets : List Data}
    (hpackets : input.filterMap Input.packet? = packets) (hend : .endOfFile ∉ input) :
    readPackets packets.length input = .ok packets := by
  induction packets generalizing input with
  | nil => rfl
  | cons data packets ih =>
      obtain ⟨after, hread, hafter, hend'⟩ := readPacket_eq hpackets hend
      rw [List.length_cons, readPackets, hread]
      change (do
        let packets ← readPackets packets.length after
        return data :: packets) = _
      rw [ih hafter hend']
      rfl

end ApolloContrib.Velodyne.Driver
