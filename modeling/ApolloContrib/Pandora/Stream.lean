import ApolloContrib.Pandora.Client
import ApolloContrib.Pandora.Socket

namespace ApolloContrib.Pandora

open ApolloContrib.Library

/-! `PandoraClientTask` on the bytes of its connection, over the client of packets. -/

/-- What `select_fd` tells. -/
inductive Select where
  | timeout
  | ready
  | failed
deriving DecidableEq, Repr

/-- The client; the connection behind `cliSocket`, unless that is -1. -/
structure Receiver where
  client : PandoraClient
  socket : Option Connection

namespace Receiver

def init : Receiver := ⟨PandoraClient.init, none⟩

end Receiver

/-- What a round meets: what `tcp_open` gives where it is called, what `header` holds before it
is read, and which of the two `malloc` succeed. -/
structure StreamRound where
  opened : Option Connection
  select : Select
  stale : Header
  picAlloc : Bool
  yuvAlloc : Bool

/-- A call of `sys_readn`: how many bytes were wanted, those it read (none when it returned
-1), and whether the task goes by them. -/
structure Attempt where
  wanted : Nat
  got : Option (List (BitVec 8))
  used : Bool
deriving DecidableEq, Repr

inductive RoundEnd where
  | running (receiver : Receiver)
  /-- `exit(0)`. -/
  | exited
  /-- A frame is written past its end. -/
  | fault

/-- `leaked` is how many blocks of the packet are allocated and never freed. -/
structure RoundOut where
  reads : List Attempt
  leaked : Nat
  ended : RoundEnd

/-- With the bytes from `offset` on read into the header. -/
def Header.overlay (header : Header) (offset : Nat) (bytes : List (BitVec 8)) : Header := fun i =>
  if offset ≤ i.val ∧ i.val < offset + bytes.length then bytes.getD (i.val - offset) 0
  else header i

theorem overlay_sop (header : Header) (bytes : List (BitVec 8)) :
    (parseHeader (header.overlay 2 bytes)).SOP = (header 0, header 1) := rfl

def closed (client : PandoraClient) : RoundEnd := .running ⟨client.reconnect, none⟩

section Read

variable (client : PandoraClient) (conn : Connection) (round : StreamRound)

def receiveYuv (header : Header) (hsop : (parseHeader header).SOP = (0x47, 0x74))
    (before : List Attempt) : RoundOut :=
  let len := (parseHeader header).len
  -- the length as an `int`
  let (third, conn) := sysReadn len.toInt conn
  match third with
  | none | some [] => ⟨before ++ [⟨len.toNat, third, false⟩], 2, closed client⟩
  | some yuv =>
      if hlen : yuv.length = len.toNat then
        { reads := before ++ [⟨len.toNat, some yuv, true⟩]
          leaked := 0
          ended :=
            match client.pandoraClientTask (.packet ⟨header, yuv, hsop, hlen⟩) with
            | none => .fault
            | some (client, _) => .running ⟨client, some conn⟩ }
      else ⟨before ++ [⟨len.toNat, some yuv, false⟩], 0, .running ⟨client, some conn⟩⟩

def receivePayload (header : Header) (hsop : (parseHeader header).SOP = (0x47, 0x74))
    (sop rest : List (BitVec 8)) : RoundOut :=
  if !round.picAlloc then
    ⟨[⟨2, some sop, true⟩, ⟨32, some rest, false⟩], 0, .running ⟨client, some conn⟩⟩
  else if !round.yuvAlloc then
    ⟨[⟨2, some sop, true⟩, ⟨32, some rest, true⟩], 0, .running ⟨client, some conn⟩⟩
  else receiveYuv client conn header hsop [⟨2, some sop, true⟩, ⟨32, some rest, true⟩]

def receiveHeader (header : Header) (hsop : (header 0, header 1) = (0x47, 0x74))
    (sop : List (BitVec 8)) : RoundOut :=
  let (second, conn) := sysReadn 32 conn
  match second with
  | none | some [] => ⟨[⟨2, some sop, true⟩, ⟨32, second, false⟩], 0, closed client⟩
  | some rest =>
      receivePayload client conn round (header.overlay 2 rest)
        ((overlay_sop header rest).trans hsop) sop rest

def receivePacket : RoundOut :=
  let (first, conn) := sysReadn 2 conn
  match first with
  | none => ⟨[⟨2, none, false⟩], 0, closed client⟩
  | some sop =>
      let header := round.stale.overlay 0 sop
      if hsop : (header 0, header 1) = (0x47, 0x74) then
        receiveHeader client conn round header hsop sop
      else ⟨[⟨2, some sop, true⟩], 0, .exited⟩

end Read

def streamRound (receiver : Receiver) (round : StreamRound) : RoundOut :=
  match receiver.socket.or round.opened with
  | none => ⟨[], 0, .running receiver⟩
  | some conn =>
      match round.select with
      | .timeout | .failed => ⟨[], 0, closed receiver.client⟩
      | .ready => receivePacket receiver.client conn round

def streamStep (receiver : Receiver) (round : StreamRound) : Option Receiver :=
  match (streamRound receiver round).ended with
  | .running next => some next
  | .exited | .fault => none

def Attempt.Whole (attempt : Attempt) : Prop :=
  ∃ bytes, attempt.got = some bytes ∧ bytes.length = attempt.wanted

/-- The task goes by bytes it has received, closes the socket with nothing left allocated
when they are too few, and exits only on two bytes that are no SOP. -/
structure Orderly (out : RoundOut) : Prop where
  decided : ∀ attempt ∈ out.reads, attempt.used = true → attempt.Whole
  closes : ∀ attempt ∈ out.reads, ¬ attempt.Whole →
    out.leaked = 0 ∧ ∃ client, out.ended = .running ⟨client, none⟩
  exits : out.ended = .exited →
    ∃ b0 b1, ⟨2, some [b0, b1], true⟩ ∈ out.reads ∧ (b0, b1) ≠ (0x47, 0x74)

def headerOf (bytes : List (BitVec 8)) : Header := fun i => bytes.getD i.val 0

/-- What the connection brings next: an error before two bytes; two bytes that are no SOP;
the SOP and then nothing, or an error before the header is whole; a whole header with as
many bytes as it says, unless there is no memory for them. -/
def WellCut (conn : Connection) (round : StreamRound) : Prop :=
  let bytes := conn.received
  let header := headerOf bytes
  if bytes.length < 2 then conn.breaks = true
  else if (header 0, header 1) ≠ (0x47, 0x74) then True
  else if bytes.length < 34 then conn.breaks = true ∨ bytes.length = 2
  else
    round.picAlloc = false ∨ round.yuvAlloc = false ∨
      (parseHeader header).len.toNat < 2 ^ 31 ∧
        34 + (parseHeader header).len.toNat ≤ bytes.length

def CutWell (receiver : Receiver) (round : StreamRound) : Prop :=
  round.select = .ready → ∀ conn ∈ receiver.socket.or round.opened, WellCut conn round

section Packet

variable {client : PandoraClient} {conn : Connection} {round : StreamRound}

theorem Attempt.whole_some {wanted : Nat} {bytes : List (BitVec 8)} {used : Bool} :
    Attempt.Whole ⟨wanted, some bytes, used⟩ ↔ bytes.length = wanted :=
  ⟨fun ⟨_, hgot, hlength⟩ => Option.some.inj hgot ▸ hlength, fun h => ⟨bytes, rfl, h⟩⟩

theorem Attempt.not_whole_none {wanted : Nat} {used : Bool} :
    ¬ Attempt.Whole ⟨wanted, none, used⟩ := fun ⟨_, hgot, _⟩ => nomatch hgot

theorem orderly_of_whole {out : RoundOut} (hwhole : ∀ attempt ∈ out.reads, attempt.Whole)
    (hexited : out.ended ≠ .exited) : Orderly out :=
  ⟨fun attempt hmem _ => hwhole attempt hmem,
    fun attempt hmem hshort => absurd (hwhole attempt hmem) hshort, fun h => absurd h hexited⟩

theorem not_orderly {out : RoundOut} {attempt : Attempt} (hmem : attempt ∈ out.reads)
    (hshort : ¬ attempt.Whole)
    (hwrong : attempt.used = true ∨ out.leaked ≠ 0 ∨
      ∀ client, out.ended ≠ .running ⟨client, none⟩) : ¬ Orderly out := by
  intro horderly
  obtain ⟨hleaked, client, hclosed⟩ := horderly.closes attempt hmem hshort
  rcases hwrong with hused | hleak | hopen
  · exact hshort (horderly.decided attempt hmem hused)
  · exact hleak hleaked
  · exact hopen client hclosed

theorem headerOf_overlay (stale : Header) {bytes : List (BitVec 8)} (hbytes : 34 ≤ bytes.length) :
    (stale.overlay 0 (bytes.take 2)).overlay 2 ((bytes.drop 2).take 32) = headerOf bytes := by
  funext i
  have hi : i.val < 34 := i.isLt
  unfold Header.overlay headerOf
  rw [List.length_take, List.length_take, List.length_drop]
  split_ifs with hrest hsop
  · rw [List.getD_eq_getElem?_getD, List.getElem?_take_of_lt (by omega), List.getElem?_drop,
      Nat.add_sub_cancel' hrest.1, List.getD_eq_getElem?_getD]
  · rw [List.getD_eq_getElem?_getD, List.getElem?_take_of_lt (by omega),
      List.getD_eq_getElem?_getD]
    rfl
  · omega

theorem header_overlay_sop (stale : Header) {bytes : List (BitVec 8)} (hbytes : 2 ≤ bytes.length) :
    (stale.overlay 0 (bytes.take 2)) 0 = headerOf bytes 0 ∧
      (stale.overlay 0 (bytes.take 2)) 1 = headerOf bytes 1 := by
  match bytes, hbytes with
  | b0 :: b1 :: bytes, _ => exact ⟨rfl, rfl⟩

section Yuv

variable {header : Header} {hsop : (parseHeader header).SOP = (0x47, 0x74)}
  {before : List Attempt} {rest : Connection}

theorem receiveYuv_of_nothing {third : Option (List (BitVec 8))}
    (hread : sysReadn (parseHeader header).len.toInt conn = (third, rest))
    (hthird : third = none ∨ third = some []) :
    receiveYuv client conn header hsop before =
      ⟨before ++ [⟨(parseHeader header).len.toNat, third, false⟩], 2, closed client⟩ := by
  unfold receiveYuv
  dsimp only
  rw [hread]
  rcases hthird with rfl | rfl <;> rfl

theorem receiveYuv_of_some {yuv : List (BitVec 8)}
    (hread : sysReadn (parseHeader header).len.toInt conn = (some yuv, rest)) (hyuv : yuv ≠ []) :
    ∃ used ended,
      receiveYuv client conn header hsop before =
        ⟨before ++ [⟨(parseHeader header).len.toNat, some yuv, used⟩], 0, ended⟩ ∧
      ended ≠ .exited ∧
      (yuv.length ≠ (parseHeader header).len.toNat → ended = .running ⟨client, some rest⟩) := by
  unfold receiveYuv
  dsimp only
  rw [hread]
  obtain ⟨b, yuv, rfl⟩ := List.exists_cons_of_ne_nil hyuv
  dsimp only
  split
  next hlen =>
    refine ⟨true, _, rfl, ?_, fun h => absurd hlen h⟩
    split <;> exact nofun
  next hlen => exact ⟨false, _, rfl, nofun, fun _ => rfl⟩

/-- A payload that is not whole leaves the packet allocated, or the socket open. -/
theorem receiveYuv_orderly_iff (hbefore : ∀ attempt ∈ before, attempt.Whole) :
    Orderly (receiveYuv client conn header hsop before) ↔
      (parseHeader header).len.toNat < 2 ^ 31 ∧
        (parseHeader header).len.toNat ≤ conn.received.length := by
  have hmem (attempt : Attempt) : attempt ∈ before ++ [attempt] := List.mem_concat_self
  have hall {attempt : Attempt} (hwhole : attempt.Whole) :
      ∀ other ∈ before ++ [attempt], other.Whole := fun other hother =>
    (List.mem_append.mp hother).elim (hbefore other)
      fun h => List.mem_singleton.mp h ▸ hwhole
  rcases Nat.lt_or_ge (parseHeader header).len.toNat (2 ^ 31) with hsmall | hlarge
  · have htoInt : (parseHeader header).len.toInt = (parseHeader header).len.toNat :=
      BitVec.toInt_eq_toNat_of_lt (by omega)
    have hsys : sysReadn (parseHeader header).len.toInt conn =
        readLoop (parseHeader header).len.toNat conn := by rw [htoInt, sysReadn_natCast]
    rw [and_iff_right hsmall]
    rcases Nat.lt_or_ge conn.received.length (parseHeader header).len.toNat with hshort | henough
    · refine iff_of_false ?_ (Nat.not_le.mpr hshort)
      obtain ⟨rest, hread, -⟩ := readLoop_short hshort
      rw [← hsys] at hread
      cases hbreaks : conn.breaks with
      | true =>
          rw [hbreaks, if_pos rfl] at hread
          rw [receiveYuv_of_nothing hread (Or.inl rfl)]
          exact not_orderly (hmem _) Attempt.not_whole_none (Or.inr (Or.inl nofun))
      | false =>
          rw [hbreaks, if_neg Bool.false_ne_true] at hread
          rcases eq_or_ne conn.received [] with hnone | hsome
          · rw [hnone] at hread hshort
            rw [receiveYuv_of_nothing hread (Or.inr rfl)]
            refine not_orderly (hmem _) ?_ (Or.inr (Or.inl nofun))
            exact fun h => Nat.ne_of_lt hshort (Attempt.whole_some.mp h)
          · obtain ⟨used, ended, hout, -, hopen⟩ := receiveYuv_of_some hread hsome
            rw [hout]
            refine not_orderly (hmem _) ?_ (Or.inr (Or.inr fun other h => ?_))
            · exact fun h => Nat.ne_of_lt hshort (Attempt.whole_some.mp h)
            · cases (hopen (Nat.ne_of_lt hshort)).symm.trans h
    · refine iff_of_true ?_ henough
      obtain ⟨rest, hread, -⟩ := readLoop_whole henough
      rw [← hsys] at hread
      have hlength : (conn.received.take (parseHeader header).len.toNat).length =
          (parseHeader header).len.toNat := List.length_take_of_le henough
      rcases eq_or_ne (conn.received.take (parseHeader header).len.toNat) [] with hnone | hsome
      · rw [hnone] at hread hlength
        rw [receiveYuv_of_nothing hread (Or.inr rfl)]
        exact orderly_of_whole (hall (Attempt.whole_some.mpr hlength)) nofun
      · obtain ⟨used, ended, hout, hexited, -⟩ := receiveYuv_of_some hread hsome
        rw [hout]
        exact orderly_of_whole (hall (Attempt.whole_some.mpr hlength)) hexited
  · refine iff_of_false ?_ fun h => absurd h.1 (Nat.not_lt.mpr hlarge)
    have hneg : (parseHeader header).len.toInt ≤ 0 := by
      rw [BitVec.toInt_eq_toNat_cond, if_neg (by omega)]
      have hlt := (parseHeader header).len.isLt
      omega
    obtain ⟨rest, hread⟩ := sysReadn_of_nonpos hneg conn
    rw [receiveYuv_of_nothing hread (Or.inr rfl)]
    refine not_orderly (hmem _) ?_ (Or.inr (Or.inl nofun))
    rw [Attempt.whole_some, List.length_nil]
    omega

end Yuv

theorem receivePayload_orderly_iff {header : Header}
    (hsop : (parseHeader header).SOP = (0x47, 0x74)) {sop rest : List (BitVec 8)}
    (hfirst : sop.length = 2) (hsecond : rest.length = 32) :
    Orderly (receivePayload client conn round header hsop sop rest) ↔
      round.picAlloc = false ∨ round.yuvAlloc = false ∨
        (parseHeader header).len.toNat < 2 ^ 31 ∧
          (parseHeader header).len.toNat ≤ conn.received.length := by
  have hwhole (used : Bool) : ∀ attempt ∈ [(⟨2, some sop, true⟩ : Attempt),
      ⟨32, some rest, used⟩], attempt.Whole := by
    simp only [List.forall_mem_cons, Attempt.whole_some]
    exact ⟨hfirst, hsecond, nofun⟩
  unfold receivePayload
  cases hpic : round.picAlloc with
  | false => exact iff_of_true (orderly_of_whole (hwhole false) nofun) (Or.inl rfl)
  | true =>
      cases hyuv : round.yuvAlloc with
      | false => exact iff_of_true (orderly_of_whole (hwhole true) nofun) (Or.inr (Or.inl rfl))
      | true =>
          refine (receiveYuv_orderly_iff (hwhole true)).trans ?_
          simp only [reduceCtorEq, false_or]

theorem mem_receiveYuv_reads {header : Header} {hsop : (parseHeader header).SOP = (0x47, 0x74)}
    {before : List Attempt} {attempt : Attempt} (hmem : attempt ∈ before) :
    attempt ∈ (receiveYuv client conn header hsop before).reads := by
  unfold receiveYuv
  dsimp only
  split
  · exact List.mem_append_left _ hmem
  · exact List.mem_append_left _ hmem
  · split <;> exact List.mem_append_left _ hmem

/-- A header that is not whole is gone by, unless there is no memory for the packet. -/
theorem receivePayload_not_orderly {header : Header}
    (hsop : (parseHeader header).SOP = (0x47, 0x74)) {sop rest : List (BitVec 8)}
    (hshort : rest.length ≠ 32) :
    ¬ Orderly (receivePayload client conn round header hsop sop rest) := by
  have hpart (used : Bool) : ¬ Attempt.Whole ⟨32, some rest, used⟩ :=
    fun h => hshort (Attempt.whole_some.mp h)
  have hmem (used : Bool) : ⟨32, some rest, used⟩ ∈
      [(⟨2, some sop, true⟩ : Attempt), ⟨32, some rest, used⟩] := by
    exact List.mem_cons_of_mem _ List.mem_cons_self
  unfold receivePayload
  cases round.picAlloc with
  | false => exact not_orderly (hmem false) (hpart false) (Or.inr (Or.inr nofun))
  | true =>
      cases round.yuvAlloc with
      | false => exact not_orderly (hmem true) (hpart true) (Or.inl rfl)
      | true => exact not_orderly (mem_receiveYuv_reads (hmem true)) (hpart true) (Or.inl rfl)

theorem orderly_of_closed {sop : List (BitVec 8)} (hsop : sop.length = 2)
    (second : Option (List (BitVec 8))) :
    Orderly ⟨[⟨2, some sop, true⟩, ⟨32, second, false⟩], 0, closed client⟩ where
  decided := by
    simp only [List.forall_mem_cons, Bool.false_eq_true, false_implies, true_and]
    exact ⟨fun _ => Attempt.whole_some.mpr hsop, nofun⟩
  closes := fun _ _ _ => ⟨rfl, _, rfl⟩
  exits := nofun

theorem receiveHeader_of_some {header : Header} {hsop : (header 0, header 1) = (0x47, 0x74)}
    {sop bytes : List (BitVec 8)} {rest : Connection}
    (hread : sysReadn 32 conn = (some bytes, rest)) (hbytes : bytes ≠ []) :
    receiveHeader client conn round header hsop sop =
      receivePayload client rest round (header.overlay 2 bytes)
        ((overlay_sop header bytes).trans hsop) sop bytes := by
  unfold receiveHeader
  rw [hread]
  obtain ⟨b, bytes, rfl⟩ := List.exists_cons_of_ne_nil hbytes
  rfl

theorem receiveHeader_orderly_iff {header : Header} {hsop : (header 0, header 1) = (0x47, 0x74)}
    {sop : List (BitVec 8)} (hfirst : sop.length = 2) :
    Orderly (receiveHeader client conn round header hsop sop) ↔
      if conn.received.length < 32 then conn.breaks = true ∨ conn.received = []
      else
        let len := (parseHeader (header.overlay 2 (conn.received.take 32))).len
        round.picAlloc = false ∨ round.yuvAlloc = false ∨
          len.toNat < 2 ^ 31 ∧ len.toNat ≤ conn.received.length - 32 := by
  have hsys : sysReadn 32 conn = readLoop 32 conn := rfl
  rcases Nat.lt_or_ge conn.received.length 32 with hshort | henough
  · rw [if_pos hshort]
    obtain ⟨rest, hread, -⟩ := readLoop_short hshort
    rw [← hsys] at hread
    cases hbreaks : conn.breaks with
    | true =>
        rw [hbreaks, if_pos rfl] at hread
        unfold receiveHeader
        rw [hread]
        exact iff_of_true (orderly_of_closed hfirst none) (Or.inl rfl)
    | false =>
        rw [hbreaks, if_neg Bool.false_ne_true] at hread
        rcases eq_or_ne conn.received [] with hnone | hsome
        · rw [hnone] at hread
          unfold receiveHeader
          rw [hread]
          exact iff_of_true (orderly_of_closed hfirst (some [])) (Or.inr hnone)
        · rw [receiveHeader_of_some hread hsome]
          refine iff_of_false (receivePayload_not_orderly _ (Nat.ne_of_lt hshort)) ?_
          exact fun h => h.elim Bool.false_ne_true hsome
  · rw [if_neg (Nat.not_lt.mpr henough)]
    obtain ⟨rest, hread, hrest, -⟩ := readLoop_whole henough
    rw [← hsys] at hread
    have hlength : (conn.received.take 32).length = 32 := List.length_take_of_le henough
    have hsome : conn.received.take 32 ≠ [] :=
      List.ne_nil_of_length_pos (hlength.symm ▸ by decide)
    rw [receiveHeader_of_some hread hsome]
    refine (receivePayload_orderly_iff _ hfirst hlength).trans ?_
    rw [hrest, List.length_drop]

theorem mem_receivePayload_reads {header : Header}
    (hsop : (parseHeader header).SOP = (0x47, 0x74)) {sop rest : List (BitVec 8)} :
    ⟨2, some sop, true⟩ ∈ (receivePayload client conn round header hsop sop rest).reads := by
  unfold receivePayload
  cases round.picAlloc with
  | false => exact List.mem_cons_self
  | true =>
      cases round.yuvAlloc with
      | false => exact List.mem_cons_self
      | true => exact mem_receiveYuv_reads List.mem_cons_self

theorem mem_receiveHeader_reads {header : Header} {hsop : (header 0, header 1) = (0x47, 0x74)}
    {sop : List (BitVec 8)} :
    ⟨2, some sop, true⟩ ∈ (receiveHeader client conn round header hsop sop).reads := by
  unfold receiveHeader
  dsimp only
  split
  · exact List.mem_cons_self
  · exact List.mem_cons_self
  · exact mem_receivePayload_reads _

theorem receivePacket_orderly_iff :
    Orderly (receivePacket client conn round) ↔ WellCut conn round := by
  have hsys : sysReadn 2 conn = readLoop 2 conn := rfl
  unfold receivePacket WellCut
  dsimp only
  rcases Nat.lt_or_ge conn.received.length 2 with hshort | henough
  · obtain ⟨rest, hread, -⟩ := readLoop_short hshort
    rw [hsys, hread, if_pos hshort]
    cases conn.breaks with
    | true =>
        refine iff_of_true ⟨fun attempt hmem hused => ?_, fun _ _ _ => ⟨rfl, _, rfl⟩, nofun⟩ rfl
        obtain rfl := List.mem_singleton.mp hmem
        exact absurd hused Bool.false_ne_true
    | false =>
        have hpart : ¬ Attempt.Whole ⟨2, some conn.received, true⟩ :=
          fun h => Nat.ne_of_lt hshort (Attempt.whole_some.mp h)
        refine iff_of_false ?_ Bool.false_ne_true
        rw [if_neg Bool.false_ne_true]
        dsimp only
        split
        · exact not_orderly mem_receiveHeader_reads hpart (Or.inl rfl)
        · exact not_orderly List.mem_cons_self hpart (Or.inl rfl)
  · obtain ⟨rest, hread, hrest, hbreaks⟩ := readLoop_whole henough
    have hlength : (conn.received.take 2).length = 2 := List.length_take_of_le henough
    obtain ⟨hzero, hone⟩ := header_overlay_sop round.stale henough
    rw [hsys, hread, if_neg (Nat.not_lt.mpr henough), ← hzero, ← hone]
    dsimp only
    split
    next hsop =>
      rw [if_neg (not_not.mpr hsop)]
      refine (receiveHeader_orderly_iff hlength).trans ?_
      rw [hrest, hbreaks, List.length_drop, List.drop_eq_nil_iff]
      rcases Nat.lt_or_ge conn.received.length 34 with hless | hmore
      · rw [if_pos hless, if_pos (by omega)]
        exact or_congr_right ⟨fun h => by omega, fun h => by omega⟩
      · rw [if_neg (by omega), if_neg (by omega), headerOf_overlay round.stale hmore]
        refine or_congr_right (or_congr_right (and_congr_right' ?_))
        omega
    next hsop =>
      have hwhole : Attempt.Whole ⟨2, some (conn.received.take 2), true⟩ :=
        Attempt.whole_some.mpr hlength
      refine iff_of_true ⟨?_, ?_, fun _ => ?_⟩ trivial
      · exact fun attempt hmem _ => List.mem_singleton.mp hmem ▸ hwhole
      · exact fun attempt hmem hshort => absurd (List.mem_singleton.mp hmem ▸ hwhole) hshort
      · obtain ⟨b0, b1, hbytes⟩ := List.length_eq_two.mp hlength
        rw [hbytes] at hsop ⊢
        exact ⟨b0, b1, List.mem_cons_self, hsop⟩

end Packet

theorem streamRound_orderly_iff (receiver : Receiver) (round : StreamRound) :
    Orderly (streamRound receiver round) ↔ CutWell receiver round := by
  unfold streamRound CutWell
  cases receiver.socket.or round.opened with
  | none =>
      refine iff_of_true ⟨nofun, nofun, nofun⟩ fun _ conn hconn => ?_
      exact absurd hconn (Option.not_mem_none conn)
  | some conn =>
      cases round.select with
      | timeout => exact iff_of_true ⟨nofun, nofun, nofun⟩ nofun
      | failed => exact iff_of_true ⟨nofun, nofun, nofun⟩ nofun
      | ready =>
          refine receivePacket_orderly_iff.trans ?_
          simp only [Option.mem_def, Option.some.injEq, forall_eq', forall_true_left]

/-- Every round of a run ends cleanly exactly when every round is cut well. -/
theorem streamTask_iff (rounds : List StreamRound) :
    StepsMeet streamStep (fun receiver round => Orderly (streamRound receiver round))
        Receiver.init rounds ↔
      StepsMeet streamStep CutWell Receiver.init rounds :=
  stepsMeet_congr streamRound_orderly_iff

/-- The camera closes the connection before the next packet, and the process exits. -/
theorem streamTask_fails :
    ¬ ∀ rounds, StepsMeet streamStep (fun receiver round => Orderly (streamRound receiver round))
      Receiver.init rounds := by
  intro hall
  have hcut := (streamTask_iff _).mp (hall [⟨some [], .ready, fun _ => 0, true, true⟩])
  have hwell : WellCut [] ⟨some [], .ready, fun _ => 0, true, true⟩ :=
    hcut [] _ (List.prefix_refl _) Receiver.init rfl rfl [] rfl
  exact Bool.false_ne_true hwell

end ApolloContrib.Pandora
