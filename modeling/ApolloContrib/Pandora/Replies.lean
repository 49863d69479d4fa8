import ApolloContrib.Pandora.Command

namespace ApolloContrib.Pandora

/-! When a command is answered, and what its functions make of it. -/

structure Reply where
  header : TcpCommandHeader
  payload : List (BitVec 8)
  complete : payload.length = header.len.toNat

def Reply.frame (reply : Reply) : List (BitVec 8) :=
  tcpCommandBuildHeader reply.header ++ reply.payload

def replyOf (bytes : List (BitVec 8)) : Option Reply :=
  let header := tcpCommandHeaderParser ((bytes.drop 2).take 6)
  if h : bytes.take 2 = [0x47, 0x74] ∧ 8 + header.len.toNat ≤ bytes.length then
    some ⟨header, (bytes.drop 8).take header.len.toNat, by
      rw [List.length_take, List.length_drop]
      omega⟩
  else none

theorem tcpCommandHeaderParser_build (header : TcpCommandHeader) (rest : List (BitVec 8)) :
    tcpCommandHeaderParser ((tcpCommandBuildHeader header ++ rest).drop 2) = header := by
  cases header
  exact congrArg (TcpCommandHeader.mk _ _) (word_wordBytes _)

theorem wordBytes_word (b0 b1 b2 b3 : BitVec 8) :
    wordBytes (word b0 b1 b2 b3) = [b0, b1, b2, b3] := by
  have hbyte (offset : Nat) (b : BitVec 8)
      (hb : ∀ i < 8, (word b0 b1 b2 b3).getLsbD (offset + i) = b.getLsbD i) :
      (word b0 b1 b2 b3).extractLsb' offset 8 = b := by
    ext i hi
    rw [BitVec.getElem_extractLsb', hb i hi, BitVec.getLsbD_eq_getElem hi]
  unfold wordBytes
  rw [hbyte 24 b0 fun i hi => ?_, hbyte 16 b1 fun i hi => ?_, hbyte 8 b2 fun i hi => ?_,
    hbyte 0 b3 fun i hi => ?_]
  all_goals
    simp only [word, BitVec.getLsbD_or, BitVec.getLsbD_shiftLeft, BitVec.getLsbD_setWidth]
    grind

theorem tcpCommandBuildHeader_parse {six : List (BitVec 8)} (hsix : six.length = 6) :
    tcpCommandBuildHeader (tcpCommandHeaderParser six) = 0x47 :: 0x74 :: six := by
  match six, hsix with
  | [b0, b1, b2, b3, b4, b5], _ =>
      exact congrArg (0x47 :: 0x74 :: b0 :: b1 :: ·) (wordBytes_word b2 b3 b4 b5)

theorem replyOf_eq_some {bytes : List (BitVec 8)} {reply : Reply} :
    replyOf bytes = some reply ↔ reply.frame <+: bytes := by
  constructor
  · intro hreply
    unfold replyOf at hreply
    dsimp only at hreply
    split at hreply
    next h =>
      obtain ⟨hsop, hlength⟩ := h
      obtain rfl := Option.some.inj hreply
      have hsix : ((bytes.drop 2).take 6).length = 6 := by
        rw [List.length_take, List.length_drop]
        omega
      have hrest : bytes.drop 8 = (bytes.drop 2).drop 6 := by rw [List.drop_drop]
      refine ⟨(bytes.drop 8).drop (tcpCommandHeaderParser ((bytes.drop 2).take 6)).len.toNat, ?_⟩
      rw [Reply.frame, tcpCommandBuildHeader_parse hsix, List.append_assoc,
        List.take_append_drop, hrest]
      calc [0x47, 0x74] ++ ((bytes.drop 2).take 6 ++ (bytes.drop 2).drop 6)
        _ = bytes.take 2 ++ bytes.drop 2 := by rw [hsop, List.take_append_drop]
        _ = bytes := List.take_append_drop 2 bytes
    next => cases hreply
  · rintro ⟨rest, rfl⟩
    obtain ⟨header, payload, hcomplete⟩ := reply
    have hparse : tcpCommandHeaderParser
        (((Reply.frame ⟨header, payload, hcomplete⟩ ++ rest).drop 2).take 6) = header :=
      congrArg (TcpCommandHeader.mk header.cmd header.retCode) (word_wordBytes header.len)
    have hpayload : (Reply.frame ⟨header, payload, hcomplete⟩ ++ rest).drop 8 = payload ++ rest :=
      rfl
    have hlength : (Reply.frame ⟨header, payload, hcomplete⟩ ++ rest).length =
        8 + header.len.toNat + rest.length := by
      rw [List.length_append, Reply.frame, List.length_append, hcomplete]
      rfl
    unfold replyOf
    simp only [hparse, hpayload, hlength]
    rw [dif_pos ⟨rfl, Nat.le_add_right _ _⟩]
    simp only [← hcomplete, List.take_left]

section Commands

variable (world : World) (exchange : Exchange)

structure Released (after : World) : Prop where
  locks : after.locks = world.locks
  sockets : after.sockets = world.sockets

abbrev TcCommand.Refused (cmd : TcCommand) : Prop := cmd.header.len ≠ 0 ∧ cmd.data = none

def TcCommand.payload (cmd : TcCommand) : List (BitVec 8) :=
  (cmd.data.getD []).take cmd.header.len.toNat

def TcCommand.request (cmd : TcCommand) : List (BitVec 8) :=
  tcpCommandBuildHeader cmd.header ++ cmd.payload

def SendMeets (cmd : TcCommand) : Prop :=
  ∃ code next after, tcpCommandClientSendCmd exchange cmd world = some (code, next, after) ∧
    Released world after ∧
    (code = PTC_ERROR_NO_ERROR ↔ after.sent = world.sent ++ cmd.request ∧
      (replyOf exchange.reply.received).isSome) ∧
    (code = PTC_ERROR_NO_ERROR → ∀ reply ∈ replyOf exchange.reply.received,
      next.header.retCode = reply.header.retCode ∧ next.retSize = reply.header.len ∧
        next.retData.getD [] = reply.payload)

structure CalibrationBuffer where
  block : List (BitVec 8)
  len : BitVec 32
  pos : 0 < len.toNat
  fits : len.toNat ≤ block.length

def HeaderWritten : Prop := exchange.opened = true ∧ 8 ≤ exchange.headerWrite.getD 0

def PayloadWritten (len : BitVec 32) : Prop := len.toNat ≤ exchange.payloadWrite.getD 0

/-- As many bytes as the buffer has are sent of it, and fewer only where `write` stops. -/
def SetMeets (buffer : CalibrationBuffer) : Prop :=
  let request := tcpCommandBuildHeader ⟨PtcCommand.setCalibration.code, 0, buffer.len⟩ ++
    buffer.block.take buffer.len.toNat
  ∃ code after sent,
    tcpCommandSetCalibration exchange (some buffer.block) buffer.len world =
      some (code, after) ∧
    Released world after ∧ after.sent = world.sent ++ sent ∧ sent <+: request ∧
    (HeaderWritten exchange → PayloadWritten exchange buffer.len → sent = request)

def GetMeets (command : PtcCommand) : Prop :=
  ∃ got after, tcpCommandGet exchange command world = some (got, after) ∧ Released world after ∧
    ((got.code = PTC_ERROR_NO_ERROR ∧ after.allocated = world.allocated + 1 ∧
        ∃ reply ∈ replyOf exchange.reply.received,
          got.stored = some (reply.payload ++ [0], reply.header.len + 1)) ∨
      (got.code ≠ PTC_ERROR_NO_ERROR ∧ after.allocated = world.allocated ∧ got.stored = none))

/-! The conditions. -/

/-- Its length is a positive `int`, and there is memory for it. -/
def Readable (reply : Reply) : Prop :=
  reply.header.len.toNat < 2 ^ 31 ∧
    (0 < reply.header.len.toNat → exchange.memory reply.header.len.toNat = true)

/-- The block holds the payload; whatever reply there is can be read when the payload was
written, and cannot when `write` failed and -1 is the length. -/
def SendSound (cmd : TcCommand) : Prop :=
  ¬ cmd.Refused → HeaderWritten exchange →
    cmd.header.len.toNat ≤ (cmd.data.getD []).length ∧
    ∀ reply ∈ replyOf exchange.reply.received,
      (PayloadWritten exchange cmd.header.len → Readable exchange reply) ∧
      (exchange.payloadWrite = none → cmd.header.len = BitVec.allOnes 32 →
        ¬ Readable exchange reply)

/-- The first NUL of the block is at `len - 1` or behind. -/
def SetSound (buffer : CalibrationBuffer) : Prop :=
  let size := buffer.block.idxOf 0 + 1
  size ≤ buffer.block.length ∧
    (HeaderWritten exchange →
      (exchange.memory size = true → buffer.len.toNat ≤ size) ∧
      (PayloadWritten exchange buffer.len → exchange.memory size = true))

/-- A reply that can be read has no code, and there is memory for the copy. -/
def GetSound : Prop :=
  HeaderWritten exchange → ∀ reply ∈ replyOf exchange.reply.received,
    Readable exchange reply →
      reply.header.retCode = 0 ∧ exchange.memory (reply.header.len.toNat + 1) = true

end Commands

/-! ### Reading the reply -/

section Read

variable {world : World} {exchange : Exchange}

@[simp] theorem World.free_malloc (world : World) (blocks : Nat) :
    (world.malloc blocks).free blocks = world :=
  congrArg (World.mk world.locks world.sockets · world.sent)
    (Nat.add_sub_cancel world.allocated blocks)

theorem ofInt_natCast_eq_iff {n : Nat} (hn : n < 2 ^ 32) {len : BitVec 32} :
    BitVec.ofInt 32 n = len ↔ n = len.toNat := by
  rw [BitVec.ofInt_natCast, ← BitVec.toNat_inj, BitVec.toNat_ofNat, Nat.mod_eq_of_lt hn]

theorem ofInt_neg_one_eq_iff {len : BitVec 32} :
    BitVec.ofInt 32 (-1) = len ↔ len = BitVec.allOnes 32 := eq_comm

variable {conn : Connection} {header : TcpCommandHeader}

theorem readPayload_whole (hsmall : header.len.toNat < 2 ^ 31)
    (hmemory : 0 < header.len.toNat → exchange.memory header.len.toNat = true)
    (henough : header.len.toNat ≤ conn.received.length) :
    readPayload exchange header conn world =
      (some ⟨header, if 0 < header.len.toNat then some (conn.received.take header.len.toNat)
        else none⟩, world.malloc (if 0 < header.len.toNat then 1 else 0)) := by
  have htoInt : header.len.toInt = header.len.toNat := BitVec.toInt_eq_toNat_of_lt (by omega)
  obtain ⟨rest, hread, -⟩ := readLoop_whole henough
  have hcount : BitVec.ofInt 32 (readCount (some (conn.received.take header.len.toNat))) =
      header.len :=
    (ofInt_natCast_eq_iff (by rw [List.length_take]; omega)).mpr (List.length_take_of_le henough)
  unfold readPayload
  rw [htoInt, sysReadn_natCast, hread]
  dsimp only
  rw [if_neg, if_neg (not_not.mpr hcount)]
  exact fun ⟨hpos, hfull⟩ => Bool.false_ne_true (hfull.symm.trans (hmemory hpos))

theorem readPayload_fails
    (hshort : ¬ (header.len.toNat < 2 ^ 31 ∧
      (0 < header.len.toNat → exchange.memory header.len.toNat = true) ∧
      header.len.toNat ≤ conn.received.length)) :
    readPayload exchange header conn world = (none, world) := by
  have hcount (hmemory : 0 < header.len.toNat → exchange.memory header.len.toNat = true) :
      BitVec.ofInt 32 (readCount (sysReadn header.len.toInt conn).1) ≠ header.len := by
    rcases Nat.lt_or_ge header.len.toNat (2 ^ 31) with hsmall | hlarge
    · have htoInt : header.len.toInt = header.len.toNat := BitVec.toInt_eq_toNat_of_lt (by omega)
      have hless : conn.received.length < header.len.toNat :=
        Nat.not_le.mp fun henough => hshort ⟨hsmall, hmemory, henough⟩
      obtain ⟨rest, hread, -⟩ := readLoop_short hless
      rw [htoInt, sysReadn_natCast, hread]
      cases conn.breaks with
      | true =>
          refine fun h => absurd hsmall ?_
          rw [ofInt_neg_one_eq_iff.mp h]
          decide
      | false =>
          exact fun h => Nat.ne_of_lt hless ((ofInt_natCast_eq_iff (by omega)).mp h)
    · have hneg : header.len.toInt ≤ 0 := by
        rw [BitVec.toInt_eq_toNat_cond, if_neg (by omega)]
        have hlt := header.len.isLt
        omega
      obtain ⟨rest, hread⟩ := sysReadn_of_nonpos hneg conn
      rw [hread]
      refine fun h => ?_
      have hzero : 0 = header.len.toNat := (ofInt_natCast_eq_iff (by decide)).mp h
      omega
  unfold readPayload
  dsimp only
  split
  next => rfl
  next hroom =>
    rw [if_pos, World.free_malloc]
    refine hcount fun hpos => ?_
    exact Bool.of_not_eq_false fun hfull => hroom ⟨hpos, hfull⟩

theorem readCommand_of_frame (hsop : exchange.reply.received.take 2 = [0x47, 0x74])
    (hframe : 8 ≤ exchange.reply.received.length) :
    ∃ rest, rest.received = exchange.reply.received.drop 8 ∧
      tcpCommandReadCommand exchange world = readPayload exchange
        (tcpCommandHeaderParser ((exchange.reply.received.drop 2).take 6)) rest world := by
  have htwo : 2 ≤ exchange.reply.received.length := Nat.le_trans (by decide) hframe
  obtain ⟨rest, hfirst, hrest, -⟩ := readLoop_whole htwo
  have hsix : 6 ≤ rest.received.length := by
    rw [hrest, List.length_drop]
    omega
  obtain ⟨last, hsecond, hlast, -⟩ := readLoop_whole hsix
  refine ⟨last, by rw [hlast, hrest, List.drop_drop], ?_⟩
  have hcount : readCount (some (rest.received.take 6)) = 6 :=
    congrArg Nat.cast (List.length_take_of_le hsix)
  unfold tcpCommandReadCommand
  rw [show sysReadn 2 exchange.reply = readLoop 2 exchange.reply from rfl, hfirst, hsop]
  dsimp only
  have hmatch : ([0x47, 0x74].getD 0 0, [0x47, 0x74].getD 1 exchange.stale) =
      ((0x47, 0x74) : BitVec 8 × BitVec 8) := rfl
  rw [if_neg (not_not.mpr hmatch), show sysReadn 6 rest = readLoop 6 rest from rfl, hsecond]
  dsimp only
  rw [if_neg (not_not.mpr hcount), Option.getD_some, hrest]

theorem readCount_short {conn : Connection} (hshort : conn.received.length < 6) :
    readCount (sysReadn 6 conn).1 ≠ 6 := by
  obtain ⟨rest, hread, -⟩ := readLoop_short hshort
  rw [show sysReadn 6 conn = readLoop 6 conn from rfl, hread]
  cases conn.breaks with
  | true => exact fun h => absurd h (by decide : (-1 : Int) ≠ 6)
  | false => exact fun h => Nat.ne_of_lt hshort (Int.ofNat.inj h)

theorem readCommand_fails (hshort : ¬ (exchange.reply.received.take 2 = [0x47, 0x74] ∧
      8 ≤ exchange.reply.received.length)) :
    tcpCommandReadCommand exchange world = (none, world) := by
  unfold tcpCommandReadCommand
  rw [show sysReadn 2 exchange.reply = readLoop 2 exchange.reply from rfl]
  rcases Nat.lt_or_ge exchange.reply.received.length 2 with hless | htwo
  · obtain ⟨rest, hfirst, hrest⟩ := readLoop_short hless
    rw [hfirst]
    cases hbreaks : exchange.reply.breaks with
    | true => rfl
    | false =>
        rw [if_neg Bool.false_ne_true]
        dsimp only
        split
        · rfl
        · rfl
        · split
          · rfl
          · rw [if_pos (readCount_short ?_)]
            rw [(hrest hbreaks).1]
            decide
  · obtain ⟨rest, hfirst, hrest, -⟩ := readLoop_whole htwo
    obtain ⟨b0, b1, hbytes⟩ := List.length_eq_two.mp (List.length_take_of_le htwo)
    rw [hfirst]
    rw [hbytes] at hshort ⊢
    dsimp only
    split
    next => rfl
    next hsop =>
      obtain ⟨rfl, rfl⟩ := Prod.mk.inj (not_not.mp hsop)
      have hless : ¬ 8 ≤ exchange.reply.received.length := fun h => hshort ⟨rfl, h⟩
      rw [if_pos (readCount_short ?_)]
      rw [hrest, List.length_drop]
      omega

def Reply.feedBack (reply : Reply) : FeedBack :=
  ⟨reply.header, if 0 < reply.header.len.toNat then some reply.payload else none⟩

def Reply.blocks (reply : Reply) : Nat := if 0 < reply.header.len.toNat then 1 else 0

theorem readCommand_of_reply {reply : Reply} (hreply : reply ∈ replyOf exchange.reply.received)
    (hreadable : Readable exchange reply) :
    tcpCommandReadCommand exchange world = (some reply.feedBack, world.malloc reply.blocks) := by
  rw [Option.mem_def, replyOf] at hreply
  split at hreply
  next h =>
    obtain ⟨hsop, hlength⟩ := h
    obtain rfl := Option.some.inj hreply
    obtain ⟨rest, hrest, hread⟩ := readCommand_of_frame hsop (Nat.le_of_add_right_le hlength)
    rw [hread, readPayload_whole hreadable.1 hreadable.2, hrest]
    · rfl
    · rw [hrest, List.length_drop]
      exact Nat.le_sub_of_add_le' hlength
  next => cases hreply

theorem readCommand_of_none
    (hnone : ∀ reply ∈ replyOf exchange.reply.received, ¬ Readable exchange reply) :
    tcpCommandReadCommand exchange world = (none, world) := by
  rcases Classical.em (exchange.reply.received.take 2 = [0x47, 0x74] ∧
      8 ≤ exchange.reply.received.length) with hframe | hframe
  · obtain ⟨rest, hrest, hread⟩ := readCommand_of_frame hframe.1 hframe.2
    rw [hread]
    refine readPayload_fails fun hwhole => ?_
    rw [hrest, List.length_drop] at hwhole
    refine hnone _ (dif_pos ⟨hframe.1, ?_⟩) ⟨hwhole.1, hwhole.2.1⟩
    exact Nat.add_le_of_le_sub' hframe.2 hwhole.2.2
  · exact readCommand_fails hframe

end Read

/-! ### Sending the command -/

section Send

variable {world : World} {exchange : Exchange} {cmd : TcCommand}

def World.said (world : World) (bytes : List (BitVec 8)) : World :=
  { world with sent := world.sent ++ bytes }

theorem World.said_said (world : World) (first second : List (BitVec 8)) :
    (world.said first).said second = world.said (first ++ second) :=
  congrArg (World.mk world.locks world.sockets world.allocated)
    (List.append_assoc world.sent first second)

theorem World.said_nil (world : World) : world.said [] = world :=
  congrArg (World.mk world.locks world.sockets world.allocated) (List.append_nil world.sent)

theorem World.write_snd (result : Option Nat) (bytes : List (BitVec 8)) :
    (world.write result bytes).2 = world.said (bytes.take (result.getD 0)) := rfl

theorem World.write_fst_eq_iff {result : Option Nat} {bytes : List (BitVec 8)} {n : Nat}
    (hlength : bytes.length = n) (hn : 0 < n) :
    (world.write result bytes).1 = n ↔ n ≤ result.getD 0 := by
  subst hlength
  cases result with
  | none => exact iff_of_false nofun (Nat.not_le.mpr hn)
  | some m =>
      refine Int.ofNat_inj.trans ?_
      rw [Option.getD_some]
      omega

theorem sendCmd_refused (hrefused : cmd.Refused) :
    tcpCommandClientSendCmd exchange cmd world = some (PTC_ERROR_BAD_PARAMETER, cmd, world) := by
  rw [tcpCommandClientSendCmd, if_pos hrefused]

theorem sendCmd_unwritten (hdata : ¬ cmd.Refused)
    (hunwritten : ¬ HeaderWritten exchange) :
    ∃ code n, code ≠ PTC_ERROR_NO_ERROR ∧ n < 8 ∧
      tcpCommandClientSendCmd exchange cmd world =
        some (code, cmd, world.said ((tcpCommandBuildHeader cmd.header).take n)) := by
  rw [tcpCommandClientSendCmd, if_neg hdata]
  dsimp only
  split
  next =>
    refine ⟨PTC_ERROR_CONNECT_SERVER_FAILED, 0, by decide, by decide, ?_⟩
    rw [List.take_zero, World.said_nil]
    rfl
  next hopened =>
    have hless : ¬ 8 ≤ exchange.headerWrite.getD 0 :=
      fun h => hunwritten ⟨Bool.not_eq_false _ ▸ hopened, h⟩
    rw [if_pos]
    · exact ⟨PTC_ERROR_TRANSFER_FAILED, exchange.headerWrite.getD 0, by decide,
        Nat.not_le.mp hless, rfl⟩
    · have hlength : (tcpCommandBuildHeader cmd.header).length = 8 := rfl
      exact fun h => hless ((World.write_fst_eq_iff hlength (by decide)).mp h)

theorem writePayload_short (hshort : (cmd.data.getD []).length < cmd.header.len.toNat)
    (hdata : ¬ cmd.Refused) :
    writePayload exchange cmd world = none := by
  have hlen : cmd.header.len ≠ 0 := fun h => by
    rw [h] at hshort
    exact Nat.not_lt_zero _ hshort
  unfold writePayload
  split
  next hnone => exact absurd ⟨hlen, hnone⟩ hdata
  next data hsome =>
    rw [hsome, Option.getD_some] at hshort
    rw [if_neg hlen, if_pos hshort]

def PayloadTaken (exchange : Exchange) (len : BitVec 32) : Prop :=
  PayloadWritten exchange len ∨ exchange.payloadWrite = none ∧ len = BitVec.allOnes 32

theorem taken_iff {bytes : List (BitVec 8)} {len : BitVec 32} (hlength : bytes.length = len.toNat)
    (hpos : 0 < len.toNat) :
    BitVec.ofInt 32 (world.write exchange.payloadWrite bytes).1 = len ↔
      PayloadTaken exchange len := by
  unfold World.write PayloadTaken PayloadWritten
  cases exchange.payloadWrite with
  | none =>
      rw [Option.getD_none, and_iff_right rfl, or_iff_right (Nat.not_le.mpr hpos)]
      exact ofInt_neg_one_eq_iff
  | some m =>
      have hlt := len.isLt
      have hmin : min m len.toNat = len.toNat ↔ len.toNat ≤ m := by omega
      rw [Option.getD_some, ofInt_natCast_eq_iff (by omega), hlength, hmin]
      exact (or_iff_left fun h => Option.some_ne_none m h.1).symm

theorem writePayload_eq (world : World)
    (hfits : cmd.header.len.toNat ≤ (cmd.data.getD []).length) :
    ∃ taken, (taken = true ↔ PayloadTaken exchange cmd.header.len) ∧
      writePayload exchange cmd world =
        some (taken, world.said (cmd.payload.take (exchange.payloadWrite.getD 0))) := by
  rcases Nat.eq_zero_or_pos cmd.header.len.toNat with hzero | hpos
  · refine ⟨true,
      iff_of_true rfl (Or.inl (hzero.symm ▸ Nat.zero_le _ : cmd.header.len.toNat ≤ _)), ?_⟩
    have hlen : cmd.header.len = 0 := BitVec.toNat_inj.mp hzero
    rw [TcCommand.payload, hzero, List.take_zero, List.take_nil, World.said_nil]
    unfold writePayload
    split
    next => rfl
    next => rw [if_pos hlen]
  · have hlen : cmd.header.len ≠ 0 := fun h => by
      rw [h] at hpos
      exact Nat.lt_irrefl 0 hpos
    unfold writePayload TcCommand.payload
    cases hdata : cmd.data with
    | none =>
        rw [hdata] at hfits
        exact absurd hfits (Nat.not_le.mpr hpos)
    | some data =>
        rw [hdata, Option.getD_some] at hfits
        rw [Option.getD_some]
        dsimp only
        rw [if_neg hlen, if_neg (Nat.not_lt.mpr hfits)]
        refine ⟨_, ?_, rfl⟩
        rw [decide_eq_true_iff]
        exact taken_iff (List.length_take_of_le hfits) hpos

theorem sendCmd_written (hdata : ¬ cmd.Refused)
    (hwritten : HeaderWritten exchange) :
    tcpCommandClientSendCmd exchange cmd world = sendPayload exchange cmd
      (world.lock.connect.said (tcpCommandBuildHeader cmd.header)) := by
  have hlength : (tcpCommandBuildHeader cmd.header).length = 8 := rfl
  have hret : (world.lock.connect.write exchange.headerWrite
      (tcpCommandBuildHeader cmd.header)).1 = 8 :=
    (World.write_fst_eq_iff hlength (by decide)).mpr hwritten.2
  have hopened : ¬ exchange.opened = false :=
    fun h => Bool.false_ne_true (h.symm.trans hwritten.1)
  have hwhole : (tcpCommandBuildHeader cmd.header).take (exchange.headerWrite.getD 0) =
      tcpCommandBuildHeader cmd.header := List.take_of_length_le hwritten.2
  rw [tcpCommandClientSendCmd, if_neg hdata]
  dsimp only
  rw [if_neg hopened, if_neg (not_not.mpr hret), World.write_snd, hwhole]

def sentOf (exchange : Exchange) (cmd : TcCommand) : List (BitVec 8) :=
  tcpCommandBuildHeader cmd.header ++ cmd.payload.take (exchange.payloadWrite.getD 0)

theorem sendCmd_failed (hdata : ¬ cmd.Refused)
    (hwritten : HeaderWritten exchange)
    (hfits : cmd.header.len.toNat ≤ (cmd.data.getD []).length)
    (hfails : PayloadTaken exchange cmd.header.len →
      ∀ reply ∈ replyOf exchange.reply.received, ¬ Readable exchange reply) :
    tcpCommandClientSendCmd exchange cmd world =
      some (PTC_ERROR_TRANSFER_FAILED, cmd, world.said (sentOf exchange cmd)) := by
  obtain ⟨taken, htaken, hpayload⟩ := writePayload_eq
    (world.lock.connect.said (tcpCommandBuildHeader cmd.header)) hfits
  rw [sendCmd_written hdata hwritten, sendPayload, hpayload, World.said_said]
  cases taken with
  | false => rfl
  | true =>
      dsimp only
      rw [readCommand_of_none (hfails (htaken.mp rfl))]
      rfl

def TcCommand.answered (cmd : TcCommand) (reply : Reply) : TcCommand :=
  { cmd with
    retData := reply.feedBack.data
    retSize := reply.header.len
    header := { cmd.header with retCode := reply.header.retCode } }

theorem sendCmd_answered (hdata : ¬ cmd.Refused)
    (hwritten : HeaderWritten exchange)
    (hfits : cmd.header.len.toNat ≤ (cmd.data.getD []).length)
    (htaken : PayloadTaken exchange cmd.header.len) {reply : Reply}
    (hreply : reply ∈ replyOf exchange.reply.received) (hreadable : Readable exchange reply) :
    tcpCommandClientSendCmd exchange cmd world =
      some (PTC_ERROR_NO_ERROR, cmd.answered reply,
        (world.said (sentOf exchange cmd)).malloc reply.blocks) := by
  obtain ⟨taken, htakenIff, hpayload⟩ := writePayload_eq
    (world.lock.connect.said (tcpCommandBuildHeader cmd.header)) hfits
  obtain rfl : taken = true := htakenIff.mpr htaken
  rw [sendCmd_written hdata hwritten, sendPayload, hpayload, World.said_said]
  dsimp only
  rw [readCommand_of_reply hreply hreadable]
  rfl

inductive SendEnds (world : World) (exchange : Exchange) (cmd : TcCommand) :
    PtcErrCode → TcCommand → World → Prop
  | unwritten {code : PtcErrCode} {n : Nat} : code ≠ PTC_ERROR_NO_ERROR → n < 8 →
      ¬ (¬ cmd.Refused ∧ HeaderWritten exchange) →
      SendEnds world exchange cmd code cmd
        (world.said ((tcpCommandBuildHeader cmd.header).take n))
  | failed : ¬ cmd.Refused → HeaderWritten exchange →
      (PayloadTaken exchange cmd.header.len →
        ∀ reply ∈ replyOf exchange.reply.received, ¬ Readable exchange reply) →
      SendEnds world exchange cmd PTC_ERROR_TRANSFER_FAILED cmd (world.said (sentOf exchange cmd))
  | answered {reply : Reply} : ¬ cmd.Refused → HeaderWritten exchange →
      PayloadTaken exchange cmd.header.len → reply ∈ replyOf exchange.reply.received →
      Readable exchange reply →
      SendEnds world exchange cmd PTC_ERROR_NO_ERROR (cmd.answered reply)
        ((world.said (sentOf exchange cmd)).malloc reply.blocks)

theorem sendCmd_ends (world : World) (exchange : Exchange) (cmd : TcCommand)
    (hfits : ¬ cmd.Refused → HeaderWritten exchange →
    cmd.header.len.toNat ≤ (cmd.data.getD []).length) :
    ∃ code next after, tcpCommandClientSendCmd exchange cmd world = some (code, next, after) ∧
      SendEnds world exchange cmd code next after := by
  rcases Classical.em cmd.Refused with hrefused | hdata
  · have hends : SendEnds world exchange cmd PTC_ERROR_BAD_PARAMETER cmd
        (world.said ((tcpCommandBuildHeader cmd.header).take 0)) :=
      .unwritten (by decide) (by decide) fun h => h.1 hrefused
    rw [List.take_zero, World.said_nil] at hends
    exact ⟨_, _, _, sendCmd_refused hrefused, hends⟩
  rcases Classical.em (HeaderWritten exchange) with hwritten | hunwritten
  · have hpayload := hfits hdata hwritten
    rcases Classical.em (PayloadTaken exchange cmd.header.len ∧
        ∃ reply ∈ replyOf exchange.reply.received, Readable exchange reply) with hread | hread
    · obtain ⟨htaken, reply, hreply, hreadable⟩ := hread
      exact ⟨_, _, _, sendCmd_answered hdata hwritten hpayload htaken hreply hreadable,
        .answered hdata hwritten htaken hreply hreadable⟩
    · have hfails (htaken : PayloadTaken exchange cmd.header.len) (reply : Reply)
          (hreply : reply ∈ replyOf exchange.reply.received) : ¬ Readable exchange reply :=
        fun hreadable => hread ⟨htaken, reply, hreply, hreadable⟩
      exact ⟨_, _, _, sendCmd_failed hdata hwritten hpayload hfails,
        .failed hdata hwritten hfails⟩
  · obtain ⟨code, n, hcode, hn, hsend⟩ := sendCmd_unwritten hdata hunwritten
    exact ⟨_, _, _, hsend, .unwritten hcode hn fun h => hunwritten h.2⟩

theorem sendCmd_fault (hdata : ¬ cmd.Refused) (hwritten : HeaderWritten exchange)
    (hshort : (cmd.data.getD []).length < cmd.header.len.toNat) :
    tcpCommandClientSendCmd exchange cmd world = none := by
  rw [sendCmd_written hdata hwritten, sendPayload, writePayload_short hshort hdata]

theorem SendEnds.released {code : PtcErrCode} {next : TcCommand} {after : World}
    (hends : SendEnds world exchange cmd code next after) : Released world after := by
  cases hends with
  | unwritten => exact ⟨rfl, rfl⟩
  | failed => exact ⟨rfl, rfl⟩
  | answered => exact ⟨rfl, rfl⟩

theorem request_length (cmd : TcCommand) : 8 ≤ cmd.request.length := by
  rw [TcCommand.request, List.length_append]
  exact Nat.le_add_right 8 _

theorem sentOf_eq_request_iff (hfits : cmd.header.len.toNat ≤ (cmd.data.getD []).length) :
    sentOf exchange cmd = cmd.request ↔ PayloadWritten exchange cmd.header.len := by
  have hlength : cmd.payload.length = cmd.header.len.toNat := List.length_take_of_le hfits
  unfold sentOf TcCommand.request PayloadWritten
  rw [List.append_cancel_left_eq, ← hlength]
  refine ⟨fun h => ?_, List.take_of_length_le⟩
  have htake : (cmd.payload.take (exchange.payloadWrite.getD 0)).length = cmd.payload.length :=
    congrArg List.length h
  rw [List.length_take] at htake
  omega

end Send

section Functions

variable {world : World} {exchange : Exchange}

theorem Reply.feedBack_data (reply : Reply) : reply.feedBack.data.getD [] = reply.payload := by
  unfold feedBack
  split
  next => rfl
  next hlen =>
    have hnone : reply.payload.length = 0 := reply.complete.trans (Nat.eq_zero_of_not_pos hlen)
    exact (List.length_eq_zero_iff.mp hnone).symm

theorem sendMeets_of_sound {cmd : TcCommand} (hsound : SendSound exchange cmd) :
    SendMeets world exchange cmd := by
  obtain ⟨code, next, after, hsend, hends⟩ :=
    sendCmd_ends world exchange cmd fun hdata hwritten => (hsound hdata hwritten).1
  refine ⟨code, next, after, hsend, hends.released, ?_⟩
  cases hends with
  | unwritten hcode hn _ =>
      refine ⟨iff_of_false hcode fun h => ?_, fun h => absurd h hcode⟩
      have hlength := congrArg List.length (List.append_cancel_left h.1)
      have hrequest := request_length cmd
      rw [List.length_take] at hlength
      omega
  | failed hdata hwritten hfails =>
      obtain ⟨hfits, hreplies⟩ := hsound hdata hwritten
      refine ⟨iff_of_false (by decide) fun h => ?_, fun h => absurd h (by decide)⟩
      obtain ⟨reply, hreply⟩ := Option.isSome_iff_exists.mp h.2
      have hpayload : PayloadWritten exchange cmd.header.len :=
        (sentOf_eq_request_iff hfits).mp (List.append_cancel_left h.1)
      exact hfails (Or.inl hpayload) reply hreply ((hreplies reply hreply).1 hpayload)
  | answered hdata hwritten htaken hreply hreadable =>
      obtain ⟨hfits, hreplies⟩ := hsound hdata hwritten
      have hpayload : PayloadWritten exchange cmd.header.len :=
        htaken.resolve_right fun h => (hreplies _ hreply).2 h.1 h.2 hreadable
      refine ⟨iff_of_true rfl ⟨?_, Option.isSome_iff_exists.mpr ⟨_, hreply⟩⟩,
        fun _ other hother => ?_⟩
      · exact congrArg (world.sent ++ ·) ((sentOf_eq_request_iff hfits).mpr hpayload)
      · obtain rfl := Option.mem_unique hreply hother
        exact ⟨rfl, rfl, Reply.feedBack_data _⟩

theorem sendSound_of_meets {cmd : TcCommand} (hmeets : SendMeets world exchange cmd) :
    SendSound exchange cmd := by
  intro hdata hwritten
  obtain ⟨code, next, after, hsend, -, hiff, -⟩ := hmeets
  have hfits : cmd.header.len.toNat ≤ (cmd.data.getD []).length := by
    refine Nat.not_lt.mp fun hshort => ?_
    rw [sendCmd_fault hdata hwritten hshort] at hsend
    cases hsend
  refine ⟨hfits, fun reply hreply => ?_⟩
  obtain ⟨_, _, _, hresult, hends⟩ := sendCmd_ends world exchange cmd fun _ _ => hfits
  obtain ⟨rfl, rfl, rfl⟩ : _ ∧ _ ∧ _ := by
    simpa only [Option.some.injEq, Prod.mk.injEq] using hsend.symm.trans hresult
  cases hends with
  | unwritten _ _ hunwritten => exact absurd ⟨hdata, hwritten⟩ hunwritten
  | failed _ _ hfails =>
      refine ⟨fun hpayload => ?_, fun hnone hlen => hfails (Or.inr ⟨hnone, hlen⟩) reply hreply⟩
      have hwhole : PTC_ERROR_TRANSFER_FAILED = PTC_ERROR_NO_ERROR :=
        hiff.mpr ⟨congrArg (world.sent ++ ·) ((sentOf_eq_request_iff hfits).mpr hpayload),
          Option.isSome_iff_exists.mpr ⟨reply, hreply⟩⟩
      exact absurd hwhole (by decide)
  | answered _ _ htaken hother hreadable =>
      obtain rfl := Option.mem_unique hreply hother
      refine ⟨fun _ => hreadable, fun hnone hlen => ?_⟩
      have hsent := List.append_cancel_left (hiff.mp rfl).1
      have hpayload := (sentOf_eq_request_iff hfits).mp hsent
      rw [PayloadWritten, hnone, hlen] at hpayload
      exact absurd hpayload (by decide)

/-! The Get functions. -/

theorem pointerBlocks_feedBack (reply : Reply) :
    pointerBlocks reply.feedBack.data = reply.blocks := by
  unfold pointerBlocks Reply.feedBack Reply.blocks
  split <;> rfl

theorem setWidth_eq_zero_iff {code : BitVec 8} :
    code.setWidth 32 = PTC_ERROR_NO_ERROR ↔ code = 0 := by
  rw [← BitVec.toNat_inj, ← BitVec.toNat_inj, BitVec.toNat_setWidth_of_le (by decide)]
  rfl

def getCmd (command : PtcCommand) : TcCommand := ⟨⟨command.code, 0, 0⟩, none, none, 0⟩

theorem tcpCommandGet_of_error {command : PtcCommand} {code : PtcErrCode} {next : TcCommand}
    {after : World} (hcode : code ≠ PTC_ERROR_NO_ERROR)
    (hsend : tcpCommandClientSendCmd exchange (getCmd command) world = some (code, next, after)) :
    tcpCommandGet exchange command world = some (⟨code, none⟩, after) := by
  unfold tcpCommandGet
  rw [← getCmd, hsend]
  exact if_pos hcode

theorem tcpCommandGet_of_reply {command : PtcCommand} {reply : Reply}
    (hsmall : reply.header.len.toNat < 2 ^ 31) {after : World}
    (hsend : tcpCommandClientSendCmd exchange (getCmd command) world =
      some (PTC_ERROR_NO_ERROR, (getCmd command).answered reply, after.malloc reply.blocks)) :
    tcpCommandGet exchange command world =
      if exchange.memory (reply.header.len.toNat + 1) = false then none
      else some (⟨reply.header.retCode.setWidth 32,
        some (reply.payload ++ [0], reply.header.len + 1)⟩, after.malloc 1) := by
  have hsize : (reply.header.len + 1).toNat = reply.header.len.toNat + 1 := by
    rw [BitVec.toNat_add_of_lt]
    · rfl
    · exact Nat.lt_of_lt_of_le (Nat.add_lt_add_right hsmall 1) (by decide)
  have hcopy : (reply.feedBack.data.getD []).take reply.header.len.toNat = reply.payload := by
    rw [Reply.feedBack_data, ← reply.complete, List.take_length]
  have hroom : ¬ reply.header.len.toNat + 1 ≤ reply.header.len.toNat := Nat.not_succ_le_self _
  have hworld : ((after.malloc reply.blocks).malloc 1).free reply.blocks = after.malloc 1 := by
    have hcount : after.allocated + reply.blocks + 1 - reply.blocks = after.allocated + 1 := by
      omega
    exact congrArg (World.mk after.locks after.sockets · after.sent) hcount
  unfold tcpCommandGet
  rw [← getCmd, hsend]
  dsimp only [TcCommand.answered]
  rw [if_neg (not_not.mpr rfl), hsize, hcopy, pointerBlocks_feedBack, hworld]
  exact if_congr (or_iff_left hroom) rfl rfl

theorem getMeets_iff {command : PtcCommand} :
    GetMeets world exchange command ↔ GetSound exchange := by
  have hdata : ¬ (getCmd command).Refused := fun h => h.1 rfl
  have htaken : PayloadTaken exchange (getCmd command).header.len := Or.inl (Nat.zero_le _)
  obtain ⟨code, next, after, hsend, hends⟩ :=
    sendCmd_ends world exchange (getCmd command) fun _ _ => Nat.zero_le _
  cases hends with
  | unwritten hcode _ hunwritten =>
      refine iff_of_true ?_ fun hwritten => absurd ⟨hdata, hwritten⟩ hunwritten
      exact ⟨_, _, tcpCommandGet_of_error hcode hsend, ⟨rfl, rfl⟩, Or.inr ⟨hcode, rfl, rfl⟩⟩
  | failed _ _ hfails =>
      refine iff_of_true ?_ fun _ reply hreply hreadable => ?_
      · exact ⟨_, _, tcpCommandGet_of_error (by decide) hsend, ⟨rfl, rfl⟩,
          Or.inr ⟨by decide, rfl, rfl⟩⟩
      · exact absurd hreadable (hfails htaken reply hreply)
  | @answered reply _ hwritten _ hreply hreadable =>
      have hget := tcpCommandGet_of_reply hreadable.1 hsend
      constructor
      · rintro ⟨got, last, hresult, -, hends⟩ _ other hother _
        obtain rfl := Option.mem_unique hreply hother
        rw [hget] at hresult
        split at hresult
        next => cases hresult
        next hmemory =>
          obtain ⟨rfl, rfl⟩ := Prod.mk.inj (Option.some.inj hresult)
          obtain ⟨hcode, -, -⟩ | ⟨-, -, hstored⟩ := hends
          · exact ⟨setWidth_eq_zero_iff.mp hcode, Bool.not_eq_false _ ▸ hmemory⟩
          · cases hstored
      · intro hsound
        obtain ⟨hcode, hmemory⟩ := hsound hwritten reply hreply hreadable
        rw [if_neg (fun h => Bool.false_ne_true (h.symm.trans hmemory))] at hget
        exact ⟨_, _, hget, ⟨rfl, rfl⟩, Or.inl ⟨setWidth_eq_zero_iff.mpr hcode, rfl, reply, hreply,
          rfl⟩⟩

/-! The Set function. -/

/-- The command of `TcpCommandSetCalibration`. -/
def setCmd (len : BitVec 32) (data : Option (List (BitVec 8))) : TcCommand :=
  ⟨⟨PtcCommand.setCalibration.code, 0, len⟩, data, none, 0⟩

theorem tcpCommandSetCalibration_of_send {block : List (BitVec 8)} {len : BitVec 32}
    {data : Option (List (BitVec 8))} {code : PtcErrCode} {next : TcCommand} {after : World}
    (hlen : len ≠ 0) (hdup : strdup exchange block = some data)
    (hsend : tcpCommandClientSendCmd exchange (setCmd len data)
      (world.malloc (pointerBlocks data)) = some (code, next, after)) :
    ∃ code last, tcpCommandSetCalibration exchange (some block) len world = some (code, last) ∧
      last.locks = after.locks ∧ last.sockets = after.sockets ∧ last.sent = after.sent := by
  unfold tcpCommandSetCalibration
  dsimp only
  rw [if_neg hlen, hdup]
  dsimp only
  rw [← setCmd, hsend]
  dsimp only
  split
  · exact ⟨_, _, rfl, rfl, rfl, rfl⟩
  · exact ⟨_, _, rfl, rfl, rfl, rfl⟩

theorem tcpCommandSetCalibration_fault {block : List (BitVec 8)} {len : BitVec 32}
    (hfault : ∀ data ∈ strdup exchange block, tcpCommandClientSendCmd exchange (setCmd len data)
      (world.malloc (pointerBlocks data)) = none) (hlen : len ≠ 0) :
    tcpCommandSetCalibration exchange (some block) len world = none := by
  unfold tcpCommandSetCalibration
  dsimp only
  rw [if_neg hlen]
  cases hdup : strdup exchange block with
  | none => rfl
  | some data =>
      dsimp only
      rw [← setCmd, hfault data hdup]

theorem set_sent {buffer : CalibrationBuffer} {size : Nat} (hsize : buffer.len.toNat ≤ size) :
    (setCmd buffer.len (some (buffer.block.take size))).request =
      tcpCommandBuildHeader ⟨PtcCommand.setCalibration.code, 0, buffer.len⟩ ++
        buffer.block.take buffer.len.toNat := by
  unfold TcCommand.request TcCommand.payload setCmd
  dsimp only
  rw [Option.getD_some, List.take_take, Nat.min_eq_left hsize]

theorem sentOf_prefix (exchange : Exchange) (cmd : TcCommand) :
    sentOf exchange cmd <+: cmd.request :=
  (List.prefix_append_right_inj _).mpr (List.take_prefix _ _)

theorem setMeets_of_full {buffer : CalibrationBuffer}
    (hdup : strdup exchange buffer.block = some none) :
    SetMeets world exchange buffer ↔
      (HeaderWritten exchange → ¬ PayloadWritten exchange buffer.len) := by
  have hlen : buffer.len ≠ 0 := fun h => Nat.ne_of_gt buffer.pos (BitVec.toNat_inj.mpr h)
  have hrefused : (setCmd buffer.len none).Refused := ⟨hlen, rfl⟩
  have hsend : tcpCommandClientSendCmd exchange (setCmd buffer.len none)
      (world.malloc (pointerBlocks none)) = _ := sendCmd_refused hrefused
  obtain ⟨code, last, hset, hlocks, hsockets, hsent⟩ :=
    tcpCommandSetCalibration_of_send hlen hdup hsend
  constructor
  · rintro ⟨_, after, sent, hresult, -, hafter, -, hwhole⟩ hwritten hpayload
    obtain ⟨-, rfl⟩ := Prod.mk.inj (Option.some.inj (hset.symm.trans hresult))
    have hnone : sent = [] := List.append_right_eq_self.mp (hafter.symm.trans hsent)
    exact List.cons_ne_nil _ _ ((hwhole hwritten hpayload).symm.trans hnone)
  · intro hunwritten
    exact ⟨code, last, [], hset, ⟨hlocks, hsockets⟩, hsent.trans (List.append_nil _).symm,
      List.nil_prefix, fun hwritten hpayload => absurd hpayload (hunwritten hwritten)⟩

theorem setMeets_of_copy {buffer : CalibrationBuffer} {size : Nat}
    (hsize : size ≤ buffer.block.length)
    (hdup : strdup exchange buffer.block = some (some (buffer.block.take size))) :
    SetMeets world exchange buffer ↔ (HeaderWritten exchange → buffer.len.toNat ≤ size) := by
  have hlen : buffer.len ≠ 0 := fun h => Nat.ne_of_gt buffer.pos (BitVec.toNat_inj.mpr h)
  have hdata : ¬ (setCmd buffer.len (some (buffer.block.take size))).Refused :=
    fun h => Option.some_ne_none _ h.2
  have hlength : (buffer.block.take size).length = size := List.length_take_of_le hsize
  constructor
  · rintro ⟨code, after, sent, hset, -⟩ hwritten
    refine Nat.not_lt.mp fun hshort => ?_
    rw [tcpCommandSetCalibration_fault (fun data hmem => ?_) hlen] at hset
    · cases hset
    · obtain rfl := Option.some.inj (hdup.symm.trans hmem)
      exact sendCmd_fault hdata hwritten (hlength.symm ▸ hshort)
  · intro hfits
    obtain ⟨code, next, after, hsend, hends⟩ := sendCmd_ends
      (world.malloc (pointerBlocks (some (buffer.block.take size)))) exchange
      (setCmd buffer.len (some (buffer.block.take size))) fun _ hwritten =>
        hlength.symm ▸ hfits hwritten
    obtain ⟨code, last, hset, hlocks, hsockets, hsent⟩ :=
      tcpCommandSetCalibration_of_send hlen hdup hsend
    have hreleased : Released world last :=
      ⟨hlocks.trans hends.released.locks, hsockets.trans hends.released.sockets⟩
    have hwhole (hwritten : HeaderWritten exchange)
        (hafter : after.sent = world.sent ++
          sentOf exchange (setCmd buffer.len (some (buffer.block.take size)))) :
        SetMeets world exchange buffer := by
      have hrequest := set_sent (hfits hwritten)
      refine ⟨code, last, _, hset, hreleased, hsent.trans hafter, ?_, fun _ hpayload => ?_⟩
      · exact hrequest ▸ sentOf_prefix exchange _
      · exact ((sentOf_eq_request_iff (hlength.symm ▸ hfits hwritten)).mpr hpayload).trans hrequest
    cases hends with
    | @unwritten _ n _ _ hunwritten =>
        refine ⟨code, last, _, hset, hreleased, hsent, ?_, fun hwritten => ?_⟩
        · exact (List.take_prefix n _).trans (List.prefix_append _ _)
        · exact absurd ⟨hdata, hwritten⟩ hunwritten
    | failed _ hwritten => exact hwhole hwritten rfl
    | answered _ hwritten => exact hwhole hwritten rfl

theorem setMeets_iff {buffer : CalibrationBuffer} :
    SetMeets world exchange buffer ↔ SetSound exchange buffer := by
  unfold SetSound
  dsimp only
  rcases Nat.lt_or_ge (buffer.block.idxOf 0) buffer.block.length with hnul | hnul
  · rw [and_iff_right (Nat.succ_le_of_lt hnul)]
    cases hmemory : exchange.memory (buffer.block.idxOf 0 + 1) with
    | false =>
        have hdup : strdup exchange buffer.block = some none := by
          rw [strdup, if_pos hnul, hmemory, if_neg Bool.false_ne_true]
        rw [setMeets_of_full hdup]
        simp only [Bool.false_eq_true, false_implies, true_and, imp_false]
    | true =>
        have hdup : strdup exchange buffer.block =
            some (some (buffer.block.take (buffer.block.idxOf 0 + 1))) := by
          rw [strdup, if_pos hnul, hmemory, if_pos rfl]
        rw [setMeets_of_copy hnul hdup]
        simp only [forall_const, implies_true, and_true]
  · have hlen : buffer.len ≠ 0 := fun h => Nat.ne_of_gt buffer.pos (BitVec.toNat_inj.mpr h)
    refine iff_of_false ?_ fun h => Nat.not_lt.mpr hnul h.1
    rintro ⟨code, after, sent, hset, -⟩
    rw [tcpCommandSetCalibration_fault (fun data hdata => ?_) hlen] at hset
    · cases hset
    · rw [strdup, if_neg (Nat.not_lt.mpr hnul)] at hdata
      cases hdata

end Functions

/-- A header that is sent is read back; and each function does what it is for under exactly its
condition. -/
theorem tcpCommand_iff (world : World) (exchange : Exchange) :
    (∀ header : TcpCommandHeader,
      tcpCommandHeaderParser ((tcpCommandBuildHeader header).drop 2) = header) ∧
    (∀ cmd, SendMeets world exchange cmd ↔ SendSound exchange cmd) ∧
    (∀ buffer, SetMeets world exchange buffer ↔ SetSound exchange buffer) ∧
    ∀ command, GetMeets world exchange command ↔ GetSound exchange := by
  refine ⟨fun header => ?_, fun _ => ⟨sendSound_of_meets, sendMeets_of_sound⟩,
    fun _ => setMeets_iff, fun _ => getMeets_iff⟩
  exact (congrArg (fun bytes => tcpCommandHeaderParser (bytes.drop 2))
    (List.append_nil (tcpCommandBuildHeader header)).symm).trans
    (tcpCommandHeaderParser_build header [])

/-- A server that takes every command and answers with the code 3. -/
def refusing : Exchange where
  opened := true
  headerWrite := some 8
  payloadWrite := some 3
  reply := [.bytes [0x47, 0x74, 0, 3, 0, 0, 0, 0] (List.cons_ne_nil _ _)]
  stale := 0
  memory := fun _ => true

/-- A NUL in the buffer cuts the copy short, and a reply with a code fills `*buffer`. -/
theorem tcpCommand_fails :
    ¬ SetMeets ⟨0, 0, 0, []⟩ refusing ⟨[65, 0, 66], 3, by decide, by decide⟩ ∧
      ¬ GetMeets ⟨0, 0, 0, []⟩ refusing .getLidarCalibration := by
  have hwritten : HeaderWritten refusing := ⟨rfl, by decide⟩
  constructor
  · rw [setMeets_iff]
    exact fun hsound => absurd ((hsound.2 hwritten).1 rfl) (by decide)
  · rw [getMeets_iff]
    intro hsound
    obtain ⟨hcode, -⟩ := hsound hwritten ⟨⟨0, 3, 0⟩, [], rfl⟩ rfl ⟨by decide, fun _ => rfl⟩
    exact absurd hcode (by decide)

end ApolloContrib.Pandora
