import ApolloContrib.Pandora.Client
import ApolloContrib.Pandora.Socket

namespace ApolloContrib.Pandora

/-! The commands of `tcp_command_client.c`, each over a connection of its own. -/

inductive PtcCommand where
  | getCalibration
  | setCalibration
  | heartbeat
  | resetCalibration
  | test
  | getLidarCalibration
deriving DecidableEq, Repr

def PtcCommand.code : PtcCommand → BitVec 8
  | getCalibration => 0
  | setCalibration => 1
  | heartbeat => 2
  | resetCalibration => 3
  | test => 4
  | getLidarCalibration => 5

/-- `PTC_ErrCode`, as which the code of the device is returned too. -/
abbrev PtcErrCode := BitVec 32

abbrev PTC_ERROR_NO_ERROR : PtcErrCode := 0

abbrev PTC_ERROR_BAD_PARAMETER : PtcErrCode := 1

abbrev PTC_ERROR_CONNECT_SERVER_FAILED : PtcErrCode := 2

abbrev PTC_ERROR_TRANSFER_FAILED : PtcErrCode := 3

structure TcpCommandHeader where
  cmd : BitVec 8
  retCode : BitVec 8
  len : BitVec 32
deriving DecidableEq, Repr

/-- A pointer is the block it points to, or NULL. -/
structure TcCommand where
  header : TcpCommandHeader
  data : Option (List (BitVec 8))
  retData : Option (List (BitVec 8))
  retSize : BitVec 32
deriving DecidableEq, Repr

structure World where
  locks : Nat
  sockets : Nat
  allocated : Nat
  sent : List (BitVec 8)
deriving DecidableEq, Repr

namespace World

variable (world : World)

def lock : World := { world with locks := world.locks + 1 }

def unlock : World := { world with locks := world.locks - 1 }

def connect : World := { world with sockets := world.sockets + 1 }

def close : World := { world with sockets := world.sockets - 1 }

def malloc (blocks : Nat) : World := { world with allocated := world.allocated + blocks }

def free (blocks : Nat) : World := { world with allocated := world.allocated - blocks }

/-- `write` with its result, which is -1 for `none` and never more than the bytes given. -/
def write (result : Option Nat) (bytes : List (BitVec 8)) : Int × World :=
  (match result with
    | none => -1
    | some n => (min n bytes.length : Nat),
    { world with sent := world.sent ++ bytes.take (result.getD 0) })

end World

/-- What one command meets: whether `tcp_open` succeeds, what the two `write` do, what comes
back, what `buffer[1]` holds before it is read and which sizes can be allocated. -/
structure Exchange where
  opened : Bool
  headerWrite : Option Nat
  payloadWrite : Option Nat
  reply : Connection
  stale : BitVec 8
  memory : Nat → Bool

def tcpCommandHeaderParser (buffer : List (BitVec 8)) : TcpCommandHeader where
  cmd := buffer.getD 0 0
  retCode := buffer.getD 1 0
  len := word (buffer.getD 2 0) (buffer.getD 3 0) (buffer.getD 4 0) (buffer.getD 5 0)

def tcpCommandBuildHeader (header : TcpCommandHeader) : List (BitVec 8) :=
  [0x47, 0x74, header.cmd, header.retCode] ++ wordBytes header.len

section Exchange

variable (exchange : Exchange)

def readCount : Option (List (BitVec 8)) → Int
  | none => -1
  | some bytes => bytes.length

structure FeedBack where
  header : TcpCommandHeader
  data : Option (List (BitVec 8))
deriving DecidableEq, Repr

/-- From the allocation of the payload on. `data` stays NULL when there is none. -/
def readPayload (header : TcpCommandHeader) (conn : Connection) (world : World) :
    Option FeedBack × World :=
  let blocks := if 0 < header.len.toNat then 1 else 0
  if 0 < header.len.toNat ∧ exchange.memory header.len.toNat = false then (none, world)
  else
    let world := world.malloc blocks
    let third := (sysReadn header.len.toInt conn).1
    -- an `int` is compared with an unsigned length
    if BitVec.ofInt 32 (readCount third) ≠ header.len then (none, world.free blocks)
    else (some ⟨header, if 0 < header.len.toNat then third else none⟩, world)

def tcpCommandReadCommand (world : World) : Option FeedBack × World :=
  let (first, conn) := sysReadn 2 exchange.reply
  match first with
  | none | some [] => (none, world)
  | some sop =>
      if (sop.getD 0 0, sop.getD 1 exchange.stale) ≠ (0x47, 0x74) then (none, world)
      else
        let (second, conn) := sysReadn 6 conn
        if readCount second ≠ 6 then (none, world)
        else readPayload exchange (tcpCommandHeaderParser (second.getD [])) conn world

/-- Whether the payload counts as written; no result when it ends before `len`. -/
def writePayload (cmd : TcCommand) (world : World) : Option (Bool × World) :=
  match cmd.data with
  | none => some (true, world)
  | some data =>
      if cmd.header.len = 0 then some (true, world)
      else if data.length < cmd.header.len.toNat then none
      else
        let (ret, world) := world.write exchange.payloadWrite (data.take cmd.header.len.toNat)
        some (BitVec.ofInt 32 ret = cmd.header.len, world)

def sendPayload (cmd : TcCommand) (world : World) : Option (PtcErrCode × TcCommand × World) :=
  match writePayload exchange cmd world with
  | none => none
  | some (false, world) => some (PTC_ERROR_TRANSFER_FAILED, cmd, world.close.unlock)
  | some (true, world) =>
      match tcpCommandReadCommand exchange world with
      | (none, world) => some (PTC_ERROR_TRANSFER_FAILED, cmd, world.close.unlock)
      | (some feedBack, world) =>
          some (PTC_ERROR_NO_ERROR,
            { cmd with
              retData := feedBack.data
              retSize := feedBack.header.len
              header := { cmd.header with retCode := feedBack.header.retCode } },
            world.close.unlock)

/-- There is no result when bytes outside a block are sent. -/
def tcpCommandClientSendCmd (cmd : TcCommand) (world : World) :
    Option (PtcErrCode × TcCommand × World) :=
  if cmd.header.len ≠ 0 ∧ cmd.data = none then some (PTC_ERROR_BAD_PARAMETER, cmd, world)
  else
    let world := world.lock
    if exchange.opened = false then some (PTC_ERROR_CONNECT_SERVER_FAILED, cmd, world.unlock)
    else
      let (ret, world) :=
        world.connect.write exchange.headerWrite (tcpCommandBuildHeader cmd.header)
      if ret ≠ 8 then some (PTC_ERROR_TRANSFER_FAILED, cmd, world.close.unlock)
      else
        sendPayload exchange cmd world

/-- The copy up to the first NUL, NULL when it cannot be allocated; no result when the block
has no NUL. -/
def strdup (block : List (BitVec 8)) : Option (Option (List (BitVec 8))) :=
  if block.idxOf 0 < block.length then
    some (if exchange.memory (block.idxOf 0 + 1) then some (block.take (block.idxOf 0 + 1))
      else none)
  else none

def pointerBlocks (pointer : Option (List (BitVec 8))) : Nat := if pointer.isSome then 1 else 0

def tcpCommandSetCalibration (buffer : Option (List (BitVec 8))) (len : BitVec 32)
    (world : World) : Option (PtcErrCode × World) :=
  match buffer with
  | none => some (PTC_ERROR_BAD_PARAMETER, world)
  | some block =>
      if len = 0 then some (PTC_ERROR_BAD_PARAMETER, world)
      else
        match strdup exchange block with
        | none => none
        | some data =>
            let world := world.malloc (pointerBlocks data)
            let cmd : TcCommand := ⟨⟨PtcCommand.setCalibration.code, 0, len⟩, data, none, 0⟩
            match tcpCommandClientSendCmd exchange cmd world with
            | none => none
            | some (errorCode, cmd, world) =>
                let world := world.free (pointerBlocks data)
                if errorCode ≠ PTC_ERROR_NO_ERROR then some (errorCode, world)
                else some (cmd.header.retCode.setWidth 32, world.free (pointerBlocks cmd.retData))

structure Got where
  code : PtcErrCode
  stored : Option (List (BitVec 8) × BitVec 32)
deriving DecidableEq, Repr

/-- Both Get functions. There is no result when the copy leaves its block. -/
def tcpCommandGet (command : PtcCommand) (world : World) : Option (Got × World) :=
  match tcpCommandClientSendCmd exchange ⟨⟨command.code, 0, 0⟩, none, none, 0⟩ world with
  | none => none
  | some (errorCode, cmd, world) =>
      if errorCode ≠ PTC_ERROR_NO_ERROR then some (⟨errorCode, none⟩, world)
      else
        let size := (cmd.retSize + 1).toNat
        if exchange.memory size = false ∨ size ≤ cmd.retSize.toNat then none
        else
          let retStr := (cmd.retData.getD []).take cmd.retSize.toNat ++ [0]
          some (⟨cmd.header.retCode.setWidth 32, some (retStr, cmd.retSize + 1)⟩,
            (world.malloc 1).free (pointerBlocks cmd.retData))

def tcpCommandGetCalibration (world : World) : Option (Got × World) :=
  tcpCommandGet exchange .getCalibration world

def tcpCommandGetLidarCalibration (world : World) : Option (Got × World) :=
  tcpCommandGet exchange .getLidarCalibration world

end Exchange

end ApolloContrib.Pandora
