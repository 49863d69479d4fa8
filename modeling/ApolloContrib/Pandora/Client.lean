import Mathlib.Algebra.GroupWithZero.Nat
import Mathlib.Data.List.Basic
import Mathlib.Logic.Function.Basic
import ApolloContrib.Library.Run

namespace ApolloContrib.Pandora

open ApolloContrib.Library

/-! The camera packets of `pandora_client.c`, and what `PandoraClientTask` does with each. -/

abbrev PANDORA_CAMERA_UNIT : Nat := 5

abbrev PANDORA_CLIENT_HEADER_SIZE : Nat := 34

structure UTCTime where
  year : BitVec 8
  month : BitVec 8
  day : BitVec 8
  hour : BitVec 8
  minute : BitVec 8
  second : BitVec 8
deriving DecidableEq, Repr

structure PandoraPicHeader where
  SOP : BitVec 8 × BitVec 8
  picId : BitVec 8
  type : BitVec 8
  width : BitVec 32
  height : BitVec 32
  timestamp : BitVec 32
  len : BitVec 32
  totalLen : BitVec 32
  position : BitVec 32
  utcTime : UTCTime
deriving DecidableEq, Repr

instance : NeZero PANDORA_CLIENT_HEADER_SIZE := ⟨by decide⟩

abbrev Header := Fin PANDORA_CLIENT_HEADER_SIZE → BitVec 8

def word (b0 b1 b2 b3 : BitVec 8) : BitVec 32 :=
  b0.zeroExtend 32 <<< 24 ||| b1.zeroExtend 32 <<< 16 ||| b2.zeroExtend 32 <<< 8 |||
    b3.zeroExtend 32

def parseHeader (header : Header) : PandoraPicHeader where
  SOP := (header 0, header 1)
  picId := header 2
  type := header 3
  width := word (header 4) (header 5) (header 6) (header 7)
  height := word (header 8) (header 9) (header 10) (header 11)
  timestamp := word (header 12) (header 13) (header 14) (header 15)
  len := word (header 16) (header 17) (header 18) (header 19)
  totalLen := word (header 20) (header 21) (header 22) (header 23)
  position := word (header 24) (header 25) (header 26) (header 27)
  utcTime := ⟨header 28, header 29, header 30, header 31, header 32, header 33⟩

def wordBytes (x : BitVec 32) : List (BitVec 8) :=
  [x.extractLsb' 24 8, x.extractLsb' 16 8, x.extractLsb' 8 8, x.extractLsb' 0 8]

theorem word_wordBytes (x : BitVec 32) :
    word (x.extractLsb' 24 8) (x.extractLsb' 16 8) (x.extractLsb' 8 8) (x.extractLsb' 0 8) = x := by
  unfold word
  ext i hi
  simp only [BitVec.getElem_or, BitVec.getElem_shiftLeft, BitVec.getElem_setWidth,
    BitVec.getLsbD_extractLsb']
  grind

def PandoraPicHeader.bytes (header : PandoraPicHeader) : Header := fun i =>
  ([header.SOP.1, header.SOP.2, header.picId, header.type] ++ wordBytes header.width ++
    wordBytes header.height ++ wordBytes header.timestamp ++ wordBytes header.len ++
    wordBytes header.totalLen ++ wordBytes header.position ++
    [header.utcTime.year, header.utcTime.month, header.utcTime.day, header.utcTime.hour,
      header.utcTime.minute, header.utcTime.second]).getD i 0

@[simp] theorem parseHeader_bytes (header : PandoraPicHeader) :
    parseHeader header.bytes = header := by
  cases header
  unfold parseHeader
  congr 1
  all_goals exact word_wordBytes _

/-- A packet as it was sent, with as many bytes after the header as the header says. Without
the SOP the program exits. -/
structure Packet where
  raw : Header
  yuv : List (BitVec 8)
  sop : (parseHeader raw).SOP = (0x47, 0x74)
  complete : yuv.length = (parseHeader raw).len.toNat

def Packet.header (pic : Packet) : PandoraPicHeader := parseHeader pic.raw

theorem Packet.len_toNat (pic : Packet) : pic.header.len.toNat = pic.yuv.length :=
  pic.complete.symm

/-- A buffer of `malloc`: the bytes that were never written are `none`. -/
abbrev Buffer := List (Option (BitVec 8))

/-- There is no result when the copy runs past the buffer. -/
def memcpy (buffer : Buffer) (offset : Nat) (bytes : List (BitVec 8)) : Option Buffer :=
  if offset + bytes.length ≤ buffer.length then
    some (buffer.take offset ++ bytes.map some ++ buffer.drop (offset + bytes.length))
  else none

structure PandoraPic where
  header : PandoraPicHeader
  yuv : Buffer
deriving DecidableEq, Repr

/-- One of the five entries of `position`, `startTimestamp` and `pics`. -/
structure Camera where
  position : BitVec 32
  startTimestamp : BitVec 32
  pic : Option PandoraPic
deriving DecidableEq, Repr

namespace Camera

def init : Camera := ⟨0, 0, none⟩

/-- The frame that is being assembled, or the one that `pic` starts. -/
def current (camera : Camera) (pic : Packet) : PandoraPic :=
  camera.pic.getD ⟨pic.header, List.replicate pic.header.totalLen.toNat none⟩

/-- From the check of the position on, with the frame the callback is called with. -/
def receive (camera : Camera) (pic : Packet) : Option (Camera × Option PandoraPic) :=
  if pic.header.position ≠ camera.position then some ({ camera with position := 0 }, none)
  else
    let frame := camera.current pic
    (memcpy frame.yuv camera.position.toNat pic.yuv).map fun yuv =>
      let position := camera.position + pic.header.len
      let startTimestamp :=
        if camera.position = 0 then pic.header.timestamp else camera.startTimestamp
      if position = pic.header.totalLen then
        (⟨0, startTimestamp, none⟩,
          some ⟨{ frame.header with
            len := pic.header.totalLen
            timestamp := pic.header.timestamp
            utcTime := pic.header.utcTime }, yuv⟩)
      else (⟨position, startTimestamp, some ⟨frame.header, yuv⟩⟩, none)

end Camera

/-- `sys_readn` takes its length as an `int`, and a read of no bytes counts as failed. -/
def Packet.wellRead (pic : Packet) : Bool := 0 < pic.yuv.length && pic.yuv.length < 2 ^ 31

def Packet.camera (pic : Packet) : Option (Fin PANDORA_CAMERA_UNIT) :=
  if h : pic.header.picId.toNat < PANDORA_CAMERA_UNIT then some ⟨_, h⟩ else none

/-- `connection` counts how often the socket was closed and opened again. -/
structure PandoraClient where
  connection : Nat
  cameras : Fin PANDORA_CAMERA_UNIT → Camera

inductive Event where
  | packet (pic : Packet)
  /-- The connection was lost. -/
  | closed

namespace PandoraClient

def init : PandoraClient := ⟨0, fun _ => Camera.init⟩

def reconnect (client : PandoraClient) : PandoraClient :=
  { client with connection := client.connection + 1 }

def pandoraClientTask (client : PandoraClient) : Event → Option (PandoraClient × Option PandoraPic)
  | .closed => some (client.reconnect, none)
  | .packet pic =>
      if !pic.wellRead then some (client.reconnect, none)
      else
        match pic.camera with
        | none => some (client, none)
        | some c =>
            ((client.cameras c).receive pic).map fun (camera, called) =>
              ({ client with cameras := Function.update client.cameras c camera }, called)

end PandoraClient

/-- A packet that was read, and the frame the callback was called with for it. -/
structure Received where
  connection : Nat
  pic : Packet
  called : Option PandoraPic

/-- `assembling` are the packets copied since the position was last 0. -/
structure CameraHistory where
  camera : Camera
  received : List Received
  assembling : List Received

namespace CameraHistory

def init : CameraHistory := ⟨Camera.init, [], []⟩

def receive (history : CameraHistory) (connection : Nat) (pic : Packet) :
    Option CameraHistory :=
  (history.camera.receive pic).map fun (camera, called) =>
    { camera := camera
      received := history.received ++ [⟨connection, pic, called⟩]
      assembling :=
        if camera.position = 0 then [] else history.assembling ++ [⟨connection, pic, called⟩] }

end CameraHistory

structure History where
  connection : Nat
  cameras : Fin PANDORA_CAMERA_UNIT → CameraHistory

namespace History

def init : History := ⟨0, fun _ => CameraHistory.init⟩

def client (history : History) : PandoraClient :=
  ⟨history.connection, fun c => (history.cameras c).camera⟩

def reconnect (history : History) : History :=
  { history with connection := history.connection + 1 }

def step (history : History) : Event → Option History
  | .closed => some history.reconnect
  | .packet pic =>
      if !pic.wellRead then some history.reconnect
      else
        match pic.camera with
        | none => some history
        | some c =>
            ((history.cameras c).receive history.connection pic).map fun next =>
              { history with cameras := Function.update history.cameras c next }

theorem client_step (history : History) (event : Event) :
    (history.step event).map client = (history.client.pandoraClientTask event).map Prod.fst := by
  cases event with
  | closed => rfl
  | packet pic =>
      simp only [step, PandoraClient.pandoraClientTask]
      split
      · rfl
      · cases pic.camera with
        | none => rfl
        | some c =>
            simp only [CameraHistory.receive, Option.map_map]
            refine congrArg (Option.map · _) (funext fun result => ?_)
            refine congrArg (PandoraClient.mk history.connection) (funext fun other => ?_)
            by_cases hother : other = c
            · subst hother
              simp
            · simp [client, hother]

theorem run_client (events : List Event) :
    (run step init events).map client =
      run (fun client event => (client.pandoraClientTask event).map Prod.fst)
        PandoraClient.init events :=
  run_map _ client client_step init events

end History

end ApolloContrib.Pandora
