import ApolloContrib.Library.Calendar
import ApolloContrib.Ros.Time
import Mathlib.Algebra.GroupWithZero.Nat
import Mathlib.Data.List.Basic

namespace ApolloContrib.Lslidar.Driver

open ApolloContrib.Library ApolloContrib.Ros

/-! `LslidarDriver`: how packets are read from the socket, stamped and published. -/

abbrev PACKET_SIZE : Nat := 1206

instance : NeZero PACKET_SIZE := ⟨by decide⟩

abbrev Data := Fin PACKET_SIZE → BitVec 8

structure LslidarPacket (ros : RosTime) where
  stamp : ros.Time
  data : Data

structure Config where
  deviceIpString : String
  deviceIp : BitVec 32

structure LslidarDriver (ros : RosTime) where
  packetTimeStamp : Fin 10 → BitVec 8
  pointcloudTimeStamp : BitVec 64
  timeStamp : ros.Time

structure Tm where
  sec : Int
  min : Int
  hour : Int
  mday : Int
  mon : Int
  year : Int

/-- Fields that are out of their ranges are carried over. -/
def timegm (tm : Tm) : Int :=
  CivilTime.seconds
    ⟨⟨tm.year + 1900 + tm.mon / 12, tm.mon % 12 + 1, tm.mday⟩, tm.hour, tm.min, tm.sec⟩

def isInfo (data : Data) : Bool :=
  data 0 == 0xA5 && data 1 == 0xFF && data 2 == 0x00 && data 3 == 0x5A

def isData (data : Data) : Bool := data 0 == 0xFF && data 1 == 0xEE

def micros (data : Data) : Nat :=
  (data 1200).toNat + (data 1201).toNat * 2 ^ 8 + (data 1202).toNat * 2 ^ 16 +
    (data 1203).toNat * 2 ^ 24

namespace LslidarDriver

variable {ros : RosTime}

def initTimeStamp : LslidarDriver ros where
  packetTimeStamp := fun _ => 0
  pointcloudTimeStamp := 0
  timeStamp := ros.zero

variable (driver : LslidarDriver ros)

def curTime : Tm where
  sec := (driver.packetTimeStamp 4).toNat
  min := (driver.packetTimeStamp 5).toNat
  hour := (driver.packetTimeStamp 6).toNat
  mday := (driver.packetTimeStamp 7).toNat
  mon := (driver.packetTimeStamp 8).toNat - 1
  year := (driver.packetTimeStamp 9).toNat + 2000 - 1900

def getFPGA_GPSTimeStamp (data : Data) : LslidarDriver ros :=
  if isInfo data then
    { driver with
      packetTimeStamp := fun i =>
        if i = 4 then data 41 else if i = 5 then data 40 else if i = 6 then data 39
        else if i = 7 then data 38 else if i = 8 then data 37 else if i = 9 then data 36
        else driver.packetTimeStamp i }
  else if isData data then
    let packetTimestamp := BitVec.ofNat 64 (micros data * 1000)
    let pointcloudTimeStamp := BitVec.ofInt 64 (timegm driver.curTime)
    { driver with
      pointcloudTimeStamp := pointcloudTimeStamp
      timeStamp := ros.make (pointcloudTimeStamp.setWidth 32) (packetTimestamp.setWidth 32) }
  else driver

end LslidarDriver

/-- What one round of the loops of `getPacket` meets. -/
inductive Event where
  | pollError
  | timeout
  | deviceError
  | noInput
  | recvError (wouldBlock : Bool)
  | datagram (sender : BitVec 32) (bytes : List (BitVec 8))

section Socket

variable {ros : RosTime} (cfg : Config)

def LslidarPacket.new : LslidarPacket ros := ⟨ros.zero, fun _ => 0⟩

/-- A longer datagram is cut off, a shorter one leaves the rest of the packet. -/
def LslidarPacket.recvfrom (packet : LslidarPacket ros) (bytes : List (BitVec 8)) :
    LslidarPacket ros :=
  { packet with data := fun i => bytes.getD i (packet.data i) }

def Config.skips (sender : BitVec 32) : Bool :=
  cfg.deviceIpString ≠ "" && sender ≠ cfg.deviceIp

structure Polled (ros : RosTime) where
  rc : Int
  packet : LslidarPacket ros
  driver : LslidarDriver ros
  events : List Event

/-- Without further events `poll` is still waiting. -/
def getPacket (driver : LslidarDriver ros) (packet : LslidarPacket ros) :
    List Event → Option (Polled ros)
  | [] => none
  | .pollError :: events => some ⟨1, packet, driver, events⟩
  | .timeout :: events => some ⟨1, packet, driver, events⟩
  | .deviceError :: events => some ⟨1, packet, driver, events⟩
  | .noInput :: events => getPacket driver packet events
  | .recvError wouldBlock :: events =>
      if wouldBlock then getPacket driver packet events else some ⟨1, packet, driver, events⟩
  | .datagram sender bytes :: events =>
      let packet := packet.recvfrom bytes
      if min bytes.length PACKET_SIZE = PACKET_SIZE then
        if cfg.skips sender then getPacket driver packet events
        else
          let driver := driver.getFPGA_GPSTimeStamp packet.data
          some ⟨0, { packet with stamp := driver.timeStamp }, driver, events⟩
      else getPacket driver packet events

/-- The loop of `polling`: `rc` is 0 when it publishes and negative when it returns false. -/
def pollingLoop : Nat → LslidarDriver ros → LslidarPacket ros → List Event →
    Option (Polled ros)
  | 0, _, _, _ => none
  | fuel + 1, driver, packet, events => do
      let polled ← getPacket cfg driver packet events
      if polled.rc = 0 then some polled
      else if polled.rc < 0 then some polled
      else pollingLoop fuel polled.driver polled.packet polled.events

def polling (driver : LslidarDriver ros) (events : List Event) : Option (Polled ros) :=
  pollingLoop cfg (events.length + 1) driver .new events

/-- The packets that `devicePoll` publishes, one in each round. -/
def devicePoll : Nat → LslidarDriver ros → List Event → List (LslidarPacket ros)
  | 0, _, _ => []
  | fuel + 1, driver, events =>
      match polling cfg driver events with
      | none => []
      | some polled =>
          if polled.rc = 0 then polled.packet :: devicePoll fuel polled.driver polled.events
          else []

def published (events : List Event) : List (LslidarPacket ros) :=
  devicePoll cfg (events.length + 1) .initTimeStamp events

def packetOf (bytes : List (BitVec 8)) : Data := fun i => bytes.getD i 0

def accepted : Event → Option Data
  | .datagram sender bytes =>
      if PACKET_SIZE ≤ bytes.length ∧ cfg.skips sender = false then some (packetOf bytes) else none
  | _ => none

def stampAll (driver : LslidarDriver ros) : List Data → List (LslidarPacket ros)
  | [] => []
  | data :: rest =>
      let driver := driver.getFPGA_GPSTimeStamp data
      ⟨driver.timeStamp, data⟩ :: stampAll driver rest

variable {cfg} {driver : LslidarDriver ros} {packet : LslidarPacket ros} {events : List Event}

structure Served (cfg : Config) (driver : LslidarDriver ros) (events : List Event)
    (polled : Polled ros) (data : Data) : Prop where
  rc : polled.rc = 0
  length : polled.events.length < events.length
  accepted : events.filterMap (accepted cfg) = data :: polled.events.filterMap (accepted cfg)
  driver : polled.driver = driver.getFPGA_GPSTimeStamp data
  packet : polled.packet = ⟨polled.driver.timeStamp, data⟩

/-- Nothing has come from the device, and the next call starts where this one ends. -/
structure Failed (cfg : Config) (driver : LslidarDriver ros) (events : List Event)
    (polled : Polled ros) : Prop where
  rc : polled.rc = 1
  length : polled.events.length < events.length
  accepted : events.filterMap (Driver.accepted cfg) =
    polled.events.filterMap (Driver.accepted cfg)
  driver : polled.driver = driver

theorem recvfrom_data {bytes : List (BitVec 8)} (hlong : PACKET_SIZE ≤ bytes.length) :
    (packet.recvfrom bytes).data = packetOf bytes := by
  funext i
  have hi : i.val < bytes.length := Nat.lt_of_lt_of_le i.isLt hlong
  simp [LslidarPacket.recvfrom, packetOf, hi]

theorem getPacket_spec (cfg : Config) (driver : LslidarDriver ros) (packet : LslidarPacket ros)
    (events : List Event) :
    (getPacket cfg driver packet events = none ∧ events.filterMap (accepted cfg) = []) ∨
      ∃ polled, getPacket cfg driver packet events = some polled ∧
        (Failed cfg driver events polled ∨ ∃ data, Served cfg driver events polled data) := by
  induction events generalizing packet with
  | nil => exact Or.inl ⟨rfl, rfl⟩
  | cons event events ih =>
      -- A round that goes on leaves what the later ones do.
      have hgoesOn (packet' : LslidarPacket ros) (hevent : accepted cfg event = none)
          (hround : getPacket cfg driver packet (event :: events) =
            getPacket cfg driver packet' events) :
          (getPacket cfg driver packet (event :: events) = none ∧
            (event :: events).filterMap (accepted cfg) = []) ∨
          ∃ polled, getPacket cfg driver packet (event :: events) = some polled ∧
            (Failed cfg driver (event :: events) polled ∨
              ∃ data, Served cfg driver (event :: events) polled data) := by
        have hcons := List.filterMap_cons_none (l := events) hevent
        rw [hround, hcons]
        refine (ih packet').imp_right ?_
        rintro ⟨polled, hrun, hpolled⟩
        refine ⟨polled, hrun, hpolled.imp (fun h => ?_) fun ⟨data, h⟩ => ⟨data, ?_⟩⟩
        · exact ⟨h.rc, Nat.lt_succ_of_lt h.length, hcons.trans h.accepted, h.driver⟩
        · exact ⟨h.rc, Nat.lt_succ_of_lt h.length, hcons.trans h.accepted, h.driver, h.packet⟩
      have hfails (hevent : accepted cfg event = none) :
          Failed cfg driver (event :: events) ⟨1, packet, driver, events⟩ :=
        ⟨rfl, Nat.lt_succ_self _, List.filterMap_cons_none hevent, rfl⟩
      cases event with
      | pollError => exact Or.inr ⟨_, rfl, Or.inl (hfails rfl)⟩
      | timeout => exact Or.inr ⟨_, rfl, Or.inl (hfails rfl)⟩
      | deviceError => exact Or.inr ⟨_, rfl, Or.inl (hfails rfl)⟩
      | noInput => exact hgoesOn packet rfl rfl
      | recvError wouldBlock =>
          cases wouldBlock with
          | true => exact hgoesOn packet rfl rfl
          | false => exact Or.inr ⟨_, rfl, Or.inl (hfails rfl)⟩
      | datagram sender bytes =>
          by_cases hlong : PACKET_SIZE ≤ bytes.length
          · have hsize : min bytes.length PACKET_SIZE = PACKET_SIZE := min_eq_right hlong
            cases hskips : cfg.skips sender with
            | true =>
                refine hgoesOn (packet.recvfrom bytes) (if_neg fun h => ?_) ?_
                · exact nomatch h.2.symm.trans hskips
                · rw [getPacket]
                  dsimp only
                  rw [if_pos hsize, if_pos hskips]
            | false =>
                let served := driver.getFPGA_GPSTimeStamp (packetOf bytes)
                refine Or.inr ⟨⟨0, ⟨served.timeStamp, packetOf bytes⟩, served, events⟩, ?_,
                  Or.inr ⟨packetOf bytes, ?_⟩⟩
                · rw [getPacket]
                  dsimp only
                  rw [if_pos hsize, hskips, recvfrom_data hlong]
                  rfl
                · exact ⟨rfl, Nat.lt_succ_self _,
                    List.filterMap_cons_some (if_pos ⟨hlong, hskips⟩), rfl, rfl⟩
          · refine hgoesOn (packet.recvfrom bytes) (if_neg fun h => hlong h.1) ?_
            rw [getPacket]
            dsimp only
            rw [if_neg (by omega)]

theorem pollingLoop_spec (cfg : Config) (driver : LslidarDriver ros) (packet : LslidarPacket ros)
    {fuel : Nat} (hfuel : events.length < fuel) :
    (pollingLoop cfg fuel driver packet events = none ∧
      events.filterMap (accepted cfg) = []) ∨
      ∃ polled, pollingLoop cfg fuel driver packet events = some polled ∧
        ∃ data, Served cfg driver events polled data := by
  induction fuel generalizing driver packet events with
  | zero => exact absurd hfuel (Nat.not_lt_zero _)
  | succ fuel ih =>
      rw [pollingLoop]
      obtain ⟨hnone, hempty⟩ | ⟨polled, hrun, hfailed | ⟨data, hserved⟩⟩ :=
        getPacket_spec cfg driver packet events
      · rw [hnone]
        exact Or.inl ⟨rfl, hempty⟩
      · rw [hrun, Option.bind_eq_bind, Option.bind_some, hfailed.rc]
        have hshort := hfailed.length
        have hless : polled.events.length < fuel := by omega
        have hagain := ih polled.driver polled.packet hless
        rw [if_neg (by decide), if_neg (by decide)]
        rw [hfailed.accepted]
        refine hagain.imp_right ?_
        rintro ⟨next, hnext, data, hserved⟩
        refine ⟨next, hnext, data, hserved.rc, Nat.lt_trans hserved.length hshort, ?_, ?_,
          hserved.packet⟩
        · exact hfailed.accepted.trans hserved.accepted
        · exact hfailed.driver ▸ hserved.driver
      · rw [hrun, Option.bind_eq_bind, Option.bind_some, if_pos hserved.rc]
        exact Or.inr ⟨polled, rfl, data, hserved⟩

/-- The device's packets are published in their order, each stamped as it was received. -/
theorem devicePoll_eq {fuel : Nat} (hfuel : events.length < fuel) :
    devicePoll cfg fuel driver events = stampAll driver (events.filterMap (accepted cfg)) := by
  induction fuel generalizing driver events with
  | zero => exact absurd hfuel (Nat.not_lt_zero _)
  | succ fuel ih =>
      rw [devicePoll, polling]
      obtain ⟨hnone, hempty⟩ | ⟨polled, hrun, data, hserved⟩ :=
        pollingLoop_spec cfg driver .new (Nat.lt_succ_self events.length)
      · rw [hnone, hempty]
        rfl
      · have hshort := hserved.length
        rw [hrun, hserved.accepted]
        dsimp only
        rw [if_pos hserved.rc, hserved.packet, ih (by omega), hserved.driver]
        rfl

theorem published_eq (cfg : Config) (events : List Event) :
    (published cfg events : List (LslidarPacket ros)) =
      stampAll .initTimeStamp (events.filterMap (accepted cfg)) :=
  devicePoll_eq (Nat.lt_succ_self _)

theorem stampAll_getElem? (driver : LslidarDriver ros) (packets : List Data) (k : Nat) :
    (stampAll driver packets)[k]? = packets[k]?.map fun data =>
      ⟨((packets.take (k + 1)).foldl LslidarDriver.getFPGA_GPSTimeStamp driver).timeStamp,
        data⟩ := by
  induction packets generalizing driver k with
  | nil => rfl
  | cons data packets ih =>
      cases k with
      | zero => rfl
      | succ k => exact ih (driver.getFPGA_GPSTimeStamp data) k

end Socket

end ApolloContrib.Lslidar.Driver
