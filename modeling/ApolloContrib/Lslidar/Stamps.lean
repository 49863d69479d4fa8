import ApolloContrib.Lslidar.Driver
import Mathlib.Data.List.Induction

namespace ApolloContrib.Lslidar.Driver

open ApolloContrib.Library ApolloContrib.Ros

/-! The stamps of data packets and the clock of the sensor. -/

/-- A packet, and when the sensor emitted it, in microseconds since 1970. -/
structure Emission where
  time : Nat
  data : Data

def Emission.second (e : Emission) : Nat := e.time / 10 ^ 6

def civil (data : Data) : CivilTime where
  date := ⟨2000 + (data 36).toNat, (data 37).toNat, (data 38).toNat⟩
  hour := (data 39).toNat
  minute := (data 40).toNat
  second := (data 41).toNat

structure Emission.Carries (e : Emission) : Prop where
  kind : isInfo e.data = true ∨ isData e.data = true
  info : isInfo e.data = true → civil e.data = CivilTime.ofSeconds e.second
  data : isData e.data = true → micros e.data = e.time % 10 ^ 6
  year : 2000 ≤ (CivilTime.ofSeconds e.second).date.year ∧
    (CivilTime.ofSeconds e.second).date.year ≤ 2099

structure Stream where
  emissions : List Emission
  carries : ∀ e ∈ emissions, e.Carries
  inOrder : emissions.Pairwise fun a b => a.time ≤ b.time
  infoEachSecond : ∀ second, (∃ e ∈ emissions, e.second ≤ second) →
    (∃ e ∈ emissions, second ≤ e.second) →
    ∃ info ∈ emissions, isInfo info.data = true ∧ info.second = second

/-- What the driver meets while the packets of a stream arrive, in their order. -/
structure Reception (stream : Stream) where
  cfg : Config
  events : List Event
  received : events.filterMap (accepted cfg) = stream.emissions.map (·.data)

def Reception.packets {stream : Stream} (reception : Reception stream) (ros : RosTime) :
    List (LslidarPacket ros) :=
  published reception.cfg reception.events

structure StampsFollow {ros : RosTime} (stream : Stream) (packets : List (LslidarPacket ros)) :
    Prop where
  exact : ∀ k e, stream.emissions[k]? = some e → isData e.data = true →
    (∃ info ∈ stream.emissions.take k, isInfo info.data = true) →
    ∃ packet, packets[k]? = some packet ∧ packet.data = e.data ∧
      ros.toNSec packet.stamp = e.time * 1000
  order : packets.Pairwise fun p q => isData p.data = true → isData q.data = true →
    ros.toNSec p.stamp ≤ ros.toNSec q.stamp

/-- Each data packet behind the first information packet is behind one of its own second. -/
def InfoBeforeData (stream : Stream) : Prop :=
  ∀ k e, stream.emissions[k]? = some e → isData e.data = true →
    (∃ info ∈ stream.emissions.take k, isInfo info.data = true) →
    ∃ info ∈ stream.emissions.take k, isInfo info.data = true ∧ info.second = e.second

def lastInfo (before : List Emission) : Option Emission :=
  before.reverse.find? fun e => isInfo e.data

section LastInfo

variable {before : List Emission} {info e : Emission}

@[simp] theorem lastInfo_append (before : List Emission) (e : Emission) :
    lastInfo (before ++ [e]) = if isInfo e.data = true then some e else lastInfo before := by
  unfold lastInfo
  rw [List.reverse_append, List.reverse_singleton, List.singleton_append, List.find?_cons]
  cases isInfo e.data <;> rfl

theorem lastInfo_eq_none_iff :
    lastInfo before = none ↔ ∀ e ∈ before, isInfo e.data = false := by
  simp [lastInfo]

theorem lastInfo_mem (hlast : lastInfo before = some info) :
    info ∈ before ∧ isInfo info.data = true := by
  refine ⟨List.mem_reverse.mp (List.mem_of_find?_eq_some hlast), ?_⟩
  simpa using List.find?_some hlast

theorem time_le_lastInfo (horder : before.Pairwise fun a b => a.time ≤ b.time)
    (hlast : lastInfo before = some info) (he : e ∈ before) (hinfo : isInfo e.data = true) :
    e.time ≤ info.time := by
  induction before using List.reverseRecOn with
  | nil => exact nomatch he
  | append_singleton before last ih =>
      obtain ⟨hbefore, -, hle⟩ := List.pairwise_append.mp horder
      rw [lastInfo_append] at hlast
      rcases List.mem_append.mp he with hmem | hmem
      · split at hlast
        · cases hlast
          exact hle e hmem _ (List.mem_singleton_self _)
        · exact ih hbefore hlast hmem
      · obtain rfl := List.mem_singleton.mp hmem
        rw [if_pos hinfo] at hlast
        cases hlast
        exact le_rfl

end LastInfo

theorem isInfo_of_isData {data : Data} (hdata : isData data = true) : isInfo data = false := by
  unfold isData at hdata
  unfold isInfo
  have hfirst : data 0 = 0xFF := by simp_all
  rw [hfirst]
  rfl

section Stamp

variable {ros : RosTime} {driver : LslidarDriver ros} {data : Data} {e info : Emission}

def tmOf (data : Data) : Tm where
  sec := (data 41).toNat
  min := (data 40).toNat
  hour := (data 39).toNat
  mday := (data 38).toNat
  mon := (data 37).toNat - 1
  year := (data 36).toNat + 2000 - 1900

@[simp] theorem curTime_getFPGA (driver : LslidarDriver ros) (data : Data) :
    (driver.getFPGA_GPSTimeStamp data).curTime =
      if isInfo data = true then tmOf data else driver.curTime := by
  unfold LslidarDriver.getFPGA_GPSTimeStamp
  split
  · rfl
  · split <;> rfl

theorem timegm_month {sec min hour mday month year : Int} (hmonth : 1 ≤ month ∧ month ≤ 12) :
    timegm ⟨sec, min, hour, mday, month - 1, year + 2000 - 1900⟩ =
      CivilTime.seconds ⟨⟨2000 + year, month, mday⟩, hour, min, sec⟩ := by
  have hyear : year + 2000 - 1900 + 1900 + (month - 1) / 12 = 2000 + year := by omega
  have hmonth : (month - 1) % 12 + 1 = month := by omega
  rw [timegm, hyear, hmonth]

theorem timegm_tmOf (hcarries : info.Carries) (hinfo : isInfo info.data = true) :
    timegm (tmOf info.data) = info.second := by
  have hcivil := hcarries.info hinfo
  have hmonth : 1 ≤ (civil info.data).date.month ∧ (civil info.data).date.month ≤ 12 :=
    hcivil ▸ (CivilTime.valid_ofSeconds info.second).date.month
  have htm : timegm (tmOf info.data) = (civil info.data).seconds := timegm_month hmonth
  rw [htm, hcivil, CivilTime.seconds_ofSeconds]

/-- The second that goes into the stamps behind some packets; at first it is the last day of
November 1999. -/
def clock (before : List Emission) : Nat :=
  match lastInfo before with
  | none => 943920000
  | some info => info.second

theorem second_bounds (hcarries : e.Carries) : 946080000 ≤ e.second ∧ e.second < 2 ^ 32 := by
  have hyear := hcarries.year
  have hbounds := CivilTime.seconds_bounds (CivilTime.valid_ofSeconds e.second) (by omega)
  rw [CivilTime.seconds_ofSeconds] at hbounds
  omega

theorem clock_lt {before : List Emission} (hcarries : ∀ e ∈ before, e.Carries) :
    clock before < 2 ^ 32 := by
  unfold clock
  split
  · decide
  next info hlast => exact (second_bounds (hcarries info (lastInfo_mem hlast).1)).2

theorem timegm_curTime (ros : RosTime) {before : List Emission} (hcarries : ∀ e ∈ before, e.Carries) :
    timegm ((before.map (·.data)).foldl LslidarDriver.getFPGA_GPSTimeStamp
      (.initTimeStamp : LslidarDriver ros)).curTime = clock before := by
  induction before using List.reverseRecOn with
  | nil =>
      have hfirst : (LslidarDriver.initTimeStamp : LslidarDriver ros).curTime =
          ⟨0, 0, 0, 0, -1, 100⟩ := by
        simp [LslidarDriver.curTime, LslidarDriver.initTimeStamp]
      have hclock : clock [] = 943920000 := by simp [clock, lastInfo]
      rw [List.map_nil, List.foldl_nil, hfirst, hclock]
      decide
  | append_singleton before e ih =>
      rw [List.map_append, List.foldl_append]
      change timegm (LslidarDriver.getFPGA_GPSTimeStamp _ e.data).curTime = _
      rw [curTime_getFPGA, clock, lastInfo_append]
      have hlast := hcarries e (List.mem_append_right _ (List.mem_singleton_self e))
      split
      next hinfo => exact timegm_tmOf hlast hinfo
      next => exact ih fun e he => hcarries e (List.mem_append_left _ he)

theorem toNSec_stamp {second : Nat} (hdata : isData data = true)
    (htime : timegm driver.curTime = second) (hsecond : second < 2 ^ 32)
    (hmicros : micros data < 10 ^ 6) :
    ros.toNSec (driver.getFPGA_GPSTimeStamp data).timeStamp =
      second * 10 ^ 9 + micros data * 1000 := by
  have hsec : ((BitVec.ofInt 64 (timegm driver.curTime)).setWidth 32).toNat = second := by
    rw [htime]
    simp
    omega
  have hnsec : ((BitVec.ofNat 64 (micros data * 1000)).setWidth 32).toNat =
      micros data * 1000 := by
    simp
    omega
  unfold LslidarDriver.getFPGA_GPSTimeStamp
  rw [isInfo_of_isData hdata, hdata]
  change ros.toNSec (ros.make _ _) = _
  rw [ros.toNSec_make _ _ (by omega), hsec, hnsec]

end Stamp

section Follows

variable {ros : RosTime} {stream : Stream} {reception : Reception stream} {k : Nat}
  {e info : Emission}

theorem carries_take (stream : Stream) (k : Nat) : ∀ e ∈ stream.emissions.take k, e.Carries :=
  fun e he => stream.carries e (List.mem_of_mem_take he)

theorem packets_getElem? : (reception.packets ros)[k]? = stream.emissions[k]?.map fun e =>
    ⟨(((stream.emissions.take (k + 1)).map (·.data)).foldl LslidarDriver.getFPGA_GPSTimeStamp
      .initTimeStamp).timeStamp, e.data⟩ := by
  rw [Reception.packets, published_eq, reception.received, stampAll_getElem?, List.getElem?_map,
    ← List.map_take, Option.map_map]
  rfl

theorem packet_stamp (ros : RosTime) (reception : Reception stream)
    (hk : stream.emissions[k]? = some e) (hdata : isData e.data = true) :
    ∃ packet, (reception.packets ros)[k]? = some packet ∧ packet.data = e.data ∧
      ros.toNSec packet.stamp =
        clock (stream.emissions.take k) * 10 ^ 9 + e.time % 10 ^ 6 * 1000 := by
  have hmicros := (stream.carries e (List.mem_of_getElem? hk)).data hdata
  have hcarries := carries_take stream k
  have hless : micros e.data < 10 ^ 6 := hmicros ▸ Nat.mod_lt _ (by decide)
  have hstamp := toNSec_stamp hdata (timegm_curTime ros hcarries) (clock_lt hcarries)
    hless
  rw [hmicros] at hstamp
  refine ⟨⟨_, e.data⟩, ?_, rfl, hstamp⟩
  rw [packets_getElem?, hk, List.take_add_one, hk, List.map_append, List.foldl_append]
  rfl

theorem emission_of_packet {packet : LslidarPacket ros}
    (hk : (reception.packets ros)[k]? = some packet) :
    ∃ e, stream.emissions[k]? = some e ∧ packet.data = e.data := by
  rw [packets_getElem?] at hk
  obtain ⟨e, he, rfl⟩ := Option.map_eq_some_iff.mp hk
  exact ⟨e, he, rfl⟩

/-- Whatever is before it, the last information packet is of the second it should be. -/
def ClockRight (stream : Stream) : Prop :=
  ∀ k e info, stream.emissions[k]? = some e → isData e.data = true →
    lastInfo (stream.emissions.take k) = some info → info.second = e.second

theorem time_le_of_take (hk : stream.emissions[k]? = some e)
    (hinfo : info ∈ stream.emissions.take k) : info.time ≤ e.time := by
  obtain ⟨hlt, rfl⟩ := List.getElem?_eq_some_iff.mp hk
  have horder := stream.inOrder
  rw [← List.take_append_drop k stream.emissions, List.drop_eq_getElem_cons hlt] at horder
  exact (List.pairwise_append.mp horder).2.2 info hinfo _ List.mem_cons_self

theorem second_le {a b : Emission} (hle : a.time ≤ b.time) : a.second ≤ b.second :=
  Nat.div_le_div_right hle

theorem clockRight_iff : ClockRight stream ↔ InfoBeforeData stream := by
  constructor
  · rintro hright k e hk hdata ⟨first, hfirst, hinfo⟩
    cases hlast : lastInfo (stream.emissions.take k) with
    | none => exact nomatch (lastInfo_eq_none_iff.mp hlast first hfirst).symm.trans hinfo
    | some info =>
        obtain ⟨hmem, hinfo⟩ := lastInfo_mem hlast
        exact ⟨info, hmem, hinfo, hright k e info hk hdata hlast⟩
  · intro hbefore k e last hk hdata hlast
    obtain ⟨hmem, hinfo⟩ := lastInfo_mem hlast
    obtain ⟨info, hbefore, hinfo, hsecond⟩ := hbefore k e hk hdata ⟨last, hmem, hinfo⟩
    have hle := time_le_lastInfo (stream.inOrder.sublist (List.take_sublist _ _)) hlast hbefore
      hinfo
    exact Nat.le_antisymm (second_le (time_le_of_take hk hmem)) (hsecond ▸ second_le hle)

theorem time_eq (e : Emission) : e.time * 1000 = e.second * 10 ^ 9 + e.time % 10 ^ 6 * 1000 := by
  unfold Emission.second
  omega

theorem stamp_exact_iff (hk : stream.emissions[k]? = some e) (hdata : isData e.data = true)
    (hlast : lastInfo (stream.emissions.take k) = some info) :
    (∃ packet, (reception.packets ros)[k]? = some packet ∧ packet.data = e.data ∧
      ros.toNSec packet.stamp = e.time * 1000) ↔ info.second = e.second := by
  obtain ⟨packet, hpacket, hsame, hstamp⟩ := packet_stamp ros reception hk hdata
  have hclock : clock (stream.emissions.take k) = info.second := by
    rw [clock, hlast]
  rw [hclock] at hstamp
  have htime := time_eq e
  constructor
  · rintro ⟨other, hother, -, hexact⟩
    obtain rfl := Option.some.inj (hpacket.symm.trans hother)
    omega
  · intro hsecond
    rw [hsecond] at hstamp
    exact ⟨packet, hpacket, hsame, hstamp.trans htime.symm⟩

theorem second_eq_of_none {a b : Emission} (ha : a ∈ stream.emissions.take k)
    (hk : stream.emissions[k]? = some b) (hdata : isData b.data = true)
    (hnone : lastInfo (stream.emissions.take k) = none) : a.second = b.second := by
  have hmem := List.mem_of_mem_take ha
  obtain ⟨info, hinfo, hhead, hsecond⟩ := stream.infoEachSecond a.second ⟨a, hmem, le_rfl⟩
    ⟨a, hmem, le_rfl⟩
  have hafter : b.time ≤ info.time := by
    obtain ⟨hlt, rfl⟩ := List.getElem?_eq_some_iff.mp hk
    have horder := stream.inOrder
    rw [← List.take_append_drop k stream.emissions, List.drop_eq_getElem_cons hlt] at horder hinfo
    rcases List.mem_append.mp hinfo with hbefore | hbehind
    · exact nomatch (lastInfo_eq_none_iff.mp hnone info hbefore).symm.trans hhead
    · rcases List.mem_cons.mp hbehind with rfl | hrest
      · exact le_rfl
      · exact (List.pairwise_cons.mp (List.pairwise_append.mp horder).2.1).1 info hrest
  exact Nat.le_antisymm (second_le (time_le_of_take hk ha)) (hsecond ▸ second_le hafter)

theorem clock_le (hright : ClockRight stream) (hk : stream.emissions[k]? = some e)
    (hdata : isData e.data = true) : clock (stream.emissions.take k) ≤ e.second := by
  have hsecond := second_bounds (stream.carries e (List.mem_of_getElem? hk))
  unfold clock
  split
  · omega
  next info hlast => exact Nat.le_of_eq (hright k e info hk hdata hlast)

theorem clock_mono {j : Nat} {a b : Emission} (hright : ClockRight stream)
    (hj : stream.emissions[j]? = some a) (hk : stream.emissions[k]? = some b) (hjk : j < k)
    (ha : isData a.data = true) (hb : isData b.data = true) :
    clock (stream.emissions.take j) * 10 ^ 9 + a.time % 10 ^ 6 * 1000 ≤
      clock (stream.emissions.take k) * 10 ^ 9 + b.time % 10 ^ 6 * 1000 := by
  have hmem : a ∈ stream.emissions.take k :=
    List.mem_of_getElem? ((List.getElem?_take_of_lt hjk).trans hj)
  have hle := time_le_of_take hk hmem
  have hclock := clock_le hright hj ha
  have htime := time_eq a
  cases hlast : lastInfo (stream.emissions.take k) with
  | none =>
      have hnone : lastInfo (stream.emissions.take j) = none := by
        refine lastInfo_eq_none_iff.mpr fun e he => ?_
        exact lastInfo_eq_none_iff.mp hlast e (List.take_subset_take_left _ (Nat.le_of_lt hjk) he)
      have hsecond := second_eq_of_none hmem hk hb hlast
      have hsame : clock (stream.emissions.take j) = clock (stream.emissions.take k) := by
        rw [clock, clock, hnone, hlast]
      have hmod := time_eq b
      omega
  | some info =>
      have hsecond : clock (stream.emissions.take k) = b.second := by
        rw [clock, hlast]
        exact hright k b info hk hb hlast
      have hmod := time_eq b
      omega

theorem stampsFollow_of_clock (hright : ClockRight stream) :
    StampsFollow stream (reception.packets ros) := by
  refine ⟨fun k e hk hdata hafter => ?_, ?_⟩
  · obtain ⟨first, hfirst, hinfo⟩ := hafter
    cases hlast : lastInfo (stream.emissions.take k) with
    | none => exact nomatch (lastInfo_eq_none_iff.mp hlast first hfirst).symm.trans hinfo
    | some info => exact (stamp_exact_iff hk hdata hlast).mpr (hright k e info hk hdata hlast)
  · refine List.pairwise_iff_getElem.mpr fun j k hj hk hjk ha hb => ?_
    have hj := List.getElem?_eq_getElem hj
    have hk := List.getElem?_eq_getElem hk
    obtain ⟨a, hja, hadata⟩ := emission_of_packet hj
    obtain ⟨b, hkb, hbdata⟩ := emission_of_packet hk
    rw [hadata] at ha
    rw [hbdata] at hb
    obtain ⟨_, hpacket, -, hastamp⟩ := packet_stamp ros reception hja ha
    obtain rfl := Option.some.inj (hj.symm.trans hpacket)
    obtain ⟨_, hpacket, -, hbstamp⟩ := packet_stamp ros reception hkb hb
    obtain rfl := Option.some.inj (hk.symm.trans hpacket)
    rw [hastamp, hbstamp]
    exact clock_mono hright hja hkb hjk ha hb

end Follows

theorem dataStamps_iff (ros : RosTime) (stream : Stream) (reception : Reception stream) :
    StampsFollow stream (reception.packets ros) ↔ InfoBeforeData stream := by
  refine Iff.trans ⟨fun hfollow => ?_, stampsFollow_of_clock⟩ clockRight_iff
  intro k e info hk hdata hlast
  obtain ⟨hmem, hinfo⟩ := lastInfo_mem hlast
  exact (stamp_exact_iff hk hdata hlast).mp (hfollow.exact k e hk hdata ⟨info, hmem, hinfo⟩)

/-- The information packet of a second of the first minute of 2020. -/
def newYear (second : BitVec 8) : Data := fun i =>
  if i = 0 then 0xA5 else if i = 1 then 0xFF else if i = 2 then 0x00 else if i = 3 then 0x5A
  else if i = 36 then 20 else if i = 37 then 1 else if i = 38 then 1
  else if i = 41 then second else 0

def firing (low high : BitVec 8) : Data := fun i =>
  if i = 0 then 0xFF else if i = 1 then 0xEE else if i = 1200 then low
  else if i = 1201 then high else 0

/-- In the second one, data come before the information. -/
def lateInfo : Stream where
  emissions := [⟨1577836800 * 10 ^ 6 + 1, newYear 0⟩, ⟨1577836800 * 10 ^ 6 + 2, firing 2 0⟩,
    ⟨1577836801 * 10 ^ 6 + 1, firing 1 0⟩, ⟨1577836801 * 10 ^ 6 + 2, newYear 1⟩]
  carries := by
    refine List.forall_mem_cons.mpr ⟨?_, List.forall_mem_cons.mpr ⟨?_,
      List.forall_mem_cons.mpr ⟨?_, List.forall_mem_singleton.mpr ?_⟩⟩⟩
    all_goals exact ⟨by decide, by decide, by decide, by decide⟩
  inOrder := by decide
  infoEachSecond := by
    rintro second hfirst hlast
    have hbounds : second = 1577836800 ∨ second = 1577836801 := by
      simp [Emission.second] at hfirst hlast
      omega
    rcases hbounds with rfl | rfl
    · exact ⟨_, List.mem_cons_self, by decide, by decide⟩
    · exact ⟨_, List.mem_of_getLast? rfl, by decide, by decide⟩

def Stream.direct (stream : Stream) : Reception stream where
  cfg := ⟨"", 0⟩
  events := stream.emissions.map fun e => .datagram 0 (List.ofFn e.data)
  received := by
    have haccepted (e : Emission) :
        accepted ⟨"", 0⟩ (.datagram 0 (List.ofFn e.data)) = some e.data := by
      have hlength : PACKET_SIZE ≤ (List.ofFn e.data).length := Nat.le_of_eq List.length_ofFn.symm
      have hskips : (⟨"", 0⟩ : Config).skips 0 = false := by decide
      have hdata : packetOf (List.ofFn e.data) = e.data := by
        funext i
        rw [packetOf, List.getD_eq_getElem?_getD, List.getElem?_ofFn, dif_pos i.isLt]
        rfl
      rw [accepted, if_pos ⟨hlength, hskips⟩, hdata]
    induction stream.emissions with
    | nil => rfl
    | cons e emissions ih => exact (List.filterMap_cons_some (haccepted e)).trans (congrArg _ ih)

/-- The stamp of the second data packet is a second behind, and before the stamp of the first. -/
theorem dataStamps_fails : ¬ StampsFollow lateInfo (lateInfo.direct.packets nanoseconds) := by
  intro hfollow
  have hexact := hfollow.exact 2 _ rfl (by decide) ⟨_, List.mem_cons_self, by decide⟩
  have hsecond := (stamp_exact_iff rfl (by decide) rfl).mp hexact
  exact absurd hsecond (by decide)

end ApolloContrib.Lslidar.Driver
