import ApolloContrib.Pandora.Reassembly

namespace ApolloContrib.Pandora

open ApolloContrib.Library

/-! When no frame is lost that arrived whole. -/

def Camera.run (camera : Camera) : List Packet → Option (Camera × List (Option PandoraPic))
  | [] => some (camera, [])
  | pic :: packets =>
      (camera.receive pic).bind fun (next, called) =>
        (next.run packets).map fun (last, calls) => (last, called :: calls)

theorem Camera.run_cons_eq_some {camera last : Camera} {pic : Packet} {packets : List Packet}
    {calls : List (Option PandoraPic)} :
    camera.run (pic :: packets) = some (last, calls) ↔
      ∃ next called rest, camera.receive pic = some (next, called) ∧
        next.run packets = some (last, rest) ∧ calls = called :: rest := by
  simp only [Camera.run, Option.bind_eq_some_iff, Option.map_eq_some_iff, Prod.exists,
    Prod.mk.injEq]
  constructor
  · rintro ⟨next, called, hreceive, _, rest, hrun, rfl, rfl⟩
    exact ⟨next, called, rest, hreceive, hrun, rfl⟩
  · rintro ⟨next, called, rest, hreceive, hrun, rfl⟩
    exact ⟨next, called, hreceive, last, rest, hrun, rfl, rfl⟩

def packetsOf (c : Fin PANDORA_CAMERA_UNIT) (events : List Event) : List Packet :=
  events.filterMap fun
    | .closed => none
    | .packet pic => if pic.camera = some c then some pic else none

structure IntactFrame (packets : List Packet) : Prop where
  nonempty : packets ≠ []
  payloads : ∀ pic ∈ packets, 0 < pic.yuv.length
  consecutive : Consecutive 0 packets
  totalLen : ∀ pic ∈ packets, pic.header.totalLen.toNat = (bytesOf packets).length

/-- For the last of the packets, and for it alone, the callback is called with the frame. -/
structure DeliveredOnce (start stop : CameraHistory) (packets : List Packet) : Prop where
  delivered : ∃ entries last frame, stop.received = start.received ++ (entries ++ [last]) ∧
    (entries ++ [last]).map (·.pic) = packets ∧ (∀ entry ∈ entries, entry.called = none) ∧
    last.called = some frame ∧ frame.header.len.toNat = (bytesOf packets).length ∧
    frame.yuv.take (bytesOf packets).length = (bytesOf packets).map some

/-- The state and the calls of each camera are those of the camera alone, and its packets
are in the order of their arrival. -/
structure Isolated (events : List Event) (history : History) : Prop where
  received : ∀ c, (history.cameras c).received.map (·.pic) =
    (packetsOf c events).filter (·.wellRead)
  alone : ∀ c, Camera.init.run ((packetsOf c events).filter (·.wellRead)) =
    some ((history.cameras c).camera, (history.cameras c).received.map (·.called))

structure NoFrameLost (events : List Event) : Prop where
  runs : ∃ final, run History.step History.init events = some final ∧ Isolated events final
  once : ∀ c before during after, events = before ++ during ++ after →
    IntactFrame (packetsOf c during) →
    ∀ start stop, run History.step History.init before = some start →
      run History.step start during = some stop →
      DeliveredOnce (start.cameras c) (stop.cameras c) (packetsOf c during)

def History.Fits (history : History) : Event → Prop
  | .closed => True
  | .packet pic => ∀ c, pic.wellRead = true → pic.camera = some c →
      pic.header.position = (history.cameras c).camera.position →
      (history.cameras c).camera.Fits pic

/-- No copy leaves its buffer, and the camera is between frames when a frame begins whose
packets can all be read. -/
structure Ready (events : List Event) : Prop where
  fits : StepsMeet History.step History.Fits History.init events
  between : ∀ c before during after, events = before ++ during ++ after →
    IntactFrame (packetsOf c during) →
    (∀ pic ∈ packetsOf c during, pic.wellRead = true) ∧
      ∀ start, run History.step History.init before = some start →
        (start.cameras c).camera.position = 0

namespace Camera

variable {camera last : Camera} {packets : List Packet} {calls : List (Option PandoraPic)}

theorem run_refused (hzero : camera.position = 0)
    (hmoved : ∀ pic ∈ packets, pic.header.position ≠ 0)
    (hrun : camera.run packets = some (last, calls)) : ∀ called ∈ calls, called = none := by
  induction packets generalizing camera calls with
  | nil =>
      cases hrun
      simp
  | cons pic packets ih =>
      obtain ⟨next, called, rest, hreceive, hrest, rfl⟩ := run_cons_eq_some.mp hrun
      rcases receive_cases hreceive with ⟨_, hnext, hcalled⟩ | ⟨_, hposition, _⟩
      · have hrefused := ih (hnext ▸ rfl) (fun other hother =>
          hmoved other (List.mem_cons_of_mem _ hother)) hrest
        intro call hcall
        rcases List.mem_cons.mp hcall with rfl | hcall
        · exact hcalled
        · exact hrefused call hcall
      · exact absurd (hposition.trans hzero) (hmoved pic List.mem_cons_self)

theorem consecutive_positive {offset : Nat} (hoffset : 0 < offset)
    (hconsecutive : Consecutive offset packets) :
    ∀ pic ∈ packets, pic.header.position ≠ 0 := by
  induction packets generalizing offset with
  | nil => simp
  | cons pic packets ih =>
      obtain ⟨hposition, hrest⟩ := hconsecutive
      intro other hother
      rcases List.mem_cons.mp hother with rfl | hother
      · intro hzero
        rw [hzero] at hposition
        exact absurd hposition (Nat.ne_of_lt hoffset)
      · exact ih (by omega) hrest other hother

theorem run_lost (hframe : IntactFrame packets) (hposition : camera.position ≠ 0)
    (hrun : camera.run packets = some (last, calls)) : ∀ called ∈ calls, called = none := by
  cases packets with
  | nil => exact absurd rfl hframe.nonempty
  | cons pic packets =>
      obtain ⟨next, called, rest, hreceive, hrest, rfl⟩ := run_cons_eq_some.mp hrun
      obtain ⟨hfirst, hconsecutive⟩ := hframe.consecutive
      rw [Nat.zero_add] at hconsecutive
      have hpositive := hframe.payloads pic List.mem_cons_self
      rcases receive_cases hreceive with ⟨_, hnext, hcalled⟩ | ⟨_, hequal, _⟩
      · have hrefused := run_refused (hnext ▸ rfl)
          (consecutive_positive hpositive hconsecutive) hrest
        intro call hcall
        rcases List.mem_cons.mp hcall with rfl | hcall
        · exact hcalled
        · exact hrefused call hcall
      · have hzero : pic.header.position = 0 := BitVec.eq_of_toNat_eq hfirst
        exact absurd (hequal.symm.trans hzero) hposition

theorem Holding.run {bytes : List (BitVec 8)} (hholding : camera.Holding bytes)
    (hnonempty : packets ≠ []) (hpayloads : ∀ pic ∈ packets, 0 < pic.yuv.length)
    (hconsecutive : Consecutive bytes.length packets)
    (htotal : ∀ pic ∈ packets,
      pic.header.totalLen.toNat = (bytes ++ bytesOf packets).length)
    (hrun : camera.run packets = some (last, calls)) :
    ∃ frame, calls = List.replicate (packets.length - 1) none ++ [some frame] ∧
      frame.header.len.toNat = (bytes ++ bytesOf packets).length ∧
      frame.yuv.take (bytes ++ bytesOf packets).length = (bytes ++ bytesOf packets).map some := by
  induction packets generalizing camera bytes calls with
  | nil => exact absurd rfl hnonempty
  | cons pic packets ih =>
      obtain ⟨next, called, rest, hreceive, hrest, rfl⟩ := run_cons_eq_some.mp hrun
      obtain ⟨hposition, hfollowing⟩ := hconsecutive
      have hpositive := hpayloads pic List.mem_cons_self
      have htotalLen := htotal pic List.mem_cons_self
      have hequal : pic.header.position = camera.position :=
        BitVec.eq_of_toNat_eq (hposition.trans hholding.position.symm)
      rcases hholding.receive hpositive hreceive with
        ⟨hmoved, _⟩ | ⟨_, _, _, _, _, hlength, yuv, hcalled, htake⟩ |
          ⟨_, _, hcalled, hlength, hnext, _⟩
      · exact absurd hequal hmoved
      · cases packets with
        | nil =>
            cases hrest
            rw [bytesOf_cons, bytesOf_nil, List.append_nil]
            exact ⟨_, by rw [hcalled]; rfl, hlength, hlength ▸ htake⟩
        | cons other packets =>
            have hother := hpayloads other (by simp)
            rw [htotalLen] at hlength
            simp only [bytesOf_cons, List.length_append] at hlength
            omega
      · cases packets with
        | nil =>
            rw [htotalLen, bytesOf_cons, bytesOf_nil, List.append_nil] at hlength
            exact absurd rfl hlength
        | cons other packets =>
            rw [bytesOf_cons, ← List.append_assoc] at htotal ⊢
            rw [← List.length_append] at hfollowing
            obtain ⟨frame, hcalls, hframe⟩ := ih hnext (by simp)
              (fun entry hentry => hpayloads entry (List.mem_cons_of_mem _ hentry)) hfollowing
              (fun entry hentry => htotal entry (List.mem_cons_of_mem _ hentry)) hrest
            refine ⟨frame, ?_, hframe⟩
            rw [hcalls, hcalled]
            rfl

end Camera

def readOf (c : Fin PANDORA_CAMERA_UNIT) (events : List Event) : List Packet :=
  (packetsOf c events).filter (·.wellRead)

theorem readOf_append (c : Fin PANDORA_CAMERA_UNIT) (events rest : List Event) :
    readOf c (events ++ rest) = readOf c events ++ readOf c rest := by
  simp only [readOf, packetsOf, List.filterMap_append, List.filter_append]

theorem readOf_packet {c : Fin PANDORA_CAMERA_UNIT} {pic : Packet} (hread : pic.wellRead = true)
    (hcamera : pic.camera = some c) : readOf c [.packet pic] = [pic] := by
  simp [readOf, packetsOf, hcamera, hread]

namespace History

variable {c : Fin PANDORA_CAMERA_UNIT} {history next final : History} {events : List Event}

theorem step_camera {event : Event} (hstep : history.step event = some next)
    (c : Fin PANDORA_CAMERA_UNIT) :
    readOf c [event] = [] ∧ next.cameras c = history.cameras c ∨
    ∃ pic, readOf c [event] = [pic] ∧
      (history.cameras c).receive history.connection pic = some (next.cameras c) := by
  cases event with
  | closed =>
      cases hstep
      exact Or.inl ⟨rfl, rfl⟩
  | packet pic =>
      cases hread : pic.wellRead with
      | false =>
          simp only [step, hread, Bool.not_false, if_true] at hstep
          cases hstep
          refine Or.inl ⟨List.filter_eq_nil_iff.mpr fun other hother => ?_, rfl⟩
          simp only [packetsOf, List.filterMap_cons, List.filterMap_nil] at hother
          split_ifs at hother
          · rw [List.mem_singleton.mp hother, hread]
            exact Bool.false_ne_true
          · cases hother
      | true =>
          cases hcamera : pic.camera with
          | none =>
              simp only [step, hread, hcamera, Bool.not_true, Bool.false_eq_true,
                if_false] at hstep
              cases hstep
              exact Or.inl ⟨by simp [readOf, packetsOf, hcamera], rfl⟩
          | some other =>
              rw [step_packet history hread hcamera] at hstep
              obtain ⟨camera, hreceive, rfl⟩ := Option.map_eq_some_iff.mp hstep
              by_cases hother : c = other
              · subst hother
                refine Or.inr ⟨pic, readOf_packet hread hcamera, ?_⟩
                simp [hreceive]
              · refine Or.inl ⟨?_, Function.update_of_ne hother _ _⟩
                simp [readOf, packetsOf, hcamera, Ne.symm hother]

theorem run_camera (hrun : run step history events = some final)
    (c : Fin PANDORA_CAMERA_UNIT) :
    ∃ entries, (final.cameras c).received = (history.cameras c).received ++ entries ∧
      entries.map (·.pic) = readOf c events ∧
      (history.cameras c).camera.run (readOf c events) =
        some ((final.cameras c).camera, entries.map (·.called)) := by
  induction events generalizing history with
  | nil =>
      cases hrun
      exact ⟨[], by simp, rfl, rfl⟩
  | cons event events ih =>
      rw [run_cons] at hrun
      obtain ⟨next, hstep, hrest⟩ := Option.bind_eq_some_iff.mp hrun
      obtain ⟨entries, hreceived, hpics, hcalls⟩ := ih hrest
      rw [← List.singleton_append, readOf_append]
      rcases step_camera hstep c with ⟨hnone, hsame⟩ | ⟨pic, hpic, hreceive⟩
      · rw [hsame] at hreceived hcalls
        rw [hnone]
        exact ⟨entries, hreceived, hpics, hcalls⟩
      · obtain ⟨called, hcamera, hentry, _⟩ := CameraHistory.receive_eq_some hreceive
        rw [hpic]
        refine ⟨⟨history.connection, pic, called⟩ :: entries, ?_, ?_, ?_⟩
        · rw [hreceived, hentry, List.append_assoc]
          rfl
        · rw [List.map_cons, hpics]
          rfl
        · exact Camera.run_cons_eq_some.mpr ⟨_, _, _, hcamera, hcalls, rfl⟩

theorem isolated (hrun : run step init events = some final) : Isolated events final := by
  constructor
  · intro c
    obtain ⟨entries, hreceived, hpics, _⟩ := run_camera hrun c
    rw [hreceived]
    exact hpics
  · intro c
    obtain ⟨entries, hreceived, _, hcalls⟩ := run_camera hrun c
    rw [hreceived]
    exact hcalls

theorem Fits.taken {event : Event} (hfits : history.Fits event) :
    ∃ next, history.step event = some next := by
  rw [← Option.ne_none_iff_exists']
  intro hnone
  obtain ⟨pic, c, rfl, hread, hcamera, hover⟩ := step_eq_none hnone
  exact hover.2 (hfits c hread hcamera hover.1)

theorem run_iff_fits (events : List Event) :
    (∃ final, run step init events = some final) ↔ StepsMeet step Fits init events := by
  have htaken : ∀ {history : History} {event : Event}, True → history.Fits event →
      ∃ next, history.step event = some next ∧ True := by
    intro history event _ hfits
    obtain ⟨next, hstep⟩ := hfits.taken
    exact ⟨next, hstep, trivial⟩
  have hbreaks : ∀ {history : History} {event : Event} {next : History}, True →
      ¬ history.Fits event → history.step event = some next → ¬ True := by
    intro history event next _ hover hstep _
    cases event with
    | closed => exact hover trivial
    | packet pic =>
        simp only [Fits, not_forall] at hover
        obtain ⟨c, hread, hcamera, hposition, hover⟩ := hover
        rw [step_packet history hread hcamera, CameraHistory.receive,
          Camera.receive_eq_none_iff.mpr ⟨hposition, hover⟩] at hstep
        cases hstep
  have hiff : (Throughout step (fun _ => True) init events ∧
      ∃ final, run step init events = some final) ↔ StepsMeet step Fits init events :=
    stepsMeet_iff_throughout (fun _ htrue => htrue) htaken hbreaks trivial
  constructor
  · intro hfinal
    exact hiff.mp ⟨fun _ _ _ _ => trivial, hfinal⟩
  · intro hfits
    exact (hiff.mpr hfits).2

theorem run_assembling (hrun : run step init events = some final) :
    ∀ c, (final.cameras c).Assembling c := by
  have hinit : ∀ c, (init.cameras c).Assembling c := CameraHistory.assembling_init
  exact run_invariant (fun hinv hstep => assembling_step hinv hstep) hinit hrun

end History

theorem readOf_eq_packetsOf_iff {c : Fin PANDORA_CAMERA_UNIT} {events : List Event} :
    readOf c events = packetsOf c events ↔ ∀ pic ∈ packetsOf c events, pic.wellRead = true :=
  List.filter_eq_self

theorem DeliveredOnce.ready {c : Fin PANDORA_CAMERA_UNIT} {during : List Event}
    {start stop : History} (hframe : IntactFrame (packetsOf c during))
    (hduring : run History.step start during = some stop)
    (honce : DeliveredOnce (start.cameras c) (stop.cameras c) (packetsOf c during)) :
    (∀ pic ∈ packetsOf c during, pic.wellRead = true) ∧
      (start.cameras c).camera.position = 0 := by
  obtain ⟨entries, last, frame, hreceived, hpics, _, hcalled, _⟩ := honce.delivered
  obtain ⟨entries', hreceived', hpics', hrun⟩ := History.run_camera hduring c
  have hentries : entries' = entries ++ [last] :=
    List.append_cancel_left (hreceived'.symm.trans hreceived)
  have hall : readOf c during = packetsOf c during := by rw [← hpics', hentries, hpics]
  refine ⟨readOf_eq_packetsOf_iff.mp hall, ?_⟩
  by_contra hposition
  rw [hall] at hrun
  have hnone := Camera.run_lost hframe hposition hrun last.called (by simp [hentries])
  cases hnone.symm.trans hcalled

theorem deliveredOnce_of_ready {c : Fin PANDORA_CAMERA_UNIT} {during : List Event}
    {start stop : History} (hinv : (start.cameras c).Assembling c)
    (hframe : IntactFrame (packetsOf c during))
    (hread : ∀ pic ∈ packetsOf c during, pic.wellRead = true)
    (hposition : (start.cameras c).camera.position = 0)
    (hduring : run History.step start during = some stop) :
    DeliveredOnce (start.cameras c) (stop.cameras c) (packetsOf c during) := by
  obtain ⟨entries, hreceived, hpics, hrun⟩ := History.run_camera hduring c
  rw [readOf_eq_packetsOf_iff.mpr hread] at hpics hrun
  have hholding : (start.cameras c).camera.Holding [] :=
    Camera.Holding.of_zero hposition hinv.holding.size
  obtain ⟨frame, hcalls, hlen, htake⟩ := hholding.run hframe.nonempty hframe.payloads
    hframe.consecutive hframe.totalLen hrun
  rcases List.eq_nil_or_concat entries with rfl | ⟨earlier, last, rfl⟩
  · exact absurd hpics.symm hframe.nonempty
  · rw [List.concat_eq_append] at hreceived hpics hcalls
    rw [List.map_append, List.map_singleton] at hcalls
    obtain ⟨hearlier, hlast⟩ := List.append_inj' hcalls rfl
    refine ⟨earlier, last, frame, hreceived, hpics, fun entry hentry => ?_, ?_, hlen, htake⟩
    · have hmem : entry.called ∈ List.replicate ((packetsOf c during).length - 1) none := by
        rw [← hearlier]
        exact List.mem_map_of_mem hentry
      exact List.eq_of_mem_replicate hmem
    · exact List.singleton_inj.mp hlast

theorem NoFrameLost.ready {events : List Event} (hlossless : NoFrameLost events) :
    Ready events := by
  obtain ⟨final, hrun, _⟩ := hlossless.runs
  refine ⟨(History.run_iff_fits events).mp ⟨final, hrun⟩, ?_⟩
  intro c before during after hevents hframe
  rw [hevents, run_append] at hrun
  obtain ⟨stop, hstop, _⟩ := Option.bind_eq_some_iff.mp hrun
  rw [run_append] at hstop
  obtain ⟨start, hbefore, hduring⟩ := Option.bind_eq_some_iff.mp hstop
  obtain ⟨hread, hposition⟩ := DeliveredOnce.ready hframe hduring
    (hlossless.once c before during after hevents hframe start stop hbefore hduring)
  refine ⟨hread, fun other hother => ?_⟩
  cases hbefore.symm.trans hother
  exact hposition

/-- No frame is lost exactly in the runs that are ready for each of their frames. -/
theorem noFrameLost_iff_ready (events : List Event) : NoFrameLost events ↔ Ready events := by
  constructor
  · intro hlossless
    exact hlossless.ready
  · intro hready
    obtain ⟨final, hrun⟩ := (History.run_iff_fits events).mpr hready.fits
    refine ⟨⟨final, hrun, History.isolated hrun⟩, ?_⟩
    intro c before during after hevents hframe start stop hbefore hduring
    obtain ⟨hread, hposition⟩ := hready.between c before during after hevents hframe
    exact deliveredOnce_of_ready (History.run_assembling hbefore c) hframe hread
      (hposition start hbefore) hduring

/-- A whole frame after one that was cut short. -/
theorem noFrameLost_fails :
    ¬ NoFrameLost [.packet (History.packet 0 2 [1]), .packet (History.packet 0 1 [7])] := by
  intro hlossless
  have hready := hlossless.ready
  have hframe : IntactFrame (packetsOf 0 [.packet (History.packet 0 1 [7])]) := by
    have hpackets : packetsOf 0 [.packet (History.packet 0 1 [7])] = [History.packet 0 1 [7]] :=
      rfl
    rw [hpackets]
    refine ⟨by simp, ?_, ⟨by decide, trivial⟩, ?_⟩
    · simp [History.packet]
    · simp only [List.mem_singleton, forall_eq]
      decide
  have hbetween := (hready.between 0 [.packet (History.packet 0 2 [1])]
    [.packet (History.packet 0 1 [7])] [] rfl hframe).2
  exact absurd (hbetween _ rfl) (by decide)

end ApolloContrib.Pandora
