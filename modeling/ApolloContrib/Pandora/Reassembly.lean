import ApolloContrib.Pandora.Client

namespace ApolloContrib.Pandora

open ApolloContrib.Library

/-! When the frames given to the callback are those that were sent. -/

def bytesOf (packets : List Packet) : List (BitVec 8) := packets.flatMap (·.yuv)

@[simp] theorem bytesOf_nil : bytesOf [] = [] := rfl

@[simp] theorem bytesOf_cons (pic : Packet) (packets : List Packet) :
    bytesOf (pic :: packets) = pic.yuv ++ bytesOf packets := rfl

def Consecutive : Nat → List Packet → Prop
  | _, [] => True
  | offset, pic :: packets =>
      pic.header.position.toNat = offset ∧ Consecutive (offset + pic.yuv.length) packets

theorem consecutive_concat {offset : Nat} {packets : List Packet} {last : Packet} :
    Consecutive offset (packets ++ [last]) ↔
      Consecutive offset packets ∧
        last.header.position.toNat = offset + (bytesOf packets).length := by
  induction packets generalizing offset with
  | nil => simp [Consecutive]
  | cons pic packets ih =>
      simp only [List.cons_append, Consecutive, ih, bytesOf_cons, List.length_append, and_assoc,
        Nat.add_assoc]

def payload (run : List Received) : List (BitVec 8) := bytesOf (run.map (·.pic))

@[simp] theorem payload_append (run rest : List Received) :
    payload (run ++ rest) = payload run ++ payload rest := by
  simp [payload, bytesOf]

@[simp] theorem payload_singleton (entry : Received) : payload [entry] = entry.pic.yuv := by
  simp [payload]

structure SameShape (header other : PandoraPicHeader) : Prop where
  width : header.width = other.width
  height : header.height = other.height
  type : header.type = other.type

structure FrameOf (frame : PandoraPic) (run : List Received) : Prop where
  nonempty : run ≠ []
  connection : ∀ entry ∈ run, ∀ other ∈ run, entry.connection = other.connection
  camera : ∀ entry ∈ run, entry.pic.header.picId = frame.header.picId
  positioned : Consecutive 0 (run.map (·.pic))
  totalLen : ∀ entry ∈ run, entry.pic.header.totalLen = frame.header.len
  shape : ∀ entry ∈ run, SameShape entry.pic.header frame.header
  yuv : frame.yuv.take frame.header.len.toNat = (payload run).map some

/-- Every frame is that of the last packets of its camera. -/
def CameraHistory.Faithful (history : CameraHistory) : Prop :=
  ∀ before entry after frame, history.received = before ++ entry :: after →
    entry.called = some frame → ∃ run, run <:+ before ++ [entry] ∧ FrameOf frame run

def History.Faithful (history : History) : Prop := ∀ c, (history.cameras c).Faithful

def Camera.Fits (camera : Camera) (pic : Packet) : Prop :=
  camera.position.toNat + pic.yuv.length ≤ (camera.current pic).yuv.length

/-- The packet that completes a frame agrees with the packets and the header it completes. -/
structure CameraHistory.Agrees (history : CameraHistory) (connection : Nat) (pic : Packet) :
    Prop where
  connection : ∀ entry ∈ history.assembling, entry.connection = connection
  totalLen : ∀ entry ∈ history.assembling, entry.pic.header.totalLen = pic.header.totalLen
  shape : ∀ entry ∈ history.assembling, SameShape entry.pic.header pic.header
  header : SameShape (history.camera.current pic).header pic.header

structure CameraHistory.Sound (history : CameraHistory) (connection : Nat) (pic : Packet) :
    Prop where
  fits : history.camera.Fits pic
  agrees : history.camera.position + pic.header.len = pic.header.totalLen →
    history.Agrees connection pic

def History.Sound (history : History) : Event → Prop
  | .closed => True
  | .packet pic => ∀ c, pic.wellRead = true → pic.camera = some c →
      pic.header.position = (history.cameras c).camera.position →
      (history.cameras c).Sound history.connection pic

theorem memcpy_eq_some {buffer written : Buffer} {offset : Nat} {bytes : List (BitVec 8)}
    (hcopy : memcpy buffer offset bytes = some written) :
    offset + bytes.length ≤ buffer.length ∧ written.length = buffer.length ∧
      written.take (offset + bytes.length) = buffer.take offset ++ bytes.map some := by
  unfold memcpy at hcopy
  split at hcopy
  next hfits =>
    cases hcopy
    refine ⟨hfits, ?_, ?_⟩
    · simp only [List.length_append, List.length_take, List.length_map, List.length_drop]
      omega
    · apply List.take_left'
      simp only [List.length_append, List.length_take, List.length_map]
      omega
  next => cases hcopy

theorem memcpy_eq_none_iff {buffer : Buffer} {offset : Nat} {bytes : List (BitVec 8)} :
    memcpy buffer offset bytes = none ↔ ¬ offset + bytes.length ≤ buffer.length := by
  unfold memcpy
  split
  next hfits => simp [hfits]
  next hfits => simp only [hfits, not_false_eq_true]

def Camera.completed (camera : Camera) (pic : Packet) (yuv : Buffer) : PandoraPic :=
  ⟨{ (camera.current pic).header with
    len := pic.header.totalLen
    timestamp := pic.header.timestamp
    utcTime := pic.header.utcTime }, yuv⟩

theorem Camera.receive_cases {camera next : Camera} {pic : Packet} {called : Option PandoraPic}
    (hreceive : camera.receive pic = some (next, called)) :
    pic.header.position ≠ camera.position ∧ next = { camera with position := 0 } ∧
      called = none ∨
    ∃ yuv, pic.header.position = camera.position ∧
      memcpy (camera.current pic).yuv camera.position.toNat pic.yuv = some yuv ∧
      (camera.position + pic.header.len = pic.header.totalLen ∧ next.position = 0 ∧
          next.pic = none ∧ called = some (camera.completed pic yuv) ∨
        camera.position + pic.header.len ≠ pic.header.totalLen ∧
          next.position = camera.position + pic.header.len ∧
          next.pic = some ⟨(camera.current pic).header, yuv⟩ ∧ called = none) := by
  unfold receive at hreceive
  split at hreceive
  next hposition =>
    cases hreceive
    exact Or.inl ⟨hposition, rfl, rfl⟩
  next hposition =>
    obtain ⟨yuv, hcopy, hresult⟩ := Option.map_eq_some_iff.mp hreceive
    refine Or.inr ⟨yuv, Decidable.not_not.mp hposition, hcopy, ?_⟩
    dsimp only at hresult
    split at hresult
    next hcomplete =>
      cases hresult
      exact Or.inl ⟨hcomplete, rfl, rfl, rfl⟩
    next hcomplete =>
      cases hresult
      exact Or.inr ⟨hcomplete, rfl, rfl, rfl⟩

theorem Camera.receive_eq_none_iff {camera : Camera} {pic : Packet} :
    camera.receive pic = none ↔ pic.header.position = camera.position ∧ ¬ camera.Fits pic := by
  unfold receive
  split
  next hposition => simp [hposition]
  next hposition =>
    rw [Option.map_eq_none_iff, memcpy_eq_none_iff]
    exact ⟨fun hfits => ⟨Decidable.not_not.mp hposition, hfits⟩, And.right⟩

structure Camera.Holding (camera : Camera) (bytes : List (BitVec 8)) : Prop where
  position : camera.position.toNat = bytes.length
  fresh : camera.pic = none → bytes = []
  size : ∀ frame, camera.pic = some frame → frame.yuv.length < 2 ^ 32
  written : ∀ frame, camera.pic = some frame → bytes.length ≤ frame.yuv.length ∧
    frame.yuv.take bytes.length = bytes.map some

namespace Camera

variable {camera next : Camera} {pic : Packet} {bytes : List (BitVec 8)} {yuv : Buffer}

theorem holding_init : init.Holding [] where
  position := rfl
  fresh _ := rfl
  size := by simp [init]
  written := by simp [init]

theorem Holding.of_zero (hzero : camera.position = 0)
    (hsize : ∀ frame, camera.pic = some frame → frame.yuv.length < 2 ^ 32) :
    camera.Holding [] where
  position := by rw [hzero]; rfl
  fresh _ := rfl
  size := hsize
  written _ _ := ⟨Nat.zero_le _, rfl⟩

theorem Holding.current (hholding : camera.Holding bytes) (pic : Packet) :
    (camera.current pic).yuv.length < 2 ^ 32 ∧
      (camera.current pic).yuv.take bytes.length = bytes.map some := by
  unfold Camera.current
  cases hpic : camera.pic with
  | none =>
      rw [hholding.fresh hpic, Option.getD_none, List.length_replicate]
      exact ⟨pic.header.totalLen.isLt, rfl⟩
  | some frame => exact ⟨hholding.size frame hpic, (hholding.written frame hpic).2⟩

theorem Holding.copied (hholding : camera.Holding bytes)
    (hcopy : memcpy (camera.current pic).yuv camera.position.toNat pic.yuv = some yuv) :
    yuv.length < 2 ^ 32 ∧ (bytes ++ pic.yuv).length ≤ yuv.length ∧
      yuv.take (bytes ++ pic.yuv).length = (bytes ++ pic.yuv).map some ∧
      (camera.position + pic.header.len).toNat = (bytes ++ pic.yuv).length := by
  obtain ⟨hsize, htake⟩ := hholding.current pic
  obtain ⟨hfits, hlength, hwritten⟩ := memcpy_eq_some hcopy
  rw [hholding.position] at hfits hwritten
  rw [List.length_append]
  refine ⟨hlength ▸ hsize, hlength ▸ hfits, ?_, ?_⟩
  · rw [hwritten, htake, List.map_append]
  · rw [BitVec.toNat_add, pic.len_toNat, hholding.position]
    exact Nat.mod_eq_of_lt (by omega)

theorem Holding.receive {called : Option PandoraPic} (hholding : camera.Holding bytes)
    (hpositive : 0 < pic.yuv.length) (hreceive : camera.receive pic = some (next, called)) :
    pic.header.position ≠ camera.position ∧ next = { camera with position := 0 } ∧
      called = none ∧ next.Holding [] ∨
    pic.header.position = camera.position ∧ next.position = 0 ∧ next.pic = none ∧
      next.Holding [] ∧ camera.position + pic.header.len = pic.header.totalLen ∧
      pic.header.totalLen.toNat = (bytes ++ pic.yuv).length ∧
      (∃ yuv, called = some (camera.completed pic yuv) ∧
        yuv.take pic.header.totalLen.toNat = (bytes ++ pic.yuv).map some) ∨
    pic.header.position = camera.position ∧ next.position ≠ 0 ∧ called = none ∧
      pic.header.totalLen.toNat ≠ (bytes ++ pic.yuv).length ∧
      next.Holding (bytes ++ pic.yuv) ∧
      ∃ yuv, next.pic = some ⟨(camera.current pic).header, yuv⟩ := by
  rcases Camera.receive_cases hreceive with
    ⟨hposition, hnext, hcalled⟩ | ⟨yuv, hposition, hcopy, hresult⟩
  · refine Or.inl ⟨hposition, hnext, hcalled, Holding.of_zero (hnext ▸ rfl) ?_⟩
    intro frame hframe
    rw [hnext] at hframe
    exact hholding.size frame hframe
  · obtain ⟨hsize, hlength, htake, hsum⟩ := hholding.copied hcopy
    rcases hresult with ⟨hcomplete, hzero, hpic, hcalled⟩ | ⟨hincomplete, hnext, hpic, hcalled⟩
    · rw [hcomplete] at hsum
      refine Or.inr (Or.inl ⟨hposition, hzero, hpic, ?_, hcomplete, hsum, yuv, hcalled,
        hsum ▸ htake⟩)
      refine Holding.of_zero hzero fun frame hframe => ?_
      rw [hpic] at hframe
      cases hframe
    · refine Or.inr (Or.inr ⟨hposition, ?_, hcalled, ?_, ?_, yuv, hpic⟩)
      · intro hzero
        have hsum' : 0 = (bytes ++ pic.yuv).length := by
          rw [← hsum, ← hnext, hzero]
          rfl
        rw [List.length_append] at hsum'
        omega
      · intro htotal
        exact hincomplete (BitVec.eq_of_toNat_eq (hsum.trans htotal.symm))
      · refine ⟨hnext ▸ hsum, ?_, ?_, ?_⟩
        · intro hnone
          rw [hpic] at hnone
          cases hnone
        · intro frame hframe
          cases hpic.symm.trans hframe
          exact hsize
        · intro frame hframe
          cases hpic.symm.trans hframe
          exact ⟨hlength, htake⟩

end Camera

theorem Packet.camera_eq_some {pic : Packet} {c : Fin PANDORA_CAMERA_UNIT} :
    pic.camera = some c ↔ pic.header.picId.toNat = c := by
  unfold Packet.camera
  split
  next => simp [Fin.ext_iff]
  next hrange =>
    constructor
    · intro hsome
      cases hsome
    · intro hpicId
      exact absurd (hpicId ▸ c.isLt) hrange

theorem Packet.wellRead_positive {pic : Packet} (hread : pic.wellRead = true) :
    0 < pic.yuv.length := by
  simp only [Packet.wellRead, Bool.and_eq_true, decide_eq_true_eq] at hread
  exact hread.1

structure CameraHistory.Assembling (c : Fin PANDORA_CAMERA_UNIT) (history : CameraHistory) :
    Prop where
  received : ∀ entry ∈ history.received, entry.pic.camera = some c ∧ 0 < entry.pic.yuv.length
  suffix : history.assembling <:+ history.received
  positioned : Consecutive 0 (history.assembling.map (·.pic))
  holding : history.camera.Holding (payload history.assembling)
  kept : ∀ frame, history.camera.pic = some frame → frame.header.picId.toNat = c

namespace CameraHistory

theorem assembling_init (c : Fin PANDORA_CAMERA_UNIT) : init.Assembling c where
  received := by simp [init]
  suffix := List.suffix_refl _
  positioned := trivial
  holding := Camera.holding_init
  kept := by simp [init, Camera.init]

variable {c : Fin PANDORA_CAMERA_UNIT} {history next : CameraHistory}
variable {connection : Nat} {pic : Packet}

theorem receive_eq_some (hreceive : history.receive connection pic = some next) :
    ∃ called, history.camera.receive pic = some (next.camera, called) ∧
      next.received = history.received ++ [⟨connection, pic, called⟩] ∧
      next.assembling =
        if next.camera.position = 0 then []
        else history.assembling ++ [⟨connection, pic, called⟩] := by
  obtain ⟨⟨camera, called⟩, hcamera, hnext⟩ := Option.map_eq_some_iff.mp hreceive
  subst hnext
  exact ⟨called, hcamera, rfl, rfl⟩

theorem Assembling.current_picId (hinv : history.Assembling c) (hcamera : pic.camera = some c) :
    (history.camera.current pic).header.picId.toNat = c := by
  unfold Camera.current
  cases hpic : history.camera.pic with
  | none => exact Packet.camera_eq_some.mp hcamera
  | some frame => exact hinv.kept frame hpic

theorem Assembling.receive (hinv : history.Assembling c) (hcamera : pic.camera = some c)
    (hread : pic.wellRead = true) (hreceive : history.receive connection pic = some next) :
    next.Assembling c := by
  obtain ⟨called, hcam, hreceived, hassembling⟩ := receive_eq_some hreceive
  have hpositive := Packet.wellRead_positive hread
  have hall : ∀ entry ∈ next.received, entry.pic.camera = some c ∧ 0 < entry.pic.yuv.length := by
    intro entry hentry
    rw [hreceived, List.mem_append, List.mem_singleton] at hentry
    rcases hentry with hentry | rfl
    · exact hinv.received entry hentry
    · exact ⟨hcamera, hpositive⟩
  rcases hinv.holding.receive hpositive hcam with
    ⟨_, hnext, _, hholding⟩ | ⟨_, hzero, hpic, hholding, _⟩ |
      ⟨hposition, hadvanced, _, _, hholding, yuv, hpic⟩
  · rw [if_pos (by rw [hnext])] at hassembling
    refine ⟨hall, ?_, ?_, ?_, ?_⟩
    · exact hassembling ▸ List.nil_suffix
    · rw [hassembling]
      trivial
    · exact hassembling ▸ hholding
    · intro frame hframe
      rw [hnext] at hframe
      exact hinv.kept frame hframe
  · rw [if_pos hzero] at hassembling
    refine ⟨hall, ?_, ?_, ?_, ?_⟩
    · exact hassembling ▸ List.nil_suffix
    · rw [hassembling]
      trivial
    · exact hassembling ▸ hholding
    · intro frame hframe
      rw [hpic] at hframe
      cases hframe
  · rw [if_neg hadvanced] at hassembling
    refine ⟨hall, ?_, ?_, ?_, ?_⟩
    · rw [hassembling, hreceived]
      obtain ⟨earlier, hearlier⟩ := hinv.suffix
      exact ⟨earlier, by rw [← hearlier, List.append_assoc]⟩
    · rw [hassembling, List.map_append]
      refine consecutive_concat.mpr ⟨hinv.positioned, ?_⟩
      rw [Nat.zero_add]
      exact hposition ▸ hinv.holding.position
    · rw [hassembling, payload_append, payload_singleton]
      exact hholding
    · intro frame hframe
      cases hpic.symm.trans hframe
      exact hinv.current_picId hcamera

theorem Faithful.append {entry : Received} (hfaithful : history.Faithful)
    (hreceived : next.received = history.received ++ [entry])
    (hentry : ∀ frame, entry.called = some frame →
      ∃ run, run <:+ history.received ++ [entry] ∧ FrameOf frame run) : next.Faithful := by
  intro before other after frame hsplit hcalled
  rw [hreceived] at hsplit
  rcases List.eq_nil_or_concat after with rfl | ⟨rest, final, rfl⟩
  · obtain ⟨rfl, hother⟩ := List.append_inj' hsplit rfl
    cases hother
    exact hentry frame hcalled
  · have hassoc : history.received ++ [entry] = (before ++ other :: rest) ++ [final] := by
      simp [hsplit]
    obtain ⟨hbefore, _⟩ := List.append_inj' hassoc rfl
    exact hfaithful before other rest frame hbefore hcalled

theorem Assembling.frameOf (hinv : history.Assembling c) (hcamera : pic.camera = some c)
    (hagrees : history.Agrees connection pic) {yuv : Buffer} {called : Option PandoraPic}
    (hposition : pic.header.position = history.camera.position)
    (htake : yuv.take pic.header.totalLen.toNat =
      (payload history.assembling ++ pic.yuv).map some) :
    FrameOf (history.camera.completed pic yuv)
      (history.assembling ++ [⟨connection, pic, called⟩]) := by
  have hpicId : ∀ header : PandoraPicHeader, header.picId.toNat = c →
      header.picId = (history.camera.current pic).header.picId := fun header hheader =>
    BitVec.eq_of_toNat_eq (hheader.trans (hinv.current_picId hcamera).symm)
  have hshape : SameShape pic.header (history.camera.completed pic yuv).header :=
    ⟨hagrees.header.width.symm, hagrees.header.height.symm, hagrees.header.type.symm⟩
  have hlast : ∀ {p : Received → Prop}, (∀ entry ∈ history.assembling, p entry) →
      p ⟨connection, pic, called⟩ →
      ∀ entry ∈ history.assembling ++ [⟨connection, pic, called⟩], p entry := by
    intro p hall hp entry hmem
    rw [List.mem_append, List.mem_singleton] at hmem
    rcases hmem with hmem | rfl
    · exact hall entry hmem
    · exact hp
  have hconnection := hlast hagrees.connection rfl
  refine ⟨by simp, ?_, ?_, ?_, ?_, ?_, ?_⟩
  · intro entry hmem other hother
    exact (hconnection entry hmem).trans (hconnection other hother).symm
  · refine hlast (fun entry hmem => ?_) (hpicId _ (Packet.camera_eq_some.mp hcamera))
    exact hpicId _ (Packet.camera_eq_some.mp (hinv.received entry (hinv.suffix.subset hmem)).1)
  · rw [List.map_append]
    refine consecutive_concat.mpr ⟨hinv.positioned, ?_⟩
    rw [Nat.zero_add]
    exact hposition ▸ hinv.holding.position
  · exact hlast hagrees.totalLen rfl
  · refine hlast (fun entry hmem => ?_) hshape
    have hsame := hagrees.shape entry hmem
    exact ⟨hsame.width.trans hshape.width, hsame.height.trans hshape.height,
      hsame.type.trans hshape.type⟩
  · rw [payload_append, payload_singleton]
    exact htake

theorem Faithful.receive (hinv : history.Assembling c) (hfaithful : history.Faithful)
    (hcamera : pic.camera = some c) (hread : pic.wellRead = true)
    (hsound : pic.header.position = history.camera.position → history.Sound connection pic)
    (hreceive : history.receive connection pic = some next) : next.Faithful := by
  obtain ⟨called, hcam, hreceived, _⟩ := receive_eq_some hreceive
  refine hfaithful.append hreceived fun frame hcalled => ?_
  change called = some frame at hcalled
  rcases hinv.holding.receive (Packet.wellRead_positive hread) hcam with
    ⟨_, _, hnone, _⟩ | ⟨hposition, _, _, _, hcomplete, _, yuv, hsome, htake⟩ | ⟨_, _, hnone, _⟩
  · cases hnone.symm.trans hcalled
  · cases hsome.symm.trans hcalled
    refine ⟨history.assembling ++ [⟨connection, pic, called⟩], ?_, ?_⟩
    · obtain ⟨earlier, hearlier⟩ := hinv.suffix
      exact ⟨earlier, by rw [← hearlier, List.append_assoc]⟩
    · exact hinv.frameOf hcamera ((hsound hposition).agrees hcomplete) hposition htake
  · cases hnone.symm.trans hcalled

theorem suffix_unique {received run other : List Received}
    (hpositive : ∀ entry ∈ received, 0 < entry.pic.yuv.length)
    (hrun : run <:+ received) (hother : other <:+ received)
    (hlength : (payload run).length = (payload other).length) : run = other := by
  have hle : ∀ {run other : List Received}, run <:+ other → other <:+ received →
      (payload run).length = (payload other).length → run = other := by
    rintro run other ⟨earlier, rfl⟩ hother hlength
    cases earlier with
    | nil => rfl
    | cons entry earlier =>
        have hentry := hpositive entry (hother.subset (by simp))
        rw [List.cons_append, ← List.singleton_append, payload_append, payload_append,
          payload_singleton, List.length_append, List.length_append] at hlength
        omega
  rcases List.suffix_or_suffix_of_suffix hrun hother with hsuffix | hsuffix
  · exact hle hsuffix hother hlength
  · exact (hle hsuffix hrun hlength.symm).symm

theorem FrameOf.agrees {yuv : Buffer} {called : Option PandoraPic}
    (hframe : FrameOf (history.camera.completed pic yuv)
      (history.assembling ++ [⟨connection, pic, called⟩])) : history.Agrees connection pic := by
  have hlast : (⟨connection, pic, called⟩ : Received) ∈
      history.assembling ++ [⟨connection, pic, called⟩] := by simp
  have hmem : ∀ entry ∈ history.assembling,
      entry ∈ history.assembling ++ [⟨connection, pic, called⟩] := fun entry hentry =>
    List.mem_append_left _ hentry
  have hshape := hframe.shape _ hlast
  refine ⟨fun entry hentry => ?_, fun entry hentry => ?_, fun entry hentry => ?_, ?_⟩
  · exact hframe.connection entry (hmem entry hentry) _ hlast
  · exact hframe.totalLen entry (hmem entry hentry)
  · have hsame := hframe.shape entry (hmem entry hentry)
    exact ⟨hsame.width.trans hshape.width.symm, hsame.height.trans hshape.height.symm,
      hsame.type.trans hshape.type.symm⟩
  · exact ⟨hshape.width.symm, hshape.height.symm, hshape.type.symm⟩

/-- A packet that completes what it does not agree with gives a frame that nobody sent. -/
theorem not_faithful_of_not_sound (hinv : history.Assembling c)
    (hposition : pic.header.position = history.camera.position)
    (hunsound : ¬ history.Sound connection pic)
    (hreceive : history.receive connection pic = some next) : ¬ next.Faithful := by
  intro hfaithful
  obtain ⟨called, hcam, hreceived, _⟩ := receive_eq_some hreceive
  have hfits : history.camera.Fits pic := by
    by_contra hover
    rw [Camera.receive_eq_none_iff.mpr ⟨hposition, hover⟩] at hcam
    cases hcam
  refine hunsound ⟨hfits, fun hcomplete => ?_⟩
  rcases Camera.receive_cases hcam with
    ⟨hmoved, _⟩ | ⟨yuv, _, _, ⟨_, _, _, hsome⟩ | ⟨hincomplete, _⟩⟩
  · exact absurd hposition hmoved
  · obtain ⟨run, hsuffix, hframe⟩ :=
      hfaithful history.received _ [] _ hreceived (show called = some _ from hsome)
    rcases List.eq_nil_or_concat run with rfl | ⟨body, last, rfl⟩
    · exact absurd rfl hframe.nonempty
    · obtain ⟨earlier, hearlier⟩ := hsuffix
      rw [List.concat_eq_append, ← List.append_assoc] at hearlier
      obtain ⟨hbefore, hlast⟩ := List.append_inj' hearlier rfl
      cases hlast
      rw [List.concat_eq_append] at hframe
      have hlength : (payload body).length = (payload history.assembling).length := by
        have hpositioned := hframe.positioned
        rw [List.map_append] at hpositioned
        have hlast := (consecutive_concat.mp hpositioned).2
        rw [Nat.zero_add] at hlast
        rw [← hinv.holding.position, ← hposition]
        exact hlast.symm
      have hbody : body = history.assembling :=
        suffix_unique (fun entry hentry => (hinv.received entry hentry).2) ⟨earlier, hbefore⟩
          hinv.suffix hlength
      rw [hbody] at hframe
      exact FrameOf.agrees hframe
  · exact absurd hcomplete hincomplete

end CameraHistory

namespace History

structure Reassembling (history : History) : Prop where
  assembling : ∀ c, (history.cameras c).Assembling c
  faithful : history.Faithful

theorem reassembling_init : init.Reassembling where
  assembling c := CameraHistory.assembling_init c
  faithful := by
    intro c before entry after frame hsplit
    simp [init, CameraHistory.init] at hsplit

theorem step_cases {history next : History} {event : Event}
    (hstep : history.step event = some next) :
    next.cameras = history.cameras ∨
    ∃ pic c camera, event = .packet pic ∧ pic.wellRead = true ∧ pic.camera = some c ∧
      (history.cameras c).receive history.connection pic = some camera ∧
      next = { history with cameras := Function.update history.cameras c camera } := by
  cases event with
  | closed =>
      cases hstep
      exact Or.inl rfl
  | packet pic =>
      simp only [step] at hstep
      split at hstep
      next =>
        cases hstep
        exact Or.inl rfl
      next hread =>
        split at hstep
        next =>
          cases hstep
          exact Or.inl rfl
        next c hcamera =>
          obtain ⟨camera, hreceive, hnext⟩ := Option.map_eq_some_iff.mp hstep
          exact Or.inr ⟨pic, c, camera, rfl, by simpa using hread, hcamera, hreceive, hnext.symm⟩

theorem step_packet (history : History) {pic : Packet} {c : Fin PANDORA_CAMERA_UNIT}
    (hread : pic.wellRead = true) (hcamera : pic.camera = some c) :
    history.step (.packet pic) =
      ((history.cameras c).receive history.connection pic).map fun next =>
        { history with cameras := Function.update history.cameras c next } := by
  simp only [step, hread, hcamera, Bool.not_true, Bool.false_eq_true, if_false]

theorem assembling_step {history next : History} {event : Event}
    (hinv : ∀ c, (history.cameras c).Assembling c) (hstep : history.step event = some next) :
    ∀ c, (next.cameras c).Assembling c := by
  rcases step_cases hstep with hcameras | ⟨pic, c, camera, rfl, hread, hcamera, hreceive, rfl⟩
  · rw [hcameras]
    exact hinv
  · intro other
    by_cases hother : other = c
    · subst hother
      simpa using (hinv other).receive hcamera hread hreceive
    · simpa [hother] using hinv other

theorem Reassembling.step {history next : History} {event : Event}
    (hinv : history.Reassembling) (hsound : history.Sound event)
    (hstep : history.step event = some next) : next.Reassembling := by
  refine ⟨assembling_step hinv.assembling hstep, ?_⟩
  rcases step_cases hstep with hcameras | ⟨pic, c, camera, rfl, hread, hcamera, hreceive, rfl⟩
  · intro c
    rw [hcameras]
    exact hinv.faithful c
  · have hfaithful := CameraHistory.Faithful.receive (hinv.assembling c) (hinv.faithful c)
      hcamera hread (hsound c hread hcamera) hreceive
    intro other
    by_cases hother : other = c
    · subst hother
      simpa using hfaithful
    · simpa [hother] using hinv.faithful other

theorem step_eq_none {history : History} {event : Event} (hnone : history.step event = none) :
    ∃ pic c, event = .packet pic ∧ pic.wellRead = true ∧ pic.camera = some c ∧
      pic.header.position = (history.cameras c).camera.position ∧
      ¬ (history.cameras c).camera.Fits pic := by
  cases event with
  | closed => cases hnone
  | packet pic =>
      cases hread : pic.wellRead with
      | false =>
          simp only [step, hread, Bool.not_false, if_true] at hnone
          cases hnone
      | true =>
          cases hcamera : pic.camera with
          | none =>
              simp only [step, hread, hcamera, Bool.not_true, Bool.false_eq_true,
                if_false] at hnone
              cases hnone
          | some c =>
              rw [step_packet history hread hcamera, Option.map_eq_none_iff] at hnone
              exact ⟨pic, c, rfl, hread, hcamera,
                Camera.receive_eq_none_iff.mp (Option.map_eq_none_iff.mp hnone)⟩

theorem Sound.taken {history : History} {event : Event} (hsound : history.Sound event) :
    ∃ next, history.step event = some next := by
  rw [← Option.ne_none_iff_exists']
  intro hnone
  obtain ⟨pic, c, rfl, hread, hcamera, hposition, hover⟩ := step_eq_none hnone
  exact hover (hsound c hread hcamera hposition).fits

theorem not_faithful_of_not_sound {history next : History} {event : Event}
    (hinv : history.Reassembling) (hunsound : ¬ history.Sound event)
    (hstep : history.step event = some next) : ¬ next.Faithful := by
  cases event with
  | closed => exact absurd trivial hunsound
  | packet pic =>
      simp only [Sound, not_forall] at hunsound
      obtain ⟨c, hread, hcamera, hposition, hunsound⟩ := hunsound
      rw [step_packet history hread hcamera] at hstep
      obtain ⟨camera, hreceive, rfl⟩ := Option.map_eq_some_iff.mp hstep
      intro hfaithful
      have hcam := hfaithful c
      simp only [Function.update_self] at hcam
      exact CameraHistory.not_faithful_of_not_sound (hinv.assembling c) hposition hunsound
        hreceive hcam

/-- The runs in which every frame is that of the packets it was sent in, and no copy leaves
its buffer, are those whose packets fit and complete only what they agree with. -/
theorem faithful_iff_sound (events : List Event) :
    (Throughout step Faithful init events ∧ ∃ final, run step init events = some final) ↔
      StepsMeet step Sound init events := by
  have htaken : ∀ {history : History} {event : Event}, history.Reassembling →
      history.Sound event → ∃ next, history.step event = some next ∧ next.Reassembling := by
    intro history event hinv hsound
    obtain ⟨next, hstep⟩ := hsound.taken
    exact ⟨next, hstep, hinv.step hsound hstep⟩
  have hbreaks : ∀ {history : History} {event : Event} {next : History}, history.Reassembling →
      ¬ history.Sound event → history.step event = some next → ¬ next.Faithful :=
    fun hinv hunsound hstep => not_faithful_of_not_sound hinv hunsound hstep
  exact stepsMeet_iff_throughout (fun _ hinv => Reassembling.faithful hinv) htaken hbreaks
    reassembling_init

def packet (position totalLen : BitVec 32) (bytes : List (BitVec 8))
    (hbytes : bytes.length < 2 ^ 32 := by decide) : Packet where
  raw := PandoraPicHeader.bytes
    ⟨(0x47, 0x74), 0, 0, 1, 1, 0, BitVec.ofNat 32 bytes.length, totalLen, position,
      ⟨0, 0, 0, 0, 0, 0⟩⟩
  yuv := bytes
  sop := by rw [parseHeader_bytes]
  complete := by
    rw [parseHeader_bytes, BitVec.toNat_ofNat, Nat.mod_eq_of_lt hbytes]

/-- A frame that is cut short, and one that does not fit the buffer it leaves behind. -/
theorem faithful_fails :
    ¬ (Throughout step Faithful init
        [.packet (packet 0 2 [1]), .packet (packet 5 2 [1]), .packet (packet 0 3 [1, 2, 3])] ∧
      ∃ final, run step init
        [.packet (packet 0 2 [1]), .packet (packet 5 2 [1]), .packet (packet 0 3 [1, 2, 3])] =
          some final) := by
  rintro ⟨_, final, hrun⟩
  have hnone : (run step init [.packet (packet 0 2 [1]), .packet (packet 5 2 [1]),
      .packet (packet 0 3 [1, 2, 3])]).isSome = false := by decide
  rw [hrun] at hnone
  cases hnone

end History

end ApolloContrib.Pandora
