import ApolloContrib.Library.Run
import ApolloContrib.Video.PageTable
import Mathlib.Logic.Relation

namespace ApolloContrib.Video

open ApolloContrib.Chan ApolloContrib.Library

/-! The buffers on the two lists of a streaming driver: they are distinct, and
each is mapped at its own offset. -/

structure SameStream (z z' : ZynqVideo) : Prop where
  tables : SameTables z z'
  streaming : z'.streaming = z.streaming
  startBufs : z'.startBufs = z.startBufs
  bufTotal : z'.bufTotal = z.bufTotal

/-! ### `zvideo_check_pending` -/

/-- Buffers have moved from the pending list to the other, and the published head
with them. -/
structure ListsMoved (z z' : ZynqVideo) : Prop where
  lists : (z'.bufList ++ z'.pendingList).Perm (z.bufList ++ z.pendingList)
  avail : z'.bufAvail + z.bufList.length = z.bufAvail + z'.bufList.length
  frame : z' = { z with
    bufList := z'.bufList
    pendingList := z'.pendingList
    bufAvail := z'.bufAvail
    zchanRx := { z.zchanRx with zchanRxHead := z'.zchanRx.zchanRxHead }
    hwPublished := z'.hwPublished }

namespace ListsMoved

variable {z z' z'' : ZynqVideo}

theorem refl (z : ZynqVideo) : ListsMoved z z := ⟨.refl _, rfl, rfl⟩

theorem trans (hfirst : ListsMoved z z') (hsecond : ListsMoved z' z'') :
    ListsMoved z z'' := by
  refine ⟨hsecond.lists.trans hfirst.lists, ?_, hsecond.frame.trans ?_⟩
  · have hone := hfirst.avail
    have htwo := hsecond.avail
    omega
  · rw [hfirst.frame]

theorem sameStream (hmoved : ListsMoved z z') : SameStream z z' := by
  refine ⟨⟨?_, ?_, ?_, ?_, ?_⟩, ?_, ?_, ?_⟩
  all_goals
    rw [hmoved.frame]

theorem avail_eq (hmoved : ListsMoved z z') (havail : z.bufAvail = z.bufList.length) :
    z'.bufAvail = z'.bufList.length := by
  have hsum := hmoved.avail
  omega

end ListsMoved

namespace ZynqVideo

variable {cfg : VideoConfig} {z : ZynqVideo}

theorem pendingAtHead_eq_some {buf : Nat} (hfound : z.pendingAtHead = some buf) :
    buf ∈ z.pendingList ∧ z.offset buf = z.zchanRx.zchanRxHead := by
  refine ⟨List.mem_of_find?_eq_some hfound, ?_⟩
  have hoff := List.find?_some hfound
  exact beq_iff_eq.mp hoff

theorem movePending_of_found {buf : Nat} (hfound : z.pendingAtHead = some buf) :
    z.movePending cfg =
      { z with
        pendingList := z.pendingList.erase buf
        bufList := z.bufList ++ [buf]
        bufAvail := z.bufAvail + 1
        zchanRx := { z.zchanRx with
          zchanRxHead := z.zchanRx.wrap (z.zchanRx.zchanRxHead + z.frameSize cfg) }
        hwPublished := z.hwPublished + 1 } := by
  unfold movePending
  rw [hfound]

theorem movePending_moved {buf : Nat} (hfound : z.pendingAtHead = some buf) :
    ListsMoved z (z.movePending cfg) := by
  obtain ⟨hmem, _⟩ := pendingAtHead_eq_some hfound
  rw [movePending_of_found hfound]
  refine ⟨?_, ?_, rfl⟩
  · dsimp only
    rw [List.append_assoc]
    exact (List.perm_cons_erase hmem).symm.append_left _
  · dsimp only
    rw [List.length_append, List.length_singleton]
    omega

def MoveRound (cfg : VideoConfig) (z z' : ZynqVideo) : Prop :=
  z.pendingAtHead.isSome = true ∧ z' = z.movePending cfg

/-- `zvideo_check_pending` makes some rounds and ends with no pending buffer at
the head. -/
structure Checked (cfg : VideoConfig) (z z' : ZynqVideo) : Prop where
  rounds : Relation.ReflTransGen (MoveRound cfg) z z'
  done : z'.pendingAtHead = none

theorem zvideoCheckPending_checked (cfg : VideoConfig) (z : ZynqVideo) :
    ∃ z', z.zvideoCheckPending cfg = some z' ∧ Checked cfg z z' := by
  have hmoves (z' : ZynqVideo) (hrounds : Relation.ReflTransGen (MoveRound cfg) z z')
      (hcond : z'.pendingAtHead.isSome = true) :
      Relation.ReflTransGen (MoveRound cfg) z (z'.movePending cfg) ∧
        (z'.movePending cfg).pendingList.length < z'.pendingList.length := by
    refine ⟨hrounds.tail ⟨hcond, rfl⟩, ?_⟩
    obtain ⟨buf, hfound⟩ := Option.isSome_iff_exists.mp hcond
    have hmem := (pendingAtHead_eq_some hfound).1
    have hpos := List.length_pos_of_mem hmem
    rw [movePending_of_found hfound]
    dsimp only
    rw [List.length_erase_of_mem hmem]
    omega
  obtain ⟨z', hloop, hrounds, hdone⟩ :=
    whileLoop_total (fun z' : ZynqVideo => z'.pendingList.length) hmoves .refl le_rfl
  exact ⟨z', hloop, hrounds,
    Option.isNone_iff_eq_none.mp (Option.isSome_eq_false_iff.mp hdone)⟩

theorem listsMoved_of_rounds {z' : ZynqVideo}
    (hrounds : Relation.ReflTransGen (MoveRound cfg) z z') : ListsMoved z z' := by
  induction hrounds with
  | refl => exact .refl z
  | tail _ hround ih =>
      obtain ⟨hcond, rfl⟩ := hround
      obtain ⟨buf, hfound⟩ := Option.isSome_iff_exists.mp hcond
      exact ih.trans (movePending_moved hfound)

def withPending (z : ZynqVideo) (buf : Nat) : ZynqVideo :=
  { z with pendingList := buf :: z.pendingList }

theorem addPending_checked (cfg : VideoConfig) {buf : Nat} (hfresh : ¬ z.OnList buf) :
    ∃ z', z.addPending cfg buf = some z' ∧ Checked cfg (z.withPending buf) z' := by
  unfold addPending
  rw [if_neg hfresh]
  exact zvideoCheckPending_checked cfg (z.withPending buf)

theorem lists_withPending (z : ZynqVideo) (buf : Nat) :
    ((z.withPending buf).bufList ++ (z.withPending buf).pendingList).Perm
      (buf :: (z.bufList ++ z.pendingList)) :=
  List.perm_middle

/-! ### Syncing a frame -/

theorem syncLen_le (rxTail : Nat) (l : SyncLoop) : z.syncLen rxTail l ≤ l.memsz := by
  unfold syncLen
  split
  · exact le_rfl
  next hless => exact Nat.not_lt.mp hless

theorem pageLen_pos {rxOff rxTail : Nat} (hbufsz : z.zchanRxBufsz = ZCHAN_BUF_SIZE)
    (hmask : z.zchanRx.zchanRxBufMask = ZCHAN_BUF_SIZE - 1) (hne : rxOff ≠ rxTail) :
    0 < z.pageLen rxTail rxOff := by
  have hoff : z.zchanRx.ZCHAN_RX_BUF_OFFSET rxOff ≤ ZCHAN_BUF_SIZE - 1 := by
    unfold ZchanRxTbl.ZCHAN_RX_BUF_OFFSET
    rw [hmask]
    exact Nat.and_le_right
  have hpos : 0 < ZCHAN_BUF_SIZE := by decide
  unfold pageLen
  split
  · omega
  · omega

theorem syncLen_pos {rxTail : Nat} {l : SyncLoop} (hbufsz : z.zchanRxBufsz = ZCHAN_BUF_SIZE)
    (hmask : z.zchanRx.zchanRxBufMask = ZCHAN_BUF_SIZE - 1) (hne : l.rxOff ≠ rxTail)
    (hmemsz : 0 < l.memsz) : 0 < z.syncLen rxTail l := by
  unfold syncLen
  split
  · exact hmemsz
  · exact pageLen_pos hbufsz hmask hne

theorem rxSync_total {P : SyncLoop → Prop} {rxOff rxTail : Nat}
    (hbufsz : z.zchanRxBufsz = ZCHAN_BUF_SIZE)
    (hmask : z.zchanRx.zchanRxBufMask = ZCHAN_BUF_SIZE - 1)
    (hround : ∀ l, P l → l.rxOff ≠ rxTail → 0 < l.memsz → P (z.syncRound rxTail l))
    (hstart : P ⟨rxOff, 0, cfg.sizeimage⟩) :
    ∃ l, P l ∧ (l.rxOff = rxTail ∨ l.memsz = 0 ∨ cfg.sizeimage ≤ l.size) ∧
      z.rxSync cfg rxOff rxTail =
        some (if l.memsz ≠ 0 ∨ l.size ≠ cfg.sizeimage then l.rxOff + l.memsz
          else l.rxOff) := by
  have hrounds (l : SyncLoop) (hl : P l) (hcond : syncMore cfg rxTail l = true) :
      P (z.syncRound rxTail l) ∧ (z.syncRound rxTail l).memsz < l.memsz := by
    obtain ⟨hne, hmemsz, _⟩ := of_decide_eq_true hcond
    have hpos := syncLen_pos hbufsz hmask hne hmemsz
    refine ⟨hround l hl hne hmemsz, ?_⟩
    simp only [syncRound]
    omega
  obtain ⟨l, hloop, hP, hdone⟩ := whileLoop_total SyncLoop.memsz hrounds hstart le_rfl
  refine ⟨l, hP, ?_, ?_⟩
  · have hnot := of_decide_eq_false hdone
    omega
  · unfold rxSync
    rw [hloop]
    rfl

theorem rxSync_some (hbufsz : z.zchanRxBufsz = ZCHAN_BUF_SIZE)
    (hmask : z.zchanRx.zchanRxBufMask = ZCHAN_BUF_SIZE - 1) (rxOff rxTail : Nat) :
    ∃ next, z.rxSync cfg rxOff rxTail = some next := by
  obtain ⟨l, _, _, hsync⟩ := rxSync_total (P := fun _ => True) hbufsz hmask
    (fun _ _ _ _ => trivial) trivial
  exact ⟨_, hsync⟩

end ZynqVideo

def RxPhase.held : RxPhase → List Nat
  | .sync _ _ buf => [buf]
  | _ => []

def VideoState.owned (s : VideoState) : List Nat :=
  s.zvideo.bufList ++ s.zvideo.pendingList ++ s.phase.held

/-- The driver owns each of its buffers once, all of them from the start, and the
buffers that are done are not among them. -/
structure Owned (s : VideoState) : Prop where
  nodup : s.owned.Nodup
  started : ∀ buf ∈ s.owned, buf ∈ s.zvideo.startBufs
  active : ∀ buf ∈ s.owned, s.vbState buf = .VB2_BUF_STATE_ACTIVE
  doneNodup : s.doneList.Nodup
  done : ∀ buf ∈ s.doneList, s.vbState buf = .VB2_BUF_STATE_DONE

structure Running (cfg : VideoConfig) (s : VideoState) : Prop where
  tables : TableMaps cfg s.zvideo s.zvideo.startBufs
  total : s.zvideo.bufTotal = s.zvideo.startBufs.length
  owned : Owned s

structure Stopped (s : VideoState) : Prop where
  phase : s.phase = .idle
  pending : s.zvideo.pendingList = []
  bufsz : s.zvideo.zchanRxBufsz = 0
  done : s.doneList = []
  queuedNodup : s.queuedList.Nodup
  queued : ∀ buf ∈ s.queuedList, s.vbState buf = .VB2_BUF_STATE_QUEUED

structure VideoInv (cfg : VideoConfig) (s : VideoState) : Prop where
  called : s.startStreamingCalled = s.zvideo.streaming
  vqStreaming : s.startStreamingCalled = true → s.vqStreaming = true
  avail : s.zvideo.bufAvail = s.zvideo.bufList.length
  running : s.zvideo.streaming = true → Running cfg s
  stopped : s.zvideo.streaming = false → Stopped s

theorem videoInv_init (cfg : VideoConfig) : VideoInv cfg VideoState.init := by
  refine ⟨rfl, nofun, rfl, nofun, fun _ => ⟨rfl, rfl, rfl, rfl, .nil, nofun⟩⟩

theorem Running.length_bufList_le {cfg : VideoConfig} {s : VideoState}
    (hrunning : Running cfg s) : s.zvideo.bufList.length ≤ s.zvideo.bufTotal := by
  obtain ⟨_, htotal, howned⟩ := hrunning
  rw [htotal]
  have hsub : s.zvideo.bufList.Sublist s.owned :=
    (List.sublist_append_left _ _).trans (List.sublist_append_left _ _)
  exact List.Subperm.length_le
    ((howned.nodup.sublist hsub).subperm fun buf hbuf =>
      howned.started buf (hsub.subset hbuf))

/-- What a step does to the driver and the receive path, as far as the driver
streams afterwards. -/
inductive DriverEffect (cfg : VideoConfig) (s : VideoState) :
    VideoEvent → RxPhase → ZynqVideo → Prop where
  | stopped {event phase z} (hstreaming : z.streaming = false) :
      DriverEffect cfg s event phase z
  | same {event} : DriverEffect cfg s event s.phase s.zvideo
  | started {event phase z₀ z} (hphase : phase = .idle) (hdriver : Started cfg z₀ z)
      (hnodup : z₀.bufList.Nodup) (hpending : z₀.pendingList = []) :
      DriverEffect cfg s event phase z
  | queued {buf init z} (hbuf : buf ∈ s.zvideo.startBufs)
      (hchecked : ZynqVideo.Checked cfg (s.zvideo.withPending buf) z) :
      DriverEffect cfg s (.qbuf buf init) s.phase z
  | tail {tailReg frames} :
      DriverEffect cfg s (.hwTail tailReg frames) s.phase
        (s.setTail tailReg frames).zvideo
  | begun (hphase : s.phase = .idle) :
      DriverEffect cfg s .rxBegin (s.zvideo.rxBegin cfg) s.zvideo
  | found {rxOff rxTail} (hphase : s.phase = .find rxOff rxTail) :
      DriverEffect cfg s .rxFind (s.zvideo.rxFind rxOff rxTail).1
        (s.zvideo.rxFind rxOff rxTail).2
  | good {rxOff rxTail buf next} (hphase : s.phase = .sync rxOff rxTail buf)
      (hsync : s.zvideo.rxSync cfg rxOff rxTail = some next) :
      DriverEffect cfg s (.rxJudge false) (.advance next rxTail) s.zvideo
  | discarded {rxOff rxTail buf next z} (hphase : s.phase = .sync rxOff rxTail buf)
      (hsync : s.zvideo.rxSync cfg rxOff rxTail = some next)
      (hchecked : ZynqVideo.Checked cfg (s.zvideo.withPending buf) z) :
      DriverEffect cfg s (.rxJudge true) (.advance next rxTail) z
  | advanced {rxOff rxTail} (hphase : s.phase = .advance rxOff rxTail) :
      DriverEffect cfg s .rxAdvance (s.zvideo.rxAdvance rxOff rxTail).1
        (s.zvideo.rxAdvance rxOff rxTail).2
  | reset (hphase : s.phase = .idle) :
      DriverEffect cfg s .reset s.phase (s.zvideo.zvideoReset cfg)

/-- A start may be tried with these queued buffers: none is on `buf_list`
already, and when the start will succeed, `buf_list` is empty. -/
def StartOk (cfg : VideoConfig) (bufList queued : List Nat) (init : InitCall) : Prop :=
  (∀ buf ∈ queued, buf ∉ bufList) ∧ (cfg.Starts queued.length init → bufList = [])

/-- While streaming, only buffers that were queued at the start are queued; and
no start runs into what an earlier one that failed has left on `buf_list`. -/
def VideoOk (cfg : VideoConfig) (s : VideoState) : VideoEvent → Prop
  | .qbuf buf init =>
      s.vbState buf = .VB2_BUF_STATE_DEQUEUED →
        (s.startStreamingCalled = true → buf ∈ s.zvideo.startBufs) ∧
        (s.startStreamingCalled = false → s.vqStreaming = true →
          cfg.zynqVideoBufNum ≤ s.queuedList.length + 1 →
            StartOk cfg s.zvideo.bufList (s.queuedList ++ [buf]) init)
  | .streamon init =>
      s.vqStreaming = false → cfg.zynqVideoBufNum ≤ s.queuedList.length →
        StartOk cfg s.zvideo.bufList s.queuedList init
  | _ => True

instance (cfg : VideoConfig) (bufList queued : List Nat) (init : InitCall) :
    Decidable (StartOk cfg bufList queued init) :=
  inferInstanceAs (Decidable (_ ∧ _))

instance (cfg : VideoConfig) (s : VideoState) : ∀ event, Decidable (VideoOk cfg s event)
  | .qbuf _ _ => inferInstanceAs (Decidable (_ → _ ∧ _))
  | .streamon _ => inferInstanceAs (Decidable (_ → _ → _))
  | .dqbuf | .streamoff | .hwTail _ _ | .rxBegin | .rxFind | .rxJudge _ | .rxAdvance
  | .reset => isTrue trivial

section Starting

variable {cfg : VideoConfig} {z : ZynqVideo} {s : VideoState}

def ZynqVideo.enlist (z : ZynqVideo) (bufs : List Nat) : ZynqVideo :=
  { z with bufList := z.bufList ++ bufs, bufAvail := z.bufAvail + bufs.length }

theorem ZynqVideo.enlist_cons (z : ZynqVideo) (buf : Nat) (rest : List Nat) :
    (z.enlist [buf]).enlist rest = z.enlist (buf :: rest) := by
  have hlen : z.bufAvail + [buf].length + rest.length =
      z.bufAvail + (buf :: rest).length := by
    simp only [List.length_cons, List.length_nil]
    omega
  unfold enlist
  dsimp only
  rw [hlen, List.append_assoc, List.singleton_append]

theorem zvideoBufferQueue_fresh {buf : Nat} (hstopped : ¬ z.streaming = true)
    (hpending : z.pendingList = []) (hfresh : buf ∉ z.bufList) :
    z.zvideoBufferQueue cfg buf = some (z.enlist [buf]) := by
  have hoff : ¬ z.OnList buf := by
    rintro (hbuf | hbuf)
    · exact hfresh hbuf
    · rw [hpending] at hbuf
      exact List.not_mem_nil hbuf
  unfold ZynqVideo.zvideoBufferQueue
  rw [if_neg hstopped, if_neg hoff]
  rfl

theorem zvideoBufferQueue_listed {buf : Nat} (hstopped : ¬ z.streaming = true)
    (hlisted : buf ∈ z.bufList) : z.zvideoBufferQueue cfg buf = none := by
  have hon : z.OnList buf := Or.inl hlisted
  unfold ZynqVideo.zvideoBufferQueue
  rw [if_neg hstopped, if_pos hon]

theorem foldlM_zvideoBufferQueue {queued : List Nat} (hstopped : ¬ z.streaming = true)
    (hpending : z.pendingList = []) (hnodup : queued.Nodup) :
    queued.foldlM (ZynqVideo.zvideoBufferQueue cfg) z =
      if ∀ buf ∈ queued, buf ∉ z.bufList then some (z.enlist queued) else none := by
  induction queued generalizing z with
  | nil =>
      rw [if_pos (fun _ hbuf => absurd hbuf List.not_mem_nil)]
      simp only [List.foldlM_nil, ZynqVideo.enlist, List.append_nil, List.length_nil,
        Nat.add_zero]
      rfl
  | cons buf rest ih =>
      obtain ⟨hne, hnodup⟩ := List.nodup_cons.mp hnodup
      rw [List.foldlM_cons]
      by_cases hfresh : buf ∈ z.bufList
      · rw [zvideoBufferQueue_listed hstopped hfresh, if_neg]
        · rfl
        · intro hall
          exact hall buf List.mem_cons_self hfresh
      · rw [zvideoBufferQueue_fresh hstopped hpending hfresh]
        refine (ih (z := z.enlist [buf]) hstopped hpending hnodup).trans ?_
        have hiff : (∀ other ∈ rest, other ∉ (z.enlist [buf]).bufList) ↔
            ∀ other ∈ buf :: rest, other ∉ z.bufList := by
          simp only [ZynqVideo.enlist, List.mem_append, List.mem_cons, List.not_mem_nil,
            or_false, forall_eq_or_imp, not_or]
          constructor
          · intro hall
            exact ⟨hfresh, fun other hother => (hall other hother).1⟩
          · rintro ⟨_, hall⟩ other hother
            exact ⟨hall other hother, fun heq => hne (heq ▸ hother)⟩
        simp only [hiff, ZynqVideo.enlist_cons]

def VideoState.started (s : VideoState) (z : ZynqVideo) : VideoState :=
  { s with
    zvideo := z
    vbState := fun buf =>
      if buf ∈ s.queuedList then .VB2_BUF_STATE_ACTIVE else s.vbState buf
    queuedList := []
    startStreamingCalled := true }

def VideoState.notStarted (s : VideoState) (z : ZynqVideo) : VideoState :=
  { s with zvideo := z }

theorem startStreaming_eq (init : InitCall) (hstopped : ¬ s.zvideo.streaming = true)
    (hpending : s.zvideo.pendingList = []) (hnodup : s.queuedList.Nodup)
    (hfresh : ∀ buf ∈ s.queuedList, buf ∉ s.zvideo.bufList) :
    s.startStreaming cfg init =
      ((s.zvideo.enlist s.queuedList).zvideoStartStreaming cfg s.queuedList.length
        init).map fun (ready, z) =>
          (ready, if ready then s.started z else s.notStarted z) := by
  unfold VideoState.startStreaming
  rw [foldlM_zvideoBufferQueue hstopped hpending hnodup, if_pos hfresh]
  rfl

inductive StartResult (cfg : VideoConfig) (s : VideoState) :
    Option (Bool × VideoState) → Prop where
  | started {z : ZynqVideo} (hbufs : (s.zvideo.enlist s.queuedList).bufList = s.queuedList)
      (havail : s.zvideo.bufList = [])
      (hdriver : Started cfg (s.zvideo.enlist s.queuedList) z) :
      StartResult cfg s (some (true, s.started z))
  | notStarted {z : ZynqVideo}
      (hdriver : NotStarted (s.zvideo.enlist s.queuedList) z) :
      StartResult cfg s (some (false, s.notStarted z))

theorem startStreaming_result {init : InitCall} (hstopped : Stopped s)
    (hstreaming : s.zvideo.streaming = false)
    (hok : StartOk cfg s.zvideo.bufList s.queuedList init) :
    StartResult cfg s (s.startStreaming cfg init) := by
  obtain ⟨hfresh, hempty⟩ := hok
  have hidle : ¬ s.zvideo.streaming = true := by
    rw [hstreaming]
    exact Bool.false_ne_true
  rw [startStreaming_eq init hidle hstopped.pending hstopped.queuedNodup hfresh]
  by_cases hstarts : cfg.Starts s.queuedList.length init
  · have hbufs := hempty hstarts
    have hlist : (s.zvideo.enlist s.queuedList).bufList = s.queuedList := by
      simp only [ZynqVideo.enlist, hbufs, List.nil_append]
    have hnodup : (s.zvideo.enlist s.queuedList).bufList.Nodup := by
      rw [hlist]
      exact hstopped.queuedNodup
    have hlen : s.queuedList.length = (s.zvideo.enlist s.queuedList).bufList.length := by
      rw [hlist]
    rw [hlen] at hstarts ⊢
    obtain ⟨z, hstart, hdriver⟩ := ZynqVideo.zvideoStartStreaming_started hstarts hnodup
    rw [hstart]
    exact .started hlist hbufs hdriver
  · have hcount : s.queuedList.length ≤ (s.zvideo.enlist s.queuedList).bufList.length := by
      simp only [ZynqVideo.enlist, List.length_append]
      omega
    obtain ⟨z, hstart, hdriver⟩ := ZynqVideo.zvideoStartStreaming_notStarted hstarts hcount
      (show (s.zvideo.enlist s.queuedList).zchanRxBufsz = 0 from hstopped.bufsz)
    rw [hstart]
    exact .notStarted hdriver

theorem videoInv_started {z : ZynqVideo} (hvq : s.vqStreaming = true)
    (hstopped : Stopped s) (hqueued : (s.zvideo.enlist s.queuedList).bufList = s.queuedList)
    (havail : s.zvideo.bufAvail = 0)
    (hdriver : Started cfg (s.zvideo.enlist s.queuedList) z) :
    VideoInv cfg (s.started z) := by
  have hlist : z.bufList = s.queuedList := hdriver.bufList.trans hqueued
  have hstart : z.startBufs = s.queuedList := hdriver.startBufs.trans hqueued
  have howned : (s.started z).owned = s.queuedList := by
    unfold VideoState.owned
    simp only [VideoState.started, hstopped.phase, RxPhase.held, hlist,
      hdriver.pendingList]
    simp only [ZynqVideo.enlist, hstopped.pending, List.append_nil]
  refine ⟨hdriver.streaming.symm, fun _ => hvq, ?_, fun _ => ?_, fun hstreaming => ?_⟩
  · change z.bufAvail = z.bufList.length
    rw [hdriver.bufAvail, hlist]
    simp only [ZynqVideo.enlist, havail, Nat.zero_add]
  · refine ⟨?_, ?_, ?_, ?_, ?_, ?_, ?_⟩
    · change TableMaps cfg z z.startBufs
      rw [hdriver.startBufs]
      exact hdriver.tables
    · change z.bufTotal = z.startBufs.length
      rw [hdriver.bufTotal, hdriver.startBufs]
    · rw [howned]
      exact hstopped.queuedNodup
    · intro buf hbuf
      rw [howned] at hbuf
      change buf ∈ z.startBufs
      rw [hstart]
      exact hbuf
    · intro buf hbuf
      rw [howned] at hbuf
      exact if_pos hbuf
    · change s.doneList.Nodup
      rw [hstopped.done]
      exact .nil
    · intro buf hbuf
      change buf ∈ s.doneList at hbuf
      rw [hstopped.done] at hbuf
      exact absurd hbuf List.not_mem_nil
  · exact absurd (hdriver.streaming.symm.trans hstreaming) (by decide)

theorem videoInv_queueCancel {z : ZynqVideo} (hphase : s.phase = .idle)
    (hstreaming : z.streaming = false) (havail : z.bufAvail = z.bufList.length)
    (hpending : z.pendingList = []) (hbufsz : z.zchanRxBufsz = 0) :
    VideoInv cfg (s.queueCancel z) := by
  refine ⟨hstreaming.symm, nofun, havail, fun hrunning => ?_, fun _ => ?_⟩
  · exact absurd (hstreaming.symm.trans hrunning) (by decide)
  · exact ⟨hphase, hpending, hbufsz, rfl, .nil, nofun⟩

end Starting

section Steps

variable {cfg : VideoConfig} {s : VideoState}

/-- The step can be taken, keeps the invariant, and has one of the effects. -/
def StepKept (cfg : VideoConfig) (s : VideoState) (event : VideoEvent) : Prop :=
  ∃ next, videoStep cfg s event = some next ∧ VideoInv cfg next ∧
    DriverEffect cfg s event next.phase next.zvideo

theorem stepKept_same {event : VideoEvent} (hinv : VideoInv cfg s)
    (hstep : videoStep cfg s event = some s) : StepKept cfg s event :=
  ⟨s, hstep, hinv, .same⟩

theorem VideoInv.of_owned {next : VideoState} (hinv : VideoInv cfg s)
    (hrunning : s.zvideo.streaming = true)
    (hcalled : next.startStreamingCalled = s.startStreamingCalled)
    (hvq : next.vqStreaming = s.vqStreaming)
    (havail : next.zvideo.bufAvail = next.zvideo.bufList.length)
    (hsame : SameStream s.zvideo next.zvideo) (howned : Owned next) :
    VideoInv cfg next := by
  refine ⟨?_, ?_, havail, fun _ => ⟨?_, ?_, howned⟩, fun hstopped => ?_⟩
  · rw [hcalled, hsame.streaming]
    exact hinv.called
  · rw [hcalled, hvq]
    exact hinv.vqStreaming
  · rw [hsame.startBufs]
    exact (hinv.running hrunning).tables.of_same hsame.tables
  · rw [hsame.bufTotal, hsame.startBufs]
    exact (hinv.running hrunning).total
  · rw [hsame.streaming, hrunning] at hstopped
    cases hstopped

theorem Owned.of_perm {next : VideoState} (howned : Owned s)
    (hperm : next.owned.Perm s.owned) (hstart : next.zvideo.startBufs = s.zvideo.startBufs)
    (hstate : next.vbState = s.vbState) (hdone : next.doneList = s.doneList) :
    Owned next := by
  refine ⟨hperm.nodup_iff.mpr howned.nodup, ?_, ?_, ?_, ?_⟩
  · intro buf hbuf
    rw [hstart]
    exact howned.started buf (hperm.mem_iff.mp hbuf)
  · intro buf hbuf
    rw [hstate]
    exact howned.active buf (hperm.mem_iff.mp hbuf)
  · rw [hdone]
    exact howned.doneNodup
  · rw [hdone, hstate]
    exact howned.done

theorem Owned.queue {next : VideoState} {buf : Nat} (howned : Owned s)
    (hbuf : buf ∈ s.zvideo.startBufs) (hdequeued : s.vbState buf = .VB2_BUF_STATE_DEQUEUED)
    (hperm : next.owned.Perm (buf :: s.owned))
    (hstart : next.zvideo.startBufs = s.zvideo.startBufs)
    (hstate : next.vbState = Function.update s.vbState buf .VB2_BUF_STATE_ACTIVE)
    (hdone : next.doneList = s.doneList) : Owned next := by
  have hfresh : buf ∉ s.owned := by
    intro hmem
    rw [howned.active buf hmem] at hdequeued
    cases hdequeued
  refine ⟨hperm.nodup_iff.mpr (List.nodup_cons.mpr ⟨hfresh, howned.nodup⟩), ?_, ?_, ?_, ?_⟩
  · intro other hother
    rw [hstart]
    rcases List.mem_cons.mp (hperm.mem_iff.mp hother) with rfl | hother
    · exact hbuf
    · exact howned.started other hother
  · intro other hother
    rw [hstate, Function.update_apply]
    split
    · rfl
    next hne =>
      rcases List.mem_cons.mp (hperm.mem_iff.mp hother) with rfl | hother
      · exact absurd rfl hne
      · exact howned.active other hother
  · rw [hdone]
    exact howned.doneNodup
  · intro other hother
    rw [hdone] at hother
    have hother := howned.done other hother
    rw [hstate, Function.update_of_ne, hother]
    rintro rfl
    rw [hother] at hdequeued
    cases hdequeued

theorem Owned.finish {next : VideoState} {buf : Nat} (howned : Owned s)
    (hperm : s.owned.Perm (buf :: next.owned))
    (hstart : next.zvideo.startBufs = s.zvideo.startBufs)
    (hstate : next.vbState = Function.update s.vbState buf .VB2_BUF_STATE_DONE)
    (hdone : next.doneList = s.doneList ++ [buf]) : Owned next := by
  have hbuf : buf ∈ s.owned := hperm.mem_iff.mpr List.mem_cons_self
  obtain ⟨hgone, hnodup⟩ := List.nodup_cons.mp (hperm.nodup_iff.mp howned.nodup)
  have hsub (other : Nat) (hother : other ∈ next.owned) : other ∈ s.owned :=
    hperm.mem_iff.mpr (List.mem_cons_of_mem _ hother)
  have hundone : buf ∉ s.doneList := by
    intro hmem
    have hclash := (howned.done buf hmem).symm.trans (howned.active buf hbuf)
    cases hclash
  refine ⟨hnodup, ?_, ?_, ?_, ?_⟩
  · intro other hother
    rw [hstart]
    exact howned.started other (hsub other hother)
  · intro other hother
    rw [hstate, Function.update_of_ne (ne_of_mem_of_not_mem hother hgone)]
    exact howned.active other (hsub other hother)
  · rw [hdone, ← List.concat_eq_append]
    exact howned.doneNodup.concat hundone
  · intro other hother
    rw [hdone, List.mem_append, List.mem_singleton] at hother
    rw [hstate, Function.update_apply]
    split
    · rfl
    next hne => exact howned.done other (hother.resolve_right hne)

theorem Owned.dequeue {next : VideoState} {buf : Nat} (howned : Owned s)
    (hdone : s.doneList = buf :: next.doneList)
    (hperm : next.owned = s.owned) (hstart : next.zvideo.startBufs = s.zvideo.startBufs)
    (hstate : next.vbState = Function.update s.vbState buf .VB2_BUF_STATE_DEQUEUED) :
    Owned next := by
  have hbuf := howned.done buf (by rw [hdone]; exact List.mem_cons_self)
  have hnodup := howned.doneNodup
  rw [hdone] at hnodup
  obtain ⟨hgone, hnodup⟩ := List.nodup_cons.mp hnodup
  refine ⟨?_, ?_, ?_, hnodup, ?_⟩
  · rw [hperm]
    exact howned.nodup
  · rw [hperm, hstart]
    exact howned.started
  · intro other hother
    rw [hperm] at hother
    have hactive := howned.active other hother
    rw [hstate, Function.update_of_ne, hactive]
    rintro rfl
    rw [hbuf] at hactive
    cases hactive
  · intro other hother
    rw [hstate, Function.update_of_ne (ne_of_mem_of_not_mem hother hgone)]
    exact howned.done other (by rw [hdone]; exact List.mem_cons_of_mem _ hother)

section Pending

variable {z z' : ZynqVideo} {buf : Nat}

theorem ListsMoved.perm_withPending (hmoved : ListsMoved (z.withPending buf) z') :
    (z'.bufList ++ z'.pendingList).Perm (buf :: (z.bufList ++ z.pendingList)) :=
  hmoved.lists.trans (z.lists_withPending buf)

theorem ListsMoved.sameStream_withPending (hmoved : ListsMoved (z.withPending buf) z') :
    SameStream z z' := by
  obtain ⟨⟨hsize, hbufsz, hmask, hoff, hpt⟩, hstreaming, hstart, htotal⟩ :=
    hmoved.sameStream
  exact ⟨⟨hsize, hbufsz, hmask, hoff, hpt⟩, hstreaming, hstart, htotal⟩

end Pending

theorem stepKept_qbuf_running {buf : Nat} {init : InitCall} (hinv : VideoInv cfg s)
    (hrunning : s.zvideo.streaming = true) (hbuf : buf ∈ s.zvideo.startBufs)
    (hdequeued : s.vbState buf = .VB2_BUF_STATE_DEQUEUED) :
    StepKept cfg s (.qbuf buf init) := by
  have howned := (hinv.running hrunning).owned
  have hfresh : buf ∉ s.owned := by
    intro hmem
    rw [howned.active buf hmem] at hdequeued
    cases hdequeued
  have hoff : ¬ s.zvideo.OnList buf := fun hon =>
    hfresh (List.mem_append_left _ (List.mem_append.mpr hon))
  obtain ⟨z, hadd, hchecked⟩ := ZynqVideo.addPending_checked cfg hoff
  have hmoved := ZynqVideo.listsMoved_of_rounds hchecked.rounds
  have hsame : SameStream s.zvideo z := hmoved.sameStream_withPending
  let next : VideoState := { s.setVbState buf .VB2_BUF_STATE_ACTIVE with zvideo := z }
  have hnext : Owned next :=
    howned.queue hbuf hdequeued (hmoved.perm_withPending.append_right _)
      hsame.startBufs rfl rfl
  refine ⟨next, ?_, ?_, .queued hbuf hchecked⟩
  · change s.qbuf cfg buf init = _
    unfold VideoState.qbuf
    rw [if_neg (not_not.mpr hdequeued), if_pos (hinv.called.trans hrunning)]
    unfold ZynqVideo.zvideoBufferQueue
    rw [if_pos hrunning, hadd]
    rfl
  · exact hinv.of_owned hrunning rfl rfl (hmoved.avail_eq hinv.avail) hsame hnext

theorem videoInv_stopped {next : VideoState}
    (hcalled : next.startStreamingCalled = next.zvideo.streaming)
    (hstreaming : next.zvideo.streaming = false)
    (havail : next.zvideo.bufAvail = next.zvideo.bufList.length)
    (hstopped : Stopped next) : VideoInv cfg next := by
  refine ⟨hcalled, fun hrunning => ?_, havail, fun hrunning => ?_, fun _ => hstopped⟩
  · exact absurd (hrunning.symm.trans (hcalled.trans hstreaming)) (by decide)
  · exact absurd (hrunning.symm.trans hstreaming) (by decide)

theorem Stopped.enqueue {buf : Nat} (hstopped : Stopped s)
    (hdequeued : s.vbState buf = .VB2_BUF_STATE_DEQUEUED) : Stopped (s.enqueue buf) := by
  have hfresh : buf ∉ s.queuedList := by
    intro hmem
    rw [hstopped.queued buf hmem] at hdequeued
    cases hdequeued
  refine ⟨hstopped.phase, hstopped.pending, hstopped.bufsz, hstopped.done, ?_, ?_⟩
  · change (s.queuedList ++ [buf]).Nodup
    rw [← List.concat_eq_append]
    exact hstopped.queuedNodup.concat hfresh
  · intro other hother
    change Function.update s.vbState buf _ other = _
    rw [Function.update_apply]
    split
    · rfl
    next hne =>
      refine hstopped.queued other ?_
      rcases List.mem_append.mp hother with hother | hother
      · exact hother
      · exact absurd (List.mem_singleton.mp hother) hne

theorem Stopped.dequeue {z : ZynqVideo} (buf : Nat) (hstopped : Stopped s)
    (hpending : z.pendingList = []) (hbufsz : z.zchanRxBufsz = 0) :
    Stopped ((s.notStarted z).dequeue buf) := by
  have hnodup := hstopped.queuedNodup
  refine ⟨hstopped.phase, hpending, hbufsz, hstopped.done, hnodup.erase buf, ?_⟩
  intro other hother
  have hmem := (hnodup.mem_erase_iff).mp hother
  change Function.update s.vbState buf _ other = _
  rw [Function.update_of_ne hmem.1]
  exact hstopped.queued other hmem.2

theorem NotStarted.enlisted {z : ZynqVideo} {bufs : List Nat}
    (hdriver : NotStarted (s.zvideo.enlist bufs) z)
    (havail : s.zvideo.bufAvail = s.zvideo.bufList.length) :
    z.bufAvail = z.bufList.length := by
  rw [hdriver.bufAvail, hdriver.bufList]
  simp only [ZynqVideo.enlist, List.length_append, havail]

theorem videoStep_qbuf_stopped {buf : Nat} {init : InitCall}
    (hdequeued : s.vbState buf = .VB2_BUF_STATE_DEQUEUED)
    (hcalled : s.startStreamingCalled = false) :
    videoStep cfg s (.qbuf buf init) =
      if s.vqStreaming = true ∧ cfg.zynqVideoBufNum ≤ s.queuedList.length + 1 then
        ((s.enqueue buf).startStreaming cfg init).map fun (ready, s) =>
          if ready then s else s.dequeue buf
      else some (s.enqueue buf) := by
  change s.qbuf cfg buf init = _
  unfold VideoState.qbuf
  rw [if_neg (not_not.mpr hdequeued), hcalled, if_neg Bool.false_ne_true]
  simp only [VideoState.enqueue, List.length_append, List.length_singleton]
  rfl

theorem stepKept_qbuf_stopped {buf : Nat} {init : InitCall} (hinv : VideoInv cfg s)
    (hstreaming : s.zvideo.streaming = false)
    (hdequeued : s.vbState buf = .VB2_BUF_STATE_DEQUEUED)
    (hok : s.vqStreaming = true → cfg.zynqVideoBufNum ≤ s.queuedList.length + 1 →
      StartOk cfg s.zvideo.bufList (s.queuedList ++ [buf]) init) :
    StepKept cfg s (.qbuf buf init) := by
  have hstopped := (hinv.stopped hstreaming).enqueue hdequeued
  have hcalled : s.startStreamingCalled = false := hinv.called.trans hstreaming
  unfold StepKept
  rw [videoStep_qbuf_stopped hdequeued hcalled]
  split
  next htrigger =>
    have hresult := startStreaming_result (s := s.enqueue buf) hstopped hstreaming
      (hok htrigger.1 htrigger.2)
    generalize (s.enqueue buf).startStreaming cfg init = result at hresult
    cases hresult with
    | started hqueued hbufs hdriver =>
        have havail : s.zvideo.bufAvail = 0 := by
          rw [hinv.avail]
          exact List.length_eq_zero_iff.mpr hbufs
        refine ⟨_, rfl, ?_, .started hstopped.phase hdriver ?_ hstopped.pending⟩
        · exact videoInv_started htrigger.1 hstopped hqueued havail hdriver
        · rw [hqueued]
          exact hstopped.queuedNodup
    | notStarted hdriver =>
        have hoff := hdriver.streaming.trans hstreaming
        have hstops := hstopped.dequeue buf
          (hdriver.pendingList.trans hstopped.pending) hdriver.bufsz
        refine ⟨_, rfl, ?_, .stopped hoff⟩
        exact videoInv_stopped (hcalled.trans hoff.symm) hoff
          (hdriver.enlisted hinv.avail) hstops
  · refine ⟨_, rfl, ?_, .stopped hstreaming⟩
    exact videoInv_stopped hinv.called hstreaming hinv.avail hstopped

theorem stepKept_qbuf {buf : Nat} {init : InitCall} (hinv : VideoInv cfg s)
    (hok : VideoOk cfg s (.qbuf buf init)) : StepKept cfg s (.qbuf buf init) := by
  by_cases hdequeued : s.vbState buf = .VB2_BUF_STATE_DEQUEUED
  · obtain ⟨hstarted, hstart⟩ := hok hdequeued
    cases hstreaming : s.zvideo.streaming with
    | true =>
        exact stepKept_qbuf_running hinv hstreaming
          (hstarted (hinv.called.trans hstreaming)) hdequeued
    | false =>
        exact stepKept_qbuf_stopped hinv hstreaming hdequeued
          (hstart (hinv.called.trans hstreaming))
  · refine stepKept_same hinv ?_
    change s.qbuf cfg buf init = _
    unfold VideoState.qbuf
    rw [if_pos hdequeued]

theorem VideoInv.not_called (hinv : VideoInv cfg s) (hvq : s.vqStreaming = false) :
    s.startStreamingCalled = false := by
  cases hcalled : s.startStreamingCalled with
  | false => rfl
  | true => exact absurd (hvq.symm.trans (hinv.vqStreaming hcalled)) (by decide)

theorem videoStep_streamon {init : InitCall} (hvq : s.vqStreaming = false) :
    videoStep cfg s (.streamon init) =
      if cfg.zynqVideoBufNum ≤ s.queuedList.length then
        (s.startStreaming cfg init).map fun (ready, s) =>
          if ready then s.setVqStreaming else s.queueCancel s.zvideo
      else some s.setVqStreaming := by
  change s.streamon cfg init = _
  unfold VideoState.streamon
  rw [hvq, if_neg Bool.false_ne_true]

theorem stepKept_streamon {init : InitCall} (hinv : VideoInv cfg s)
    (hok : VideoOk cfg s (.streamon init)) : StepKept cfg s (.streamon init) := by
  cases hvq : s.vqStreaming with
  | true =>
      refine stepKept_same hinv ?_
      change s.streamon cfg init = _
      unfold VideoState.streamon
      rw [if_pos hvq]
  | false =>
      have hcalled : s.startStreamingCalled = false := hinv.not_called hvq
      have hstreaming : s.zvideo.streaming = false := hinv.called.symm.trans hcalled
      have hstopped := hinv.stopped hstreaming
      have hset : Stopped s.setVqStreaming :=
        ⟨hstopped.phase, hstopped.pending, hstopped.bufsz, hstopped.done,
          hstopped.queuedNodup, hstopped.queued⟩
      unfold StepKept
      rw [videoStep_streamon hvq]
      split
      next hnum =>
        have hresult := startStreaming_result hstopped hstreaming (hok hvq hnum)
        generalize s.startStreaming cfg init = result at hresult
        cases hresult with
        | started hqueued hbufs hdriver =>
            have havail : s.zvideo.bufAvail = 0 := by
              rw [hinv.avail]
              exact List.length_eq_zero_iff.mpr hbufs
            refine ⟨_, rfl, ?_, .started hstopped.phase hdriver ?_ hstopped.pending⟩
            · exact videoInv_started (s := s.setVqStreaming) rfl hset hqueued havail
                hdriver
            · rw [hqueued]
              exact hstopped.queuedNodup
        | notStarted hdriver =>
            have hoff := hdriver.streaming.trans hstreaming
            refine ⟨_, rfl, ?_, .stopped hoff⟩
            exact videoInv_queueCancel hstopped.phase hoff (hdriver.enlisted hinv.avail)
              (hdriver.pendingList.trans hstopped.pending) hdriver.bufsz
      · refine ⟨_, rfl, ?_, .stopped hstreaming⟩
        exact videoInv_stopped hinv.called hstreaming hinv.avail hset

theorem stepKept_streamoff (hinv : VideoInv cfg s) : StepKept cfg s .streamoff := by
  by_cases hphase : s.phase = .idle
  · have hstreamoff : videoStep cfg s .streamoff =
        some (if s.startStreamingCalled then s.queueCancel s.zvideo.zvideoStopStreaming
          else s.queueCancel s.zvideo) := by
      change some s.streamoff = _
      unfold VideoState.streamoff
      rw [if_neg (not_not.mpr hphase)]
    unfold StepKept
    rw [hstreamoff]
    split
    next hcalled =>
      refine ⟨_, rfl, ?_, .stopped rfl⟩
      refine videoInv_queueCancel hphase rfl ?_ rfl rfl
      change s.zvideo.bufAvail - s.zvideo.bufList.length = 0
      rw [hinv.avail]
      exact Nat.sub_self _
    next hcalled =>
      have hstreaming : s.zvideo.streaming = false :=
        hinv.called.symm.trans (Bool.eq_false_of_not_eq_true hcalled)
      have hstopped := hinv.stopped hstreaming
      refine ⟨_, rfl, ?_, .stopped hstreaming⟩
      exact videoInv_queueCancel hphase hstreaming hinv.avail hstopped.pending
        hstopped.bufsz
  · refine stepKept_same hinv ?_
    change some s.streamoff = _
    unfold VideoState.streamoff
    rw [if_pos hphase]

theorem stepKept_dqbuf (hinv : VideoInv cfg s) : StepKept cfg s .dqbuf := by
  have hdqbuf : videoStep cfg s .dqbuf = some s.dqbuf := rfl
  unfold StepKept
  rw [hdqbuf]
  unfold VideoState.dqbuf
  split
  next buf rest hvq hdone =>
    refine ⟨_, rfl, ?_, .same⟩
    cases hstreaming : s.zvideo.streaming with
    | true =>
        refine hinv.of_owned hstreaming rfl rfl hinv.avail ⟨⟨rfl, rfl, rfl, rfl, rfl⟩, rfl,
          rfl, rfl⟩ ?_
        exact (hinv.running hstreaming).owned.dequeue hdone rfl rfl rfl
    | false =>
        rw [(hinv.stopped hstreaming).done] at hdone
        cases hdone
  · exact ⟨s, rfl, hinv, .same⟩

theorem SameStream.refl (z : ZynqVideo) : SameStream z z :=
  ⟨⟨rfl, rfl, rfl, rfl, rfl⟩, rfl, rfl, rfl⟩

theorem VideoInv.of_lists {next : VideoState} (hinv : VideoInv cfg s)
    (hcalled : next.startStreamingCalled = s.startStreamingCalled)
    (hvq : next.vqStreaming = s.vqStreaming) (hstate : next.vbState = s.vbState)
    (hdone : next.doneList = s.doneList) (hqueued : next.queuedList = s.queuedList)
    (hsame : SameStream s.zvideo next.zvideo)
    (havail : next.zvideo.bufAvail = s.zvideo.bufAvail)
    (hbufs : next.zvideo.bufList = s.zvideo.bufList)
    (hpending : next.zvideo.pendingList = s.zvideo.pendingList)
    (hheld : next.phase.held = s.phase.held)
    (hphase : s.zvideo.streaming = false → next.phase = s.phase) :
    VideoInv cfg next := by
  have howned : next.owned = s.owned := by
    unfold VideoState.owned
    rw [hbufs, hpending, hheld]
  have havail : next.zvideo.bufAvail = next.zvideo.bufList.length := by
    rw [havail, hbufs]
    exact hinv.avail
  cases hstreaming : s.zvideo.streaming with
  | true =>
      refine hinv.of_owned hstreaming hcalled hvq havail hsame ?_
      exact (hinv.running hstreaming).owned.of_perm (by rw [howned]) hsame.startBufs
        hstate hdone
  | false =>
      have hoff := hsame.streaming.trans hstreaming
      have hstopped := hinv.stopped hstreaming
      refine videoInv_stopped ?_ hoff havail ⟨?_, ?_, ?_, ?_, ?_, ?_⟩
      · rw [hcalled, hsame.streaming]
        exact hinv.called
      · exact (hphase hstreaming).trans hstopped.phase
      · exact hpending.trans hstopped.pending
      · exact hsame.tables.bufsz.trans hstopped.bufsz
      · exact hdone.trans hstopped.done
      · rw [hqueued]
        exact hstopped.queuedNodup
      · rw [hqueued, hstate]
        exact hstopped.queued

theorem stepKept_hwTail {tailReg : BitVec 32} {frames : Nat} (hinv : VideoInv cfg s) :
    StepKept cfg s (.hwTail tailReg frames) := by
  refine ⟨_, rfl, ?_, .tail⟩
  exact hinv.of_lists rfl rfl rfl rfl rfl ⟨⟨rfl, rfl, rfl, rfl, rfl⟩, rfl, rfl, rfl⟩
    rfl rfl rfl rfl fun _ => rfl

theorem ZynqVideo.rxBegin_held (z : ZynqVideo) : (z.rxBegin cfg).held = [] := by
  unfold rxBegin
  split
  · rfl
  · split
    · rfl
    · split <;> rfl

theorem ZynqVideo.rxBegin_of_bufsz {z : ZynqVideo} (hbufsz : z.zchanRxBufsz = 0) :
    z.rxBegin cfg = .idle := by
  unfold rxBegin
  rw [if_pos hbufsz]

theorem stepKept_rxBegin (hinv : VideoInv cfg s) : StepKept cfg s .rxBegin := by
  cases hphase : s.phase with
  | idle =>
      refine ⟨s.setPhase (s.zvideo.rxBegin cfg) s.zvideo, ?_, ?_, .begun hphase⟩
      · simp only [videoStep, hphase]
      · refine hinv.of_lists rfl rfl rfl rfl rfl (.refl _) rfl rfl rfl ?_ fun hstreaming => ?_
        · rw [hphase]
          exact s.zvideo.rxBegin_held
        · rw [hphase]
          exact ZynqVideo.rxBegin_of_bufsz (hinv.stopped hstreaming).bufsz
  | _ => exact stepKept_same hinv (by simp only [videoStep, hphase])

theorem streaming_of_phase (hinv : VideoInv cfg s) (hphase : s.phase ≠ .idle) :
    s.zvideo.streaming = true := by
  cases hstreaming : s.zvideo.streaming with
  | true => rfl
  | false => exact absurd (hinv.stopped hstreaming).phase hphase

theorem ZynqVideo.rxFind_of_found {z : ZynqVideo} {rxOff rxTail buf : Nat}
    (hstreaming : z.streaming = true)
    (hfound : (z.bufList.find? fun cur => z.offset cur == rxOff) = some buf) :
    z.rxFind rxOff rxTail =
      (.sync rxOff rxTail buf,
        { z with bufList := z.bufList.erase buf, bufAvail := z.bufAvail - 1 }) := by
  unfold rxFind
  rw [hfound]
  split
  next hbuf =>
    cases hbuf
    rfl
  next hnone => exact (hnone buf hstreaming rfl).elim

theorem ZynqVideo.rxFind_of_none {z : ZynqVideo} {rxOff rxTail : Nat}
    (hnone : (z.bufList.find? fun cur => z.offset cur == rxOff) = none) :
    z.rxFind rxOff rxTail = (.idle, z) := by
  unfold rxFind
  rw [hnone]
  split
  next hbuf => cases hbuf
  · rfl

theorem stepKept_rxFind (hinv : VideoInv cfg s) : StepKept cfg s .rxFind := by
  cases hphase : s.phase with
  | find rxOff rxTail =>
      have hstreaming := streaming_of_phase hinv (by rw [hphase]; exact nofun)
      have howned := (hinv.running hstreaming).owned
      refine ⟨s.setPhase (s.zvideo.rxFind rxOff rxTail).1 (s.zvideo.rxFind rxOff rxTail).2,
        ?_, ?_, .found hphase⟩
      · simp only [videoStep, hphase]
      · cases hfound : s.zvideo.bufList.find? fun cur => s.zvideo.offset cur == rxOff with
        | none =>
            rw [ZynqVideo.rxFind_of_none hfound]
            refine hinv.of_lists rfl rfl rfl rfl rfl (.refl _) rfl rfl rfl ?_ fun hoff => ?_
            · rw [hphase]
              rfl
            · exact absurd (hstreaming.symm.trans hoff) (by decide)
        | some buf =>
            have hmem := List.mem_of_find?_eq_some hfound
            have hpos := List.length_pos_of_mem hmem
            rw [ZynqVideo.rxFind_of_found hstreaming hfound]
            refine hinv.of_owned hstreaming rfl rfl ?_ ⟨⟨rfl, rfl, rfl, rfl, rfl⟩, rfl, rfl,
              rfl⟩ (howned.of_perm ?_ rfl rfl rfl)
            · change s.zvideo.bufAvail - 1 = (s.zvideo.bufList.erase buf).length
              rw [List.length_erase_of_mem hmem, hinv.avail]
            · unfold VideoState.owned
              simp only [VideoState.setPhase, hphase, RxPhase.held, List.append_nil]
              refine (List.perm_append_comm).trans ?_
              rw [← List.append_assoc]
              exact (List.perm_cons_erase hmem).symm.append_right _
  | _ => exact stepKept_same hinv (by simp only [videoStep, hphase])

theorem stepKept_rxJudge (corrupted : Bool) (hinv : VideoInv cfg s) :
    StepKept cfg s (.rxJudge corrupted) := by
  cases hphase : s.phase with
  | sync rxOff rxTail buf =>
      have hstreaming := streaming_of_phase hinv (by rw [hphase]; exact nofun)
      have hrunning := hinv.running hstreaming
      have howned := hrunning.owned
      obtain ⟨next, hsync⟩ :=
        s.zvideo.rxSync_some hrunning.tables.bufsz hrunning.tables.bufMask rxOff rxTail
      have hheld : s.owned.Perm (buf :: (s.zvideo.bufList ++ s.zvideo.pendingList)) := by
        unfold VideoState.owned
        rw [hphase]
        exact List.perm_append_singleton _ _
      cases corrupted with
      | true =>
          have hoff : ¬ s.zvideo.OnList buf := by
            have hnodup := hheld.nodup_iff.mp howned.nodup
            intro hon
            exact (List.nodup_cons.mp hnodup).1 (List.mem_append.mpr hon)
          obtain ⟨z, hadd, hchecked⟩ := ZynqVideo.addPending_checked cfg hoff
          have hmoved := ZynqVideo.listsMoved_of_rounds hchecked.rounds
          have hsame : SameStream s.zvideo z := hmoved.sameStream_withPending
          refine ⟨s.setPhase (.advance next rxTail) z, ?_, ?_,
            .discarded hphase hsync hchecked⟩
          · simp only [videoStep, VideoState.rxJudge, hphase, hsync, hadd, if_true,
              Option.bind_some, Option.map_some]
          · refine hinv.of_owned hstreaming rfl rfl (hmoved.avail_eq hinv.avail) hsame
              (howned.of_perm ?_ hsame.startBufs rfl rfl)
            unfold VideoState.owned
            simp only [VideoState.setPhase, RxPhase.held, List.append_nil]
            exact hmoved.perm_withPending.trans hheld.symm
      | false =>
          refine ⟨{ (s.setPhase (.advance next rxTail) s.zvideo).setVbState buf
            .VB2_BUF_STATE_DONE with doneList := s.doneList ++ [buf] }, ?_, ?_,
            .good hphase hsync⟩
          · simp only [videoStep, VideoState.rxJudge, hphase, hsync, Bool.false_eq_true,
              if_false, Option.bind_some]
          · refine hinv.of_owned hstreaming rfl rfl hinv.avail ⟨⟨rfl, rfl, rfl, rfl, rfl⟩,
              rfl, rfl, rfl⟩ (howned.finish ?_ rfl rfl rfl)
            unfold VideoState.owned
            simp only [VideoState.setPhase, VideoState.setVbState, RxPhase.held,
              List.append_nil]
            exact hheld
  | _ => exact stepKept_same hinv (by simp only [videoStep, VideoState.rxJudge, hphase])

theorem stepKept_rxAdvance (hinv : VideoInv cfg s) : StepKept cfg s .rxAdvance := by
  cases hphase : s.phase with
  | advance rxOff rxTail =>
      have hstreaming := streaming_of_phase hinv (by rw [hphase]; exact nofun)
      refine ⟨s.setPhase (s.zvideo.rxAdvance rxOff rxTail).1
        (s.zvideo.rxAdvance rxOff rxTail).2, ?_, ?_, .advanced hphase⟩
      · simp only [videoStep, hphase]
      · refine hinv.of_lists rfl rfl rfl rfl rfl ⟨⟨rfl, rfl, rfl, rfl, rfl⟩, rfl, rfl, rfl⟩
          rfl rfl rfl ?_ fun hoff => ?_
        · rw [hphase]
          change (if _ then _ else _ : RxPhase).held = []
          split <;> rfl
        · exact absurd (hstreaming.symm.trans hoff) (by decide)
  | _ => exact stepKept_same hinv (by simp only [videoStep, hphase])

theorem ZynqVideo.zvideoReset_sameStream (z : ZynqVideo) :
    SameStream z (z.zvideoReset cfg) := by
  unfold zvideoReset
  split
  · exact ⟨⟨rfl, rfl, rfl, rfl, rfl⟩, rfl, rfl, rfl⟩
  · exact .refl z

theorem ZynqVideo.zvideoReset_lists (cfg : VideoConfig) (z : ZynqVideo) :
    (z.zvideoReset cfg).bufAvail = z.bufAvail ∧
      (z.zvideoReset cfg).bufList = z.bufList ∧
      (z.zvideoReset cfg).pendingList = z.pendingList := by
  unfold zvideoReset
  split
  · exact ⟨rfl, rfl, rfl⟩
  · exact ⟨rfl, rfl, rfl⟩

theorem stepKept_reset (hinv : VideoInv cfg s) : StepKept cfg s .reset := by
  cases hphase : s.phase with
  | idle =>
      refine ⟨s.setPhase s.phase (s.zvideo.zvideoReset cfg), ?_, ?_, .reset hphase⟩
      · simp only [videoStep, hphase]
      · obtain ⟨havail, hbufs, hpending⟩ := ZynqVideo.zvideoReset_lists cfg s.zvideo
        exact hinv.of_lists rfl rfl rfl rfl rfl s.zvideo.zvideoReset_sameStream havail hbufs
          hpending rfl fun _ => rfl
  | _ => exact stepKept_same hinv (by simp only [videoStep, hphase])

theorem videoStep_kept {event : VideoEvent} (hinv : VideoInv cfg s)
    (hok : VideoOk cfg s event) : StepKept cfg s event := by
  cases event with
  | qbuf => exact stepKept_qbuf hinv hok
  | dqbuf => exact stepKept_dqbuf hinv
  | streamon => exact stepKept_streamon hinv hok
  | streamoff => exact stepKept_streamoff hinv
  | hwTail => exact stepKept_hwTail hinv
  | rxBegin => exact stepKept_rxBegin hinv
  | rxFind => exact stepKept_rxFind hinv
  | rxJudge corrupted => exact stepKept_rxJudge corrupted hinv
  | rxAdvance => exact stepKept_rxAdvance hinv
  | reset => exact stepKept_reset hinv

end Steps

def InitCall.succeeds : InitCall := ⟨true, fun _ => false⟩

end ApolloContrib.Video
