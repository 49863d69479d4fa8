import ApolloContrib.Library.Window
import ApolloContrib.Video.Buffers

namespace ApolloContrib.Video

open ApolloContrib.Chan ApolloContrib.Library

/-! The hardware writes only into buffers that the driver owns. -/

/-- The hardware tail moves by whole frames, and never past the published head. -/
def HardwareOk (cfg : VideoConfig) (s : VideoState) : VideoEvent → Prop
  | .hwTail tailReg frames =>
      s.zvideo.streaming = true →
        s.zvideo.hwWritten + frames ≤ s.zvideo.hwPublished ∧
        (s.setTail tailReg frames).zvideo.rxTail =
          (s.zvideo.rxTail + frames * cfg.frame) % s.zvideo.zchanRx.zchanRxSize
  | _ => True

instance (cfg : VideoConfig) (s : VideoState) :
    ∀ event, Decidable (HardwareOk cfg s event)
  | .hwTail _ _ => inferInstanceAs (Decidable (_ → _ ∧ _))
  | .qbuf _ _ | .dqbuf | .streamon _ | .streamoff | .rxBegin | .rxFind | .rxJudge _
  | .rxAdvance | .reset => isTrue trivial

/-- The offset of the first frame whose buffer has not been taken off `buf_list`:
the global offset, or the one behind while a frame is in hand. -/
def VideoState.nextOff (cfg : VideoConfig) (s : VideoState) : Nat :=
  match s.phase with
  | .sync .. | .advance .. => s.zvideo.zchanRx.wrap (s.zvideo.zchanRx.zchanRxOff + cfg.frame)
  | _ => s.zvideo.zchanRx.zchanRxOff

/-- The buffers on `buf_list` are those of the frames from the next one to the
published head, the receive path finds the buffer it looks for, and each page that
the hardware may write is one of a buffer on `buf_list`. -/
structure OwnershipOk (cfg : VideoConfig) (s : VideoState) : Prop where
  window : (s.zvideo.bufList.map s.zvideo.offset).Perm
    ((List.range s.zvideo.bufAvail).map fun k =>
      (s.nextOff cfg + k * cfg.frame) % s.zvideo.zchanRx.zchanRxSize)
  head : (s.nextOff cfg + s.zvideo.bufAvail * cfg.frame) % s.zvideo.zchanRx.zchanRxSize =
    s.zvideo.zchanRx.zchanRxHead
  pending : ∀ buf ∈ s.zvideo.pendingList,
    s.zvideo.offset buf = s.zvideo.zchanRx.zchanRxHead → s.zvideo.bufAvail = s.zvideo.bufTotal
  found : ∀ rxOff rxTail, s.phase = .find rxOff rxTail → rxOff ≠ rxTail ∧
    ∃ buf, (s.zvideo.rxFind rxOff rxTail).1 = .sync rxOff rxTail buf
  writable : ∀ k, s.zvideo.hwWritten ≤ k → k < s.zvideo.hwPublished →
    ∀ i, i < cfg.pages → ∃ buf ∈ s.zvideo.bufList,
      buf ∉ s.zvideo.pendingList ∧ s.vbState buf = .VB2_BUF_STATE_ACTIVE ∧
        s.zvideo.hwPage (k * cfg.frame % s.zvideo.zchanRx.zchanRxSize +
          i * ZCHAN_BUF_SIZE) = some ⟨buf, i⟩

def HardwareContained (cfg : VideoConfig) (s : VideoState) : Prop :=
  s.zvideo.streaming = true → OwnershipOk cfg s

def ZynqVideo.frameOff (cfg : VideoConfig) (z : ZynqVideo) (k : Nat) : Nat :=
  slotAt z.startBufs.length cfg.frame k

def ZynqVideo.taken (z : ZynqVideo) : RxPhase → Nat
  | .sync .. | .advance .. => z.rxFrames + 1
  | _ => z.rxFrames

/-- The tail that a run of the receive path goes up to: it is ahead of the frames
received, at a frame that is written. -/
def TailAhead (cfg : VideoConfig) (z : ZynqVideo) (rxTail : Nat) : Prop :=
  ∃ upto, z.rxFrames < upto ∧ upto < z.rxFrames + z.startBufs.length ∧
    upto ≤ z.hwWritten ∧ rxTail = z.frameOff cfg upto

def PhaseOk (cfg : VideoConfig) (z : ZynqVideo) : RxPhase → Prop
  | .idle => True
  | .find rxOff rxTail | .sync rxOff rxTail _ =>
      rxOff = z.frameOff cfg z.rxFrames ∧ TailAhead cfg z rxTail
  | .advance rxOff rxTail =>
      z.zchanRx.wrap (ALIGN rxOff z.zchanRxBufsz) = z.frameOff cfg (z.rxFrames + 1) ∧
        TailAhead cfg z rxTail

/-- The buffers on `buf_list` are those of the frames that are neither taken nor
past the published head. -/
structure Published (cfg : VideoConfig) (z : ZynqVideo) (taken : Nat) : Prop where
  window : Window z.startBufs.length cfg.frame (z.bufList.map z.offset) taken z.hwPublished
  head : z.zchanRx.zchanRxHead = z.frameOff cfg z.hwPublished

structure OwnershipInv (cfg : VideoConfig) (z : ZynqVideo) (phase : RxPhase) : Prop where
  published : Published cfg z (z.taken phase)
  taken_le : z.taken phase ≤ z.hwWritten
  written_le : z.hwWritten ≤ z.hwPublished
  off : z.zchanRx.zchanRxOff = z.frameOff cfg z.rxFrames
  tail : z.rxTail = z.frameOff cfg z.hwWritten
  pending : z.pendingAtHead = none
  phase : PhaseOk cfg z phase

section Offsets

variable {cfg : VideoConfig} {z : ZynqVideo}

theorem TableMaps.wrap_frameOff (htables : TableMaps cfg z z.startBufs)
    (hpos : 0 < z.startBufs.length) (k : Nat) :
    z.zchanRx.wrap (z.frameOff cfg k + cfg.frame) = z.frameOff cfg (k + 1) := by
  unfold ZchanRxTbl.wrap
  rw [htables.size]
  exact slotAt_succ hpos k

theorem TableMaps.frameOff_add (htables : TableMaps cfg z z.startBufs) (k j : Nat) :
    (z.frameOff cfg k + j * cfg.frame) % z.zchanRx.zchanRxSize = z.frameOff cfg (k + j) := by
  rw [htables.size]
  exact slotAt_add k j

theorem TableMaps.frameSize_eq (htables : TableMaps cfg z z.startBufs) :
    z.frameSize cfg = cfg.frame := by
  unfold ZynqVideo.frameSize
  rw [htables.bufsz]
  exact cfg.align_sizeimage

theorem frameOff_inj {j k : Nat} (hle : k ≤ j) (hless : j < k + z.startBufs.length)
    (heq : z.frameOff cfg j = z.frameOff cfg k) : j = k :=
  slotAt_inj cfg.frame_pos hle hless heq

theorem frame_of_offset {j k size : Nat} (hsize : size < cfg.frame)
    (heq : z.frameOff cfg k + size = z.frameOff cfg j) :
    z.frameOff cfg j = z.frameOff cfg k := by
  have hmod := congrArg (· % cfg.frame) heq
  simp only [ZynqVideo.frameOff, slotAt, Nat.mul_add_mod_self_right, Nat.mul_mod_left,
    Nat.mod_eq_of_lt hsize] at hmod
  rw [← heq, hmod, Nat.add_zero]

theorem wrap_align_frameOff (htables : TableMaps cfg z z.startBufs)
    (hpos : 0 < z.startBufs.length) (k : Nat) :
    z.zchanRx.wrap (ALIGN (z.zchanRx.wrap (z.frameOff cfg k + cfg.sizeimage))
      z.zchanRxBufsz) = z.frameOff cfg (k + 1) := by
  have hroom : z.frameOff cfg k + cfg.frame ≤ z.startBufs.length * cfg.frame :=
    slotAt_add_le hpos k
  have hle := cfg.sizeimage_le_frame
  rw [← htables.wrap_frameOff hpos, htables.bufsz]
  unfold ZchanRxTbl.wrap
  rw [htables.size]
  by_cases hend : z.frameOff cfg k + cfg.sizeimage ≥ z.startBufs.length * cfg.frame
  · -- The data fill the last frame of the table.
    have hdata : z.frameOff cfg k + cfg.sizeimage - z.startBufs.length * cfg.frame = 0 := by
      omega
    have hfull : z.frameOff cfg k + cfg.frame - z.startBufs.length * cfg.frame = 0 := by
      omega
    have hzero : ALIGN 0 ZCHAN_BUF_SIZE = 0 := by decide
    have hsize : 0 < z.startBufs.length * cfg.frame := Nat.mul_pos hpos cfg.frame_pos
    rw [if_pos hend, hdata, hzero, if_neg (not_le.mpr hsize), if_pos (by omega), hfull]
  · have halign : ALIGN (z.frameOff cfg k + cfg.sizeimage) ZCHAN_BUF_SIZE =
        z.frameOff cfg k + cfg.frame := by
      have hoff : z.frameOff cfg k = k % z.startBufs.length * cfg.pages * ZCHAN_BUF_SIZE :=
        (Nat.mul_assoc _ _ _).symm
      rw [hoff, ALIGN_add _ _ _ (by decide), cfg.align_sizeimage]
    rw [if_neg hend, halign]

end Offsets

section Steps

variable {cfg : VideoConfig} {s : VideoState} {z z' : ZynqVideo}

structure SameFrames (z z' : ZynqVideo) : Prop where
  rxFrames : z'.rxFrames = z.rxFrames
  hwWritten : z'.hwWritten = z.hwWritten
  rxTailReg : z'.rxTailReg = z.rxTailReg
  rxOff : z'.zchanRx.zchanRxOff = z.zchanRx.zchanRxOff

theorem ListsMoved.sameFrames (hmoved : ListsMoved z z') : SameFrames z z' := by
  refine ⟨?_, ?_, ?_, ?_⟩
  all_goals
    rw [hmoved.frame]

theorem SameStream.frameOff (hsame : SameStream z z') (k : Nat) :
    z'.frameOff cfg k = z.frameOff cfg k := by
  unfold ZynqVideo.frameOff
  rw [hsame.startBufs]

theorem TableMaps.of_sameStream (htables : TableMaps cfg z z.startBufs)
    (hsame : SameStream z z') : TableMaps cfg z' z'.startBufs := by
  rw [hsame.startBufs]
  exact htables.of_same hsame.tables

theorem TailAhead.of_same {rxTail : Nat} (hahead : TailAhead cfg z rxTail)
    (hsame : SameStream z z') (hrx : z'.rxFrames = z.rxFrames)
    (hwritten : z.hwWritten ≤ z'.hwWritten) : TailAhead cfg z' rxTail := by
  obtain ⟨upto, hfrom, hround, hle, htail⟩ := hahead
  refine ⟨upto, ?_, ?_, hle.trans hwritten, ?_⟩
  · rw [hrx]
    exact hfrom
  · rw [hrx, hsame.startBufs]
    exact hround
  · rw [hsame.frameOff]
    exact htail

theorem PhaseOk.of_same {phase : RxPhase} (hphase : PhaseOk cfg z phase)
    (hsame : SameStream z z') (hrx : z'.rxFrames = z.rxFrames)
    (hwritten : z.hwWritten ≤ z'.hwWritten) : PhaseOk cfg z' phase := by
  cases phase with
  | idle => trivial
  | find rxOff rxTail =>
      obtain ⟨hoff, hahead⟩ := hphase
      refine ⟨?_, hahead.of_same hsame hrx hwritten⟩
      rw [hsame.frameOff, hrx]
      exact hoff
  | sync rxOff rxTail buf =>
      obtain ⟨hoff, hahead⟩ := hphase
      refine ⟨?_, hahead.of_same hsame hrx hwritten⟩
      rw [hsame.frameOff, hrx]
      exact hoff
  | advance rxOff rxTail =>
      obtain ⟨hoff, hahead⟩ := hphase
      refine ⟨?_, hahead.of_same hsame hrx hwritten⟩
      unfold ZchanRxTbl.wrap
      rw [hsame.tables.bufsz, hsame.tables.size, hsame.frameOff, hrx]
      exact hoff

theorem Published.move {taken : Nat} (htables : TableMaps cfg z z.startBufs)
    (hpos : 0 < z.startBufs.length) (hpublished : Published cfg z taken)
    (hround : ZynqVideo.MoveRound cfg z z') :
    Published cfg z' taken ∧ z'.hwPublished = z.hwPublished + 1 := by
  obtain ⟨hcond, rfl⟩ := hround
  obtain ⟨buf, hfound⟩ := Option.isSome_iff_exists.mp hcond
  have hoff := (ZynqVideo.pendingAtHead_eq_some hfound).2
  rw [ZynqVideo.movePending_of_found hfound]
  refine ⟨⟨?_, ?_⟩, rfl⟩
  · have hwindow := hpublished.window.publish
    have hslot : slotAt z.startBufs.length cfg.frame z.hwPublished = z.offset buf :=
      hpublished.head.symm.trans hoff.symm
    rw [hslot] at hwindow
    dsimp only
    rw [List.map_append]
    exact hwindow
  · dsimp only
    rw [htables.frameSize_eq, hpublished.head]
    exact htables.wrap_frameOff hpos z.hwPublished

theorem Published.rounds {taken : Nat} (htables : TableMaps cfg z z.startBufs)
    (hpos : 0 < z.startBufs.length) (hpublished : Published cfg z taken)
    (hrounds : Relation.ReflTransGen (ZynqVideo.MoveRound cfg) z z') :
    Published cfg z' taken ∧ z.hwPublished ≤ z'.hwPublished := by
  induction hrounds with
  | refl => exact ⟨hpublished, le_rfl⟩
  | tail hrounds hround ih =>
      have hsame := (ZynqVideo.listsMoved_of_rounds hrounds).sameStream
      obtain ⟨hmiddle, hle⟩ := ih
      have hposMiddle := hpos
      rw [← hsame.startBufs] at hposMiddle
      obtain ⟨hlast, hone⟩ := hmiddle.move (htables.of_sameStream hsame) hposMiddle hround
      exact ⟨hlast, by omega⟩

/-- A buffer put on the pending list, and the check, keep the invariant whatever
the phase goes on to. -/
theorem OwnershipInv.checked {phase next : RxPhase} {buf : Nat}
    (hinv : OwnershipInv cfg z phase) (htables : TableMaps cfg z z.startBufs)
    (hpos : 0 < z.startBufs.length)
    (hchecked : ZynqVideo.Checked cfg (z.withPending buf) z')
    (htaken : z.taken next = z.taken phase) (hnext : PhaseOk cfg z next) :
    OwnershipInv cfg z' next := by
  have hmoved := ZynqVideo.listsMoved_of_rounds hchecked.rounds
  have hstream := hmoved.sameStream_withPending
  have hframes : SameFrames (z.withPending buf) z' := hmoved.sameFrames
  have hstart : Published cfg (z.withPending buf) (z.taken phase) :=
    ⟨hinv.published.window, hinv.published.head⟩
  have hwith : TableMaps cfg (z.withPending buf) (z.withPending buf).startBufs :=
    htables.of_same ⟨rfl, rfl, rfl, rfl, rfl⟩
  obtain ⟨hpublished, hle⟩ := hstart.rounds hwith hpos hchecked.rounds
  have hrx : z'.rxFrames = z.rxFrames := hframes.rxFrames
  have hwritten : z'.hwWritten = z.hwWritten := hframes.hwWritten
  have htaken' : z'.taken next = z.taken phase := by
    rw [← htaken]
    unfold ZynqVideo.taken
    rw [hrx]
  refine ⟨?_, ?_, ?_, ?_, ?_, hchecked.done, hnext.of_same hstream hrx hwritten.ge⟩
  · rw [htaken']
    exact hpublished
  · rw [htaken', hwritten]
    exact hinv.taken_le
  · rw [hwritten]
    exact hinv.written_le.trans hle
  · rw [hframes.rxOff, hstream.frameOff, hrx]
    exact hinv.off
  · unfold ZynqVideo.rxTail
    rw [hframes.rxTailReg, hstream.frameOff, hwritten]
    exact hinv.tail

/-- Syncing the frame at hand does not stop before its end, for the tail is at
the start of another frame. -/
theorem rxSync_frame (htables : TableMaps cfg z z.startBufs) {rxOff rxTail next : Nat}
    (hrxOff : rxOff = z.frameOff cfg z.rxFrames) (hahead : TailAhead cfg z rxTail)
    (hsync : z.rxSync cfg rxOff rxTail = some next) :
    z.zchanRx.wrap (ALIGN next z.zchanRxBufsz) = z.frameOff cfg (z.rxFrames + 1) := by
  obtain ⟨upto, hfrom, hround, _, htail⟩ := hahead
  have hpos : 0 < z.startBufs.length := by omega
  have hroom : rxOff + cfg.frame ≤ z.zchanRx.zchanRxSize := by
    rw [htables.size, hrxOff]
    exact slotAt_add_le hpos _
  have hle := cfg.sizeimage_le_frame
  have hframe := cfg.frame_pos
  have hinside (size : Nat) (hsize : size < cfg.sizeimage) :
      z.zchanRx.wrap (rxOff + size) = rxOff + size := by
    unfold ZchanRxTbl.wrap
    rw [if_neg (by omega)]
  -- The offset is always that many bytes behind the start of the frame.
  have hrounds (l : SyncLoop)
      (hl : l.rxOff = z.zchanRx.wrap (rxOff + l.size) ∧ l.size + l.memsz = cfg.sizeimage)
      (_ : l.rxOff ≠ rxTail) (hmemsz : 0 < l.memsz) :
      (z.syncRound rxTail l).rxOff = z.zchanRx.wrap (rxOff + (z.syncRound rxTail l).size) ∧
        (z.syncRound rxTail l).size + (z.syncRound rxTail l).memsz = cfg.sizeimage := by
    obtain ⟨hoff, hsum⟩ := hl
    have hlen := z.syncLen_le rxTail l
    refine ⟨?_, ?_⟩
    · change z.zchanRx.wrap (l.rxOff + z.syncLen rxTail l) =
        z.zchanRx.wrap (rxOff + (l.size + z.syncLen rxTail l))
      rw [hoff, hinside l.size (by omega), Nat.add_assoc]
    · change l.size + z.syncLen rxTail l + (l.memsz - z.syncLen rxTail l) = cfg.sizeimage
      omega
  have hstart : rxOff = z.zchanRx.wrap (rxOff + 0) ∧ 0 + cfg.sizeimage = cfg.sizeimage :=
    ⟨(hinside 0 cfg.sizeimage_pos).symm, Nat.zero_add _⟩
  obtain ⟨l, ⟨hoff, hsum⟩, hend, hnext⟩ :=
    ZynqVideo.rxSync_total htables.bufsz htables.bufMask hrounds hstart
  have hdone : l.memsz = 0 := by
    rcases Nat.eq_zero_or_pos l.memsz with hzero | hmemsz
    · exact hzero
    · rcases hend with htailOff | hzero | hsize
      · rw [hoff, hinside l.size (by omega), htail, hrxOff] at htailOff
        have hslot := frame_of_offset (by omega) htailOff
        have hsame := frameOff_inj hfrom.le hround hslot
        omega
      · exact hzero
      · omega
  have hsize : l.size = cfg.sizeimage := by omega
  rw [hnext, if_neg (by omega)] at hsync
  cases hsync
  rw [hoff, hsize, hrxOff]
  exact wrap_align_frameOff htables hpos _

theorem TableMaps.map_offset {bufs : List Nat} (htables : TableMaps cfg z bufs) :
    bufs.map z.offset = (List.range bufs.length).map (· * cfg.frame) := by
  refine List.ext_getElem (by simp) fun k hk _ => ?_
  rw [List.length_map] at hk
  simp only [List.getElem_map, List.getElem_range]
  exact htables.offset k hk

theorem ownershipInv_channel (htables : TableMaps cfg z z.startBufs)
    (hchannel : z.zchanRxStart cfg = z) (hbufs : z.bufList.Perm z.startBufs)
    (hpending : z.pendingList = []) : OwnershipInv cfg z .idle := by
  have hframes : z.rxFrames = 0 := (congrArg ZynqVideo.rxFrames hchannel).symm
  have hwritten : z.hwWritten = 0 := (congrArg ZynqVideo.hwWritten hchannel).symm
  have hhead : z.zchanRx.zchanRxHead = 0 :=
    (congrArg (fun z => z.zchanRx.zchanRxHead) hchannel).symm
  have hoff : z.zchanRx.zchanRxOff = 0 :=
    (congrArg (fun z => z.zchanRx.zchanRxOff) hchannel).symm
  have hreg : z.rxTailReg = 0 := (congrArg ZynqVideo.rxTailReg hchannel).symm
  have hpublished : z.hwPublished = z.startBufs.length := by
    have hroom : z.hwPublished = z.zchanRx.zchanRxSize / z.frameSize cfg :=
      (congrArg ZynqVideo.hwPublished hchannel).symm
    rw [hroom, htables.size, htables.frameSize_eq]
    exact Nat.mul_div_cancel _ cfg.frame_pos
  have hzero : z.frameOff cfg 0 = 0 := by
    unfold ZynqVideo.frameOff slotAt
    rw [Nat.zero_mod, Nat.zero_mul]
  refine ⟨⟨?_, ?_⟩, ?_, ?_, ?_, ?_, ?_, trivial⟩
  · change Window _ _ _ z.rxFrames _
    rw [hframes, hpublished]
    refine Window.full ((hbufs.map _).trans ?_)
    rw [htables.map_offset]
  · rw [hhead, hpublished]
    exact (slotAt_self _ _).symm
  · change z.rxFrames ≤ _
    rw [hframes]
    exact Nat.zero_le _
  · rw [hwritten]
    exact Nat.zero_le _
  · rw [hoff, hframes, hzero]
  · unfold ZynqVideo.rxTail
    rw [hreg, hwritten, hzero]
    rfl
  · unfold ZynqVideo.pendingAtHead
    rw [hpending]
    rfl

theorem Running.all_avail (hrunning : Running cfg s)
    (havail : s.zvideo.bufAvail = s.zvideo.bufList.length)
    (hall : s.zvideo.bufAvail = s.zvideo.bufTotal) :
    s.zvideo.bufList.Perm s.zvideo.startBufs ∧ s.zvideo.pendingList = [] := by
  have howned := hrunning.owned
  have hsub : s.owned.Subperm s.zvideo.startBufs :=
    howned.nodup.subperm fun buf hbuf => howned.started buf hbuf
  have hbufs : s.zvideo.bufList.Subperm s.zvideo.startBufs := by
    refine List.Subperm.trans (List.Sublist.subperm ?_) hsub
    exact (List.sublist_append_left _ _).trans (List.sublist_append_left _ _)
  have hlen : s.zvideo.startBufs.length = s.zvideo.bufList.length := by
    rw [← havail, hall, hrunning.total]
  refine ⟨hbufs.perm_of_length_le hlen.le, List.length_eq_zero_iff.mp ?_⟩
  have hcount := hsub.length_le
  unfold VideoState.owned at hcount
  rw [List.length_append, List.length_append] at hcount
  omega

theorem Published.hwPublished_le (hrunning : Running cfg s) {taken : Nat}
    (hpublished : Published cfg s.zvideo taken) :
    s.zvideo.hwPublished ≤ taken + s.zvideo.startBufs.length := by
  have hlen := hpublished.window.length_eq
  have hle := hrunning.length_bufList_le
  rw [List.length_map] at hlen
  rw [hrunning.total] at hle
  omega

theorem OwnershipInv.begun (hrunning : Running cfg s)
    (hinv : OwnershipInv cfg s.zvideo .idle) :
    OwnershipInv cfg s.zvideo (s.zvideo.rxBegin cfg) := by
  have hphase : s.zvideo.rxBegin cfg = .idle ∨
      s.zvideo.rxBegin cfg = .find s.zvideo.zchanRx.zchanRxOff s.zvideo.rxTail ∧
        s.zvideo.zchanRx.zchanRxOff ≠ s.zvideo.rxTail := by
    unfold ZynqVideo.rxBegin
    split
    · exact Or.inl rfl
    · split
      · exact Or.inl rfl
      · split
        · exact Or.inl rfl
        next hne => exact Or.inr ⟨rfl, hne⟩
  rcases hphase with hidle | ⟨hfind, hne⟩
  · rw [hidle]
    exact hinv
  · rw [hfind]
    have hround := hinv.published.hwPublished_le hrunning
    have htaken : s.zvideo.rxFrames ≤ s.zvideo.hwWritten := hinv.taken_le
    have hwritten := hinv.written_le
    change s.zvideo.hwPublished ≤ s.zvideo.rxFrames + _ at hround
    rw [hinv.off, hinv.tail] at hne
    have hstart : s.zvideo.rxFrames ≠ s.zvideo.hwWritten := fun heq => hne (by rw [heq])
    have hend : s.zvideo.hwWritten ≠ s.zvideo.rxFrames + s.zvideo.startBufs.length := by
      intro heq
      apply hne
      unfold ZynqVideo.frameOff slotAt
      rw [heq, Nat.add_mod_right]
    exact ⟨hinv.published, hinv.taken_le, hinv.written_le, hinv.off, hinv.tail, hinv.pending,
      hinv.off, s.zvideo.hwWritten, by omega, by omega, le_rfl, hinv.tail⟩

theorem OwnershipInv.find_buf {rxOff rxTail : Nat} (hrunning : s.zvideo.streaming = true)
    (hinv : OwnershipInv cfg s.zvideo (.find rxOff rxTail)) :
    ∃ buf, buf ∈ s.zvideo.bufList ∧ s.zvideo.offset buf = rxOff ∧
      s.zvideo.rxFind rxOff rxTail =
        (.sync rxOff rxTail buf,
          { s.zvideo with
            bufList := s.zvideo.bufList.erase buf
            bufAvail := s.zvideo.bufAvail - 1 }) := by
  obtain ⟨hoff, upto, hfrom, _, hle, _⟩ := hinv.phase
  have hwritten := hinv.written_le
  have hmem := hinv.published.window.mem (k := s.zvideo.rxFrames) le_rfl (by omega)
  obtain ⟨buf, hbuf, hslot⟩ := List.mem_map.mp hmem
  have hfirst : s.zvideo.offset buf = rxOff := hslot.trans hoff.symm
  cases hfound : s.zvideo.bufList.find? fun cur => s.zvideo.offset cur == rxOff with
  | none =>
      have hnone := List.find?_eq_none.mp hfound buf hbuf
      exact absurd (beq_iff_eq.mpr hfirst) hnone
  | some cur =>
      have hcur := List.find?_some hfound
      exact ⟨cur, List.mem_of_find?_eq_some hfound, beq_iff_eq.mp hcur,
        ZynqVideo.rxFind_of_found hrunning hfound⟩

theorem OwnershipInv.found {rxOff rxTail : Nat} (hstreaming : s.zvideo.streaming = true)
    (hinv : OwnershipInv cfg s.zvideo (.find rxOff rxTail)) :
    OwnershipInv cfg (s.zvideo.rxFind rxOff rxTail).2
      (s.zvideo.rxFind rxOff rxTail).1 := by
  obtain ⟨buf, hbuf, hslot, hfind⟩ := hinv.find_buf hstreaming
  obtain ⟨hoff, upto, hfrom, hround, hle, htail⟩ := hinv.phase
  rw [hfind]
  refine ⟨⟨?_, hinv.published.head⟩, ?_, hinv.written_le, hinv.off, hinv.tail, hinv.pending,
    hoff, upto, hfrom, hround, hle, htail⟩
  · refine hinv.published.window.take (hfrom.trans_le (hle.trans hinv.written_le)) ?_
    · have hperm := (List.perm_cons_erase hbuf).map s.zvideo.offset
      rw [List.map_cons, hslot, hoff] at hperm
      exact hperm
  · exact hfrom.trans_le hle

theorem OwnershipInv.advanced {rxOff rxTail : Nat}
    (hinv : OwnershipInv cfg s.zvideo (.advance rxOff rxTail)) :
    OwnershipInv cfg (s.zvideo.rxAdvance rxOff rxTail).2
      (s.zvideo.rxAdvance rxOff rxTail).1 := by
  obtain ⟨hoff, upto, hfrom, hround, hle, htail⟩ := hinv.phase
  have hphase : PhaseOk cfg (s.zvideo.rxAdvance rxOff rxTail).2
      (s.zvideo.rxAdvance rxOff rxTail).1 := by
    unfold ZynqVideo.rxAdvance
    dsimp only
    split
    next hmore =>
      refine ⟨hoff, upto, ?_, ?_, hle, htail⟩
      · change s.zvideo.rxFrames + 1 < upto
        have hne : upto ≠ s.zvideo.rxFrames + 1 := by
          rintro rfl
          exact hmore (hoff.trans htail.symm)
        omega
      · change upto < s.zvideo.rxFrames + 1 + s.zvideo.startBufs.length
        omega
    · trivial
  have htaken : (s.zvideo.rxAdvance rxOff rxTail).2.taken
      (s.zvideo.rxAdvance rxOff rxTail).1 = s.zvideo.rxFrames + 1 := by
    unfold ZynqVideo.rxAdvance
    dsimp only
    split <;> rfl
  refine ⟨⟨?_, hinv.published.head⟩, ?_, hinv.written_le, hoff, hinv.tail, hinv.pending,
    hphase⟩
  · rw [htaken]
    exact hinv.published.window
  · rw [htaken]
    exact hinv.taken_le

theorem OwnershipInv.effect {event : VideoEvent} {phase : RxPhase} (hinv : VideoInv cfg s)
    (hheld : s.zvideo.streaming = true → OwnershipInv cfg s.zvideo s.phase)
    (hok : HardwareOk cfg s event) (heffect : DriverEffect cfg s event phase z)
    (hstreaming : z.streaming = true) : OwnershipInv cfg z phase := by
  cases heffect with
  | stopped hoff => exact absurd (hstreaming.symm.trans hoff) (by decide)
  | same => exact hheld hstreaming
  | started hphase hdriver hnodup hpending =>
      rw [hphase]
      have hbufs : z.bufList.Perm z.startBufs := by
        rw [hdriver.bufList, hdriver.startBufs]
      refine ownershipInv_channel ?_ hdriver.channel hbufs (hdriver.pendingList.trans hpending)
      rw [hdriver.startBufs]
      exact hdriver.tables
  | queued hbuf hchecked =>
      have hsame := (ZynqVideo.listsMoved_of_rounds hchecked.rounds).sameStream_withPending
      have hon := hsame.streaming.symm.trans hstreaming
      have hown := hheld hon
      exact hown.checked (hinv.running hon).tables (List.length_pos_of_mem hbuf) hchecked rfl
        hown.phase
  | tail =>
      have hown := hheld hstreaming
      obtain ⟨hpublished, htail⟩ := hok hstreaming
      refine ⟨⟨hown.published.window, hown.published.head⟩, ?_, hpublished, hown.off, ?_,
        hown.pending, hown.phase.of_same ⟨⟨rfl, rfl, rfl, rfl, rfl⟩, rfl, rfl, rfl⟩ rfl ?_⟩
      · exact hown.taken_le.trans (Nat.le_add_right _ _)
      · rw [htail, hown.tail]
        exact (hinv.running hstreaming).tables.frameOff_add _ _
      · exact Nat.le_add_right _ _
  | begun hphase =>
      have hown := hheld hstreaming
      rw [hphase] at hown
      exact hown.begun (hinv.running hstreaming)
  | found hphase =>
      have hon := streaming_of_phase hinv (by rw [hphase]; exact nofun)
      have hown := hheld hon
      rw [hphase] at hown
      exact hown.found hon
  | good hphase hsync =>
      have hown := hheld hstreaming
      rw [hphase] at hown
      obtain ⟨hoff, hahead⟩ := hown.phase
      exact ⟨hown.published, hown.taken_le, hown.written_le, hown.off, hown.tail, hown.pending,
        rxSync_frame (hinv.running hstreaming).tables hoff hahead hsync, hahead⟩
  | discarded hphase hsync hchecked =>
      have hon := streaming_of_phase hinv (by rw [hphase]; exact nofun)
      have hown := hheld hon
      rw [hphase] at hown
      obtain ⟨hoff, hahead⟩ := hown.phase
      have htables := (hinv.running hon).tables
      have hpos : 0 < s.zvideo.startBufs.length := by
        obtain ⟨upto, hfrom, hround, _⟩ := hahead
        omega
      exact hown.checked htables hpos hchecked rfl
        ⟨rxSync_frame htables hoff hahead hsync, hahead⟩
  | advanced hphase =>
      have hon := streaming_of_phase hinv (by rw [hphase]; exact nofun)
      have hown := hheld hon
      rw [hphase] at hown
      exact hown.advanced
  | reset hphase =>
      have hsame : SameStream s.zvideo (s.zvideo.zvideoReset cfg) :=
        s.zvideo.zvideoReset_sameStream
      have hon := hsame.streaming.symm.trans hstreaming
      have hrunning := hinv.running hon
      rw [hphase]
      have hown := hheld hon
      rw [hphase] at hown
      unfold ZynqVideo.zvideoReset
      split
      next hall =>
        obtain ⟨hbufs, hpending⟩ := hrunning.all_avail hinv.avail hall.2
        exact ownershipInv_channel (hrunning.tables.of_same ⟨rfl, rfl, rfl, rfl, rfl⟩) rfl
          hbufs hpending
      · exact hown

end Steps

section Runs

variable {cfg : VideoConfig} {s : VideoState}

structure ContainedInv (cfg : VideoConfig) (s : VideoState) : Prop where
  video : VideoInv cfg s
  ownership : s.zvideo.streaming = true → OwnershipInv cfg s.zvideo s.phase

theorem containedInv_init (cfg : VideoConfig) : ContainedInv cfg VideoState.init :=
  ⟨videoInv_init cfg, nofun⟩

theorem containedInv_step {event : VideoEvent} (hinv : ContainedInv cfg s)
    (hok : VideoOk cfg s event ∧ HardwareOk cfg s event) :
    ∃ next, videoStep cfg s event = some next ∧ ContainedInv cfg next := by
  obtain ⟨hvideo, hhardware⟩ := hok
  obtain ⟨next, hstep, hnext, heffect⟩ := videoStep_kept hinv.video hvideo
  exact ⟨next, hstep, hnext, fun hstreaming =>
    OwnershipInv.effect hinv.video hinv.ownership hhardware heffect hstreaming⟩

theorem OwnershipInv.nextOff_eq (htables : TableMaps cfg s.zvideo s.zvideo.startBufs)
    (hown : OwnershipInv cfg s.zvideo s.phase) :
    s.nextOff cfg = s.zvideo.frameOff cfg (s.zvideo.taken s.phase) := by
  have hoff := hown.off
  have hphase := hown.phase
  unfold VideoState.nextOff ZynqVideo.taken
  cases hcase : s.phase with
  | idle => exact hoff
  | find rxOff rxTail => exact hoff
  | sync rxOff rxTail buf =>
      rw [hcase] at hphase
      obtain ⟨_, upto, hfrom, hround, _⟩ := hphase
      dsimp only
      rw [hoff]
      exact htables.wrap_frameOff (by omega) _
  | advance rxOff rxTail =>
      rw [hcase] at hphase
      obtain ⟨_, upto, hfrom, hround, _⟩ := hphase
      dsimp only
      rw [hoff]
      exact htables.wrap_frameOff (by omega) _

theorem ContainedInv.contained (hinv : ContainedInv cfg s) : HardwareContained cfg s := by
  intro hstreaming
  have hrunning := hinv.video.running hstreaming
  have hown := hinv.ownership hstreaming
  have htables := hrunning.tables
  have hwindow := hown.published.window
  have havail : (s.zvideo.bufList.map s.zvideo.offset).length = s.zvideo.bufAvail := by
    rw [List.length_map, hinv.video.avail]
  have hnext := hown.nextOff_eq htables
  refine ⟨?_, ?_, ?_, ?_, ?_⟩
  · have hslots := hwindow.slots_from
    rw [havail] at hslots
    rw [hnext, htables.size]
    exact hslots
  · have hlen := hwindow.length_eq
    have hle := hwindow.le
    rw [hnext, htables.frameOff_add, hown.published.head, ← havail, hlen]
    congr 1
    omega
  · intro buf hbuf hhead
    have hnone := List.find?_eq_none.mp hown.pending buf hbuf
    exact absurd (beq_iff_eq.mpr hhead) hnone
  · intro rxOff rxTail hphase
    rw [hphase] at hown
    obtain ⟨buf, _, _, hfind⟩ := hown.find_buf hstreaming
    obtain ⟨hoff, upto, hfrom, hround, _, htail⟩ := hown.phase
    refine ⟨?_, buf, by rw [hfind]⟩
    rintro rfl
    have hslot := frameOff_inj hfrom.le hround (htail.symm.trans hoff)
    omega
  · intro k hwritten hpublished i hi
    have hmem := hwindow.mem (hown.taken_le.trans hwritten) hpublished
    obtain ⟨buf, hbuf, hslot⟩ := List.mem_map.mp hmem
    have howned := hrunning.owned
    have hin : buf ∈ s.owned := List.mem_append_left _ (List.mem_append_left _ hbuf)
    refine ⟨buf, hbuf, ?_, howned.active buf hin, ?_⟩
    · have hdisjoint := List.disjoint_of_nodup_append (List.Nodup.of_append_left howned.nodup)
      exact fun hpending => hdisjoint hbuf hpending
    · have hoff : k * cfg.frame % s.zvideo.zchanRx.zchanRxSize = s.zvideo.offset buf := by
        rw [hslot, htables.size]
        exact Nat.mul_mod_mul_right _ _ _
      rw [hoff]
      exact htables.hwPage_offset (howned.started buf hin) hi

end Runs

/-- From the load of the driver on, a run in which only the buffers of a start are
queued and the hardware keeps below the published head reaches its end, and the
hardware never gets at a buffer that the driver does not own. -/
theorem hardware_contained (cfg : VideoConfig) (events : List VideoEvent)
    (hmeet : StepsMeet (videoStep cfg)
      (fun s event => VideoOk cfg s event ∧ HardwareOk cfg s event) VideoState.init events) :
    Throughout (videoStep cfg) (HardwareContained cfg) VideoState.init events ∧
      ∃ final, run (videoStep cfg) VideoState.init events = some final := by
  obtain ⟨hall, hfinal⟩ :=
    throughout_and_total containedInv_step (containedInv_init cfg) hmeet
  exact ⟨hall.imp fun _ hinv => hinv.contained, hfinal⟩

/-- Two buffers; the first frame goes to the user and its buffer comes back, the
second is corrupted, and the channel is reset. -/
theorem hardware_contained_two :
    Throughout (videoStep ⟨4096, 2, by decide⟩) (HardwareContained ⟨4096, 2, by decide⟩)
        VideoState.init
        [.qbuf 0 .succeeds, .qbuf 1 .succeeds, .streamon .succeeds, .hwTail 4096 1, .rxBegin,
          .rxFind, .rxJudge false, .rxAdvance, .dqbuf, .qbuf 0 .succeeds, .hwTail 0 1,
          .rxBegin, .rxFind, .rxJudge true, .rxAdvance, .reset] ∧
      ∃ final, run (videoStep ⟨4096, 2, by decide⟩) VideoState.init
        [.qbuf 0 .succeeds, .qbuf 1 .succeeds, .streamon .succeeds, .hwTail 4096 1, .rxBegin,
          .rxFind, .rxJudge false, .rxAdvance, .dqbuf, .qbuf 0 .succeeds, .hwTail 0 1,
          .rxBegin, .rxFind, .rxJudge true, .rxAdvance, .reset] = some final :=
  hardware_contained _ _ (by decide +kernel)

end ApolloContrib.Video
