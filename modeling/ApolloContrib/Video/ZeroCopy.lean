import ApolloContrib.Chan.RxTable
import ApolloContrib.Library.While
import Mathlib.Logic.Function.Basic

namespace ApolloContrib.Video

open ApolloContrib.Chan ApolloContrib.Library

/-! Zero-copy video capture: the driver of `basa_video.c` under the buffer queue
of the V4L2 framework. Buffers are numbered; all have the size of an image. -/

def CEILING (x y : Nat) : Nat := (x + y - 1) / y
def ALIGN (x a : Nat) : Nat := (x + (a - 1)) / a * a

structure VideoConfig where
  sizeimage : Nat
  zynqVideoBufNum : Nat
  sizeimage_pos : 0 < sizeimage

def VideoConfig.pages (cfg : VideoConfig) : Nat := CEILING cfg.sizeimage ZCHAN_BUF_SIZE

/-- Page `index` of the memory of a buffer. -/
structure Page where
  buf : Nat
  index : Nat
deriving DecidableEq, Repr

/-- The driver. `rxPt i j` is entry `j` of page table `i`. `startBufs` records
the buffers that the last successful start mapped, and the last three fields
count, in frames since the channel was started, what the hardware has written,
what it may write, and what the driver has taken off. -/
structure ZynqVideo where
  streaming : Bool
  bufTotal : Nat
  bufAvail : Nat
  bufList : List Nat
  pendingList : List Nat
  offset : Nat → Nat
  zchanRx : ZchanRxTbl
  zchanRxBufsz : Nat
  rxPt : Nat → Nat → Option Page
  rxTailReg : BitVec 32
  startBufs : List Nat
  hwWritten : Nat
  hwPublished : Nat
  rxFrames : Nat

/-- What the allocations and mappings of a start come to: whether the tables can
be allocated, and which entries fail to map. -/
structure InitCall where
  allocated : Bool
  mapFails : Nat → Bool

structure MapCursor where
  zvideo : ZynqVideo
  ptEntries : Nat
  pdtEntry : Nat
  ptEntry : Nat

namespace MapCursor

/-- One mapped page goes into the current entry, and the pointers to the next. -/
def put (c : MapCursor) (page : Page) : MapCursor :=
  let last := (c.ptEntries + 1) &&& c.zvideo.zchanRx.zchanRxPtMask = 0
  { zvideo := { c.zvideo with
      rxPt := Function.update c.zvideo.rxPt c.pdtEntry
        (Function.update (c.zvideo.rxPt c.pdtEntry) c.ptEntry (some page)) }
    ptEntries := c.ptEntries + 1
    pdtEntry := if last then c.pdtEntry + 1 else c.pdtEntry
    ptEntry := if last then 0 else c.ptEntry + 1 }

def setOffset (c : MapCursor) (buf : Nat) : MapCursor :=
  { c with zvideo := { c.zvideo with
      offset := Function.update c.zvideo.offset buf
        (c.ptEntries <<< c.zvideo.zchanRx.zchanRxPtShift) } }

end MapCursor

/-- The loop over the pages of one buffer. The result tells whether all could be
mapped, and is `none` when an entry past the `limit` allocated ones is written. -/
def mapPages (limit : Nat) (mapFails : Nat → Bool) (buf : Nat) :
    Nat → Nat → MapCursor → Option (Bool × MapCursor)
  | 0, _, c => some (true, c)
  | left + 1, index, c =>
      if limit ≤ c.ptEntries then none
      else if mapFails c.ptEntries then some (false, c)
      else mapPages limit mapFails buf left (index + 1) (c.put ⟨buf, index⟩)

def mapBufs (limit pages : Nat) (mapFails : Nat → Bool) :
    List Nat → MapCursor → Option (Bool × MapCursor)
  | [], c => some (true, c)
  | buf :: rest, c =>
      match mapPages limit mapFails buf pages 0 (c.setOffset buf) with
      | some (true, c) => mapBufs limit pages mapFails rest c
      | result => result

def videoRxTbl (zchanRx : ZchanRxTbl) (ptEntries : Nat) : ZchanRxTbl :=
  { zchanRx with
    zchanRxPdtNum := CEILING ptEntries ZCHAN_RX_PT_ENTRIES
    zchanRxPdtShift := fls (BitVec.ofNat 32 (ZCHAN_RX_PT_ENTRIES * ZCHAN_BUF_SIZE)) - 1
    zchanRxPtShift := fls (BitVec.ofNat 32 ZCHAN_BUF_SIZE) - 1
    zchanRxPtMask := ZCHAN_RX_PT_ENTRIES - 1
    zchanRxSize := ptEntries * ZCHAN_BUF_SIZE
    zchanRxBufMask := ZCHAN_BUF_SIZE - 1 }

namespace ZynqVideo

variable (cfg : VideoConfig) (z : ZynqVideo)

def zvideoFiniRx : ZynqVideo :=
  { z with
    zchanRx := { z.zchanRx with zchanRxPdtNum := 0, zchanRxSize := 0 }
    zchanRxBufsz := 0
    rxPt := fun _ _ => none }

def allocTables (ptEntries : Nat) : ZynqVideo :=
  { z with
    zchanRx := videoRxTbl z.zchanRx ptEntries
    zchanRxBufsz := ZCHAN_BUF_SIZE
    rxPt := fun _ _ => none }

/-- The flag tells whether `zvideo_init_rx` returns 0. -/
def zvideoInitRx (count : Nat) (init : InitCall) : Option (Bool × ZynqVideo) :=
  let ptEntries := count * CEILING cfg.sizeimage ZCHAN_BUF_SIZE
  if ¬ init.allocated then some (false, z.zvideoFiniRx)
  else
    (mapBufs ptEntries (ALIGN cfg.sizeimage ZCHAN_BUF_SIZE / ZCHAN_BUF_SIZE)
      init.mapFails z.bufList ⟨z.allocTables ptEntries, 0, 0, 0⟩).map
      fun (mapped, c) => (mapped, if mapped then c.zvideo else c.zvideo.zvideoFiniRx)

def frameSize : Nat := ALIGN cfg.sizeimage z.zchanRxBufsz

/-- With head and tail both 0, the hardware may write the whole table. -/
def zchanRxStart : ZynqVideo :=
  { z with
    zchanRx := { z.zchanRx with zchanRxHead := 0, zchanRxTail := 0, zchanRxOff := 0 }
    rxTailReg := 0
    hwWritten := 0
    hwPublished := z.zchanRx.zchanRxSize / z.frameSize cfg
    rxFrames := 0 }

def pendingAtHead : Option Nat :=
  z.pendingList.find? fun buf => z.offset buf == z.zchanRx.zchanRxHead

/-- One round of `zvideo_check_pending`: the buffer moves, and so does the
published head. -/
def movePending : ZynqVideo :=
  match z.pendingAtHead with
  | none => z
  | some buf =>
      { z with
        pendingList := z.pendingList.erase buf
        bufList := z.bufList ++ [buf]
        bufAvail := z.bufAvail + 1
        zchanRx := { z.zchanRx with
          zchanRxHead := z.zchanRx.wrap (z.zchanRx.zchanRxHead + z.frameSize cfg) }
        hwPublished := z.hwPublished + 1 }

def zvideoCheckPending : Option ZynqVideo :=
  whileLoop (fun z => z.pendingAtHead.isSome) (movePending cfg) z.pendingList.length z

def OnList (buf : Nat) : Prop := buf ∈ z.bufList ∨ buf ∈ z.pendingList

instance (buf : Nat) : Decidable (z.OnList buf) :=
  inferInstanceAs (Decidable (_ ∨ _))

/-- `list_add` to the pending list and `zvideo_check_pending`; `none` when the
buffer is on a list already, which corrupts the lists. -/
def addPending (buf : Nat) : Option ZynqVideo :=
  if z.OnList buf then none
  else ({ z with pendingList := buf :: z.pendingList } : ZynqVideo).zvideoCheckPending cfg

def zvideoBufferQueue (buf : Nat) : Option ZynqVideo :=
  if z.streaming then z.addPending cfg buf
  else if z.OnList buf then none
  else some { z with bufList := z.bufList ++ [buf], bufAvail := z.bufAvail + 1 }

def setStreaming : ZynqVideo :=
  { z with streaming := true, startBufs := z.bufList }

def setTotal (count : Nat) : ZynqVideo :=
  { z with bufTotal := count }

/-- The flag tells whether `zvideo_start_streaming` returns 0. -/
def zvideoStartStreaming (count : Nat) (init : InitCall) : Option (Bool × ZynqVideo) :=
  if count < cfg.zynqVideoBufNum then some (false, z)
  else
    ((z.setTotal count).zvideoInitRx cfg count init).map fun (ready, z) =>
      (ready, if ready then (z.zchanRxStart cfg).setStreaming else z)

/-- `zvideo_stop_streaming`, after which both lists are empty. -/
def zvideoStopStreaming : ZynqVideo :=
  { z.zvideoFiniRx with
    streaming := false
    pendingList := []
    bufList := []
    bufAvail := z.bufAvail - z.bufList.length
    bufTotal := 0 }

/-- A `zvideo_reset` that completes; one that does not leaves no trace here. -/
def zvideoReset : ZynqVideo :=
  if z.streaming ∧ z.bufAvail = z.bufTotal then z.zchanRxStart cfg else z

end ZynqVideo

/-- Where `zvideo_rx_proc_zero_copy` is between two sections under `qlock`; it
holds `rlock` unless it is idle. -/
inductive RxPhase where
  | idle
  | find (rxOff rxTail : Nat)
  | sync (rxOff rxTail buf : Nat)
  | advance (rxOff rxTail : Nat)
deriving DecidableEq, Repr

structure SyncLoop where
  rxOff : Nat
  size : Nat
  memsz : Nat

namespace ZynqVideo

variable (cfg : VideoConfig) (z : ZynqVideo)

def rxTail : Nat :=
  (z.rxTailReg &&& ~~~(BitVec.ofNat 32 (ZCHAN_BUF_SIZE - 1))).toNat

def rxBegin : RxPhase :=
  if z.zchanRxBufsz = 0 then .idle
  else if z.zchanRx.ZCHAN_RX_USED_SIZE z.zchanRx.zchanRxHead z.rxTail %
      ALIGN cfg.sizeimage z.zchanRxBufsz ≠ 0 then .idle
  else if z.zchanRx.zchanRxOff = z.rxTail then .idle
  else .find z.zchanRx.zchanRxOff z.rxTail

/-- The buffer bound to the current offset leaves `buf_list`. -/
def rxFind (rxOff rxTail : Nat) : RxPhase × ZynqVideo :=
  match z.streaming, z.bufList.find? fun cur => z.offset cur == rxOff with
  | true, some buf =>
      (.sync rxOff rxTail buf,
        { z with bufList := z.bufList.erase buf, bufAvail := z.bufAvail - 1 })
  | _, _ => (.idle, z)

def pageLen (rxTail rxOff : Nat) : Nat :=
  if z.zchanRx.ZCHAN_WITHIN_RX_BUF rxOff rxTail ∧ rxOff ≤ rxTail then rxTail - rxOff
  else z.zchanRxBufsz - z.zchanRx.ZCHAN_RX_BUF_OFFSET rxOff

/-- The length to sync, limited by what is left of the buffer. -/
def syncLen (rxTail : Nat) (l : SyncLoop) : Nat :=
  if z.pageLen rxTail l.rxOff > l.memsz then l.memsz else z.pageLen rxTail l.rxOff

def syncRound (rxTail : Nat) (l : SyncLoop) : SyncLoop :=
  let len := z.syncLen rxTail l
  { rxOff := z.zchanRx.wrap (l.rxOff + len)
    size := l.size + len
    memsz := l.memsz - len }

def syncMore (rxTail : Nat) (l : SyncLoop) : Bool :=
  l.rxOff ≠ rxTail ∧ 0 < l.memsz ∧ l.size < cfg.sizeimage

/-- The offset behind the frame at `rxOff`. -/
def rxSync (rxOff rxTail : Nat) : Option Nat :=
  (whileLoop (syncMore cfg rxTail) (z.syncRound rxTail) cfg.sizeimage
    ⟨rxOff, 0, cfg.sizeimage⟩).map fun l =>
      if l.memsz ≠ 0 ∨ l.size ≠ cfg.sizeimage then l.rxOff + l.memsz else l.rxOff

def rxAdvance (rxOff rxTail : Nat) : RxPhase × ZynqVideo :=
  let rxOff := z.zchanRx.wrap (ALIGN rxOff z.zchanRxBufsz)
  (if rxOff ≠ rxTail then .find rxOff rxTail else .idle,
    { z with
      zchanRx := { z.zchanRx with zchanRxOff := rxOff }
      rxFrames := z.rxFrames + 1 })

end ZynqVideo

inductive Vb2BufState where
  | VB2_BUF_STATE_DEQUEUED
  | VB2_BUF_STATE_QUEUED
  | VB2_BUF_STATE_ACTIVE
  | VB2_BUF_STATE_DONE
deriving DecidableEq, Repr

/-- The driver, its receive path and the queue. `queuedList` holds the buffers
that are queued but not handed to the driver yet. -/
structure VideoState where
  zvideo : ZynqVideo
  phase : RxPhase
  vbState : Nat → Vb2BufState
  queuedList : List Nat
  doneList : List Nat
  vqStreaming : Bool
  startStreamingCalled : Bool

/-- The ioctls of the user, the sections of the receive path in their order, a
move of the hardware tail by some frames, and a reset. -/
inductive VideoEvent where
  | qbuf (buf : Nat) (init : InitCall)
  | dqbuf
  | streamon (init : InitCall)
  | streamoff
  | hwTail (tailReg : BitVec 32) (frames : Nat)
  | rxBegin
  | rxFind
  | rxJudge (corrupted : Bool)
  | rxAdvance
  | reset

namespace VideoState

variable (cfg : VideoConfig) (s : VideoState)

def setVbState (buf : Nat) (state : Vb2BufState) : VideoState :=
  { s with vbState := Function.update s.vbState buf state }

/-- `vb2_start_streaming`: the queued buffers go to the driver, which then starts
with their number; when it fails they are taken back. -/
def startStreaming (init : InitCall) : Option (Bool × VideoState) :=
  (s.queuedList.foldlM (ZynqVideo.zvideoBufferQueue cfg) s.zvideo).bind fun z =>
    (z.zvideoStartStreaming cfg s.queuedList.length init).map fun (ready, z) =>
      (ready,
        if ready then
          { s with
            zvideo := z
            vbState := fun buf =>
              if buf ∈ s.queuedList then .VB2_BUF_STATE_ACTIVE else s.vbState buf
            queuedList := []
            startStreamingCalled := true }
        else { s with zvideo := z })

/-- `__vb2_queue_cancel`, with the driver as it is then. -/
def queueCancel (z : ZynqVideo) : VideoState :=
  { s with
    zvideo := z
    vbState := fun _ => .VB2_BUF_STATE_DEQUEUED
    queuedList := []
    doneList := []
    vqStreaming := false
    startStreamingCalled := false }

def enqueue (buf : Nat) : VideoState :=
  { s.setVbState buf .VB2_BUF_STATE_QUEUED with queuedList := s.queuedList ++ [buf] }

def dequeue (buf : Nat) : VideoState :=
  { s.setVbState buf .VB2_BUF_STATE_DEQUEUED with queuedList := s.queuedList.erase buf }

def qbuf (buf : Nat) (init : InitCall) : Option VideoState :=
  if s.vbState buf ≠ .VB2_BUF_STATE_DEQUEUED then some s
  else if s.startStreamingCalled then
    (s.zvideo.zvideoBufferQueue cfg buf).map fun z =>
      { s.setVbState buf .VB2_BUF_STATE_ACTIVE with zvideo := z }
  else
    let s := s.enqueue buf
    if s.vqStreaming ∧ cfg.zynqVideoBufNum ≤ s.queuedList.length then
      (s.startStreaming cfg init).map fun (ready, s) =>
        if ready then s else s.dequeue buf
    else some s

def dqbuf : VideoState :=
  match s.vqStreaming, s.doneList with
  | true, buf :: rest =>
      { s.setVbState buf .VB2_BUF_STATE_DEQUEUED with doneList := rest }
  | _, _ => s

def setVqStreaming : VideoState := { s with vqStreaming := true }

def streamon (init : InitCall) : Option VideoState :=
  if s.vqStreaming then some s
  else if cfg.zynqVideoBufNum ≤ s.queuedList.length then
    (s.startStreaming cfg init).map fun (ready, s) =>
      if ready then s.setVqStreaming else s.queueCancel s.zvideo
  else some s.setVqStreaming

/-- Stopping waits for `rlock`. -/
def streamoff : VideoState :=
  if s.phase ≠ .idle then s
  else if s.startStreamingCalled then s.queueCancel s.zvideo.zvideoStopStreaming
  else s.queueCancel s.zvideo

def setPhase (phase : RxPhase) (z : ZynqVideo) : VideoState :=
  { s with zvideo := z, phase := phase }

/-- The frame is judged and its buffer goes to the user, or to the pending list
when the frame is corrupted. -/
def rxJudge (corrupted : Bool) : Option VideoState :=
  match s.phase with
  | .sync rxOff rxTail buf =>
      (s.zvideo.rxSync cfg rxOff rxTail).bind fun rxOff =>
        if corrupted then
          (s.zvideo.addPending cfg buf).map fun z =>
            s.setPhase (.advance rxOff rxTail) z
        else
          some { (s.setPhase (.advance rxOff rxTail) s.zvideo).setVbState buf
              .VB2_BUF_STATE_DONE with doneList := s.doneList ++ [buf] }
  | _ => some s

def setTail (tailReg : BitVec 32) (frames : Nat) : VideoState :=
  { s with zvideo := { s.zvideo with
      rxTailReg := tailReg
      hwWritten := s.zvideo.hwWritten + frames } }

end VideoState

/-- One event. An ioctl that is refused, and a section whose turn it is not or
whose lock is held, leaves the state as it is; `none` is a list or a page table
that gets corrupted. -/
def videoStep (cfg : VideoConfig) (s : VideoState) : VideoEvent → Option VideoState
  | .qbuf buf init => s.qbuf cfg buf init
  | .dqbuf => some s.dqbuf
  | .streamon init => s.streamon cfg init
  | .streamoff => some s.streamoff
  | .hwTail tailReg frames => some (s.setTail tailReg frames)
  | .rxBegin =>
      match s.phase with
      | .idle => some (s.setPhase (s.zvideo.rxBegin cfg) s.zvideo)
      | _ => some s
  | .rxFind =>
      match s.phase with
      | .find rxOff rxTail =>
          some (s.setPhase (s.zvideo.rxFind rxOff rxTail).1
            (s.zvideo.rxFind rxOff rxTail).2)
      | _ => some s
  | .rxJudge corrupted => s.rxJudge cfg corrupted
  | .rxAdvance =>
      match s.phase with
      | .advance rxOff rxTail =>
          some (s.setPhase (s.zvideo.rxAdvance rxOff rxTail).1
            (s.zvideo.rxAdvance rxOff rxTail).2)
      | _ => some s
  | .reset =>
      match s.phase with
      | .idle => some (s.setPhase .idle (s.zvideo.zvideoReset cfg))
      | _ => some s

/-- The driver after it is loaded; `kzalloc` has cleared every field, those of
the buffers included. -/
def VideoState.init : VideoState where
  zvideo :=
    { streaming := false
      bufTotal := 0
      bufAvail := 0
      bufList := []
      pendingList := []
      offset := fun _ => 0
      zchanRx := ⟨0, 0, 0, 0, 0, 0, 0, 0, 0⟩
      zchanRxBufsz := 0
      rxPt := fun _ _ => none
      rxTailReg := 0
      startBufs := []
      hwWritten := 0
      hwPublished := 0
      rxFrames := 0 }
  phase := .idle
  vbState := fun _ => .VB2_BUF_STATE_DEQUEUED
  queuedList := []
  doneList := []
  vqStreaming := false
  startStreamingCalled := false

end ApolloContrib.Video
