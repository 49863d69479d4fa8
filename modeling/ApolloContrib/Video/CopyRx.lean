import ApolloContrib.Video.ZeroCopy

namespace ApolloContrib.Video

open ApolloContrib.Chan ApolloContrib.Library

/-! `zvideo_rx_proc_copy`: frames are copied out of the receive table. -/

inductive VideoFormat where
  | V4L2_PIX_FMT_YUYV
  | V4L2_PIX_FMT_RGB24
deriving DecidableEq, Repr

def ZVIDEO_IMAGE_WIDTH : Nat := 1920
def ZVIDEO_IMAGE_HEIGHT : Nat := 1080
def ZVIDEO_EM_DATA_LINES : Nat := 2
def ZVIDEO_EM_STATS_LINES : Nat := 2
def ZVIDEO_EXT_META_DATA_BYTES : Nat := 32

def VB2_MAX_FRAME : Nat := 32

def VideoFormat.bytesPerPixel : VideoFormat → Nat
  | .V4L2_PIX_FMT_YUYV => 2
  | .V4L2_PIX_FMT_RGB24 => 3

/-- The `sizeimage` that `zvideo_set_format` gives a camera. -/
def zvideoSetFormat (format : VideoFormat) (embeddedData : Bool) : Nat :=
  let bytesperline := format.bytesPerPixel * ZVIDEO_IMAGE_WIDTH
  let height :=
    if embeddedData then ZVIDEO_IMAGE_HEIGHT + ZVIDEO_EM_DATA_LINES + ZVIDEO_EM_STATS_LINES
    else ZVIDEO_IMAGE_HEIGHT
  bytesperline * height + ZVIDEO_EXT_META_DATA_BYTES

/-- A queue that starts with more than `VB2_MAX_FRAME` buffers never starts. -/
structure CopyChannel where
  format : VideoFormat
  embeddedData : Bool
  zynqVideoBufNum : Nat
  bufNum_le : zynqVideoBufNum ≤ VB2_MAX_FRAME

def CopyChannel.cfg (chan : CopyChannel) : VideoConfig where
  sizeimage := zvideoSetFormat chan.format chan.embeddedData
  zynqVideoBufNum := chan.zynqVideoBufNum
  sizeimage_pos := Nat.add_pos_right _ (by decide)

def CopyChannel.pdtEntries (chan : CopyChannel) : Nat :=
  CEILING (chan.zynqVideoBufNum * CEILING chan.cfg.sizeimage ZCHAN_BUF_SIZE)
    ZCHAN_RX_PT_ENTRIES

/-- What became of a frame: it was copied to a buffer, with the `size` and `data` then in
it, and the buffer is `done` or put back; or it was discarded. -/
inductive FrameOutcome where
  | copied (buf size : Nat) (data : Nat → BitVec 8) (done : Bool)
  | discarded

/-- `mem` is the memory of the receive table and `bufMem` that of the buffers. `outcomes`
records what became of each frame, and `resets` where the metadata were reset. -/
structure CopyRx where
  zvideo : ZynqVideo
  rxHeadReg : Nat
  mem : BufPtr → BitVec 8
  bufMem : Nat → Nat → BitVec 8
  payload : Nat → Nat
  doneList : List Nat
  sequence : BitVec 32
  statsRx : Nat
  statsRxDrop : Nat
  statsNoVideoBuf : Nat
  outcomes : List FrameOutcome
  resets : List BufPtr

namespace CopyRx

variable (cfg : VideoConfig) (rx : CopyRx)

def ZVIDEO_EXT_ERR_INVALID : BitVec 8 := 0xFF

def extErrorOffset : Nat := 31

def zvideoResetMetaData (rxOff : Nat) : CopyRx :=
  let rxOff1 := rx.zvideo.zchanRx.wrap
    ((rxOff + cfg.sizeimage - ZVIDEO_EXT_META_DATA_BYTES) % 2 ^ 32)
  let ext := rx.zvideo.zchanRx.zchanRxOff2addr rxOff1
  { rx with
    mem := Function.update rx.mem (ext.add extErrorOffset) ZVIDEO_EXT_ERR_INVALID
    resets := rx.resets ++ [ext] }

def takeBuf : Option Nat × CopyRx :=
  match rx.zvideo.streaming, rx.zvideo.bufList with
  | true, buf :: rest =>
      (some buf,
        { rx with zvideo := { rx.zvideo with
            bufList := rest
            bufAvail := rx.zvideo.bufAvail - 1 } })
  | _, _ => (none, rx)

end CopyRx

/-- The loop that copies a frame; `mem` and `data` are the place in the buffer and its
bytes. -/
structure PageCopy extends SyncLoop where
  mem : Nat
  data : Nat → BitVec 8

def memcpy (dst : Nat → BitVec 8) (start len : Nat) (src : Nat → BitVec 8) : Nat → BitVec 8 :=
  fun i => if start ≤ i ∧ i < start + len then src (i - start) else dst i

structure CopyLoop where
  rx : CopyRx
  rxOff : Nat
  returned : Bool

namespace CopyRx

variable (cfg : VideoConfig) (rx : CopyRx)

def copyPage (rxTail : Nat) (l : PageCopy) : PageCopy :=
  let data := rx.zvideo.zchanRx.zchanRxOff2addr l.rxOff
  let len := rx.zvideo.syncLen rxTail l.toSyncLoop
  { toSyncLoop := rx.zvideo.syncRound rxTail l.toSyncLoop
    mem := l.mem + len
    data := memcpy l.data l.mem len fun i => rx.mem (data.add i) }

def copyFrame (rxOff rxTail buf : Nat) : Option PageCopy :=
  whileLoop (fun l => ZynqVideo.syncMore cfg rxTail l.toSyncLoop) (rx.copyPage rxTail)
    cfg.sizeimage
    { rxOff := rxOff, size := 0, memsz := cfg.sizeimage, mem := 0, data := rx.bufMem buf }

/-- From `next` to the update of the head index. -/
def nextFrame (rxOff : Nat) : CopyRx × Nat :=
  let rx := rx.zvideoResetMetaData cfg rx.zvideo.zchanRx.zchanRxHead
  let rxOff := rx.zvideo.zchanRx.wrap (ALIGN rxOff rx.zvideo.zchanRxBufsz % 2 ^ 32)
  ({ rx with
    zvideo := { rx.zvideo with zchanRx := { rx.zvideo.zchanRx with zchanRxHead := rxOff } }
    rxHeadReg := rxOff }, rxOff)

def addOutcome (outcome : FrameOutcome) : CopyRx :=
  { rx with sequence := rx.sequence + 1, outcomes := rx.outcomes ++ [outcome] }

/-- A frame with an error leaves its buffer to the driver. -/
def judge (corrupted : Bool) (buf size : Nat) : CopyRx :=
  if corrupted then
    { rx with zvideo := { rx.zvideo with
        bufList := rx.zvideo.bufList ++ [buf]
        bufAvail := rx.zvideo.bufAvail + 1 } }
  else
    { rx with
      payload := Function.update rx.payload buf size
      doneList := rx.doneList ++ [buf] }

/-- One round of the loop over the frames; `corrupted` tells what
`zvideo_check_meta_data` finds of the frames. -/
def copyRound (corrupted : Nat → Bool) (rxTail : Nat) (l : CopyLoop) : Option CopyLoop :=
  match l.rx.takeBuf with
  | (none, rx) =>
      let rx := { rx with statsNoVideoBuf := rx.statsNoVideoBuf + 1 }
      if rx.zvideo.zchanRx.ZCHAN_RX_FREE_SIZE l.rxOff rxTail ≥ cfg.sizeimage then
        some { l with rx := rx, returned := true }
      else
        let rx := { rx with statsRxDrop := rx.statsRxDrop + 1 }
        let (rx, rxOff) := rx.nextFrame cfg ((l.rxOff + cfg.sizeimage) % 2 ^ 32)
        some { l with rx := rx.addOutcome .discarded, rxOff := rxOff }
  | (some buf, rx) =>
      (rx.copyFrame cfg l.rxOff rxTail buf).map fun c =>
        let rx := { rx with
          bufMem := Function.update rx.bufMem buf c.data
          statsRx := rx.statsRx + 1 }
        let (rx, rxOff) := rx.nextFrame cfg c.rxOff
        let failed := corrupted rx.outcomes.length
        { l with
          rx := (rx.judge failed buf c.size).addOutcome
            (.copied buf c.size (rx.bufMem buf) (!failed))
          rxOff := rxOff }

def zvideoRxProcCopy (corrupted : Nat → Bool) (fuel : Nat) : Option CopyRx :=
  let rxOff := rx.zvideo.zchanRx.zchanRxHead
  let rxTail := rx.zvideo.rxTail
  if rxOff = rxTail then some rx
  else
    (doWhile (fun l => !l.returned && l.rxOff != rxTail) (copyRound cfg corrupted rxTail) fuel
      ⟨rx, rxOff, false⟩).map (·.rx)

end CopyRx

end ApolloContrib.Video
