import ApolloContrib.Can.RxRing
import ApolloContrib.Chan.RxTable
import ApolloContrib.Library.Ring
import ApolloContrib.Library.Run

namespace ApolloContrib.Chan

open ApolloContrib.Can ApolloContrib.Library

/-! The DMA transmit ring of `basa_chan.c`: the driver's two routines, access by
access, and the hardware that takes the descriptors. -/

def ZCHAN_TX_ENTRIES_CAN : Nat := 1024

def ZCHAN_TX_DESC_SIZE : Nat := 16

abbrev Bytes := List (BitVec 8)

def HI32 (addr : BitVec 64) : BitVec 32 := (addr >>> 32).setWidth 32
def LO32 (addr : BitVec 64) : BitVec 32 := addr.setWidth 32

/-- What is allocated for a ring. `pci_alloc_consistent` aligns the descriptors to
their size, and the buffers are mapped at addresses of their own. -/
structure TxAlloc where
  zchanTxDma : BitVec 64
  zchanBufDma : Nat → BitVec 64
  aligned : zchanTxDma.toNat % (ZCHAN_TX_ENTRIES_CAN * ZCHAN_TX_DESC_SIZE) = 0
  mapped : ∀ i, i < ZCHAN_TX_ENTRIES_CAN → zchanBufDma i ≠ 0
  distinct : ∀ i j, i < ZCHAN_TX_ENTRIES_CAN → j < ZCHAN_TX_ENTRIES_CAN →
    zchanBufDma i = zchanBufDma j → i = j

/-- The buffers one after another behind the descriptors. -/
instance : Inhabited TxAlloc where
  default :=
    { zchanTxDma := 0
      zchanBufDma := fun i => BitVec.ofNat 64 ((ZCHAN_TX_DESC_SIZE + i) * ZCHAN_BUF_SIZE)
      aligned := rfl
      mapped := by
        intro i hi hzero
        have hnat : (ZCHAN_TX_DESC_SIZE + i) * ZCHAN_BUF_SIZE % 2 ^ 64 = 0 :=
          congrArg BitVec.toNat hzero
        unfold ZCHAN_TX_DESC_SIZE ZCHAN_BUF_SIZE ZCHAN_TX_ENTRIES_CAN at *
        omega
      distinct := by
        intro i j hi hj heq
        have hnat : (ZCHAN_TX_DESC_SIZE + i) * ZCHAN_BUF_SIZE % 2 ^ 64 =
            (ZCHAN_TX_DESC_SIZE + j) * ZCHAN_BUF_SIZE % 2 ^ 64 := congrArg BitVec.toNat heq
        unfold ZCHAN_TX_DESC_SIZE ZCHAN_BUF_SIZE ZCHAN_TX_ENTRIES_CAN at *
        omega }

structure ZchanTxDesc where
  txLen : Nat
  txAddr : BitVec 64

structure ZchanTxRing where
  zchanTxHead : Nat
  zchanTxTail : Nat
  zchanTxDescp : Nat → ZchanTxDesc

structure TxCall where
  msg : Bytes
  txTail : Nat
  txNext : Nat

inductive TxStage where
  | memcpy
  | txLen
  | txAddr
  | tailHi
  | tailLo
  | tail
deriving DecidableEq, Repr

inductive DonePhase where
  | idle
  | headHi (head : Nat)
  | headLo (head : Nat) (hi : BitVec 32)
  | clear (idx newHead : Nat)

/-- `mem` is the memory behind each mapped address, and `hwHead` the index whose
address the head registers report. The last five fields record the results of
the calls, the descriptors found uncleared, the messages taken, how many of them
are published as done, and what the hardware has read for each. -/
structure TxSystem where
  ring : ZchanTxRing
  mem : BitVec 64 → Nat → BitVec 8
  tailHi : BitVec 32
  tailLo : BitVec 32
  hwHead : Nat
  tx : Option (TxStage × TxCall)
  done : DonePhase
  answers : List BcanErrCode
  notCleared : List Nat
  accepted : List Bytes
  completed : Nat
  sent : List Bytes

namespace TxAlloc

variable (alloc : TxAlloc)

def descAddr (i : Nat) : BitVec 64 :=
  alloc.zchanTxDma + BitVec.ofNat 64 (i * ZCHAN_TX_DESC_SIZE)

/-- The end of `zchan_tx_read_head`, with the registers read and the current
head. -/
def zchanTxReadHead (txHead : Nat) (hi lo : BitVec 32) : Nat :=
  let txHeadDma := hi.setWidth 64 <<< 32 ||| lo.setWidth 64
  if txHeadDma ≥ alloc.zchanTxDma then
    let index := (txHeadDma - alloc.zchanTxDma).toNat / ZCHAN_TX_DESC_SIZE % 2 ^ 32
    if index ≥ ZCHAN_TX_ENTRIES_CAN then txHead else index
  else txHead

end TxAlloc

namespace ZchanTxRing

def setDesc (ring : ZchanTxRing) (i : Nat) (desc : ZchanTxDesc) : ZchanTxRing :=
  { ring with zchanTxDescp := Function.update ring.zchanTxDescp i desc }

def setLen (ring : ZchanTxRing) (i txLen : Nat) : ZchanTxRing :=
  ring.setDesc i { ring.zchanTxDescp i with txLen := txLen }

def setAddr (ring : ZchanTxRing) (i : Nat) (txAddr : BitVec 64) : ZchanTxRing :=
  ring.setDesc i { ring.zchanTxDescp i with txAddr := txAddr }

end ZchanTxRing

def memcpy (old : Nat → BitVec 8) (msg : Bytes) : Nat → BitVec 8 :=
  fun j => msg.getD j (old j)

namespace TxSystem

variable (alloc : TxAlloc) (s : TxSystem)

def setRing (ring : ZchanTxRing) : TxSystem := { s with ring := ring }

def answer (ret : BcanErrCode) : TxSystem := { s with answers := s.answers ++ [ret] }

/-- `zchan_tx_one_msg` up to the test for a full ring. -/
def zchanTxOneMsg (msg : Bytes) : TxSystem :=
  if msg.length > ZCHAN_BUF_SIZE then s.answer .BCAN_FAIL
  else
    let txNext := (s.ring.zchanTxTail + 1) &&& (ZCHAN_TX_ENTRIES_CAN - 1)
    if txNext = s.ring.zchanTxHead then s.answer .BCAN_DEV_BUSY
    else { s with tx := some (.memcpy, ⟨msg, s.ring.zchanTxTail, txNext⟩) }

def goto (stage : TxStage) (call : TxCall) : TxSystem := { s with tx := some (stage, call) }

def finish (call : TxCall) : TxSystem :=
  { s.answer .BCAN_OK with
    ring := { s.ring with zchanTxTail := call.txNext }
    tx := none
    accepted := s.accepted ++ [call.msg] }

/-- One access of `zchan_tx_one_msg`, the last three in `zchan_tx_write_tail`. -/
def txAccess (stage : TxStage) (call : TxCall) : TxSystem :=
  let bufDma := alloc.zchanBufDma call.txTail
  match stage with
  | .memcpy =>
      { s.goto .txLen call with
        mem := Function.update s.mem bufDma (memcpy (s.mem bufDma) call.msg) }
  | .txLen => (s.setRing (s.ring.setLen call.txTail call.msg.length)).goto .txAddr call
  | .txAddr =>
      { (s.setRing (s.ring.setAddr call.txTail bufDma)).goto .tailHi call with
        notCleared :=
          if (s.ring.zchanTxDescp call.txTail).txAddr ≠ 0 then s.notCleared ++ [call.txTail]
          else s.notCleared }
  | .tailHi =>
      if call.txNext ≥ ZCHAN_TX_ENTRIES_CAN then { s.answer .BCAN_OK with tx := none }
      else { s.goto .tailLo call with tailHi := HI32 (alloc.descAddr call.txNext) }
  | .tailLo => { s.goto .tail call with tailLo := LO32 (alloc.descAddr call.txNext) }
  | .tail => s.finish call

def setDone (done : DonePhase) : TxSystem := { s with done := done }

def doneAccess : TxSystem :=
  match s.done with
  | .idle => s.setDone (.headHi s.ring.zchanTxHead)
  | .headHi head => s.setDone (.headLo head (HI32 (alloc.descAddr s.hwHead)))
  | .headLo head hi =>
      let newHead := alloc.zchanTxReadHead s.ring.zchanTxHead hi
        (LO32 (alloc.descAddr s.hwHead))
      s.setDone (if head = newHead then .idle else .clear head newHead)
  | .clear idx newHead =>
      if idx ≠ newHead then
        (s.setRing (s.ring.setAddr idx 0)).setDone
          (.clear ((idx + 1) &&& (ZCHAN_TX_ENTRIES_CAN - 1)) newHead)
      else
        { s.setDone .idle with
          ring := { s.ring with zchanTxHead := newHead }
          completed := s.completed +
            ringCount ZCHAN_TX_ENTRIES_CAN s.ring.zchanTxHead newHead }

def hwRead (i : Nat) : Bytes :=
  (List.range (s.ring.zchanTxDescp i).txLen).map (s.mem (s.ring.zchanTxDescp i).txAddr)

/-- The hardware takes one descriptor, and none at the tail. -/
def hwSend : TxSystem :=
  if s.hwHead = s.ring.zchanTxTail then s
  else
    { s with
      hwHead := (s.hwHead + 1) % ZCHAN_TX_ENTRIES_CAN
      sent := s.sent ++ [s.hwRead s.hwHead] }

end TxSystem

/-- A call of `zchan_tx_one_msg`, which waits while another holds the lock; its
next access; the next access of `zchan_tx_done`, which begins when none is going
on; and a move of the hardware. -/
inductive TxEvent where
  | send (msg : Bytes)
  | tx
  | done
  | hardware

def txStep (alloc : TxAlloc) (s : TxSystem) : TxEvent → Option TxSystem
  | .send msg => some (if s.tx.isNone then s.zchanTxOneMsg msg else s)
  | .tx =>
      some (match s.tx with
      | none => s
      | some (stage, call) => s.txAccess alloc stage call)
  | .done => some (s.doneAccess alloc)
  | .hardware => some s.hwSend

/-- The zeroed ring after `zchan_init_tx_ring`, whatever is in the buffers. -/
def TxSystem.init (alloc : TxAlloc) (mem : BitVec 64 → Nat → BitVec 8) : TxSystem where
  ring := ⟨0, 0, fun _ => ⟨0, 0⟩⟩
  mem := mem
  tailHi := HI32 alloc.zchanTxDma
  tailLo := LO32 alloc.zchanTxDma
  hwHead := 0
  tx := none
  done := .idle
  answers := []
  notCleared := []
  accepted := []
  completed := 0
  sent := []

end ApolloContrib.Chan
