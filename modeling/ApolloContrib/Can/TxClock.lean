import ApolloContrib.Can.TxUser
import ApolloContrib.Library.While

namespace ApolloContrib.Can

open ApolloContrib.Library

/-! `zcan_tx_user` against a clock: the `retry` loop with its readings of the time,
the messages encoded where they lie, and the three ways to the hardware. -/

def ZCAN_TIMEOUT_MAX : BitVec 64 := 0xffffffff

structure ZcanMsg where
  cmsgId : BitVec 32
  cmsgLen : BitVec 32
  cmsgData1 : BitVec 32
  cmsgData2 : BitVec 32
  deriving DecidableEq, Repr

def Msg.cmsg (m : Msg) : ZcanMsg := ⟨m.word0, m.word1, m.word2, m.word3⟩

def ZCAN_MSG_SIZE : Nat := 16

/-- What has been written to the FIFO, to the high-priority buffer and to the ring. -/
structure TxHw where
  txFifo : List ZcanMsg
  txHpb : List ZcanMsg
  txRing : List ZcanMsg
  deriving DecidableEq, Repr

inductive TxBackEnd where
  | fifo
  | hpb
  | ring
  deriving DecidableEq, Repr

/-- What one attempt finds: the state of the CAN, whether the FIFO, the buffer or the
ring is full, and the size of a buffer of the ring. -/
structure TxAttempt where
  zcan : ZynqCanPio
  full : Bool
  zchanTxBufsz : Nat

namespace TxHw

def push (hw : TxHw) (cmsg : ZcanMsg) : TxBackEnd → TxHw
  | .fifo => { hw with txFifo := hw.txFifo ++ [cmsg] }
  | .hpb => { hw with txHpb := hw.txHpb ++ [cmsg] }
  | .ring => { hw with txRing := hw.txRing ++ [cmsg] }

/-- The hardware after a function that writes the message just before it returns
`BCAN_OK`. -/
def taken (hw : TxHw) (backEnd : TxBackEnd) (cmsg : ZcanMsg) (ret : BcanErrCode) :
    BcanErrCode × TxHw :=
  (ret, if ret = .BCAN_OK then hw.push cmsg backEnd else hw)

def zcanPioTxOne (hw : TxHw) (attempt : TxAttempt) (cmsg : ZcanMsg) :
    BcanErrCode × TxHw :=
  hw.taken .fifo cmsg (pioTxOne attempt.zcan attempt.full)

def zcanPioTxHiOne (hw : TxHw) (attempt : TxAttempt) (cmsg : ZcanMsg) :
    BcanErrCode × TxHw :=
  hw.taken .hpb cmsg (pioTxOne attempt.zcan attempt.full)

def zchanTxOneMsg (hw : TxHw) (attempt : TxAttempt) (cmsg : ZcanMsg) (msgsz : Nat) :
    BcanErrCode × TxHw :=
  if msgsz > attempt.zchanTxBufsz then hw.taken .ring cmsg .BCAN_FAIL
  else if attempt.full then hw.taken .ring cmsg .BCAN_DEV_BUSY
  else hw.taken .ring cmsg .BCAN_OK

def zcanDmaTxOne (hw : TxHw) (attempt : TxAttempt) (cmsg : ZcanMsg) :
    BcanErrCode × TxHw :=
  hw.zchanTxOneMsg attempt cmsg ZCAN_MSG_SIZE

def txFunc (txHipri zcanTxDma : Bool) (hw : TxHw) :
    TxAttempt → ZcanMsg → BcanErrCode × TxHw :=
  if txHipri then hw.zcanPioTxHiOne
  else if ¬ zcanTxDma then hw.zcanPioTxOne
  else hw.zcanDmaTxOne

def backEnd (txHipri zcanTxDma : Bool) : TxBackEnd :=
  if txHipri then .hpb else if ¬ zcanTxDma then .fifo else .ring

end TxHw

/-- What surrounds a call: the attempts in the order they are made, and the readings of the
clock, the first of which sets the deadline. -/
structure TxSetting where
  txHipri : Bool
  zcanTxDma : Bool
  kmalloc : Bool
  copyFromUser : Bool
  attempt : Nat → TxAttempt
  ktimeGet : Nat → BitVec 64

def effectiveTxTimeout (zcanTxTimeout : BitVec 64) : BitVec 64 :=
  if zcanTxTimeout = 0 then ZCAN_TIMEOUT_MAX else zcanTxTimeout

/-- The deadline, a signed number of nanoseconds. -/
def ktimeEnd (now zcanTxTimeout : BitVec 64) : BitVec 64 :=
  now + 1000000 * zcanTxTimeout

inductive TxPc where
  | loop
  | retry
  | txDone
  deriving DecidableEq, Repr

/-- The variables of the call. `buf` is the memory that `bmsg` points into, `polls` and
`reads` number the attempts and the readings, and `encoded` counts the conversions of each
message. -/
structure TxState where
  pc : TxPc
  buf : Nat → Msg
  bmsg : Nat
  txNum : Nat
  txNumDone : Nat
  ret : BcanErrCode
  hw : TxHw
  polls : Nat
  reads : Nat
  encoded : Nat → Nat

namespace TxSetting

variable (setting : TxSetting)

/-- `while (tx_num)` and the conversion in front of `retry`. -/
def loopHead (s : TxState) : TxState :=
  if s.txNum = 0 then { s with pc := .txDone }
  else
    { s with
      pc := .retry
      buf := Function.update s.buf s.bmsg (bcanToZcan (s.buf s.bmsg))
      encoded := Function.update s.encoded s.bmsg (s.encoded s.bmsg + 1) }

/-- From `retry` to the next turn of the loop, back to `retry`, or out. -/
def retry (ktimeEnd : BitVec 64) (s : TxState) : TxState :=
  let sent := s.hw.txFunc setting.txHipri setting.zcanTxDma (setting.attempt s.polls)
    (s.buf s.bmsg).cmsg
  let s := { s with ret := sent.1, hw := sent.2, polls := s.polls + 1 }
  match s.ret with
  | .BCAN_OK =>
      { s with
        pc := .loop
        txNumDone := s.txNumDone + 1
        bmsg := s.bmsg + 1
        txNum := s.txNum - 1 }
  | .BCAN_DEV_BUSY =>
      let ktimeNow := setting.ktimeGet s.reads
      let s := { s with reads := s.reads + 1 }
      if ktimeNow.toInt < ktimeEnd.toInt then s
      else { s with ret := .BCAN_TIMEOUT, pc := .txDone }
  | _ => { s with pc := .txDone }

def body (ktimeEnd : BitVec 64) (s : TxState) : TxState :=
  match s.pc with
  | .loop => loopHead s
  | .retry => setting.retry ktimeEnd s
  | .txDone => s

def running (s : TxState) : Bool := s.pc ≠ .txDone

/-- The variables before the loop, or at `tx_done` if the messages do not get there. -/
def start (usrMsgs : List Msg) (hw : TxHw) : TxState :=
  let s : TxState :=
    { pc := .loop
      buf := fun i => usrMsgs.getD i ⟨0, 0, 0, 0, 0, 0⟩
      bmsg := 0
      txNum := usrMsgs.length
      txNumDone := 0
      ret := .BCAN_OK
      hw := hw
      polls := 0
      reads := 1
      encoded := fun _ => 0 }
  if usrMsgs.length ≠ 1 ∧ ¬ setting.kmalloc then
    { s with ret := .BCAN_FAIL, pc := .txDone }
  else if ¬ setting.copyFromUser then { s with ret := .BCAN_FAIL, pc := .txDone }
  else s

def deadline (zcanTxTimeout : BitVec 64) : BitVec 64 :=
  ktimeEnd (setting.ktimeGet 0) (effectiveTxTimeout zcanTxTimeout)

/-- `zcan_tx_user`, `none` when it has not returned after `fuel` rounds. -/
def zcanTxUser (zcanTxTimeout : BitVec 64) (usrMsgs : List Msg) (hw : TxHw) (fuel : Nat) :
    Option TxState :=
  whileLoop running (setting.body (setting.deadline zcanTxTimeout)) fuel
    (setting.start usrMsgs hw)

end TxSetting

end ApolloContrib.Can
