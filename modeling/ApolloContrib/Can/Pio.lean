import ApolloContrib.Can.RxRing

namespace ApolloContrib.Can

/-! The configuration half of `zynq_can_t`: the operations of `basa_can.c` that
program the CAN IP and keep a shadow of what they programmed. -/

inductive ZynqState where
  | ZYNQ_STATE_INVAL
  | ZYNQ_STATE_RESET
  | ZYNQ_STATE_INIT
  | ZYNQ_STATE_START
  | ZYNQ_STATE_STOP
deriving DecidableEq, Repr

inductive ZcanIpMode where
  | ZCAN_IP_NORMAL
  | ZCAN_IP_LOOPBACK
  | ZCAN_IP_SLEEP
deriving DecidableEq, Repr

def ZCAN_IP_SRR_CEN : BitVec 32 := 2
def ZCAN_IP_MSR_NORMAL : BitVec 32 := 0
def ZCAN_IP_MSR_SLEEP : BitVec 32 := 1
def ZCAN_IP_MSR_LOOPBACK : BitVec 32 := 2
def ZCAN_IP_BRPR_1M : BitVec 32 := 0
def ZCAN_IP_BRPR_500K : BitVec 32 := 1
def ZCAN_IP_BRPR_250K : BitVec 32 := 3
def ZCAN_IP_BRPR_125K : BitVec 32 := 7
def ZCAN_IP_BTR_DEFAULT : BitVec 32 := 0xA3
def ZCAN_IP_AFR_NONE : BitVec 32 := 0
def ZCAN_IP_INTR_ALL : BitVec 32 := 0x352

def ZYNQ_BAUDRATE_500K : BitVec 64 := 1
def ZYNQ_BAUDRATE_NUM : Nat := 4

def EFAULT : Int := 14
def EINVAL : Int := 22

def brprRegValues : List (BitVec 32) :=
  [ZCAN_IP_BRPR_1M, ZCAN_IP_BRPR_500K, ZCAN_IP_BRPR_250K, ZCAN_IP_BRPR_125K]

/-- `brpr_reg_val[index]`; `none` is an access outside the array. -/
def brprRegVal (index : Int) : Option (BitVec 32) :=
  if 0 ≤ index then brprRegValues[index.toNat]? else none

theorem brprRegVal_isSome_iff (index : Int) :
    (brprRegVal index).isSome ↔ 0 ≤ index ∧ index < ZYNQ_BAUDRATE_NUM := by
  unfold brprRegVal
  split
  next hpos =>
    rw [isSome_getElem?]
    simp only [brprRegValues, List.length_cons, List.length_nil,
      ZYNQ_BAUDRATE_NUM]
    omega
  next hneg => simp [hneg]

/-- The CAN IP registers, each with the value last programmed. -/
structure ZcanIpRegs where
  srr : BitVec 32
  msr : BitVec 32
  brpr : BitVec 32
  btr : BitVec 32
  afr : BitVec 32
  ier : BitVec 32
deriving DecidableEq, Repr

structure ZynqCanPio where
  zcanPioState : ZynqState
  zcanPioLoopback : Nat
  zcanPioBaudrate : BitVec 64
  zcanPioOpened : Nat
  zcanBufRxNum : Nat
  zcanIpReg : ZcanIpRegs
deriving DecidableEq, Repr

namespace ZynqCanPio

/-- The structure as `kzalloc` hands it out, over a CAN IP out of reset. -/
def zeroed : ZynqCanPio where
  zcanPioState := .ZYNQ_STATE_INVAL
  zcanPioLoopback := 0
  zcanPioBaudrate := 0
  zcanPioOpened := 0
  zcanBufRxNum := 0
  zcanIpReg := ⟨0, 0, 0, 0, 0, 0⟩

def writeSrr (zcan : ZynqCanPio) (value : BitVec 32) : ZynqCanPio :=
  { zcan with zcanIpReg := { zcan.zcanIpReg with srr := value } }

def setState (zcan : ZynqCanPio) (state : ZynqState) : ZynqCanPio :=
  { zcan with zcanPioState := state }

def programmed (zcan : ZynqCanPio) (ipMode brpr : BitVec 32) : ZynqCanPio :=
  { zcan with
    zcanPioState := .ZYNQ_STATE_INIT
    zcanIpReg :=
      { srr := 0
        msr := ipMode
        brpr := brpr
        btr := ZCAN_IP_BTR_DEFAULT
        afr := ZCAN_IP_AFR_NONE
        ier := ZCAN_IP_INTR_ALL } }

/-- Whether or not it resets the channel first, the function clears SRR and
then programs every other register. -/
def zcanPioChipInit (zcan : ZynqCanPio) (ipMode : BitVec 32) : Option ZynqCanPio :=
  (brprRegVal zcan.zcanPioBaudrate.toNat).map fun brpr => zcan.programmed ipMode brpr

def zcanPioStart (zcan : ZynqCanPio) : ZynqCanPio :=
  (zcan.writeSrr ZCAN_IP_SRR_CEN).setState .ZYNQ_STATE_START

def zcanPioStop (zcan : ZynqCanPio) : ZynqCanPio :=
  (zcan.setState .ZYNQ_STATE_STOP).writeSrr 0

def zcanPioReset (zcan : ZynqCanPio) : Option ZynqCanPio :=
  (zcan.setState .ZYNQ_STATE_RESET).zcanPioChipInit ZCAN_IP_MSR_NORMAL

def zcanPioResetNoinit (zcan : ZynqCanPio) : ZynqCanPio :=
  (zcan.setState .ZYNQ_STATE_RESET).writeSrr 0

/-- The tail that `zcan_pio_loopback_set` and `zcan_pio_loopback_unset` share:
a chip that was started is started again. -/
def restart (zcan : ZynqCanPio) (pioState : ZynqState) : ZynqCanPio :=
  if pioState = .ZYNQ_STATE_START then zcan.zcanPioStart else zcan

def setLoopback (zcan : ZynqCanPio) (loopback : Nat) : ZynqCanPio :=
  { zcan with zcanPioLoopback := loopback }

def zcanPioLoopbackSet (zcan : ZynqCanPio) : Option ZynqCanPio :=
  (zcan.zcanPioChipInit ZCAN_IP_MSR_LOOPBACK).map fun init =>
    (init.setLoopback 1).restart zcan.zcanPioState

def zcanPioLoopbackUnset (zcan : ZynqCanPio) : Option ZynqCanPio :=
  (zcan.zcanPioChipInit ZCAN_IP_MSR_NORMAL).map fun init =>
    (init.setLoopback 0).restart zcan.zcanPioState

def writeBrpr (zcan : ZynqCanPio) (value : BitVec 32) : ZynqCanPio :=
  { zcan with zcanIpReg := { zcan.zcanIpReg with brpr := value } }

/-- SRR is cleared around the write of BRPR and then restored. -/
def setBaudrate (zcan : ZynqCanPio) (baudrate brpr : BitVec 32) : ZynqCanPio :=
  { ((zcan.writeSrr 0).writeBrpr brpr).writeSrr zcan.zcanIpReg.srr with
    zcanPioBaudrate := baudrate.signExtend 64 }

def zcanPioSetBaudrate (zcan : ZynqCanPio) (baudrate : BitVec 32) :
    Option (Int × ZynqCanPio) :=
  if (ZYNQ_BAUDRATE_NUM : Int) ≤ baudrate.toInt then
    some (-EINVAL, zcan)
  else
    (brprRegVal baudrate.toInt).map fun brpr => (0, zcan.setBaudrate baudrate brpr)

end ZynqCanPio

inductive ZynqIocCan where
  | ZYNQ_IOC_CAN_TX_TIMEOUT_SET
  | ZYNQ_IOC_CAN_RX_TIMEOUT_SET
  | ZYNQ_IOC_CAN_DEV_START
  | ZYNQ_IOC_CAN_DEV_STOP
  | ZYNQ_IOC_CAN_DEV_RESET
  | ZYNQ_IOC_CAN_BAUDRATE_SET
  | ZYNQ_IOC_CAN_BAUDRATE_GET
  | ZYNQ_IOC_CAN_LOOPBACK_SET
  | ZYNQ_IOC_CAN_LOOPBACK_UNSET
  | ZYNQ_IOC_CAN_RECV
  | ZYNQ_IOC_CAN_SEND
  | ZYNQ_IOC_CAN_SEND_HIPRI
  | ZYNQ_IOC_CAN_GET_STATUS_ERR
  | unknown
deriving DecidableEq, Repr

def faultErr (fault : Bool) : Int := if fault then -EFAULT else 0

namespace ZynqCanPio

/-- `zcan_ioctl` on the configuration; `fault` is whether `copy_to_user` fails.
The commands that transfer messages, read a status or set a timeout leave it as
it is. -/
def zcanIoctl (zcan : ZynqCanPio) (cmd : ZynqIocCan) (arg : BitVec 64)
    (fault : Bool) : Option (Int × ZynqCanPio) :=
  match cmd with
  | .ZYNQ_IOC_CAN_TX_TIMEOUT_SET | .ZYNQ_IOC_CAN_RX_TIMEOUT_SET => some (0, zcan)
  | .ZYNQ_IOC_CAN_DEV_START => some (0, zcan.zcanPioStart)
  | .ZYNQ_IOC_CAN_DEV_STOP => some (0, zcan.zcanPioStop)
  | .ZYNQ_IOC_CAN_DEV_RESET => zcan.zcanPioReset.map fun next => (0, next)
  -- the unsigned long argument is passed on as an int
  | .ZYNQ_IOC_CAN_BAUDRATE_SET => zcan.zcanPioSetBaudrate (arg.setWidth 32)
  | .ZYNQ_IOC_CAN_LOOPBACK_SET => zcan.zcanPioLoopbackSet.map fun next => (0, next)
  | .ZYNQ_IOC_CAN_LOOPBACK_UNSET => zcan.zcanPioLoopbackUnset.map fun next => (0, next)
  | .ZYNQ_IOC_CAN_BAUDRATE_GET | .ZYNQ_IOC_CAN_RECV | .ZYNQ_IOC_CAN_SEND
  | .ZYNQ_IOC_CAN_SEND_HIPRI | .ZYNQ_IOC_CAN_GET_STATUS_ERR =>
    some (faultErr fault, zcan)
  | .unknown => some (-EINVAL, zcan)

def setOpened (zcan : ZynqCanPio) (opened : Nat) : ZynqCanPio :=
  { zcan with zcanPioOpened := opened }

/-- `devErr` is what `ZDEV_IS_ERR` reads after the reset. -/
def zcanOpen (zcan : ZynqCanPio) (devErr : Bool) :
    Option (BcanErrCode × ZynqCanPio) :=
  if zcan.zcanPioOpened ≠ 0 then
    some (.BCAN_DEV_BUSY, zcan)
  else
    (zcan.setOpened 1).zcanPioReset.map fun next =>
      if devErr then (.BCAN_DEV_ERR, next.setOpened 0) else (.BCAN_OK, next)

def zcanRelease (zcan : ZynqCanPio) : ZynqCanPio :=
  ((zcan.setOpened 0).setState .ZYNQ_STATE_RESET).writeSrr 0

def clampRxBufNum (zynqCanRxBufNum : Nat) : Nat :=
  if zynqCanRxBufNum < ZCAN_IP_MSG_MIN then ZCAN_IP_MSG_MIN
  else if ZCAN_IP_MSG_MAX < zynqCanRxBufNum then ZCAN_IP_MSG_MAX
  else zynqCanRxBufNum

def ipModeMsr : ZcanIpMode → BitVec 32
  | .ZCAN_IP_SLEEP => ZCAN_IP_MSR_SLEEP
  | .ZCAN_IP_LOOPBACK => ZCAN_IP_MSR_LOOPBACK
  | .ZCAN_IP_NORMAL => ZCAN_IP_MSR_NORMAL

/-- `cdev` and `kzalloc` are whether the device node and the receive ring could
be allocated. -/
def zcanPioInit (zcan : ZynqCanPio) (mode : ZcanIpMode) (zynqCanRxBufNum : Nat)
    (cdev kzalloc : Bool) : Option (Int × ZynqCanPio) :=
  if ¬ cdev ∨ ¬ kzalloc then
    some (-1, zcan)
  else
    ({ zcan with
      zcanBufRxNum := clampRxBufNum zynqCanRxBufNum
      zcanPioBaudrate := ZYNQ_BAUDRATE_500K }.zcanPioChipInit (ipModeMsr mode)).map
        fun next => (0, next)

def initialised (mode : ZcanIpMode) (zynqCanRxBufNum : Nat) : ZynqCanPio :=
  { zeroed with
    zcanBufRxNum := clampRxBufNum zynqCanRxBufNum
    zcanPioBaudrate := ZYNQ_BAUDRATE_500K }.programmed (ipModeMsr mode)
      ZCAN_IP_BRPR_500K

theorem zcanPioInit_eq (mode : ZcanIpMode) (zynqCanRxBufNum : Nat) :
    zeroed.zcanPioInit mode zynqCanRxBufNum true true =
      some (0, initialised mode zynqCanRxBufNum) := by
  cases mode <;> rfl

@[simp] theorem programmed_zcanPioState (zcan : ZynqCanPio) (msr brpr : BitVec 32) :
    (zcan.programmed msr brpr).zcanPioState = .ZYNQ_STATE_INIT := rfl

@[simp] theorem programmed_srr (zcan : ZynqCanPio) (msr brpr : BitVec 32) :
    (zcan.programmed msr brpr).zcanIpReg.srr = 0 := rfl

@[simp] theorem zcanPioStart_zcanPioState (zcan : ZynqCanPio) :
    zcan.zcanPioStart.zcanPioState = .ZYNQ_STATE_START := rfl

@[simp] theorem zcanPioStart_srr (zcan : ZynqCanPio) :
    zcan.zcanPioStart.zcanIpReg.srr = ZCAN_IP_SRR_CEN := rfl

@[simp] theorem zcanPioStop_zcanPioState (zcan : ZynqCanPio) :
    zcan.zcanPioStop.zcanPioState = .ZYNQ_STATE_STOP := rfl

@[simp] theorem zcanPioStop_srr (zcan : ZynqCanPio) :
    zcan.zcanPioStop.zcanIpReg.srr = 0 := rfl

@[simp] theorem zcanRelease_zcanPioState (zcan : ZynqCanPio) :
    zcan.zcanRelease.zcanPioState = .ZYNQ_STATE_RESET := rfl

@[simp] theorem zcanRelease_srr (zcan : ZynqCanPio) :
    zcan.zcanRelease.zcanIpReg.srr = 0 := rfl

end ZynqCanPio

end ApolloContrib.Can
