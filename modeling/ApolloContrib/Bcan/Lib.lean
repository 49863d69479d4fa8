import ApolloContrib.Can.Ioctl

namespace ApolloContrib.Bcan

open ApolloContrib.Can

/-! The user library `bcan_lib.c` over the driver of one device. -/

def BCAN_MAX_TX_MSG : Nat := 256
def BCAN_MAX_RX_MSG : Nat := 256

def BCAN_DEV_UNINIT : BitVec 32 := -1
def BCAN_DEV_OPEN : BitVec 32 := 1
def BCAN_DEV_CLOSE : BitVec 32 := 2
def BCAN_DEV_BAUD_SET : BitVec 32 := 4
def BCAN_DEV_NORMAL : BitVec 32 := 8
def BCAN_DEV_LOOPBACK : BitVec 32 := 16
def BCAN_DEV_START : BitVec 32 := 64
def BCAN_DEV_STOP : BitVec 32 := 128
def BCAN_DEV_ACTIVE : BitVec 32 := 256
def BCAN_DEV_RECVD : BitVec 32 := 512

def BCAN_BAUDRATE_NUM : Nat := 4

structure BcanIhdl where
  devState : BitVec 32
  baudrate : BitVec 32
deriving DecidableEq, Repr

structure BcanSystem where
  zcan : ZynqCan
  hdl : Option BcanIhdl

def hasBit (cstate bit : BitVec 32) : Prop := cstate &&& bit ≠ 0

instance (cstate bit : BitVec 32) : Decidable (hasBit cstate bit) :=
  inferInstanceAs (Decidable (_ ≠ _))

def requireBit (cstate bit : BitVec 32) : BcanErrCode :=
  if hasBit cstate bit then .BCAN_OK else .BCAN_DEV_INVALID

def bcanCheckState (ahdl : Option BcanIhdl) (pstate : BitVec 32) : BcanErrCode :=
  match ahdl with
  | none => .BCAN_HDL_INVALID
  | some hdl =>
      let cstate := hdl.devState
      if pstate = BCAN_DEV_OPEN then
        if cstate ≠ BCAN_DEV_UNINIT then .BCAN_DEV_INVALID else .BCAN_OK
      else if pstate = BCAN_DEV_BAUD_SET ∨ pstate = BCAN_DEV_LOOPBACK then
        requireBit cstate BCAN_DEV_OPEN
      else if pstate = BCAN_DEV_START then
        requireBit cstate BCAN_DEV_BAUD_SET
      else if pstate = BCAN_DEV_ACTIVE ∨ pstate = BCAN_DEV_STOP then
        requireBit cstate BCAN_DEV_START
      else if pstate = BCAN_DEV_CLOSE then
        requireBit cstate BCAN_DEV_OPEN
      else .BCAN_OK

namespace BcanSystem

variable (sys : BcanSystem)

def setPio (pio : ZynqCanPio) : BcanSystem :=
  { sys with zcan := { sys.zcan with pio := pio } }

def setHdl (hdl : Option BcanIhdl) : BcanSystem :=
  { sys with hdl := hdl }

/-- A configuration ioctl; the flag tells whether it returns -1. -/
def ioctl (cmd : ZynqIocCan) (arg : BitVec 64) : Option (Bool × BcanSystem) :=
  (sys.zcan.pio.zcanIoctl cmd arg false).map fun result =>
    (decide (result.1 < 0), sys.setPio result.2)

def close : BcanSystem := sys.setPio sys.zcan.pio.zcanRelease

/-- `malloc` is what the memory of the handle holds, `none` when there is none,
and `devErr` what `ZDEV_IS_ERR` reads while the driver opens the device. -/
def bcanOpen (txTo rxTo : BitVec 64) (malloc : Option BcanIhdl) (devErr : Bool) :
    Option (BcanErrCode × BcanSystem) :=
  (sys.zcan.pio.zcanOpen devErr).bind fun (err, pio) =>
    let sys := sys.setPio pio
    if err ≠ .BCAN_OK then some (.BCAN_PARAM_INVALID, sys)
    else
      match malloc with
      | none => some (.BCAN_NO_BUFFERS, sys.close)
      | some hdl =>
          (sys.ioctl .ZYNQ_IOC_CAN_TX_TIMEOUT_SET txTo).bind fun (failed, sys) =>
            if failed then some (.BCAN_PARAM_INVALID, sys.close)
            else
              (sys.ioctl .ZYNQ_IOC_CAN_RX_TIMEOUT_SET rxTo).bind fun (failed, sys) =>
                if failed then some (.BCAN_PARAM_INVALID, sys.close)
                else
                  some (.BCAN_OK,
                    sys.setHdl (some { hdl with devState := BCAN_DEV_OPEN }))

def bcanClose : BcanErrCode × BcanSystem :=
  match bcanCheckState sys.hdl BCAN_DEV_CLOSE with
  | .BCAN_OK => (.BCAN_OK, sys.close.setHdl none)
  | err => (err, sys)

/-- The common shape of the configuration calls: check the state, run one ioctl
and record its success in the handle. -/
def configure (pstate : BitVec 32) (cmd : ZynqIocCan) (arg : BitVec 64)
    (failedErr : BcanErrCode) (record : BcanIhdl → BcanIhdl) :
    Option (BcanErrCode × BcanSystem) :=
  match bcanCheckState sys.hdl pstate with
  | .BCAN_OK =>
      (sys.ioctl cmd arg).map fun (failed, sys) =>
        if failed then (failedErr, sys) else (.BCAN_OK, sys.setHdl (sys.hdl.map record))
  | err => some (err, sys)

def bcanSetBaudrate (rate : BitVec 32) : Option (BcanErrCode × BcanSystem) :=
  sys.configure BCAN_DEV_BAUD_SET .ZYNQ_IOC_CAN_BAUDRATE_SET (rate.setWidth 64)
    .BCAN_ERR fun hdl =>
      { devState := hdl.devState ||| BCAN_DEV_BAUD_SET
        baudrate := rate }

def bcanSetLoopback : Option (BcanErrCode × BcanSystem) :=
  sys.configure BCAN_DEV_LOOPBACK .ZYNQ_IOC_CAN_LOOPBACK_SET 0 .BCAN_ERR fun hdl =>
    { hdl with devState := (hdl.devState &&& ~~~BCAN_DEV_NORMAL) ||| BCAN_DEV_LOOPBACK }

/-- The state to check is given as -1, which passes whatever the state is. -/
def bcanUnsetLoopback : Option (BcanErrCode × BcanSystem) :=
  sys.configure (-1) .ZYNQ_IOC_CAN_LOOPBACK_UNSET 0 .BCAN_ERR fun hdl =>
    { hdl with devState := (hdl.devState &&& ~~~BCAN_DEV_LOOPBACK) ||| BCAN_DEV_NORMAL }

def bcanStart : Option (BcanErrCode × BcanSystem) :=
  sys.configure BCAN_DEV_START .ZYNQ_IOC_CAN_DEV_START 0 .BCAN_ERR fun hdl =>
    { hdl with devState := hdl.devState ||| BCAN_DEV_START }

/-- A failing ioctl leaves the answer `BCAN_OK`. -/
def bcanStop : Option (BcanErrCode × BcanSystem) :=
  sys.configure BCAN_DEV_STOP .ZYNQ_IOC_CAN_DEV_STOP 0 .BCAN_OK fun hdl =>
    { hdl with devState := (hdl.devState ||| BCAN_DEV_STOP) &&& ~~~BCAN_DEV_START }

end BcanSystem

/-- The value of a call, the answer of the driver if it served the request, and
the system. -/
structure IoResult where
  ret : Int
  answer : Option BcanErrCode
  sys : BcanSystem

/-- What `bcan_recv` and `bcan_send` make of the ioctl. The count is unsigned and
is returned as an int. -/
def countRet (result : IocResult) : Int :=
  if result.err < 0 then BcanErrCode.BCAN_ERR.toInt
  else if result.arg.iocMsgNumDone ≠ 0 then result.arg.iocMsgNumDone.toInt
  else result.arg.iocMsgErr

def hiPriRet (result : IocResult) : Int :=
  if result.err < 0 then BcanErrCode.BCAN_ERR.toInt
  else if result.arg.iocMsgNumDone = 1 then 1
  else result.arg.iocMsgErr

namespace BcanSystem

variable (sys : BcanSystem)

/-- The first receive after `bcan_open` asks the driver to drop stale messages. -/
def rxClear (hdl : BcanIhdl) : BitVec 32 :=
  if hasBit hdl.devState BCAN_DEV_RECVD then 0 else 1

def markRecvd (hdl : BcanIhdl) : BcanIhdl :=
  if hasBit hdl.devState BCAN_DEV_RECVD then hdl
  else { hdl with devState := hdl.devState ||| BCAN_DEV_RECVD }

def ioDone (ret : IocResult → Int) (result : IocResult) : IoResult where
  ret := ret result
  answer := result.answer
  sys := { sys with zcan := result.zcan }

def ioRefused (err : BcanErrCode) : IoResult where
  ret := err.toInt
  answer := none
  sys := sys

/-- The argument on the stack, of which `stack` is the prior content. -/
def iocArg (stack : IocBcanMsg) (buf : Nat) (numMsg : BitVec 32) : IocBcanMsg :=
  { stack with iocMsgs := buf, iocMsgNum := numMsg }

def bcanRecv (buf : Nat) (numMsg : BitVec 32) (stack : IocBcanMsg) (call : IocCall)
    (rxCall : RxCall) : IoResult :=
  if numMsg = 0 ∨ BCAN_MAX_RX_MSG < numMsg.toNat then
    sys.ioRefused .BCAN_PARAM_INVALID
  else
    match sys.hdl, bcanCheckState sys.hdl BCAN_DEV_ACTIVE with
    | some hdl, .BCAN_OK =>
        let sys := sys.setHdl (some (markRecvd hdl))
        let arg := { iocArg stack buf numMsg with iocMsgRxClear := rxClear hdl }
        sys.ioDone countRet (sys.zcan.zcanIoctlRecv arg call rxCall)
    | _, err => sys.ioRefused err

def bcanSend (buf : Nat) (numMsg : BitVec 32) (stack : IocBcanMsg) (call : IocCall)
    (txCall : TxCall) (usrMsgs : Nat → Msg) : IoResult :=
  if numMsg = 0 ∨ BCAN_MAX_TX_MSG < numMsg.toNat then
    sys.ioRefused .BCAN_PARAM_INVALID
  else
    match bcanCheckState sys.hdl BCAN_DEV_ACTIVE with
    | .BCAN_OK =>
        sys.ioDone countRet
          (sys.zcan.zcanIoctlSend false (iocArg stack buf numMsg) call txCall usrMsgs)
    | err => sys.ioRefused err

def bcanSendHiPri (buf : Nat) (stack : IocBcanMsg) (call : IocCall)
    (txCall : TxCall) (usrMsgs : Nat → Msg) : IoResult :=
  match bcanCheckState sys.hdl BCAN_DEV_ACTIVE with
  | .BCAN_OK =>
      sys.ioDone hiPriRet
        (sys.zcan.zcanIoctlSend true (iocArg stack buf 1) call txCall usrMsgs)
  | err => sys.ioRefused err

end BcanSystem

/-! What `bcan_check_state` asks of a handle before a transfer. -/

theorem requireBit_eq_ok_iff (cstate bit : BitVec 32) :
    requireBit cstate bit = .BCAN_OK ↔ hasBit cstate bit := by
  unfold requireBit
  split
  next hbit => exact iff_of_true rfl hbit
  next hbit => exact iff_of_false nofun hbit

def IsStarted (ahdl : Option BcanIhdl) : Prop :=
  ∃ hdl, ahdl = some hdl ∧ hasBit hdl.devState BCAN_DEV_START

theorem bcanCheckState_active_iff (ahdl : Option BcanIhdl) :
    bcanCheckState ahdl BCAN_DEV_ACTIVE = .BCAN_OK ↔ IsStarted ahdl := by
  cases ahdl with
  | none => exact iff_of_false nofun (fun ⟨_, hnone, _⟩ => by cases hnone)
  | some hdl =>
      change requireBit hdl.devState BCAN_DEV_START = .BCAN_OK ↔ _
      rw [requireBit_eq_ok_iff]
      constructor
      · intro hbit
        exact ⟨hdl, rfl, hbit⟩
      · rintro ⟨_, heq, hbit⟩
        cases heq
        exact hbit

theorem bcanCheckState_neg {ahdl : Option BcanIhdl} {pstate : BitVec 32}
    (hrefused : bcanCheckState ahdl pstate ≠ .BCAN_OK) :
    (bcanCheckState ahdl pstate).toInt < 0 := by
  apply BcanErrCode.toInt_neg hrefused
  cases ahdl with
  | none => exact nofun
  | some hdl =>
      unfold bcanCheckState requireBit
      dsimp only
      split_ifs <;> exact nofun

end ApolloContrib.Bcan
