import ApolloContrib.Library.Ends
import Mathlib.Logic.Function.Basic
import Mathlib.Logic.Relation

namespace ApolloContrib.Cam

open ApolloContrib.Library

/-! The host command interface of a camera, `basa_cam_hci.c`, down to the accesses over
I2C, any of which may fail. -/

def EAGAIN : Int := 11
def EBUSY : Int := 16
def EINVAL : Int := 22

def I2C_ID_CAM_DES_PRLL (index : BitVec 8) : BitVec 8 := 0x60 + index
def I2C_ID_CAM_ISP : BitVec 8 := 0x48

def ZCAM_WAIT_RETRY : Nat := 50

def REG_COMMAND : BitVec 16 := 0x0040
def CMD_DOORBELL : BitVec 16 := 0x8000
def REG_PARAM_POOL_SIZE : Nat := 256
def REG_PARAM_POOL_BASE : BitVec 16 := 0xFC00

def CMD_EBUSY : BitVec 16 := 0x09
def CMD_FLASH_READ : BitVec 16 := 0x8504
def CMD_FLASH_WRITE : BitVec 16 := 0x8505
def CMD_FLASH_STATUS : BitVec 16 := 0x8509

/-- `ioc_zynq_i2c_acc_t`, with data when it is a write. -/
structure I2cAcc where
  i2cId : BitVec 8
  i2cAddr16 : Bool
  i2cAddr : BitVec 16
  i2cData : Option (BitVec 8)
deriving DecidableEq, Repr

/-- The value of `zdev_i2c_read` or `zdev_i2c_write`, the byte that was read, and whether
a write that failed, by a timeout say, reached the camera all the same. -/
structure I2cReply where
  ret : Int
  data : BitVec 8
  reached : Bool
deriving DecidableEq, Repr

/-- What the driver does to the camera, to `zdev_lock` and to the buffer of the caller. -/
inductive CamEvent where
  | lock
  | unlock
  | i2c (acc : I2cAcc) (reply : I2cReply)
  | store (i : Nat) (byte : BitVec 8)
deriving DecidableEq, Repr

abbrev Trace := List CamEvent

/-- What the bus replies to an access may depend on all that went before. -/
abbrev I2cBus := Trace → I2cAcc → I2cReply

abbrev CamM := EStateM Int Trace

section Driver

variable (bus : I2cBus)

def zdevI2c (acc : I2cAcc) : CamM (BitVec 8) := fun trace =>
  let reply := bus trace acc
  if reply.ret ≠ 0 then .error reply.ret (trace ++ [.i2c acc reply])
  else .ok reply.data (trace ++ [.i2c acc reply])

def aliasAcc (index : BitVec 8) (addr : BitVec 16) (data : BitVec 8) : I2cAcc :=
  ⟨I2C_ID_CAM_DES_PRLL index, false, addr, some data⟩

def zcamI2cInit (index : BitVec 8) : CamM Unit := do
  let _ ← zdevI2c bus (aliasAcc index 0x10 (I2C_ID_CAM_ISP <<< 1))
  let _ ← zdevI2c bus (aliasAcc index 0x08 (I2C_ID_CAM_ISP <<< 1))

/-- Whether the accesses succeed is not looked at. -/
def zcamI2cFini (index : BitVec 8) (trace : Trace) : Trace :=
  let trace := trace ++ [.i2c (aliasAcc index 0x10 0) (bus trace (aliasAcc index 0x10 0))]
  trace ++ [.i2c (aliasAcc index 0x08 0) (bus trace (aliasAcc index 0x08 0))]

def zcamI2cRead8 (addr : BitVec 16) : CamM (BitVec 8) :=
  zdevI2c bus ⟨I2C_ID_CAM_ISP, true, addr, none⟩

def zcamI2cRead16 (addr : BitVec 16) : CamM (BitVec 16) := do
  let hi ← zcamI2cRead8 bus addr
  let lo ← zcamI2cRead8 bus (addr + 1)
  pure (hi ++ lo)

def zcamI2cWrite8 (addr : BitVec 16) (data : BitVec 8) : CamM Unit := do
  let _ ← zdevI2c bus ⟨I2C_ID_CAM_ISP, true, addr, some data⟩

def zcamI2cWrite16 (addr data : BitVec 16) : CamM Unit := do
  zcamI2cWrite8 bus addr (data.extractLsb' 8 8)
  zcamI2cWrite8 bus (addr + 1) (data.extractLsb' 0 8)

/-- The loop that waits for the doorbell, with `left` readings left. -/
def waitDoorbell : Nat → BitVec 16 → CamM (BitVec 16)
  | 0, data => pure data
  | left + 1, data =>
      if data &&& CMD_DOORBELL ≠ 0 then do
        let data ← zcamI2cRead16 bus REG_COMMAND
        waitDoorbell left data
      else pure data

def checkResponse (cmd data : BitVec 16) : CamM Unit :=
  if data &&& CMD_DOORBELL ≠ 0 then throw (-EAGAIN)
  else if cmd = CMD_FLASH_STATUS ∧ data = CMD_EBUSY then throw (-EBUSY)
  else if data ≠ 0 then throw (-EINVAL)
  else pure ()

def zcamCommand (cmd : BitVec 16) : CamM Unit := do
  let data ← zcamI2cRead16 bus REG_COMMAND
  if data &&& CMD_DOORBELL ≠ 0 then throw (-EAGAIN)
  else do
    zcamI2cWrite16 bus REG_COMMAND cmd
    let data ← waitDoorbell bus ZCAM_WAIT_RETRY (-1)
    checkResponse cmd data

def poolAddr (start : BitVec 8) (i : Nat) : BitVec 16 :=
  REG_PARAM_POOL_BASE + BitVec.ofNat 16 (start.toNat + i)

/-- `data` points to index `pos` of the buffer of the caller. -/
def zcamParamsRead (start : BitVec 8) (pos : Nat) (size : BitVec 8) : CamM Unit :=
  if start.toNat + size.toNat > REG_PARAM_POOL_SIZE then throw (-EINVAL)
  else forLoop (fun i => do
    let byte ← zcamI2cRead8 bus (poolAddr start i)
    modify (· ++ [.store (pos + i) byte])) size.toNat 0

def zcamParamsWrite (start : BitVec 8) (data : Nat → BitVec 8) (size : BitVec 8) : CamM Unit :=
  if start.toNat + size.toNat > REG_PARAM_POOL_SIZE then throw (-EINVAL)
  else forLoop (fun i => zcamI2cWrite8 bus (poolAddr start i) (data i)) size.toNat 0

def flashStatusLoop : Nat → CamM Unit
  | 0 => throw (-EBUSY)
  | left + 1 =>
      tryCatch (zcamCommand bus CMD_FLASH_STATUS) fun ret =>
        if ret ≠ -EBUSY then throw ret else flashStatusLoop left

def zcamFlashStatus : CamM Unit := flashStatusLoop bus ZCAM_WAIT_RETRY

/-- The frame of `zcam_flash_read` and `zcam_flash_write`: the return value, and what has
been done when it is returned. -/
def underLock {Vars : Type} (index : BitVec 8) (body : CamM (Option Vars)) (trace : Trace) :
    Option (Int × Trace) :=
  let action : CamM (Option Vars) := do
    zcamI2cInit bus index
    body
  match action (trace ++ [.lock]) with
  | .ok none _ => none
  | .ok (some _) trace => some (0, zcamI2cFini bus index trace ++ [.unlock])
  | .error ret trace => some (ret, zcamI2cFini bus index trace ++ [.unlock])

end Driver

end ApolloContrib.Cam
