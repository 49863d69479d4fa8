import ApolloContrib.Reg.Scan
import Mathlib.Data.BitVec

namespace ApolloContrib.Reg

/-! Access to the registers of a card from user space: the register ioctls of
`basa_reg.c` and the register files of `basa_sysfs.c`. -/

def ZYNQ_CHAN_REG_MAX : BitVec 32 := 0x1FFF
def ZYNQ_CHAN_REG_OFFSET : Nat := 0x100
def ZCAN_IP_OFFSET : BitVec 32 := 0x200

def EFAULT : Int := 14
def EINVAL : Int := 22

/-- `zdevCans` are the CAN IP numbers in the order of the array. -/
structure ZynqDev where
  zdevBar0Len : BitVec 32
  zdevBar2Len : BitVec 32
  zdevChanCnt : BitVec 32
  zdevCans : List (BitVec 32)
  zcanTxDma : Bool

structure ModuleParams where
  zynqBringupParam : Bool
  traceCanPio : Bool

/-- The variables `zynq_sysfs_*`, which all the cards share. -/
@[ext] structure SysfsVars where
  chan : BitVec 32
  canIp : BitVec 32
  gRegOffset : BitVec 32
  chanRegOffset : BitVec 32
  canIpRegOffset : BitVec 32
  deriving DecidableEq

def SysfsVars.boot : SysfsVars := ⟨0, 0, 0, 0, 0⟩

/-- The base that an offset is added to: a BAR, or `zchan_reg`, or `zcan_ip_reg`. -/
inductive RegWindow where
  | bar0
  | bar2
  | chan (num : BitVec 32)
  | zcan (ipNum : BitVec 32)
  deriving DecidableEq

structure RegAccess where
  window : RegWindow
  offset : BitVec 32
  write : Option (BitVec 32)
  deriving DecidableEq

/-- What a request does. `parsed` tells whether the text gave all the numbers that
the request uses. -/
structure Outcome where
  vars : SysfsVars
  accesses : List RegAccess
  nullDeref : Bool
  parsed : Bool
  refused : Bool
  deriving DecidableEq

namespace ZynqDev

variable (zdev : ZynqDev)

def canIpToZcan (canIpNum : BitVec 32) : Option (BitVec 32) :=
  if zdev.zdevCans.length ≤ canIpNum.toNat then none
  else zdev.zdevCans.find? (· = canIpNum)

def barAccess (params : ModuleParams) (window : RegWindow) (reg : BitVec 32)
    (write : Option (BitVec 32)) : List RegAccess :=
  if params.zynqBringupParam then [] else [⟨window, reg, write⟩]

def zynqGReg (params : ModuleParams) : BitVec 32 → Option (BitVec 32) → List RegAccess :=
  barAccess params .bar0

def zynqBar2Reg (params : ModuleParams) : BitVec 32 → Option (BitVec 32) → List RegAccess :=
  barAccess params .bar2

/-- `copyFrom` and `copyTo` tell whether the copies from and to the user succeed; a
read has no `write`. -/
def zynqRegIoctl (params : ModuleParams) (vars : SysfsVars) (copyFrom copyTo : Bool)
    (regBar regOffset : BitVec 32) (write : Option (BitVec 32)) : Int × Outcome :=
  if copyFrom = false then
    (-EFAULT, ⟨vars, [], false, true, true⟩)
  else if regBar = 0 then
    let err := if write = none ∧ copyTo = false then -EFAULT else 0
    (err, ⟨vars, zynqGReg params regOffset write, false, true, err ≠ 0⟩)
  else if regBar = 2 then
    let err := if write = none ∧ copyTo = false then -EFAULT else 0
    (err, ⟨vars, zynqBar2Reg params regOffset write, false, true, err ≠ 0⟩)
  else
    (-EINVAL, ⟨vars, [], false, true, true⟩)

def zynqSysfsCanIpSet (vars : SysfsVars) (text : List Char) (canIp : BitVec 32) : Outcome :=
  let scan := scanOne (scanUnsigned 10) text canIp 0
  if zdev.zdevCans.length ≤ scan.first.toNat ∨ zdev.canIpToZcan scan.first = none then
    ⟨vars, [], false, scan.count = 1, true⟩
  else
    ⟨{ vars with canIp := scan.first }, [], false, scan.count = 1, false⟩

def zynqSysfsChanSet (vars : SysfsVars) (text : List Char) (chan : BitVec 32) : Outcome :=
  let scan := scanOne (scanUnsigned 10) text chan 0
  if zdev.zdevChanCnt ≤ scan.first then
    ⟨vars, [], false, scan.count = 1, true⟩
  else
    ⟨{ vars with chan := scan.first }, [], false, scan.count = 1, false⟩

/-- `echo <offset> <val>` or `echo <offset>`, in a file whose offsets go up to
`limit`. The variables that a scan leaves alone keep what was on the stack. -/
def regSet (limit : BitVec 32) (access : BitVec 32 → Option (BitVec 32) → RegAccess)
    (remember : BitVec 32 → SysfsVars) (vars : SysfsVars) (text : List Char)
    (offset val : BitVec 32) : Outcome :=
  if ' ' ∈ text then
    let scan := scanTwo (scanUnsigned 16) text offset val
    if scan.first > limit then
      ⟨vars, [], false, scan.count = 2, true⟩
    else
      ⟨remember scan.first, [access scan.first (some scan.second)], false,
        scan.count = 2, false⟩
  else
    let scan := scanOne (scanUnsigned 16) text offset val
    if scan.first > limit then
      ⟨vars, [], false, scan.count = 1, true⟩
    else
      ⟨remember scan.first, [], false, scan.count = 1, false⟩

def regRead (access : BitVec 32 → Option (BitVec 32) → RegAccess)
    (vars : SysfsVars) (offset : BitVec 32) : Outcome :=
  ⟨vars, [access offset none], false, true, false⟩

def gRegAccess (offset : BitVec 32) (write : Option (BitVec 32)) : RegAccess :=
  ⟨.bar0, offset, write⟩

def zynqSysfsGRegRead (vars : SysfsVars) : Outcome :=
  regRead gRegAccess vars vars.gRegOffset

def zynqSysfsGRegSet (vars : SysfsVars) : List Char → BitVec 32 → BitVec 32 → Outcome :=
  regSet (zdev.zdevBar0Len - 4) gRegAccess ({ vars with gRegOffset := · }) vars

def chanRegAccess (vars : SysfsVars) (offset : BitVec 32) (write : Option (BitVec 32)) :
    RegAccess :=
  ⟨.chan vars.chan, offset, write⟩

def zynqSysfsChanRegRead (vars : SysfsVars) : Outcome :=
  regRead (chanRegAccess vars) vars vars.chanRegOffset

def zynqSysfsChanRegSet (vars : SysfsVars) :
    List Char → BitVec 32 → BitVec 32 → Outcome :=
  regSet ZYNQ_CHAN_REG_MAX (chanRegAccess vars) ({ vars with chanRegOffset := · }) vars

/-- Offsets past one CAN IP go to BAR 2 as a whole. -/
def canIpRegAccess (vars : SysfsVars) (offset : BitVec 32) (write : Option (BitVec 32)) :
    RegAccess :=
  match zdev.canIpToZcan vars.canIp with
  | some ipNum =>
      if offset ≤ ZCAN_IP_OFFSET - 4 then ⟨.zcan ipNum, offset, write⟩
      else ⟨.bar2, offset, write⟩
  | none => ⟨.bar2, offset, write⟩

def zynqSysfsCanIpRegRead (vars : SysfsVars) : Outcome :=
  regRead (zdev.canIpRegAccess vars) vars vars.canIpRegOffset

def zynqSysfsCanIpRegSet (vars : SysfsVars) :
    List Char → BitVec 32 → BitVec 32 → Outcome :=
  regSet (zdev.zdevBar2Len - 4) (zdev.canIpRegAccess vars)
    ({ vars with canIpRegOffset := · }) vars

/-- `msgcnt` is 1 unless the text says otherwise. -/
def scanMsgcnt (text : List Char) : BitVec 32 :=
  if ' ' ∈ text then (scanTwo scanSigned text 1 1).second
  else (scanOne scanSigned text 1 1).first

/-- `can_ip_test` and `can_ip_hi_test`. `zcan_pio_test` looks at its CAN unless there
is nothing to send. -/
def zynqSysfsCanIpTest (params : ModuleParams) (vars : SysfsVars) (text : List Char) :
    Outcome :=
  let null := (zdev.canIpToZcan vars.canIp).isNone
  if zdev.zcanTxDma then
    ⟨vars, [], null, true, true⟩
  else
    ⟨vars, [], null && (scanMsgcnt text ≠ 0 || params.traceCanPio), true, false⟩

def zynqSysfsCanTest (vars : SysfsVars) : Outcome :=
  ⟨vars, [], (zdev.canIpToZcan vars.canIp).isNone, true, !zdev.zcanTxDma⟩

def zynqSysfsChanPioInfoShow (vars : SysfsVars) : Outcome :=
  ⟨vars, [], (zdev.canIpToZcan vars.canIp).isNone, true, false⟩

end ZynqDev

/-- The words beside a text are what the uninitialised variables of the handler hold. -/
inductive Request where
  | regIoctl (copyFrom copyTo : Bool) (regBar regOffset : BitVec 32)
      (write : Option (BitVec 32))
  | canIpSet (text : List Char) (canIp : BitVec 32)
  | chanSet (text : List Char) (chan : BitVec 32)
  | gRegRead
  | gRegSet (text : List Char) (offset val : BitVec 32)
  | chanRegRead
  | chanRegSet (text : List Char) (offset val : BitVec 32)
  | canIpRegRead
  | canIpRegSet (text : List Char) (offset val : BitVec 32)
  | canIpTest (text : List Char)
  | canTest
  | chanPioInfo

def ZynqDev.serve (zdev : ZynqDev) (params : ModuleParams) (vars : SysfsVars) :
    Request → Outcome
  | .regIoctl copyFrom copyTo regBar regOffset write =>
      (zynqRegIoctl params vars copyFrom copyTo regBar regOffset write).2
  | .canIpSet text canIp => zdev.zynqSysfsCanIpSet vars text canIp
  | .chanSet text chan => zdev.zynqSysfsChanSet vars text chan
  | .gRegRead => zynqSysfsGRegRead vars
  | .gRegSet text offset val => zdev.zynqSysfsGRegSet vars text offset val
  | .chanRegRead => zynqSysfsChanRegRead vars
  | .chanRegSet text offset val => zynqSysfsChanRegSet vars text offset val
  | .canIpRegRead => zdev.zynqSysfsCanIpRegRead vars
  | .canIpRegSet text offset val => zdev.zynqSysfsCanIpRegSet vars text offset val
  | .canIpTest text => zdev.zynqSysfsCanIpTest params vars text
  | .canTest => zdev.zynqSysfsCanTest vars
  | .chanPioInfo => zdev.zynqSysfsChanPioInfoShow vars

end ApolloContrib.Reg
