import ApolloContrib.Intr.Tasklet
import ApolloContrib.Library.Holding
import Mathlib.Logic.Function.Basic

namespace ApolloContrib.Intr

open ApolloContrib.Library

/-! Setting the interrupts up and taking them down, `zynq_alloc_irq` and `zynq_free_irq`,
on what the kernel answers. -/

def KERNEL_VERSION (a b c : Nat) : Nat := a * 2 ^ 16 + b * 2 ^ 8 + c

def ZYNQ_INT_PER_CARD : Nat := 16

def ENOMEM : Int := 12

/-- Vector numbers by where they come from: `msi i` is `zdev_msi_vec + i`, and `unset` an entry
that was not filled in. -/
inductive IrqVector where
  | unset
  | legacy
  | msi (i : Nat)
  | msix (i : Nat)
deriving DecidableEq, Repr

/-- What a handler is requested with: `zynq_intr` with the device, `zynq_intr_chan` with a
channel. -/
inductive IrqCookie where
  | zdev
  | zchan (ch : Nat)
deriving DecidableEq, Repr

inductive IrqResource where
  | msixp
  | msi (nvec : Nat)
  | msix (nvec : Nat)
  | handler (vec : IrqVector) (cookie : IrqCookie)
deriving DecidableEq, Repr

/-- What the kernel returns, the first argument of the retried calls being how many there were
before; the last fields say what is documented. -/
structure IrqOracle where
  linuxVersionCode : Nat
  kzalloc : Bool
  pciEnableMsix : Nat → Nat → Int
  pciEnableMsixRange : Nat → Nat → Int
  pciEnableMsiExact : Nat → Nat → Int
  pciAllocIrqVectors : Nat → Nat → Int
  requestIrq : IrqVector → Int
  msix_lt : ∀ call nvec, pciEnableMsix call nvec < nvec
  msixRange : ∀ call nvec, pciEnableMsixRange call nvec = nvec ∨
    pciEnableMsixRange call nvec < 0
  msiExact : ∀ call nvec, pciEnableMsiExact call nvec = 0 ∨ pciEnableMsiExact call nvec < 0
  irqVectors : ∀ call nvec, pciAllocIrqVectors call nvec = nvec ∨
    pciAllocIrqVectors call nvec < 0

/-- `zdevMsixp` is the table of the vectors, `zdevTa` the tasklets that are initialised. -/
structure ZdevIrq where
  zynqFwupdateParam : Bool
  zdevChanCnt : Nat
  zdevMsixp : Option (Nat → IrqVector)
  zdevMsixNum : Nat
  zdevMsiNum : Nat
  zdevTa : Nat → Option Tasklet

namespace IrqOracle

variable (o : IrqOracle)

/-- A call that enables interrupts and returns `rc`. -/
def enabling (granted : Bool) (r : IrqResource) (rc : Int) : Holding IrqResource Int :=
  Holding.attempt granted r rc rc

def enableMsix (call nvec : Nat) : Holding IrqResource Int :=
  if o.linuxVersionCode < KERNEL_VERSION 4 12 0 then
    enabling (o.pciEnableMsix call nvec = 0) (.msix nvec) (o.pciEnableMsix call nvec)
  else
    enabling (0 < o.pciEnableMsixRange call nvec) (.msix nvec) (o.pciEnableMsixRange call nvec)

def enableMsi (call nvec : Nat) : Holding IrqResource Int :=
  if o.linuxVersionCode < KERNEL_VERSION 4 11 0 then
    enabling (o.pciEnableMsiExact call nvec = 0) (.msi nvec) (o.pciEnableMsiExact call nvec)
  else
    enabling (0 < o.pciAllocIrqVectors call nvec) (.msi nvec) (o.pciAllocIrqVectors call nvec)

def request (vec : IrqVector) (cookie : IrqCookie) : Holding IrqResource Int :=
  enabling (o.requestIrq vec = 0) (.handler vec cookie) (o.requestIrq vec)

def freeIrq (vec : IrqVector) (cookie : IrqCookie) : Holding IrqResource Unit :=
  Holding.release (.handler vec cookie)

/-- The label `msix_retry`: the last result, and the number of vectors it was asked for. The
first argument bounds the rounds. -/
def msixRetry : Nat → Nat → Nat → Holding IrqResource (Int × Nat)
  | 0, _, _ => failure
  | fuel + 1, call, maxNvec => do
      let rc ← o.enableMsix call maxNvec
      if rc < 0 then pure (rc, maxNvec)
      else if 0 < rc then msixRetry fuel (call + 1) 1
      else pure (rc, maxNvec)

def zdevEnableMsix (fuel : Nat) (zdev : ZdevIrq) : Holding IrqResource (Int × ZdevIrq) :=
  let maxNvec := if zdev.zynqFwupdateParam then 1 else zdev.zdevChanCnt
  if !o.kzalloc then pure (-ENOMEM, { zdev with zdevMsixp := none })
  else do
    Holding.acquire .msixp
    let (rc, nvec) ← o.msixRetry fuel 0 maxNvec
    if rc < 0 then
      Holding.release .msixp
      pure (rc, { zdev with zdevMsixp := none })
    else
      pure (0, { zdev with
        zdevMsixp := some fun i => if i < nvec then .msix i else .unset
        zdevMsixNum := nvec })

def msiRetry : Nat → Nat → Nat → Holding IrqResource (Int × Nat)
  | 0, _, _ => failure
  | fuel + 1, call, maxNvec => do
      let rc ← o.enableMsi call maxNvec
      if rc < 0 then if maxNvec = 1 then pure (rc, maxNvec) else msiRetry fuel (call + 1) 1
      else pure (0, maxNvec)

def zdevEnableMsi (fuel : Nat) (zdev : ZdevIrq) : Holding IrqResource (Int × ZdevIrq) := do
  let (rc, nvec) ← o.msiRetry fuel 0 1
  if rc < 0 then pure (rc, zdev) else pure (0, { zdev with zdevMsiNum := nvec })

def requestRound (vec : Nat → IrqVector) (i : Nat) (_ : Int) :
    Holding IrqResource (Bool × Int) := do
  let rc ← o.request (vec i) (.zchan i)
  pure (rc = 0, rc)

/-- One vector serves the device, more serve a channel each; at the label those that have been
requested go. -/
def zdevSetup (chanCnt num : Nat) (vec : Nat → IrqVector) : Holding IrqResource Int :=
  if num = 1 then o.request (vec 0) .zdev
  else do
    let (i, ok, rc) ← Holding.forLoop (o.requestRound vec) chanCnt 0 0
    if ok then pure 0
    else do
      (List.range i).reverse.forM fun i => freeIrq (vec i) (.zchan i)
      pure rc

def zdevSetupMsix (zdev : ZdevIrq) (msixp : Nat → IrqVector) : Holding IrqResource Int :=
  o.zdevSetup zdev.zdevChanCnt zdev.zdevMsixNum msixp

def zdevSetupMsi (zdev : ZdevIrq) : Holding IrqResource Int :=
  o.zdevSetup zdev.zdevChanCnt zdev.zdevMsiNum .msi

end IrqOracle

namespace ZdevIrq

variable (zdev : ZdevIrq)

def setTa (i : Nat) (t : Option Tasklet) : Option ZdevIrq :=
  if i < ZYNQ_INT_PER_CARD then some { zdev with zdevTa := Function.update zdev.zdevTa i t }
  else none

def noMsi : Bool := zdev.zdevMsixp.isNone && zdev.zdevMsiNum = 0

def intrNum : Nat := if zdev.zdevMsixp.isSome then zdev.zdevMsixNum else zdev.zdevMsiNum

def zdevInitTasklet : Option ZdevIrq :=
  if zdev.noMsi then zdev.setTa 0 (some .dev)
  else if zdev.intrNum = 1 then zdev.setTa 0 (some .dev)
  else (List.range zdev.zdevChanCnt).foldlM (fun zdev i => zdev.setTa i (some (.chan i))) zdev

def zdevFiniTasklet : Option ZdevIrq :=
  if zdev.noMsi then zdev.setTa 0 none
  else (List.range zdev.intrNum).foldlM (fun zdev i => zdev.setTa i none) zdev

def pciDisable (r : IrqResource) : Holding IrqResource Unit := Holding.release r

end ZdevIrq

open ZdevIrq

def requestIrqs (o : IrqOracle) (zdev : ZdevIrq) : Holding IrqResource (Int × ZdevIrq) := do
  let zdev ← liftM zdev.zdevInitTasklet
  match zdev.zdevMsixp with
  | some msixp => do
      let rc ← o.zdevSetupMsix zdev msixp
      if rc ≠ 0 then
        pciDisable (.msix zdev.zdevMsixNum)
        Holding.release .msixp
        pure (rc, { zdev with zdevMsixp := none, zdevMsixNum := 0 })
      else pure (0, zdev)
  | none =>
      if zdev.zdevMsiNum = 0 then do
        let rc ← o.request .legacy .zdev
        pure (rc, zdev)
      else do
        let rc ← o.zdevSetupMsi zdev
        if rc ≠ 0 then
          pciDisable (.msi zdev.zdevMsiNum)
          pure (rc, { zdev with zdevMsiNum := 0 })
        else pure (0, zdev)

def zynqAllocIrq (fuel : Nat) (o : IrqOracle) (zdev : ZdevIrq) :
    Holding IrqResource (Int × ZdevIrq) := do
  let (rc, zdev) ← o.zdevEnableMsix fuel zdev
  if rc ≠ 0 then
    let (_, zdev) ← o.zdevEnableMsi fuel zdev
    requestIrqs o zdev
  else requestIrqs o zdev

def freeHandlers (chanCnt num : Nat) (vec : Nat → IrqVector) : Holding IrqResource Unit :=
  if num = 1 then IrqOracle.freeIrq (vec 0) .zdev
  else (List.range chanCnt).forM fun i => IrqOracle.freeIrq (vec i) (.zchan i)

def zynqFreeIrq (zdev : ZdevIrq) : Holding IrqResource ZdevIrq := do
  match zdev.zdevMsixp with
  | some msixp => do
      freeHandlers zdev.zdevChanCnt zdev.zdevMsixNum msixp
      pciDisable (.msix zdev.zdevMsixNum)
      let zdev ← liftM zdev.zdevFiniTasklet
      Holding.release .msixp
      pure { zdev with zdevMsixp := none, zdevMsixNum := 0, zdevMsiNum := 0 }
  | none => do
      if zdev.zdevMsiNum = 0 then IrqOracle.freeIrq .legacy .zdev
      else
        freeHandlers zdev.zdevChanCnt zdev.zdevMsiNum .msi
        pciDisable (.msi zdev.zdevMsiNum)
      let zdev ← liftM zdev.zdevFiniTasklet
      pure { zdev with zdevMsiNum := 0 }

end ApolloContrib.Intr
