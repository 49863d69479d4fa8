import ApolloContrib.Chan.RxTable
import ApolloContrib.Library.Holding
import Mathlib.Data.Nat.Log

namespace ApolloContrib.Chan

open ApolloContrib.Library

/-! The memory of a DMA channel, and what the kernel answers to each request for it. -/

/-- What a request is for. The address that is handed out is the place itself. -/
inductive Place where
  | txDescp
  | txBufp
  | txBuf (i : Nat)
  | rxPdt
  | rxPtp
  | rxPt (i : Nat)
  | rxPtBufp (i : Nat)
  | rxBuf (i j : Nat)
deriving DecidableEq, Repr

inductive DmaDir where
  | PCI_DMA_BIDIRECTIONAL
  | PCI_DMA_TODEVICE
  | PCI_DMA_FROMDEVICE
deriving DecidableEq, Repr

inductive MapKind where
  | single
  | page
deriving DecidableEq, Repr

inductive DmaResource where
  | consistent (ptr : Place) (dma : BitVec 64) (size : Nat)
  | kmem (ptr : Place)
  | pages (ptr : Place) (order : Nat)
  | mapping (kind : MapKind) (dma : BitVec 64) (size : Nat) (dir : DmaDir)
deriving DecidableEq

/-- Whether there is memory for a place, its bus address, and whether mapping it fails. For a
page of a video buffer there is also `is_vmalloc_addr`. -/
structure DmaEnv where
  pageSize : Nat
  pdev : Bool
  alloc : Place → Bool
  dma : Place → BitVec 64
  mapFails : Place → Bool
  isVmalloc : Place → Bool

section Kernel

variable (env : DmaEnv) (place : Place)

def zchanAllocConsistent (size : Nat) : Holding DmaResource (Option (Place × BitVec 64)) :=
  Holding.attempt (env.alloc place) (.consistent place (env.dma place) size)
    (some (place, env.dma place)) none

def zchanFreeConsistent (ptr : Option Place) (dma : BitVec 64) (size : Nat) :
    Holding DmaResource Unit :=
  match ptr with
  | none => pure ()
  | some ptr => Holding.release (.consistent ptr dma size)

/-- `kmalloc` and `kzalloc`. -/
def kmalloc : Holding DmaResource (Option Place) :=
  Holding.attempt (env.alloc place) (.kmem place) (some place) none

def kfree (ptr : Option Place) : Holding DmaResource Unit :=
  match ptr with
  | none => pure ()
  | some ptr => Holding.release (.kmem ptr)

def getOrder (size : Nat) : Nat :=
  Nat.clog 2 ((size + env.pageSize - 1) / env.pageSize)

def allocPages (order : Nat) : Holding DmaResource (Option Place) :=
  Holding.attempt (env.alloc place) (.pages place order) (some place) none

def freePages (page : Option Place) (order : Nat) : Holding DmaResource Unit :=
  match page with
  | none => failure
  | some page => Holding.release (.pages page order)

/-- `pci_map_single` or `pci_map_page`, with `pci_dma_mapping_error` of what it returns. -/
def pciMap (kind : MapKind) (size : Nat) (dir : DmaDir) :
    Holding DmaResource (BitVec 64 × Bool) :=
  Holding.attempt (!env.mapFails place) (.mapping kind (env.dma place) size dir)
    (env.dma place, false) (env.dma place, true)

def pciUnmap (kind : MapKind) (dma : BitVec 64) (size : Nat) (dir : DmaDir) :
    Holding DmaResource Unit :=
  Holding.release (.mapping kind dma size dir)

end Kernel

structure ZchanBuf where
  zchanBufp : Option Place
  zchanBufPage : Option Place
  zchanBufDma : BitVec 64
deriving DecidableEq, Repr

/-- As `kzalloc` leaves it. -/
def ZchanBuf.zero : ZchanBuf := ⟨none, none, 0⟩

section Buf

variable (env : DmaEnv) (place : Place) (buf : ZchanBuf) (bufsz : Nat) (dmatype : DmaDir)

/-- The flag tells whether 0 is returned. -/
def zchanAllocBuf : Holding DmaResource (Bool × ZchanBuf) := do
  if dmatype = .PCI_DMA_BIDIRECTIONAL then
    match ← zchanAllocConsistent env place bufsz with
    | none => pure (false, buf)
    | some (bufp, dma) => pure (true, { buf with zchanBufDma := dma, zchanBufp := bufp })
  else if bufsz < env.pageSize then
    match ← kmalloc env place with
    | none => pure (false, buf)
    | some bufp =>
        if env.pdev then
          let (dma, error) ← pciMap env place .single bufsz dmatype
          let buf := { buf with zchanBufDma := dma }
          if error then
            kfree (some bufp)
            pure (false, buf)
          else pure (true, { buf with zchanBufp := some bufp })
        else pure (true, { buf with zchanBufp := some bufp })
  else
    match ← allocPages env place (getOrder env bufsz) with
    | none => pure (false, buf)
    | some bufp =>
        if env.pdev then
          let (dma, error) ← pciMap env place .page bufsz dmatype
          let buf := { buf with zchanBufDma := dma }
          if error then
            freePages (some bufp) (getOrder env bufsz)
            pure (false, buf)
          else pure (true, { buf with zchanBufPage := some bufp, zchanBufp := some bufp })
        else pure (true, { buf with zchanBufPage := some bufp, zchanBufp := some bufp })

def zchanFreeBuf : Holding DmaResource ZchanBuf := do
  if dmatype = .PCI_DMA_BIDIRECTIONAL then
    zchanFreeConsistent buf.zchanBufp buf.zchanBufDma bufsz
  else if bufsz < env.pageSize then
    if env.pdev then pciUnmap .single buf.zchanBufDma bufsz dmatype
    kfree buf.zchanBufp
  else
    if env.pdev then pciUnmap .page buf.zchanBufDma bufsz dmatype
    freePages buf.zchanBufPage (getOrder env bufsz)
  pure .zero

def filledBuf : ZchanBuf :=
  if dmatype = .PCI_DMA_BIDIRECTIONAL then ⟨some place, none, env.dma place⟩
  else
    { zchanBufp := some place
      zchanBufPage := if bufsz < env.pageSize then none else some place
      zchanBufDma := if env.pdev then env.dma place else 0 }

def mappingOf (kind : MapKind) : Multiset DmaResource :=
  if env.pdev then {.mapping kind (env.dma place) bufsz dmatype} else 0

def bufResources : Multiset DmaResource :=
  if dmatype = .PCI_DMA_BIDIRECTIONAL then {.consistent place (env.dma place) bufsz}
  else if bufsz < env.pageSize then {.kmem place} + mappingOf env place bufsz dmatype .single
  else {.pages place (getOrder env bufsz)} + mappingOf env place bufsz dmatype .page

end Buf

section Rules

open Holding

variable (env : DmaEnv) (place : Place) (size : Nat)

theorem releases_zchanFreeConsistent (dma : BitVec 64) :
    Releases {.consistent place dma size} (zchanFreeConsistent (some place) dma size) :=
  releases_release _

theorem releases_kfree : Releases {.kmem place} (kfree (some place)) :=
  releases_release _

theorem releases_freePages (order : Nat) :
    Releases {.pages place order} (freePages (some place) order) :=
  releases_release _

variable (dmatype : DmaDir)

theorem releases_pciUnmap (kind : MapKind) (dma : BitVec 64) :
    Releases {.mapping kind dma size dmatype} (pciUnmap kind dma size dmatype) :=
  releases_release _

variable (bufsz : Nat)

theorem spec_zchanAllocBuf :
    Spec 0 (zchanAllocBuf env place .zero bufsz dmatype) fun out left =>
      if out.1 then
        out.2 = filledBuf env place bufsz dmatype ∧ left = bufResources env place bufsz dmatype
      else left = 0 := by
  unfold zchanAllocBuf filledBuf bufResources
  split
  next => exact Spec.attempt (fun _ => Spec.pure ⟨rfl, zero_add _⟩) fun _ => Spec.pure rfl
  next =>
    split
    next hsmall =>
      refine Spec.attempt (fun _ => ?_) fun _ => Spec.pure rfl
      cases hpdev : env.pdev with
      | false => exact Spec.pure (by simp [mappingOf, hpdev, ZchanBuf.zero])
      | true =>
          refine Spec.attempt (fun _ => ?_) fun _ => ?_
          · exact Spec.pure (by simp [mappingOf, hpdev, ZchanBuf.zero])
          · exact (releases_kfree place).then fun _ => Spec.pure rfl
    next hlarge =>
      refine Spec.attempt (fun _ => ?_) fun _ => Spec.pure rfl
      cases hpdev : env.pdev with
      | false => exact Spec.pure (by simp [mappingOf, hpdev, ZchanBuf.zero])
      | true =>
          refine Spec.attempt (fun _ => ?_) fun _ => ?_
          · exact Spec.pure (by simp [mappingOf, hpdev])
          · exact (releases_freePages place _).then fun _ => Spec.pure rfl

theorem spec_unmap {kind : MapKind} {own : Multiset DmaResource} {α : Type}
    {f : Unit → Holding DmaResource α} {P : α → Multiset DmaResource → Prop}
    (hf : ∀ r, Spec own (f r) P) :
    Spec (own + mappingOf env place bufsz dmatype kind)
      (if env.pdev then
        pciUnmap kind (if env.pdev then env.dma place else 0) bufsz dmatype >>= f
      else f ()) P := by
  unfold mappingOf
  cases env.pdev with
  | false => exact (hf ()).of_eq (add_zero own)
  | true => exact (releases_pciUnmap bufsz dmatype kind (env.dma place)).then hf

theorem releases_zchanFreeBuf :
    Releases (bufResources env place bufsz dmatype)
      (zchanFreeBuf env (filledBuf env place bufsz dmatype) bufsz dmatype) := by
  unfold zchanFreeBuf filledBuf bufResources
  split
  next => exact (releases_zchanFreeConsistent place bufsz _).done rfl
  next =>
    by_cases hsmall : bufsz < env.pageSize
    · simp only [if_pos hsmall]
      refine spec_unmap env place dmatype bufsz fun _ => ?_
      exact (releases_kfree place).done rfl
    · simp only [if_neg hsmall]
      refine spec_unmap env place dmatype bufsz fun _ => ?_
      exact (releases_freePages place _).done rfl

end Rules

end ApolloContrib.Chan
