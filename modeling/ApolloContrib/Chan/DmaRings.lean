import ApolloContrib.Chan.DmaBuf
import ApolloContrib.Chan.TxRing
import ApolloContrib.Device.Probe

namespace ApolloContrib.Chan.Dma

open ApolloContrib.Device ApolloContrib.Library

/-! The memory of the transmit ring and of the receive table, set up and given back. -/

def ZCHAN_RX_PT_SIZE : Nat := 4096

structure ChanConfig where
  zchanType : ChanType
  zcanTxDma : Bool
  zcanRxDma : Bool
  zynqVideoZeroCopy : Bool
  zynqVideoBufNum : BitVec 32
  sizeimage : BitVec 32

/-- Set up as a whole or not at all, and given back as a whole; `init` returns 0 or not. -/
def AllOrNothing {R T : Type} (init : Holding R (Int × T)) (fini : T → Holding R T)
    (everything : Multiset R) : Prop :=
  Holding.Spec 0 init fun out own =>
    if out.1 = 0 then own = everything ∧ Holding.Releases everything (fini out.2) else own = 0

section Loop

variable (env : DmaEnv) (place : Nat → Place) (bufsz : Nat) (dmatype : DmaDir)

def bufRound (i : Nat) (bufs : Nat → ZchanBuf) :
    Holding DmaResource (Bool × (Nat → ZchanBuf)) := do
  let (ok, buf) ← zchanAllocBuf env (place i) (bufs i) bufsz dmatype
  pure (ok, Function.update bufs i buf)

def freeBufs (bufs : Nat → ZchanBuf) (l : List Nat) : Holding DmaResource Unit :=
  l.forM fun i => do
    let _ ← zchanFreeBuf env (bufs i) bufsz dmatype
    pure ()

end Loop

structure TxRingMem where
  zchanTxDescp : Option Place
  zchanTxDma : BitVec 64
  zchanTxSize : Nat
  zchanTxNum : Nat
  zchanTxBufsz : Nat
  zchanTxBufp : Option Place
  bufs : Nat → ZchanBuf

section Tx

variable (env : DmaEnv) (c : ChanConfig) (zchanTx : TxRingMem)

def ChanConfig.noTxRing : Bool :=
  c.zchanType = .video ∨ c.zchanType = .can ∧ c.zcanTxDma = false

/-- The label `fail`. -/
def txFail (i : Nat) : Holding DmaResource (Int × TxRingMem) := do
  freeBufs env ZCHAN_BUF_SIZE .PCI_DMA_TODEVICE zchanTx.bufs (List.range i).reverse
  kfree zchanTx.zchanTxBufp
  zchanFreeConsistent zchanTx.zchanTxDescp zchanTx.zchanTxDma zchanTx.zchanTxSize
  pure (-1, { zchanTx with zchanTxBufp := none, zchanTxDescp := none })

def allocTxBufs : Holding DmaResource (Int × TxRingMem) := do
  let (i, ok, bufs) ←
    Holding.forLoop (bufRound env .txBuf ZCHAN_BUF_SIZE .PCI_DMA_TODEVICE)
      ZCHAN_TX_ENTRIES_CAN 0 zchanTx.bufs
  let zchanTx := { zchanTx with bufs := bufs }
  if ok then pure (0, { zchanTx with zchanTxBufsz := ZCHAN_BUF_SIZE })
  else txFail env zchanTx i

def zchanInitTxRing : Holding DmaResource (Int × TxRingMem) :=
  if c.noTxRing then pure (0, zchanTx)
  else do
    let size := ZCHAN_TX_ENTRIES_CAN * ZCHAN_TX_DESC_SIZE
    match ← zchanAllocConsistent env .txDescp size with
    | none => pure (-1, zchanTx)
    | some (descp, dma) =>
        let zchanTx := { zchanTx with
          zchanTxDescp := some descp
          zchanTxDma := dma
          zchanTxSize := size
          zchanTxNum := ZCHAN_TX_ENTRIES_CAN }
        match ← kmalloc env .txBufp with
        | none => do
            zchanFreeConsistent zchanTx.zchanTxDescp zchanTx.zchanTxDma zchanTx.zchanTxSize
            pure (-1, zchanTx)
        | some bufp =>
            allocTxBufs env { zchanTx with zchanTxBufp := some bufp, bufs := fun _ => .zero }

def zchanFiniTxRing : Holding DmaResource TxRingMem :=
  if c.noTxRing then pure zchanTx
  else do
    freeBufs env zchanTx.zchanTxBufsz .PCI_DMA_TODEVICE zchanTx.bufs
      (List.range zchanTx.zchanTxNum)
    kfree zchanTx.zchanTxBufp
    zchanFreeConsistent zchanTx.zchanTxDescp zchanTx.zchanTxDma zchanTx.zchanTxSize
    pure { zchanTx with zchanTxBufp := none, zchanTxDescp := none }

end Tx

structure RxPt where
  zchanRxPt : Option Place
  zchanRxPtDma : BitVec 64
  zchanRxPtBufp : Option Place
  zchanRxPtBufNum : Nat
  bufs : Nat → ZchanBuf

def RxPt.zero : RxPt := ⟨none, 0, none, 0, fun _ => .zero⟩

structure RxTblMem where
  zchanRxPdt : Option Place
  zchanRxPdtDma : BitVec 64
  zchanRxPdtNum : Nat
  zchanRxPtp : Option Place
  zchanRxBufsz : Nat
  pts : Nat → RxPt

def CEILING32 (x y : BitVec 32) : BitVec 32 := (x + y - 1) / y

section Rx

variable (env : DmaEnv) (c : ChanConfig) (zchanRx : RxTblMem) (dmatype : DmaDir)

/-- The `switch`: the direction and the number of page tables, or nothing to do. -/
def ChanConfig.rxTables : Option (DmaDir × Nat) :=
  match c.zchanType with
  | .can => if c.zcanRxDma then some (.PCI_DMA_BIDIRECTIONAL, ZCHAN_RX_PDT_ENTRIES_CAN) else none
  | .video =>
      if c.zynqVideoZeroCopy then none
      else some (.PCI_DMA_FROMDEVICE,
        (CEILING32 (c.zynqVideoBufNum *
          CEILING32 c.sizeimage (BitVec.ofNat 32 ZCHAN_BUF_SIZE))
          (BitVec.ofNat 32 ZCHAN_RX_PT_ENTRIES)).toNat)
  | .other => none

/-- One page table with its array and the buffers in `l`. -/
def freePt (bufsz : Nat) (pt : RxPt) (l : List Nat) : Holding DmaResource Unit := do
  freeBufs env bufsz dmatype pt.bufs l
  kfree pt.zchanRxPtBufp
  zchanFreeConsistent pt.zchanRxPt pt.zchanRxPtDma ZCHAN_RX_PT_SIZE

/-- The buffers of a page table; at the label `buf_alloc_fail` the table goes too. -/
def allocRxBufs (i : Nat) (pt : RxPt) : Holding DmaResource (Bool × RxPt) := do
  let (j, ok, bufs) ←
    Holding.forLoop (bufRound env (.rxBuf i) ZCHAN_BUF_SIZE dmatype) ZCHAN_RX_PT_ENTRIES 0 pt.bufs
  let pt := { pt with bufs := bufs }
  if ok then pure (true, pt)
  else do
    freePt env dmatype ZCHAN_BUF_SIZE pt (List.range j).reverse
    pure (false, pt)

def rxPtRound (i : Nat) (pts : Nat → RxPt) : Holding DmaResource (Bool × (Nat → RxPt)) := do
  match ← zchanAllocConsistent env (.rxPt i) ZCHAN_RX_PT_SIZE with
  | none => pure (false, pts)
  | some (rxPt, dma) =>
      let pt := { pts i with zchanRxPt := some rxPt, zchanRxPtDma := dma }
      match ← kmalloc env (.rxPtBufp i) with
      | none => do
          zchanFreeConsistent pt.zchanRxPt pt.zchanRxPtDma ZCHAN_RX_PT_SIZE
          pure (false, Function.update pts i pt)
      | some bufp => do
          let (ok, pt) ← allocRxBufs env dmatype i { pt with
            zchanRxPtBufp := some bufp
            zchanRxPtBufNum := ZCHAN_RX_PT_ENTRIES
            bufs := fun _ => .zero }
          pure (ok, Function.update pts i pt)

/-- The label `pt_alloc_fail`. -/
def ptAllocFail (i pdtSize : Nat) : Holding DmaResource (Int × RxTblMem) := do
  (List.range i).reverse.forM fun i =>
    freePt env dmatype ZCHAN_BUF_SIZE (zchanRx.pts i) (List.range ZCHAN_RX_PT_ENTRIES)
  kfree zchanRx.zchanRxPtp
  zchanFreeConsistent zchanRx.zchanRxPdt zchanRx.zchanRxPdtDma pdtSize
  pure (-1, { zchanRx with zchanRxPtp := none, zchanRxPdt := none })

def allocRxPts (pdtSize : Nat) : Holding DmaResource (Int × RxTblMem) := do
  let (i, ok, pts) ←
    Holding.forLoop (rxPtRound env dmatype) zchanRx.zchanRxPdtNum 0 zchanRx.pts
  let zchanRx := { zchanRx with pts := pts }
  if ok then pure (0, zchanRx) else ptAllocFail env zchanRx dmatype i pdtSize

def zchanInitRxTbl : Holding DmaResource (Int × RxTblMem) :=
  match c.rxTables with
  | none => pure (0, zchanRx)
  | some (dmatype, pdtEntries) => do
      let pdtSize := pdtEntries * 8
      match ← zchanAllocConsistent env .rxPdt pdtSize with
      | none => pure (-1, zchanRx)
      | some (rxPdtp, dma) =>
          let zchanRx := { zchanRx with
            zchanRxPdtDma := dma, zchanRxPdtNum := pdtEntries, zchanRxPdt := some rxPdtp }
          match ← kmalloc env .rxPtp with
          | none => do
              zchanFreeConsistent zchanRx.zchanRxPdt zchanRx.zchanRxPdtDma pdtSize
              pure (-1, zchanRx)
          | some ptp =>
              allocRxPts env { zchanRx with
                zchanRxPtp := some ptp
                zchanRxBufsz := ZCHAN_BUF_SIZE
                pts := fun _ => .zero } dmatype pdtSize

def zchanFiniRxTbl : Holding DmaResource RxTblMem :=
  match c.rxTables with
  | none => pure zchanRx
  | some (dmatype, _) => do
      (List.range zchanRx.zchanRxPdtNum).forM fun i =>
        freePt env dmatype zchanRx.zchanRxBufsz (zchanRx.pts i)
          (List.range (zchanRx.pts i).zchanRxPtBufNum)
      kfree zchanRx.zchanRxPtp
      zchanFreeConsistent zchanRx.zchanRxPdt zchanRx.zchanRxPdtDma (zchanRx.zchanRxPdtNum * 8)
      pure { zchanRx with zchanRxPtp := none, zchanRxPdt := none }

end Rx

section Buffers

open Holding

variable (env : DmaEnv) (place : Nat → Place) (bufsz : Nat) (dmatype : DmaDir)

def bufsResources (n : Nat) : Multiset DmaResource :=
  ((List.range n).map fun k => bufResources env (place k) bufsz dmatype).sum

def IsFilled (k : Nat) (buf : ZchanBuf) : Prop := buf = filledBuf env (place k) bufsz dmatype

theorem spec_bufRound (i : Nat) (bufs : Nat → ZchanBuf)
    (hbufs : FilledTo (IsFilled env place bufsz dmatype) .zero i bufs) :
    Spec 0 (bufRound env place bufsz dmatype i bufs) fun out left =>
      if out.1 then FilledTo (IsFilled env place bufsz dmatype) .zero (i + 1) out.2 ∧
        left = bufResources env (place i) bufsz dmatype
      else (∀ k, k < i → IsFilled env place bufsz dmatype k (out.2 k)) ∧ left = 0 := by
  unfold bufRound
  rw [hbufs.cleared i le_rfl]
  refine (spec_zchanAllocBuf env (place i) dmatype bufsz).bind ?_
  rintro ⟨ok, buf⟩ left hout
  refine Spec.pure ?_
  cases ok with
  | false => exact ⟨fun k hk => hbufs.filled_update buf hk, hout⟩
  | true => exact ⟨hbufs.update hout.1, hout.2⟩

theorem spec_bufLoop (n : Nat) :
    Spec 0 (forLoop (bufRound env place bufsz dmatype) n 0 fun _ => .zero) fun out left =>
      (out.2.1 = true → out.1 = n) ∧
      (∀ k, k < out.1 → IsFilled env place bufsz dmatype k (out.2.2 k)) ∧
      left = bufsResources env place bufsz dmatype out.1 := by
  refine (spec_forLoop (FilledTo (IsFilled env place bufsz dmatype) .zero)
    (fun i bufs => ∀ k, k < i → IsFilled env place bufsz dmatype k (bufs k)) _
    (fun i bufs _ => spec_bufRound env place bufsz dmatype i bufs) _ filledTo_zero).mono ?_
  rintro ⟨i, ok, bufs⟩ left ⟨hend, rfl⟩
  cases ok with
  | false => exact ⟨nofun, hend.2, rfl⟩
  | true => exact ⟨fun _ => hend.1, hend.2.filled, rfl⟩

theorem releases_freeBufs {bufs : Nat → ZchanBuf} {n : Nat} {l : List Nat}
    (hl : l.Perm (List.range n))
    (hbufs : ∀ k, k < n → IsFilled env place bufsz dmatype k (bufs k)) :
    Releases (bufsResources env place bufsz dmatype n) (freeBufs env bufsz dmatype bufs l) := by
  unfold bufsResources
  rw [← (hl.map _).sum_eq]
  refine releases_forM fun i hi => ?_
  rw [hbufs i (List.mem_range.mp (hl.mem_iff.mp hi))]
  exact (releases_zchanFreeBuf env (place i) dmatype bufsz).done rfl

end Buffers

section Tx

open Holding

variable (env : DmaEnv) (c : ChanConfig)

/-- The ring, the array and the first `i` buffers. -/
def txParts (i : Nat) : Multiset DmaResource :=
  {.consistent .txDescp (env.dma .txDescp) (ZCHAN_TX_ENTRIES_CAN * ZCHAN_TX_DESC_SIZE)} +
    {.kmem .txBufp} + bufsResources env .txBuf ZCHAN_BUF_SIZE .PCI_DMA_TODEVICE i

def txResources : Multiset DmaResource :=
  if c.noTxRing then 0 else txParts env ZCHAN_TX_ENTRIES_CAN

structure TxHolds (i : Nat) (zchanTx : TxRingMem) : Prop where
  descp : zchanTx.zchanTxDescp = some .txDescp
  dma : zchanTx.zchanTxDma = env.dma .txDescp
  size : zchanTx.zchanTxSize = ZCHAN_TX_ENTRIES_CAN * ZCHAN_TX_DESC_SIZE
  num : zchanTx.zchanTxNum = ZCHAN_TX_ENTRIES_CAN
  bufp : zchanTx.zchanTxBufp = some .txBufp
  bufs : ∀ k, k < i →
    IsFilled env .txBuf ZCHAN_BUF_SIZE .PCI_DMA_TODEVICE k (zchanTx.bufs k)

variable {env c} {i : Nat} {zchanTx : TxRingMem}

theorem releases_txParts (hholds : TxHolds env i zchanTx) {l : List Nat}
    (hl : l.Perm (List.range i)) {α : Type} {a : α} {P : α → Multiset DmaResource → Prop}
    (hP : P a 0) :
    Spec (txParts env i)
      (do
        freeBufs env ZCHAN_BUF_SIZE .PCI_DMA_TODEVICE zchanTx.bufs l
        kfree zchanTx.zchanTxBufp
        zchanFreeConsistent zchanTx.zchanTxDescp zchanTx.zchanTxDma zchanTx.zchanTxSize
        pure a) P := by
  refine (releases_freeBufs env .txBuf ZCHAN_BUF_SIZE _ hl hholds.bufs).then fun _ => ?_
  rw [hholds.bufp, hholds.descp, hholds.dma, hholds.size]
  refine (releases_kfree _).then fun _ => ?_
  exact (releases_zchanFreeConsistent _ _ _).done hP

theorem spec_allocTxBufs (hholds : TxHolds env 0 zchanTx)
    (hzero : zchanTx.bufs = fun _ => .zero) :
    Spec ({.consistent .txDescp (env.dma .txDescp)
        (ZCHAN_TX_ENTRIES_CAN * ZCHAN_TX_DESC_SIZE)} + {.kmem .txBufp})
      (allocTxBufs env zchanTx) fun out own =>
        if out.1 = 0 then own = txParts env ZCHAN_TX_ENTRIES_CAN ∧
          TxHolds env ZCHAN_TX_ENTRIES_CAN out.2 ∧ out.2.zchanTxBufsz = ZCHAN_BUF_SIZE
        else own = 0 := by
  obtain ⟨hdescp, hdma, hsize, hnum, hbufp, -⟩ := hholds
  unfold allocTxBufs
  rw [hzero]
  refine Spec.call (spec_bufLoop env _ _ _ _) ?_
  rintro ⟨i, ok, bufs⟩ left ⟨hend, hbufs, rfl⟩
  have hholds : TxHolds env i { zchanTx with bufs := bufs } :=
    ⟨hdescp, hdma, hsize, hnum, hbufp, hbufs⟩
  cases ok with
  | true =>
      have hi : i = ZCHAN_TX_ENTRIES_CAN := hend rfl
      subst hi
      exact Spec.pure ⟨rfl, ⟨hdescp, hdma, hsize, hnum, hbufp, hbufs⟩, rfl⟩
  | false => exact releases_txParts hholds (List.reverse_perm _) rfl

theorem allOrNothing_txRing (zchanTx : TxRingMem) :
    AllOrNothing (zchanInitTxRing env c zchanTx) (zchanFiniTxRing env c) (txResources env c) := by
  unfold AllOrNothing zchanInitTxRing zchanFiniTxRing txResources
  cases c.noTxRing with
  | true => exact Spec.pure ⟨rfl, releases_pure _⟩
  | false =>
      simp only [Bool.false_eq_true, if_false]
      refine Spec.attempt (fun _ => ?_) fun _ => Spec.pure rfl
      refine Spec.attempt (fun _ => ?_) fun _ => ?_
      · rw [zero_add]
        refine (spec_allocTxBufs ⟨rfl, rfl, rfl, rfl, rfl, nofun⟩ rfl).mono ?_
        rintro ⟨ret, zchanTx⟩ own hout
        split at hout
        next hret =>
          obtain ⟨hown, hholds, hbufsz⟩ := hout
          refine (if_pos hret).mpr ⟨hown, ?_⟩
          rw [hbufsz, hholds.num]
          exact releases_txParts hholds (.refl _) rfl
        next hret => exact (if_neg hret).mpr hout
      · exact (releases_zchanFreeConsistent _ _ _).done rfl

end Tx

section Rx

open Holding

variable (env : DmaEnv) (c : ChanConfig) (dmatype : DmaDir)

/-- A page table, its array and the first `n` buffers. -/
def ptParts (i n : Nat) : Multiset DmaResource :=
  {.consistent (.rxPt i) (env.dma (.rxPt i)) ZCHAN_RX_PT_SIZE} + {.kmem (.rxPtBufp i)} +
    bufsResources env (.rxBuf i) ZCHAN_BUF_SIZE dmatype n

structure PtHolds (i n : Nat) (pt : RxPt) : Prop where
  rxPt : pt.zchanRxPt = some (.rxPt i)
  dma : pt.zchanRxPtDma = env.dma (.rxPt i)
  bufp : pt.zchanRxPtBufp = some (.rxPtBufp i)
  num : pt.zchanRxPtBufNum = ZCHAN_RX_PT_ENTRIES
  bufs : ∀ k, k < n → IsFilled env (.rxBuf i) ZCHAN_BUF_SIZE dmatype k (pt.bufs k)

/-- The table and the array, with the first `i` page tables. -/
def rxParts (n i : Nat) : Multiset DmaResource :=
  {.consistent .rxPdt (env.dma .rxPdt) (n * 8)} + {.kmem .rxPtp} +
    ((List.range i).map fun k => ptParts env dmatype k ZCHAN_RX_PT_ENTRIES).sum

def rxResources : Multiset DmaResource :=
  match c.rxTables with
  | none => 0
  | some (dmatype, n) => rxParts env dmatype n n

structure RxHolds (n i : Nat) (zchanRx : RxTblMem) : Prop where
  pdt : zchanRx.zchanRxPdt = some .rxPdt
  dma : zchanRx.zchanRxPdtDma = env.dma .rxPdt
  num : zchanRx.zchanRxPdtNum = n
  ptp : zchanRx.zchanRxPtp = some .rxPtp
  bufsz : zchanRx.zchanRxBufsz = ZCHAN_BUF_SIZE
  pts : ∀ k, k < i → PtHolds env dmatype k ZCHAN_RX_PT_ENTRIES (zchanRx.pts k)

variable {env c dmatype}

theorem releases_freePt {i n : Nat} {pt : RxPt} (hholds : PtHolds env dmatype i n pt)
    {l : List Nat} (hl : l.Perm (List.range n)) :
    Releases (ptParts env dmatype i n) (freePt env dmatype ZCHAN_BUF_SIZE pt l) := by
  unfold ptParts freePt
  refine (releases_freeBufs env (.rxBuf i) _ _ hl hholds.bufs).then fun _ => ?_
  rw [hholds.bufp, hholds.rxPt, hholds.dma]
  refine (releases_kfree _).then fun _ => ?_
  exact releases_zchanFreeConsistent _ _ _

theorem spec_allocRxBufs {i : Nat} {pt : RxPt} (hholds : PtHolds env dmatype i 0 pt)
    (hzero : pt.bufs = fun _ => .zero) :
    Spec ({.consistent (.rxPt i) (env.dma (.rxPt i)) ZCHAN_RX_PT_SIZE} + {.kmem (.rxPtBufp i)})
      (allocRxBufs env dmatype i pt) fun out own =>
        if out.1 then PtHolds env dmatype i ZCHAN_RX_PT_ENTRIES out.2 ∧
          own = ptParts env dmatype i ZCHAN_RX_PT_ENTRIES
        else own = 0 := by
  obtain ⟨hrxPt, hdma, hbufp, hnum, -⟩ := hholds
  unfold allocRxBufs
  rw [hzero]
  refine Spec.call (spec_bufLoop env _ _ _ _) ?_
  rintro ⟨j, ok, bufs⟩ left ⟨hend, hbufs, rfl⟩
  have hholds : PtHolds env dmatype i j { pt with bufs := bufs } :=
    ⟨hrxPt, hdma, hbufp, hnum, hbufs⟩
  cases ok with
  | true =>
      have hj : j = ZCHAN_RX_PT_ENTRIES := hend rfl
      subst hj
      exact Spec.pure ⟨hholds, rfl⟩
  | false => exact (releases_freePt hholds (List.reverse_perm _)).done rfl

theorem spec_rxPtRound (i : Nat) (pts : Nat → RxPt)
    (hpts : FilledTo (fun k => PtHolds env dmatype k ZCHAN_RX_PT_ENTRIES) .zero i pts) :
    Spec 0 (rxPtRound env dmatype i pts) fun out left =>
      if out.1 then
        FilledTo (fun k => PtHolds env dmatype k ZCHAN_RX_PT_ENTRIES) .zero (i + 1) out.2 ∧
          left = ptParts env dmatype i ZCHAN_RX_PT_ENTRIES
      else (∀ k, k < i → PtHolds env dmatype k ZCHAN_RX_PT_ENTRIES (out.2 k)) ∧ left = 0 := by
  unfold rxPtRound
  refine Spec.attempt (fun _ => ?_) fun _ => Spec.pure ⟨hpts.filled, rfl⟩
  refine Spec.attempt (fun _ => ?_) fun _ => ?_
  · rw [zero_add]
    refine (spec_allocRxBufs ⟨rfl, rfl, rfl, rfl, nofun⟩ rfl).bind ?_
    rintro ⟨ok, pt⟩ left hout
    refine Spec.pure ?_
    cases ok with
    | true => exact ⟨hpts.update hout.1, hout.2⟩
    | false => exact ⟨fun k hk => hpts.filled_update pt hk, hout⟩
  · exact (releases_zchanFreeConsistent _ _ _).done ⟨fun k hk => hpts.filled_update _ hk, rfl⟩

theorem releases_rxParts {n i : Nat} {zchanRx : RxTblMem} (hholds : RxHolds env dmatype n i zchanRx)
    {l : List Nat} (hl : l.Perm (List.range i)) {free : Nat → Holding DmaResource Unit}
    (hfree : ∀ k, k < i → Releases (ptParts env dmatype k ZCHAN_RX_PT_ENTRIES) (free k))
    {α : Type} {a : α} {P : α → Multiset DmaResource → Prop} (hP : P a 0) :
    Spec (rxParts env dmatype n i)
      (do
        l.forM free
        kfree zchanRx.zchanRxPtp
        zchanFreeConsistent zchanRx.zchanRxPdt zchanRx.zchanRxPdtDma (n * 8)
        pure a) P := by
  have htables : Releases
      ((List.range i).map fun k => ptParts env dmatype k ZCHAN_RX_PT_ENTRIES).sum
      (l.forM free) := by
    rw [← (hl.map _).sum_eq]
    exact releases_forM fun k hk => hfree k (List.mem_range.mp (hl.mem_iff.mp hk))
  refine htables.then fun _ => ?_
  rw [hholds.ptp, hholds.pdt, hholds.dma]
  refine (releases_kfree _).then fun _ => ?_
  exact (releases_zchanFreeConsistent _ _ _).done hP

theorem spec_allocRxPts {n : Nat} {zchanRx : RxTblMem} (hholds : RxHolds env dmatype n 0 zchanRx)
    (hzero : zchanRx.pts = fun _ => .zero) :
    Spec ({.consistent .rxPdt (env.dma .rxPdt) (n * 8)} + {.kmem .rxPtp})
      (allocRxPts env zchanRx dmatype (n * 8)) fun out own =>
        if out.1 = 0 then own = rxParts env dmatype n n ∧ RxHolds env dmatype n n out.2
        else own = 0 := by
  obtain ⟨hpdt, hdma, hnum, hptp, hbufsz, -⟩ := hholds
  unfold allocRxPts
  rw [hzero, hnum]
  refine Spec.call (spec_forLoop
    (FilledTo (fun k => PtHolds env dmatype k ZCHAN_RX_PT_ENTRIES) .zero)
    (fun i pts => ∀ k, k < i → PtHolds env dmatype k ZCHAN_RX_PT_ENTRIES (pts k)) _
    (fun i pts _ => spec_rxPtRound i pts) _ filledTo_zero) ?_
  rintro ⟨i, ok, pts⟩ left ⟨hend, rfl⟩
  cases ok with
  | true =>
      obtain ⟨hi, hpts⟩ := hend
      dsimp only at hi
      subst hi
      exact Spec.pure ⟨rfl, hpdt, hdma, rfl, hptp, hbufsz, hpts.filled⟩
  | false =>
      have hholds : RxHolds env dmatype n i { zchanRx with pts := pts } :=
        ⟨hpdt, hdma, hnum, hptp, hbufsz, hend.2⟩
      refine releases_rxParts hholds (List.reverse_perm _) (fun k hk => ?_) rfl
      exact releases_freePt (hholds.pts k hk) (.refl _)

theorem releases_zchanFiniRxTbl {n : Nat} {zchanRx : RxTblMem}
    (htables : c.rxTables = some (dmatype, n)) (hholds : RxHolds env dmatype n n zchanRx) :
    Releases (rxParts env dmatype n n) (zchanFiniRxTbl env c zchanRx) := by
  unfold zchanFiniRxTbl
  rw [htables, hholds.num]
  refine releases_rxParts hholds (.refl _) (fun k hk => ?_) rfl
  have hpt := hholds.pts k hk
  rw [hholds.bufsz, hpt.num]
  exact releases_freePt hpt (.refl _)

theorem allOrNothing_rxTbl (zchanRx : RxTblMem) :
    AllOrNothing (zchanInitRxTbl env c zchanRx) (zchanFiniRxTbl env c) (rxResources env c) := by
  unfold AllOrNothing zchanInitRxTbl rxResources
  cases htables : c.rxTables with
  | none =>
      refine Spec.pure ⟨rfl, ?_⟩
      unfold zchanFiniRxTbl
      rw [htables]
      exact releases_pure _
  | some tables =>
      obtain ⟨dmatype, n⟩ := tables
      refine Spec.attempt (fun _ => ?_) fun _ => Spec.pure rfl
      refine Spec.attempt (fun _ => ?_) fun _ => ?_
      · rw [zero_add]
        refine (spec_allocRxPts ⟨rfl, rfl, rfl, rfl, rfl, nofun⟩ rfl).mono ?_
        rintro ⟨ret, zchanRx⟩ own hout
        split at hout
        next hret =>
          obtain ⟨hown, hholds⟩ := hout
          exact (if_pos hret).mpr ⟨hown, releases_zchanFiniRxTbl htables hholds⟩
        next hret => exact (if_neg hret).mpr hout
      · exact (releases_zchanFreeConsistent _ _ _).done rfl

end Rx

end ApolloContrib.Chan.Dma
