import ApolloContrib.Chan.DmaRings
import ApolloContrib.Video.CopyRx
import ApolloContrib.Video.InitRx

namespace ApolloContrib.Video.Dma

open ApolloContrib.Chan ApolloContrib.Chan.Dma ApolloContrib.Library ApolloContrib.Library.Holding

/-! The tables of a zero-copy capture: `zvideo_init_rx` and `zvideo_fini_rx` on what the
kernel answers, and the start that calls them. -/

section Page

variable (env : DmaEnv) (place : Place) (buf : ZchanBuf) (bufsz : Nat) (dmatype : DmaDir)

/-- The flag tells whether 0 is returned. -/
def zvideoMapBuf : Holding DmaResource (Bool × ZchanBuf) :=
  if !env.isVmalloc place then pure (false, buf)
  else do
    let (paddr, error) ← pciMap env place .page bufsz dmatype
    if error then pure (false, buf)
    else if paddr &&& BitVec.ofNat 64 (bufsz - 1) ≠ 0 then do
      pciUnmap .page paddr bufsz dmatype
      pure (false, buf)
    else pure (true, ⟨some place, some place, paddr⟩)

def zvideoUnmapBuf : Holding DmaResource ZchanBuf := do
  pciUnmap .page buf.zchanBufDma bufsz dmatype
  pure .zero

end Page

section Fini

variable (env : DmaEnv)

def finiPt (bufsz : Nat) (pt : RxPt) : Holding DmaResource Unit :=
  if pt.zchanRxPt.isNone then pure ()
  else do
    (List.range pt.zchanRxPtBufNum).forM fun j =>
      if (pt.bufs j).zchanBufDma ≠ 0 then do
        let _ ← zvideoUnmapBuf (pt.bufs j) bufsz .PCI_DMA_FROMDEVICE
        pure ()
      else pure ()
    kfree pt.zchanRxPtBufp
    zchanFreeConsistent pt.zchanRxPt pt.zchanRxPtDma ZCHAN_RX_PT_SIZE

def zvideoFiniRx (zchanRx : RxTblMem) : Holding DmaResource RxTblMem := do
  (List.range zchanRx.zchanRxPdtNum).forM fun i => finiPt zchanRx.zchanRxBufsz (zchanRx.pts i)
  kfree zchanRx.zchanRxPtp
  zchanFreeConsistent zchanRx.zchanRxPdt zchanRx.zchanRxPdtDma (zchanRx.zchanRxPdtNum * 8)
  pure { zchanRx with
    zchanRxPtp := none
    zchanRxBufsz := 0
    zchanRxPdt := none
    zchanRxPdtDma := 0
    zchanRxPdtNum := 0 }

end Fini

/-- The page tables so far, and how many entries are left for the next ones. -/
structure TableLoop where
  pts : Nat → RxPt
  ptEntries : Nat

/-- `rx_ptp` and `bufp` (and with it `rx_pt`) as indices. -/
structure MapWalk where
  pts : Nat → RxPt
  ptEntries : Nat
  rxPtp : Nat
  bufp : Nat

/-- A mapped page; behind the last entry of a table the next one is gone to. -/
def MapWalk.put (w : MapWalk) (buf : ZchanBuf) : MapWalk :=
  let pt := w.pts w.rxPtp
  let w := { w with
    pts := Function.update w.pts w.rxPtp { pt with bufs := Function.update pt.bufs w.bufp buf }
    ptEntries := w.ptEntries + 1 }
  if w.ptEntries &&& (ZCHAN_RX_PT_ENTRIES - 1) ≠ 0 then { w with bufp := w.bufp + 1 }
  else { w with rxPtp := w.rxPtp + 1, bufp := 0 }

section Init

variable (env : DmaEnv)

def tableRound (i : Nat) (t : TableLoop) : Holding DmaResource (Bool × TableLoop) := do
  match ← zchanAllocConsistent env (.rxPt i) ZCHAN_RX_PT_SIZE with
  | none => pure (false, t)
  | some (rxPt, dma) =>
      let pt := { t.pts i with zchanRxPt := some rxPt, zchanRxPtDma := dma }
      let bufNum := min t.ptEntries ZCHAN_RX_PT_ENTRIES
      match ← kmalloc env (.rxPtBufp i) with
      | none => do
          zchanFreeConsistent pt.zchanRxPt pt.zchanRxPtDma ZCHAN_RX_PT_SIZE
          pure (false, { t with
            pts := Function.update t.pts i { pt with zchanRxPt := none, zchanRxPtDma := 0 } })
      | some bufp =>
          pure (true,
            { pts := Function.update t.pts i { pt with
                zchanRxPtBufp := some bufp
                zchanRxPtBufNum := bufNum
                bufs := fun _ => .zero }
              ptEntries := t.ptEntries - bufNum })

/-- A page of a buffer. An entry past the end of an array must not be written. -/
def mapRound (_ : Nat) (w : MapWalk) : Holding DmaResource (Bool × MapWalk) :=
  if (w.pts w.rxPtp).zchanRxPtBufNum ≤ w.bufp then failure
  else do
    let (ok, buf) ← zvideoMapBuf env (.rxBuf w.rxPtp w.bufp) ((w.pts w.rxPtp).bufs w.bufp)
      ZCHAN_BUF_SIZE .PCI_DMA_FROMDEVICE
    pure (ok, if ok then w.put buf else w)

/-- The loop over `buf_list`, with the pages of each buffer. -/
def mapBufs (pages : Nat) : List Nat → MapWalk → Holding DmaResource (Bool × MapWalk)
  | [], w => pure (true, w)
  | _ :: bufs, w => do
      let (_, ok, w) ← forLoop (mapRound env) pages 0 w
      if ok then mapBufs pages bufs w else pure (false, w)

/-- The label `init_rx_fail`. -/
def initRxFail (zchanRx : RxTblMem) : Holding DmaResource (Int × RxTblMem) := do
  let zchanRx ← zvideoFiniRx zchanRx
  pure (-1, zchanRx)

def mapTables (pages : Nat) (bufList : List Nat) (zchanRx : RxTblMem) :
    Holding DmaResource (Int × RxTblMem) := do
  let (ok, w) ← mapBufs env pages bufList ⟨zchanRx.pts, 0, 0, 0⟩
  let zchanRx := { zchanRx with pts := w.pts }
  if ok then pure (0, zchanRx) else initRxFail zchanRx

def allocTables (pages ptEntries : Nat) (bufList : List Nat) (zchanRx : RxTblMem) :
    Holding DmaResource (Int × RxTblMem) := do
  let (_, ok, t) ← forLoop (tableRound env) zchanRx.zchanRxPdtNum 0 ⟨zchanRx.pts, ptEntries⟩
  let zchanRx := { zchanRx with pts := t.pts }
  if ok then mapTables env pages bufList zchanRx else initRxFail zchanRx

def zvideoInitRx (count sizeimage : BitVec 32) (bufList : List Nat) (zchanRx : RxTblMem) :
    Holding DmaResource (Int × RxTblMem) := do
  let ptEntries := ptEntriesOf count sizeimage
  let pdtEntries := (pdtEntriesOf ptEntries).toNat
  let pdtSize := pdtEntries * 8
  match ← zchanAllocConsistent env .rxPdt pdtSize with
  | none => pure (-1, zchanRx)
  | some (rxPdtp, dma) =>
      let zchanRx := { zchanRx with
        zchanRxPdtDma := dma, zchanRxPdtNum := pdtEntries, zchanRxPdt := some rxPdtp }
      match ← kmalloc env .rxPtp with
      | none => do
          zchanFreeConsistent zchanRx.zchanRxPdt zchanRx.zchanRxPdtDma pdtSize
          pure (-1, zchanRx)
      | some ptp =>
          allocTables env (ALIGN sizeimage.toNat ZCHAN_BUF_SIZE / ZCHAN_BUF_SIZE)
            ptEntries.toNat bufList { zchanRx with
              zchanRxPtp := some ptp, zchanRxBufsz := ZCHAN_BUF_SIZE, pts := fun _ => .zero }

end Init

section Walk

variable {env : DmaEnv}

def Maps (env : DmaEnv) (place : Place) : Prop :=
  env.isVmalloc place = true ∧ env.mapFails place = false ∧
    env.dma place &&& BitVec.ofNat 64 (ZCHAN_BUF_SIZE - 1) = 0

instance (env : DmaEnv) (place : Place) : Decidable (Maps env place) :=
  inferInstanceAs (Decidable (_ ∧ _))

def mappedBuf (env : DmaEnv) (place : Place) : ZchanBuf := ⟨some place, some place, env.dma place⟩

def pageMapping (env : DmaEnv) (place : Place) : Multiset DmaResource :=
  {.mapping .page (env.dma place) ZCHAN_BUF_SIZE .PCI_DMA_FROMDEVICE}

theorem spec_zvideoMapBuf (place : Place) (buf : ZchanBuf) :
    Spec 0 (zvideoMapBuf env place buf ZCHAN_BUF_SIZE .PCI_DMA_FROMDEVICE) fun out left =>
      if out.1 then Maps env place ∧ out.2 = mappedBuf env place ∧ left = pageMapping env place
      else ¬ Maps env place ∧ left = 0 := by
  unfold zvideoMapBuf
  cases hvmalloc : env.isVmalloc place with
  | false => exact Spec.pure ⟨fun hmaps => (nomatch hvmalloc.symm.trans hmaps.1), rfl⟩
  | true =>
      refine Spec.attempt (fun hmap => ?_) fun herror => ?_
      · have hmap : env.mapFails place = false := Bool.not_eq_true' _ ▸ hmap
        by_cases haligned : env.dma place &&& BitVec.ofNat 64 (ZCHAN_BUF_SIZE - 1) = 0
        · simp only [haligned, Bool.false_eq_true, if_false, ne_eq, not_true_eq_false]
          exact Spec.pure ⟨⟨hvmalloc, hmap, haligned⟩, rfl, zero_add _⟩
        · simp only [haligned, Bool.false_eq_true, if_false, ne_eq, not_false_eq_true, if_true]
          rw [zero_add]
          exact (releases_pciUnmap _ _ _ _).done ⟨fun hmaps => haligned hmaps.2.2, rfl⟩
      · have herror : env.mapFails place = true := by simpa using herror
        exact Spec.pure ⟨fun hmaps => (nomatch herror.symm.trans hmaps.2.1), rfl⟩

def pagePlace (e : Nat) : Place := .rxBuf (e / ZCHAN_RX_PT_ENTRIES) (e % ZCHAN_RX_PT_ENTRIES)

structure TableAt (env : DmaEnv) (N e i : Nat) (pt : RxPt) : Prop where
  rxPt : pt.zchanRxPt = some (.rxPt i)
  dma : pt.zchanRxPtDma = env.dma (.rxPt i)
  bufp : pt.zchanRxPtBufp = some (.rxPtBufp i)
  num : pt.zchanRxPtBufNum = min (N - ZCHAN_RX_PT_ENTRIES * i) ZCHAN_RX_PT_ENTRIES
  bufs : ∀ j, j < ZCHAN_RX_PT_ENTRIES → pt.bufs j =
    if ZCHAN_RX_PT_ENTRIES * i + j < e then mappedBuf env (.rxBuf i j) else .zero

structure WalkAt (env : DmaEnv) (N e : Nat) (w : MapWalk) : Prop where
  maps : ∀ k, k < e → Maps env (pagePlace k)
  ptEntries : w.ptEntries = e
  rxPtp : w.rxPtp = e / ZCHAN_RX_PT_ENTRIES
  bufp : w.bufp = e % ZCHAN_RX_PT_ENTRIES
  tables : ∀ i, ZCHAN_RX_PT_ENTRIES * i < N → TableAt env N e i (w.pts i)

theorem TableAt.put {N e i : Nat} {pt : RxPt} (htable : TableAt env N e i pt)
    (hi : i = e / ZCHAN_RX_PT_ENTRIES) :
    TableAt env N (e + 1) i { pt with
      bufs := Function.update pt.bufs (e % ZCHAN_RX_PT_ENTRIES) (mappedBuf env (pagePlace e)) } := by
  refine ⟨htable.rxPt, htable.dma, htable.bufp, htable.num, fun j hj => ?_⟩
  dsimp only
  rw [Function.update_apply]
  split
  next heq =>
    have hentry : ZCHAN_RX_PT_ENTRIES * i + j < e + 1 := by
      have hdiv := Nat.div_add_mod e ZCHAN_RX_PT_ENTRIES
      rw [hi, heq]
      omega
    rw [if_pos hentry, hi, heq]
    rfl
  next hne =>
    have hentry : ZCHAN_RX_PT_ENTRIES * i + j < e + 1 ↔ ZCHAN_RX_PT_ENTRIES * i + j < e := by
      unfold ZCHAN_RX_PT_ENTRIES at *
      omega
    simp only [hentry]
    exact htable.bufs j hj

theorem TableAt.next {N e i : Nat} {pt : RxPt} (htable : TableAt env N e i pt)
    (hi : i ≠ e / ZCHAN_RX_PT_ENTRIES) : TableAt env N (e + 1) i pt := by
  refine ⟨htable.rxPt, htable.dma, htable.bufp, htable.num, fun j hj => ?_⟩
  have hentry : ZCHAN_RX_PT_ENTRIES * i + j < e + 1 ↔ ZCHAN_RX_PT_ENTRIES * i + j < e := by
    unfold ZCHAN_RX_PT_ENTRIES at *
    omega
  simp only [hentry]
  exact htable.bufs j hj

theorem WalkAt.put {N e : Nat} {w : MapWalk} (hwalk : WalkAt env N e w)
    (hpage : Maps env (pagePlace e)) :
    WalkAt env N (e + 1) (w.put (mappedBuf env (pagePlace e))) := by
  have htables (i : Nat) (hi : ZCHAN_RX_PT_ENTRIES * i < N) :
      TableAt env N (e + 1) i (Function.update w.pts w.rxPtp { w.pts w.rxPtp with
        bufs := Function.update (w.pts w.rxPtp).bufs w.bufp (mappedBuf env (pagePlace e)) } i) := by
    rw [Function.update_apply]
    split
    next heq =>
      rw [hwalk.bufp, ← heq]
      exact (hwalk.tables i hi).put (heq.trans hwalk.rxPtp)
    next hne =>
      rw [hwalk.rxPtp] at hne
      exact (hwalk.tables i hi).next hne
  have hmaps (k : Nat) (hk : k < e + 1) : Maps env (pagePlace k) := by
    rcases Nat.lt_succ_iff_lt_or_eq.mp hk with hk | rfl
    · exact hwalk.maps k hk
    · exact hpage
  have hmask : (e + 1) &&& (ZCHAN_RX_PT_ENTRIES - 1) = (e + 1) % ZCHAN_RX_PT_ENTRIES :=
    Nat.and_two_pow_sub_one_eq_mod (e + 1) 9
  unfold MapWalk.put
  dsimp only
  rw [hwalk.ptEntries, hmask]
  split
  next hinside =>
    refine ⟨hmaps, rfl, hwalk.rxPtp.trans ?_, ?_, htables⟩
    · unfold ZCHAN_RX_PT_ENTRIES at *
      omega
    · dsimp only
      rw [hwalk.bufp]
      unfold ZCHAN_RX_PT_ENTRIES at *
      omega
  next hlast =>
    refine ⟨hmaps, rfl, ?_, ?_, htables⟩
    · dsimp only
      rw [hwalk.rxPtp]
      unfold ZCHAN_RX_PT_ENTRIES at *
      omega
    · dsimp only
      unfold ZCHAN_RX_PT_ENTRIES at *
      omega

theorem spec_mapRound {N e : Nat} {w : MapWalk} (hwalk : WalkAt env N e w) (he : e < N) (k : Nat) :
    Spec 0 (mapRound env k w) fun out left =>
      if out.1 then WalkAt env N (e + 1) out.2 ∧ left = pageMapping env (pagePlace e)
      else (WalkAt env N e out.2 ∧ ¬ Maps env (pagePlace e)) ∧ left = 0 := by
  have hinside : ZCHAN_RX_PT_ENTRIES * (e / ZCHAN_RX_PT_ENTRIES) < N := by
    have hdiv := Nat.mul_div_le e ZCHAN_RX_PT_ENTRIES
    omega
  have htable := hwalk.tables _ hinside
  have hroom : ¬ (w.pts w.rxPtp).zchanRxPtBufNum ≤ w.bufp := by
    rw [hwalk.rxPtp, hwalk.bufp, htable.num]
    unfold ZCHAN_RX_PT_ENTRIES at *
    omega
  unfold mapRound
  rw [if_neg hroom, hwalk.rxPtp, hwalk.bufp]
  refine (spec_zvideoMapBuf (pagePlace e) _).bind ?_
  rintro ⟨ok, buf⟩ left hout
  cases ok with
  | true =>
      obtain ⟨hmaps, rfl, rfl⟩ := hout
      exact Spec.pure ⟨hwalk.put hmaps, rfl⟩
  | false => exact Spec.pure ⟨⟨hwalk, hout.1⟩, hout.2⟩

variable (env) in
def mappedPages (e : Nat) : Multiset DmaResource :=
  ((List.range e).map fun k => pageMapping env (pagePlace k)).sum

theorem mappedPages_add (e n : Nat) :
    mappedPages env (e + n) = mappedPages env e +
      ((List.range n).map fun i => pageMapping env (pagePlace (e + i))).sum := by
  unfold mappedPages
  rw [List.range_add, List.map_append, List.sum_append, List.map_map]
  rfl

theorem spec_mapPages {N e : Nat} {w : MapWalk} (hwalk : WalkAt env N e w) (pages : Nat)
    (hroom : e + pages ≤ N) :
    Spec 0 (forLoop (mapRound env) pages 0 w) fun out left =>
      (if out.2.1 then out.1 = pages ∧ WalkAt env N (e + out.1) out.2.2
        else out.1 < pages ∧ WalkAt env N (e + out.1) out.2.2 ∧
          ¬ Maps env (pagePlace (e + out.1))) ∧
      left = ((List.range out.1).map fun i => pageMapping env (pagePlace (e + i))).sum := by
  refine spec_forLoop (fun i w => WalkAt env N (e + i) w)
    (fun i w => WalkAt env N (e + i) w ∧ ¬ Maps env (pagePlace (e + i))) _ ?_ w hwalk
  exact fun i w hi hwalk => spec_mapRound hwalk (by omega) i

/-- The walk over `N` entries stops behind the first `e`, behind all or because the next one
does not map. -/
theorem spec_mapBufs {N pages : Nat} (bufs : List Nat) {e : Nat} {w : MapWalk}
    (hwalk : WalkAt env N e w) (hroom : e + bufs.length * pages = N) :
    Spec (mappedPages env e) (mapBufs env pages bufs w) fun out own =>
      ∃ e, WalkAt env N e out.2 ∧ own = mappedPages env e ∧
        if out.1 then e = N else e < N ∧ ¬ Maps env (pagePlace e) := by
  induction bufs generalizing e w with
  | nil =>
      rw [List.length_nil, Nat.zero_mul] at hroom
      exact Spec.pure ⟨e, hwalk, rfl, hroom⟩
  | cons buf bufs ih =>
      rw [List.length_cons, Nat.succ_mul] at hroom
      refine Spec.call (spec_mapPages hwalk pages (by omega)) ?_
      rintro ⟨i, ok, w⟩ left ⟨hend, rfl⟩
      rw [← mappedPages_add]
      cases ok with
      | true =>
          obtain ⟨rfl, hwalk⟩ := hend
          exact ih hwalk (by omega)
      | false =>
          obtain ⟨hi, hwalk, hnot⟩ := hend
          dsimp only at hi
          exact Spec.pure ⟨e + i, hwalk, rfl, by omega, hnot⟩

end Walk

section Tables

variable (env : DmaEnv)

def tableParts (i : Nat) : Multiset DmaResource :=
  {.consistent (.rxPt i) (env.dma (.rxPt i)) ZCHAN_RX_PT_SIZE} + {.kmem (.rxPtBufp i)}

def TableAllocs (i : Nat) : Prop :=
  env.alloc (.rxPt i) = true ∧ env.alloc (.rxPtBufp i) = true

structure TablesAt (N i : Nat) (t : TableLoop) : Prop where
  allocs : ∀ k, k < i → TableAllocs env k
  tables : FilledTo (TableAt env N 0) .zero i t.pts
  ptEntries : t.ptEntries = N - ZCHAN_RX_PT_ENTRIES * i

structure TablesStop (N i : Nat) (t : TableLoop) : Prop where
  tables : ∀ k, k < i → TableAt env N 0 k (t.pts k)
  none : ∀ k, i ≤ k → (t.pts k).zchanRxPt = none
  not_allocs : ¬ TableAllocs env i

variable {env}

theorem spec_tableRound {N i : Nat} {t : TableLoop} (htables : TablesAt env N i t) :
    Spec 0 (tableRound env i t) fun out left =>
      if out.1 then TablesAt env N (i + 1) out.2 ∧ left = tableParts env i
      else TablesStop env N i out.2 ∧ left = 0 := by
  obtain ⟨hallocs, htables, hentries⟩ := htables
  have hnone (k : Nat) (hk : i ≤ k) : (t.pts k).zchanRxPt = none := by
    rw [htables.cleared k hk]
    rfl
  unfold tableRound
  refine Spec.attempt (fun hpt => ?_) fun hpt => ?_
  · refine Spec.attempt (fun hbufp => ?_) fun hbufp => ?_
    · refine Spec.pure ⟨⟨fun k hk => ?_, ?_, ?_⟩, ?_⟩
      · rcases Nat.lt_succ_iff_lt_or_eq.mp hk with hk | rfl
        · exact hallocs k hk
        · exact ⟨hpt, hbufp⟩
      · refine htables.update ⟨rfl, rfl, rfl, ?_, fun j _ => rfl⟩
        dsimp only
        rw [hentries]
      · dsimp only
        rw [hentries, Nat.mul_succ]
        omega
      · rw [zero_add]
        rfl
    · refine (releases_zchanFreeConsistent _ _ _).done ⟨⟨?_, ?_, ?_⟩, rfl⟩
      · exact fun k hk => htables.filled_update _ hk
      · intro k hk
        dsimp only
        rw [Function.update_apply]
        split
        · rfl
        · exact hnone k hk
      · exact fun halloc => nomatch hbufp.symm.trans halloc.2
  · exact Spec.pure
      ⟨⟨htables.filled, hnone, fun halloc => nomatch hpt.symm.trans halloc.1⟩, rfl⟩

/-- What is unmapped of entry `k`: a page at the bus address 0 is not. -/
def keptMapping (env : DmaEnv) (k : Nat) : Multiset DmaResource :=
  if env.dma (pagePlace k) = 0 then pageMapping env (pagePlace k) else 0

def freedMapping (env : DmaEnv) (k : Nat) : Multiset DmaResource :=
  if env.dma (pagePlace k) = 0 then 0 else pageMapping env (pagePlace k)

theorem releases_zvideoUnmapBuf (place : Place) :
    Releases (pageMapping env place)
      (zvideoUnmapBuf (mappedBuf env place) ZCHAN_BUF_SIZE .PCI_DMA_FROMDEVICE) :=
  (releases_pciUnmap _ _ _ _).done rfl

theorem releases_finiPt {N e i : Nat} {pt : RxPt} (htable : TableAt env N e i pt) :
    Releases (tableParts env i +
        ((List.range (min (N - ZCHAN_RX_PT_ENTRIES * i) ZCHAN_RX_PT_ENTRIES)).map fun j =>
          if ZCHAN_RX_PT_ENTRIES * i + j < e then freedMapping env (ZCHAN_RX_PT_ENTRIES * i + j)
          else 0).sum)
      (finiPt ZCHAN_BUF_SIZE pt) := by
  unfold finiPt tableParts
  rw [htable.rxPt, Option.isNone_some, if_neg Bool.false_ne_true, htable.num]
  refine (releases_forM fun j hj => ?_).then fun _ => ?_
  · have hj : j < ZCHAN_RX_PT_ENTRIES := (List.mem_range.mp hj).trans_le (min_le_right _ _)
    rw [htable.bufs j hj]
    have hplace : pagePlace (ZCHAN_RX_PT_ENTRIES * i + j) = .rxBuf i j := by
      unfold pagePlace ZCHAN_RX_PT_ENTRIES at *
      congr 1 <;> omega
    unfold freedMapping
    rw [hplace]
    split
    next hmapped =>
      unfold mappedBuf
      dsimp only
      by_cases hzero : env.dma (.rxBuf i j) = 0
      · rw [if_pos hzero, if_neg (not_not.mpr hzero)]
        exact releases_pure _
      · rw [if_neg hzero, if_pos hzero]
        exact (releases_zvideoUnmapBuf _).done rfl
    next => exact releases_pure _
  · rw [htable.bufp, htable.dma]
    refine (releases_kfree _).then fun _ => ?_
    exact releases_zchanFreeConsistent _ _ _

variable (env) in
def rxHead (n : Nat) : Multiset DmaResource :=
  {.consistent .rxPdt (env.dma .rxPdt) (n * 8)} + {.kmem .rxPtp}

structure HeadAt (env : DmaEnv) (n : Nat) (zchanRx : RxTblMem) : Prop where
  pdt : zchanRx.zchanRxPdt = some .rxPdt
  dma : zchanRx.zchanRxPdtDma = env.dma .rxPdt
  num : zchanRx.zchanRxPdtNum = n
  ptp : zchanRx.zchanRxPtp = some .rxPtp
  bufsz : zchanRx.zchanRxBufsz = ZCHAN_BUF_SIZE

theorem releases_zvideoFiniRx {n : Nat} {zchanRx : RxTblMem} (hhead : HeadAt env n zchanRx)
    {parts : Nat → Multiset DmaResource}
    (hparts : ∀ k, k < n → Releases (parts k) (finiPt ZCHAN_BUF_SIZE (zchanRx.pts k))) :
    Releases (rxHead env n + ((List.range n).map parts).sum) (zvideoFiniRx zchanRx) := by
  unfold zvideoFiniRx rxHead
  rw [hhead.num, hhead.bufsz, hhead.ptp, hhead.pdt, hhead.dma]
  refine (releases_forM fun k hk => hparts k (List.mem_range.mp hk)).then fun _ => ?_
  refine (releases_kfree _).then fun _ => ?_
  exact (releases_zchanFreeConsistent _ _ _).done rfl

def tablesParts (env : DmaEnv) (i : Nat) : Multiset DmaResource :=
  ((List.range i).map (tableParts env)).sum

theorem releases_tablesStop {N n i : Nat} {zchanRx : RxTblMem} (hhead : HeadAt env n zchanRx)
    (hi : i ≤ n) {entries : Nat} (hstop : TablesStop env N i ⟨zchanRx.pts, entries⟩) :
    Releases (rxHead env n + tablesParts env i) (zvideoFiniRx zchanRx) := by
  unfold tablesParts
  rw [← sum_front (tableParts env) hi]
  refine releases_zvideoFiniRx hhead fun k hk => ?_
  by_cases hki : k < i
  · rw [if_pos hki]
    refine Spec.of_eq (releases_finiPt (hstop.tables k hki)) ?_
    simp
  · have hnone : (zchanRx.pts k).zchanRxPt = none := hstop.none k (Nat.not_lt.mp hki)
    unfold finiPt
    rw [if_neg hki, hnone]
    exact releases_pure _

/-- Of the first `e` pages those at the bus address 0 stay mapped. -/
theorem spec_zvideoFiniRx {N n e : Nat} {zchanRx : RxTblMem} (hhead : HeadAt env n zchanRx)
    (hN : N ≤ ZCHAN_RX_PT_ENTRIES * n) (he : e ≤ N)
    (htables : ∀ i, i < n → TableAt env N e i (zchanRx.pts i)) :
    Spec (rxHead env n + tablesParts env n + mappedPages env e) (zvideoFiniRx zchanRx)
      fun _ left => left = ((List.range e).map (keptMapping env)).sum := by
  have hsplit : mappedPages env e = ((List.range e).map (freedMapping env)).sum +
      ((List.range e).map (keptMapping env)).sum := by
    rw [← List.sum_map_add]
    unfold mappedPages
    refine congrArg List.sum (List.map_congr_left fun k _ => ?_)
    unfold freedMapping keptMapping
    split
    · exact (zero_add _).symm
    · exact (add_zero _).symm
  have hblocks : ((List.range n).map fun i => tableParts env i +
      ((List.range (min (N - ZCHAN_RX_PT_ENTRIES * i) ZCHAN_RX_PT_ENTRIES)).map fun j =>
        if ZCHAN_RX_PT_ENTRIES * i + j < e then freedMapping env (ZCHAN_RX_PT_ENTRIES * i + j)
        else 0).sum).sum = tablesParts env n + ((List.range e).map (freedMapping env)).sum := by
    rw [List.sum_map_add,
      sum_blocks (fun k => if k < e then freedMapping env k else 0) ZCHAN_RX_PT_ENTRIES N n,
      min_eq_left hN, sum_front (freedMapping env) he]
    rfl
  have hfini := (releases_zvideoFiniRx hhead fun i hi => releases_finiPt (htables i hi)).frame
    ((List.range e).map (keptMapping env)).sum
  rw [hblocks] at hfini
  rw [hsplit, ← add_assoc, add_assoc (rxHead env n)]
  refine hfini.mono ?_
  rintro _ left ⟨_, rfl, rfl⟩
  exact zero_add _

end Tables

section Init

variable {env : DmaEnv}

def TablesOk (env : DmaEnv) (n : Nat) : Prop :=
  env.alloc .rxPdt = true ∧ env.alloc .rxPtp = true ∧ ∀ k, k < n → TableAllocs env k

def keptPages (env : DmaEnv) (e : Nat) : Multiset DmaResource :=
  ((List.range e).map (keptMapping env)).sum

/-- What `zvideo_init_rx` comes to with `n` tables for `N` entries, and what it then owns. -/
inductive InitResult (env : DmaEnv) (N n : Nat) : Int × RxTblMem → Multiset DmaResource → Prop where
  | refused {zchanRx} (hnot : ¬ TablesOk env n) : InitResult env N n (-1, zchanRx) 0
  | stopped {zchanRx e} (hallocs : TablesOk env n) (he : e < N)
      (hmaps : ∀ k, k < e → Maps env (pagePlace k)) (hnot : ¬ Maps env (pagePlace e)) :
      InitResult env N n (-1, zchanRx) (keptPages env e)
  | ready {zchanRx} (hallocs : TablesOk env n) (hmaps : ∀ k, k < N → Maps env (pagePlace k))
      (hhead : HeadAt env n zchanRx)
      (htables : ∀ i, i < n → TableAt env N N i (zchanRx.pts i)) :
      InitResult env N n (0, zchanRx) (rxHead env n + tablesParts env n + mappedPages env N)

variable {N n pages : Nat} {zchanRx : RxTblMem} {bufList : List Nat}

theorem spec_mapTables (hallocs : TablesOk env n) (hhead : HeadAt env n zchanRx)
    (hN : N ≤ ZCHAN_RX_PT_ENTRIES * n) (hn : ∀ i, i < n → ZCHAN_RX_PT_ENTRIES * i < N)
    (htables : ∀ i, i < n → TableAt env N 0 i (zchanRx.pts i))
    (hbufs : bufList.length * pages = N) :
    Spec (rxHead env n + tablesParts env n) (mapTables env pages bufList zchanRx)
      (InitResult env N n) := by
  have hwalk : WalkAt env N 0 ⟨zchanRx.pts, 0, 0, 0⟩ :=
    ⟨nofun, rfl, rfl, rfl, fun i hi =>
      htables i (Nat.lt_of_mul_lt_mul_left (hi.trans_le hN))⟩
  unfold mapTables
  refine Spec.call (spec_mapBufs bufList hwalk ((Nat.zero_add _).trans hbufs)) ?_
  rintro ⟨ok, w⟩ left ⟨e, hwalk, rfl, hend⟩
  have htables (i : Nat) (hi : i < n) : TableAt env N e i (w.pts i) := hwalk.tables i (hn i hi)
  have hhead : HeadAt env n { zchanRx with pts := w.pts } :=
    ⟨hhead.pdt, hhead.dma, hhead.num, hhead.ptp, hhead.bufsz⟩
  cases ok with
  | true =>
      have he : e = N := hend
      subst he
      exact Spec.pure (.ready hallocs hwalk.maps hhead htables)
  | false =>
      obtain ⟨he, hnot⟩ := hend
      refine (spec_zvideoFiniRx hhead hN he.le htables).bind ?_
      rintro _ _ rfl
      exact Spec.pure (.stopped hallocs he hwalk.maps hnot)

theorem spec_allocTables (hpdt : env.alloc .rxPdt = true) (hptp : env.alloc .rxPtp = true)
    (hhead : HeadAt env n zchanRx) (hzero : zchanRx.pts = fun _ => .zero)
    (hN : N ≤ ZCHAN_RX_PT_ENTRIES * n) (hn : ∀ i, i < n → ZCHAN_RX_PT_ENTRIES * i < N)
    (hbufs : bufList.length * pages = N) :
    Spec (rxHead env n) (allocTables env pages N bufList zchanRx) (InitResult env N n) := by
  unfold allocTables
  rw [hhead.num, hzero]
  refine Spec.call (spec_forLoop (TablesAt env N) (TablesStop env N) _
    (fun i t _ => spec_tableRound) ⟨fun _ => .zero, N⟩ ⟨nofun, filledTo_zero, rfl⟩) ?_
  rintro ⟨i, ok, t⟩ left ⟨hend, rfl⟩
  have hhead : HeadAt env n { zchanRx with zchanRxPdtNum := n, pts := t.pts } :=
    ⟨hhead.pdt, hhead.dma, rfl, hhead.ptp, hhead.bufsz⟩
  cases ok with
  | true =>
      obtain ⟨hi, htables⟩ := hend
      dsimp only at hi
      subst hi
      exact spec_mapTables ⟨hpdt, hptp, htables.allocs⟩ hhead hN hn htables.tables.filled hbufs
  | false =>
      obtain ⟨hi, hstop⟩ := hend
      refine (releases_tablesStop hhead hi.le hstop).bind ?_
      rintro _ _ rfl
      exact Spec.pure (.refused fun hallocs => hstop.not_allocs (hallocs.2.2 i hi))

theorem pagesOf_le (sizeimage : BitVec 32) : pagesOf sizeimage ≤ 2 ^ 20 := by
  have hlt := sizeimage.isLt
  unfold pagesOf CEILING ZCHAN_BUF_SIZE
  omega

theorem toNat_ptEntriesOf {count : BitVec 32} (sizeimage : BitVec 32)
    (hcount : count.toNat ≤ VB2_MAX_FRAME) :
    (ptEntriesOf count sizeimage).toNat = count.toNat * pagesOf sizeimage ∧
      (pdtEntriesOf (ptEntriesOf count sizeimage)).toNat =
        (count.toNat * pagesOf sizeimage + 511) / 512 := by
  have hbound : count.toNat * pagesOf sizeimage ≤ 32 * 2 ^ 20 :=
    Nat.mul_le_mul hcount (pagesOf_le sizeimage)
  have hpdt := toNat_pdtEntriesOf (count.toNat * pagesOf sizeimage)
  have hpt : (ptEntriesOf count sizeimage).toNat = count.toNat * pagesOf sizeimage % 2 ^ 32 :=
    BitVec.toNat_ofNat ..
  refine ⟨hpt.trans (Nat.mod_eq_of_lt (by omega)), hpdt.trans ?_⟩
  rw [Nat.mod_eq_of_lt (by omega)]

theorem spec_zvideoInitRx {count : BitVec 32} (sizeimage : BitVec 32) (zchanRx : RxTblMem)
    (hcount : bufList.length = count.toNat) (hframes : bufList.length ≤ VB2_MAX_FRAME) :
    Spec 0 (zvideoInitRx env count sizeimage bufList zchanRx)
      (InitResult env (bufList.length * pagesOf sizeimage)
        ((bufList.length * pagesOf sizeimage + 511) / 512)) := by
  obtain ⟨hpt, hpdt⟩ := toNat_ptEntriesOf sizeimage (hcount ▸ hframes)
  have hpages : ALIGN sizeimage.toNat ZCHAN_BUF_SIZE / ZCHAN_BUF_SIZE = pagesOf sizeimage :=
    Nat.mul_div_cancel _ (by decide)
  rw [← hcount] at hpt hpdt
  unfold zvideoInitRx
  dsimp only
  rw [hpt, hpdt, hpages]
  generalize hN : bufList.length * pagesOf sizeimage = N
  refine Spec.attempt (fun hrxPdt => ?_) fun hrxPdt => ?_
  · refine Spec.attempt (fun hrxPtp => ?_) fun hrxPtp => ?_
    · rw [zero_add]
      refine spec_allocTables hrxPdt hrxPtp ⟨rfl, rfl, rfl, rfl, rfl⟩ rfl ?_ (fun i hi => ?_) hN
      · unfold ZCHAN_RX_PT_ENTRIES
        omega
      · unfold ZCHAN_RX_PT_ENTRIES
        omega
    · refine (releases_zchanFreeConsistent _ _ _).done ?_
      exact .refused fun hallocs => nomatch hrxPtp.symm.trans hallocs.2.1
  · exact Spec.pure (.refused fun hallocs => nomatch hrxPdt.symm.trans hallocs.1)

/-- With the memory there, no page that is mapped before one fails is at the bus address 0. -/
def NoneAtZero (env : DmaEnv) (N n : Nat) : Prop :=
  TablesOk env n → ∀ k, k < N → (∀ j, j ≤ k → Maps env (pagePlace j)) → env.dma (pagePlace k) ≠ 0

theorem keptPages_eq_zero_iff (e : Nat) :
    keptPages env e = 0 ↔ ∀ k, k < e → env.dma (pagePlace k) ≠ 0 := by
  unfold keptPages
  induction e with
  | zero => exact iff_of_true rfl nofun
  | succ e ih =>
      rw [List.range_succ, List.map_append, List.sum_append, ← Multiset.card_eq_zero,
        Multiset.card_add, Nat.add_eq_zero_iff, Multiset.card_eq_zero, Multiset.card_eq_zero, ih]
      have hlast : ((List.map (keptMapping env) [e]).sum = 0) ↔ env.dma (pagePlace e) ≠ 0 := by
        rw [List.map_singleton, List.sum_singleton]
        unfold keptMapping
        split
        next hzero => exact iff_of_false (Multiset.singleton_ne_zero _) (not_not.mpr hzero)
        next hne => exact iff_of_true rfl hne
      rw [hlast]
      exact Nat.forall_lt_succ_right.symm

theorem releases_ready (hhead : HeadAt env n zchanRx) (hN : N ≤ ZCHAN_RX_PT_ENTRIES * n)
    (htables : ∀ i, i < n → TableAt env N N i (zchanRx.pts i))
    (hnone : ∀ k, k < N → env.dma (pagePlace k) ≠ 0) :
    Releases (rxHead env n + tablesParts env n + mappedPages env N) (zvideoFiniRx zchanRx) := by
  refine (spec_zvideoFiniRx hhead hN le_rfl htables).mono ?_
  rintro _ left rfl
  exact (keptPages_eq_zero_iff N).mpr hnone

/-- Whether `zvideo_init_rx` is all or nothing depends on the pages at the bus address 0. -/
theorem allOrNothing_iff {init : Holding DmaResource (Int × RxTblMem)}
    (hinit : Spec 0 init (InitResult env N n)) (hN : N ≤ ZCHAN_RX_PT_ENTRIES * n) :
    AllOrNothing init zvideoFiniRx (rxHead env n + tablesParts env n + mappedPages env N) ↔
      NoneAtZero env N n := by
  constructor
  · intro hall hallocs k hk hmaps hzero
    obtain ⟨out, own, -, hresult, hout⟩ := hinit.and hall 0
    cases hresult with
    | refused hnot => exact hnot hallocs
    | stopped _ he hmaps' hnot =>
        have hke : k < _ := Nat.lt_of_not_le fun hle => hnot (hmaps _ hle)
        exact (keptPages_eq_zero_iff _).mp hout k hke hzero
    | ready _ _ hhead htables =>
        obtain ⟨-, hfini⟩ := hout
        have hkept := spec_zvideoFiniRx hhead hN le_rfl htables
        obtain ⟨_, left, -, hleft, rfl⟩ := hkept.and hfini 0
        exact (keptPages_eq_zero_iff N).mp hleft.symm k hk hzero
  · intro hnone
    refine hinit.mono ?_
    rintro out own hresult
    cases hresult with
    | refused hnot => rfl
    | stopped hallocs he hmaps hnot =>
        refine (keptPages_eq_zero_iff _).mpr fun k hk => ?_
        exact hnone hallocs k (hk.trans he) fun j hj => hmaps j (hj.trans_lt hk)
    | ready hallocs hmaps hhead htables =>
        refine ⟨rfl, releases_ready hhead hN htables fun k hk => ?_⟩
        exact hnone hallocs k hk fun j hj => hmaps j (hj.trans_lt hk)

end Init

end ApolloContrib.Video.Dma
