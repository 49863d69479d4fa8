import ApolloContrib.Video.DmaTables

namespace ApolloContrib.Video.Dma

open ApolloContrib.Chan ApolloContrib.Chan.Dma ApolloContrib.Library ApolloContrib.Library.Holding

/-! A start of the capture: the tables are set up, and the buffers that were queued for it
belong to the framework again when that fails. -/

def ENOSR : Int := 63
def ENOBUFS : Int := 105

/-- `returned` records the calls of `vb2_buffer_done`. -/
structure DmaVideo where
  sizeimage : BitVec 32
  zynqVideoBufNum : BitVec 32
  zynqVideoZeroCopy : Bool
  streaming : Bool
  bufTotal : Nat
  bufAvail : Nat
  bufList : List Nat
  pendingList : List Nat
  returned : List Nat
  zchanRx : RxTblMem

/-- The queue starts with the buffers that the driver has been handed, at most
`VB2_MAX_FRAME` of them. -/
structure StartCall where
  zvideo : DmaVideo
  avail : zvideo.bufAvail = zvideo.bufList.length
  frames : zvideo.bufList.length ≤ VB2_MAX_FRAME

namespace StartCall

variable (call : StartCall)

def count : BitVec 32 := BitVec.ofNat 32 call.zvideo.bufList.length

def entries : Nat := call.zvideo.bufList.length * pagesOf call.zvideo.sizeimage

def tables : Nat := (call.entries + 511) / 512

end StartCall

def zvideoReturnAllBuffers (z : DmaVideo) : DmaVideo :=
  { z with
    returned := z.returned ++ z.pendingList ++ z.bufList
    pendingList := []
    bufList := []
    bufAvail := z.bufAvail - z.bufList.length }

def setStreaming (z : DmaVideo) : DmaVideo := { z with streaming := true }

def zvideoStartStreaming (env : DmaEnv) (z : DmaVideo) (count : BitVec 32) :
    Holding DmaResource (Int × DmaVideo) :=
  if count < z.zynqVideoBufNum then pure (-ENOBUFS, z)
  else
    let z := { z with bufTotal := count.toNat }
    if z.zynqVideoZeroCopy then do
      let (ret, zchanRx) ← zvideoInitRx env count z.sizeimage z.bufList z.zchanRx
      let z := { z with zchanRx := zchanRx }
      if ret ≠ 0 then pure (-ENOSR, z) else pure (0, setStreaming z)
    else pure (0, setStreaming z)

/-- Afterwards the streaming flag is clear and `buf_total` is 0. -/
def zvideoStopStreaming (z : DmaVideo) : Holding DmaResource DmaVideo := do
  let z := { z with streaming := false }
  if z.zynqVideoZeroCopy then
    let zchanRx ← zvideoFiniRx z.zchanRx
    pure { zvideoReturnAllBuffers { z with zchanRx := zchanRx } with bufTotal := 0 }
  else pure { zvideoReturnAllBuffers z with bufTotal := 0 }

/-- Every buffer that `z` holds has been given back, and nothing is counted. -/
structure GivenBack (z z' : DmaVideo) : Prop where
  returned : z'.returned.Perm (z.returned ++ z.pendingList ++ z.bufList)
  bufList : z'.bufList = []
  pendingList : z'.pendingList = []
  bufAvail : z'.bufAvail = 0
  bufTotal : z'.bufTotal = 0

def videoResources (env : DmaEnv) (call : StartCall) : Multiset DmaResource :=
  rxHead env call.tables + tablesParts env call.tables + mappedPages env call.entries

structure DmaSetUp (env : DmaEnv) (c : ChanConfig) (zchanTx : TxRingMem) (zchanRx : RxTblMem)
    (call : StartCall) : Prop where
  txRing : AllOrNothing (zchanInitTxRing env c zchanTx) (zchanFiniTxRing env c)
    (txResources env c)
  rxTbl : AllOrNothing (zchanInitRxTbl env c zchanRx) (zchanFiniRxTbl env c) (rxResources env c)
  initRx : AllOrNothing
    (zvideoInitRx env call.count call.zvideo.sizeimage call.zvideo.bufList call.zvideo.zchanRx)
    zvideoFiniRx (videoResources env call)
  start : Spec 0 (zvideoStartStreaming env call.zvideo call.count) fun out _ =>
    out.1 = -ENOSR → GivenBack call.zvideo out.2

/-- The start is not one that `zvideo_init_rx` makes fail, or it has no buffer to give back. -/
def StartsOrEmpty (env : DmaEnv) (call : StartCall) : Prop :=
  (call.zvideo.zynqVideoBufNum ≤ call.count → call.zvideo.zynqVideoZeroCopy = true →
    TablesOk env call.tables ∧ ∀ k, k < call.entries → Maps env (pagePlace k)) ∨
  call.zvideo.bufList = [] ∧ call.zvideo.pendingList = []

section Start

variable {env : DmaEnv} {call : StartCall}

theorem count_toNat (call : StartCall) : call.zvideo.bufList.length = call.count.toNat := by
  have hframes := call.frames
  unfold VB2_MAX_FRAME at hframes
  unfold StartCall.count
  rw [BitVec.toNat_ofNat, Nat.mod_eq_of_lt (by omega)]

theorem spec_initRx (env : DmaEnv) (call : StartCall) :
    Spec 0
      (zvideoInitRx env call.count call.zvideo.sizeimage call.zvideo.bufList call.zvideo.zchanRx)
      (InitResult env call.entries call.tables) :=
  spec_zvideoInitRx _ _ (count_toNat call) call.frames

theorem entries_le (call : StartCall) : call.entries ≤ ZCHAN_RX_PT_ENTRIES * call.tables := by
  unfold StartCall.tables ZCHAN_RX_PT_ENTRIES
  omega

/-- Without buffers there is nothing to give back when the tables are not set up. -/
theorem givenBack_iff (zchanRx : RxTblMem) :
    GivenBack call.zvideo
        { call.zvideo with bufTotal := call.count.toNat, zchanRx := zchanRx } ↔
      call.zvideo.bufList = [] ∧ call.zvideo.pendingList = [] := by
  constructor
  · rintro ⟨_, hbufs, hpending, _, _⟩
    exact ⟨hbufs, hpending⟩
  · rintro ⟨hbufs, hpending⟩
    have hlength : call.zvideo.bufList.length = 0 := by rw [hbufs]; rfl
    refine ⟨?_, hbufs, hpending, call.avail.trans hlength, ?_⟩
    · dsimp only
      rw [hbufs, hpending, List.append_nil, List.append_nil]
    · exact (count_toNat call).symm.trans hlength

theorem initResult_ready_iff {N n : Nat} {out : Int × RxTblMem} {own : Multiset DmaResource}
    (hresult : InitResult env N n out own) :
    out.1 = 0 ↔ TablesOk env n ∧ ∀ k, k < N → Maps env (pagePlace k) := by
  have hfailed : (-1 : Int) ≠ 0 := by decide
  cases hresult with
  | refused hnot => exact iff_of_false hfailed fun hok => hnot hok.1
  | stopped _ he _ hnot => exact iff_of_false hfailed fun hok => hnot (hok.2 _ he)
  | ready hallocs hmaps _ _ => exact iff_of_true rfl ⟨hallocs, hmaps⟩

theorem start_iff :
    Spec 0 (zvideoStartStreaming env call.zvideo call.count)
        (fun out _ => out.1 = -ENOSR → GivenBack call.zvideo out.2) ↔
      StartsOrEmpty env call := by
  have hfewer : -ENOBUFS ≠ -ENOSR := by decide
  have hstarted : 0 ≠ -ENOSR := by decide
  unfold zvideoStartStreaming StartsOrEmpty
  by_cases hfew : call.count < call.zvideo.zynqVideoBufNum
  · rw [if_pos hfew]
    refine iff_of_true (Spec.pure fun hret => absurd hret hfewer) (Or.inl fun hle => ?_)
    exact absurd hfew (BitVec.not_lt.mpr hle)
  · rw [if_neg hfew]
    have henough : call.zvideo.zynqVideoBufNum ≤ call.count := BitVec.not_lt.mp hfew
    dsimp only
    by_cases hzero : call.zvideo.zynqVideoZeroCopy = true
    · rw [if_pos hzero]
      constructor
      · intro hspec
        obtain ⟨⟨ret, zchanRx⟩, own, hresult, out, left, hrun, hout⟩ :=
          (spec_initRx env call).bind_inv hspec
        by_cases hret : ret = 0
        · exact Or.inl fun _ _ => (initResult_ready_iff hresult).mp hret
        · dsimp only at hrun
          rw [if_pos hret] at hrun
          cases hrun
          exact Or.inr ((givenBack_iff zchanRx).mp (hout rfl))
      · intro hok
        refine (spec_initRx env call).bind ?_
        rintro ⟨ret, zchanRx⟩ own hresult
        by_cases hret : ret = 0
        · dsimp only
          rw [if_neg (not_not.mpr hret)]
          exact Spec.pure fun hfailed => absurd hfailed hstarted
        · dsimp only
          rw [if_pos hret]
          refine Spec.pure fun _ => (givenBack_iff zchanRx).mpr ?_
          refine hok.resolve_left fun hstarts => ?_
          exact hret ((initResult_ready_iff hresult).mpr (hstarts henough hzero))
    · rw [if_neg hzero]
      refine iff_of_true (Spec.pure fun hret => absurd hret hstarted) (Or.inl fun _ hcopy => ?_)
      exact absurd hcopy hzero

theorem returnAllBuffers_givenBack (z : DmaVideo)
    (hlists : z.bufList = call.zvideo.bufList ∧ z.pendingList = call.zvideo.pendingList)
    (hcounts : z.bufAvail = call.zvideo.bufAvail ∧ z.returned = call.zvideo.returned) :
    GivenBack call.zvideo { zvideoReturnAllBuffers z with bufTotal := 0 } := by
  refine ⟨?_, rfl, rfl, ?_, rfl⟩
  · unfold zvideoReturnAllBuffers
    rw [hlists.1, hlists.2, hcounts.2]
  · unfold zvideoReturnAllBuffers
    dsimp only
    rw [hlists.1, hcounts.1, call.avail, Nat.sub_self]

/-- The stop after a start gives everything back, the buffers and the memory. -/
theorem stop_after_start (hnone : NoneAtZero env call.entries call.tables) :
    Spec 0 (zvideoStartStreaming env call.zvideo call.count) fun out own => out.1 = 0 →
      Spec own (zvideoStopStreaming out.2) fun z left => left = 0 ∧ GivenBack call.zvideo z := by
  have hfewer : -ENOBUFS ≠ 0 := by decide
  have hfailed : -ENOSR ≠ 0 := by decide
  unfold zvideoStartStreaming
  by_cases hfew : call.count < call.zvideo.zynqVideoBufNum
  · rw [if_pos hfew]
    exact Spec.pure fun hret => absurd hret hfewer
  · rw [if_neg hfew]
    dsimp only
    by_cases hzero : call.zvideo.zynqVideoZeroCopy = true
    · rw [if_pos hzero]
      refine (spec_initRx env call).bind ?_
      rintro ⟨ret, zchanRx⟩ own hresult
      cases hresult with
      | refused _ => exact Spec.pure fun hret => absurd hret hfailed
      | stopped _ _ _ _ => exact Spec.pure fun hret => absurd hret hfailed
      | ready hallocs hmaps hhead htables =>
          refine Spec.pure fun _ => ?_
          unfold zvideoStopStreaming setStreaming
          dsimp only
          rw [if_pos hzero]
          have hfini := releases_ready hhead (entries_le call) htables fun k hk =>
            hnone hallocs k hk fun j hj => hmaps j (hj.trans_lt hk)
          exact hfini.bind fun rx left hleft => Spec.pure
            ⟨hleft, returnAllBuffers_givenBack _ ⟨rfl, rfl⟩ ⟨rfl, rfl⟩⟩
    · rw [if_neg hzero]
      refine Spec.pure fun _ => ?_
      unfold zvideoStopStreaming setStreaming
      dsimp only
      rw [if_neg hzero]
      exact Spec.pure ⟨rfl, returnAllBuffers_givenBack _ ⟨rfl, rfl⟩ ⟨rfl, rfl⟩⟩

end Start

/-- The set-up is all or nothing just when no page is mapped at the bus address 0, which reads
as an entry that is not mapped, and no start fails in `zvideo_init_rx` with buffers queued. -/
theorem dmaSetUp_iff (env : DmaEnv) (c : ChanConfig) (zchanTx : TxRingMem)
    (zchanRx : RxTblMem) (call : StartCall) :
    DmaSetUp env c zchanTx zchanRx call ↔
      NoneAtZero env call.entries call.tables ∧ StartsOrEmpty env call := by
  have hinitRx := allOrNothing_iff (spec_initRx env call) (entries_le call)
  constructor
  · intro hsetUp
    exact ⟨hinitRx.mp hsetUp.initRx, start_iff.mp hsetUp.start⟩
  · rintro ⟨hnone, hstarts⟩
    exact ⟨allOrNothing_txRing zchanTx, allOrNothing_rxTbl zchanRx, hinitRx.mpr hnone,
      start_iff.mpr hstarts⟩

def noMemory : DmaEnv where
  pageSize := 4096
  pdev := true
  alloc := fun _ => false
  dma := fun _ => 0
  mapFails := fun _ => false
  isVmalloc := fun _ => true

def TxRingMem.zero : TxRingMem := ⟨none, 0, 0, 0, 0, none, fun _ => .zero⟩

def RxTblMem.zero : RxTblMem := ⟨none, 0, 0, none, 0, fun _ => .zero⟩

def cameraChannel : ChanConfig where
  zchanType := .video
  zcanTxDma := true
  zcanRxDma := true
  zynqVideoZeroCopy := true
  zynqVideoBufNum := 4
  sizeimage := 4096

def fourQueued : StartCall where
  zvideo :=
    { sizeimage := 4096
      zynqVideoBufNum := 4
      zynqVideoZeroCopy := true
      streaming := false
      bufTotal := 0
      bufAvail := 4
      bufList := [0, 1, 2, 3]
      pendingList := []
      returned := []
      zchanRx := RxTblMem.zero }
  avail := rfl
  frames := by decide

/-- The page directory table cannot be allocated, and the buffers stay on `buf_list`. -/
theorem dmaSetUp_fails :
    ¬ DmaSetUp noMemory cameraChannel TxRingMem.zero RxTblMem.zero fourQueued := by
  intro hsetUp
  obtain ⟨out, own, hrun, hout⟩ := hsetUp.start 0
  have hfails : zvideoStartStreaming noMemory fourQueued.zvideo fourQueued.count (0 + 0) =
      some ((-ENOSR, { fourQueued.zvideo with bufTotal := 4 }), 0) := rfl
  rw [hfails] at hrun
  obtain ⟨rfl, -⟩ := Prod.mk.inj (Option.some.inj hrun)
  exact nomatch (hout rfl).bufList

end ApolloContrib.Video.Dma
