import ApolloContrib.Video.PageTable
import Mathlib.Data.List.Range

namespace ApolloContrib.Video

open ApolloContrib.Chan ApolloContrib.Library

/-! `zvideo_init_rx` in the arithmetic of the driver, with every `zchan_rx_pt_t` that it
looks at. -/

/-- `rx_ptp` and `rx_pt` (and with it `bufp`) as indices. `writes` are the page table
entries written, by table, and `touched` the tables whose `zchan_rx_pt_t` has been
accessed. -/
structure PtWalk where
  ptEntries : BitVec 32
  rxPtp : Nat
  rxPt : Nat
  pages : Nat → Nat → Option Page
  offset : Nat → BitVec 32
  writes : List (Nat × Nat)
  touched : List Nat

namespace PtWalk

/-- A mapped page; behind the last entry of a table the next one is read at once. -/
def put (w : PtWalk) (page : Page) : PtWalk :=
  let w := { w with
    ptEntries := w.ptEntries + 1
    pages := Function.update w.pages w.rxPtp
      (Function.update (w.pages w.rxPtp) w.rxPt (some page))
    writes := w.writes ++ [(w.rxPtp, w.rxPt)] }
  if w.ptEntries &&& BitVec.ofNat 32 (ZCHAN_RX_PT_ENTRIES - 1) ≠ 0 then
    { w with rxPt := w.rxPt + 1 }
  else
    { w with rxPtp := w.rxPtp + 1, rxPt := 0, touched := w.touched ++ [w.rxPtp + 1] }

def setOffset (w : PtWalk) (ptShift buf : Nat) : PtWalk :=
  { w with offset := Function.update w.offset buf (w.ptEntries <<< ptShift) }

/-- The pages of one buffer. The result is `none` when an entry of a table that was not
allocated would be written. -/
def walkPages (pdtEntries : Nat) (mapFails : Nat → Bool) (buf : Nat) :
    Nat → Nat → PtWalk → Option (Bool × PtWalk)
  | 0, _, w => some (true, w)
  | left + 1, index, w =>
      if pdtEntries ≤ w.rxPtp then none
      else if mapFails w.writes.length then some (false, w)
      else walkPages pdtEntries mapFails buf left (index + 1) (w.put ⟨buf, index⟩)

def walkBufs (pdtEntries pages ptShift : Nat) (mapFails : Nat → Bool) :
    List Nat → PtWalk → Option (Bool × PtWalk)
  | [], w => some (true, w)
  | buf :: rest, w =>
      match walkPages pdtEntries mapFails buf pages 0 (w.setOffset ptShift buf) with
      | some (true, w) => walkBufs pdtEntries pages ptShift mapFails rest w
      | result => result

end PtWalk

/-- `pt_entries`, a product that is cut to 32 bits. -/
def ptEntriesOf (count sizeimage : BitVec 32) : BitVec 32 :=
  BitVec.ofNat 32 (count.toNat * CEILING sizeimage.toNat ZCHAN_BUF_SIZE)

def pdtEntriesOf (ptEntries : BitVec 32) : BitVec 32 :=
  (ptEntries + BitVec.ofNat 32 ZCHAN_RX_PT_ENTRIES - 1) / BitVec.ofNat 32 ZCHAN_RX_PT_ENTRIES

/-- The fields of the table; `zchan_rx_size` is cut to 32 bits. -/
def initRxTbl (zchanRx : ZchanRxTbl) (ptEntries : BitVec 32) : ZchanRxTbl :=
  { zchanRx with
    zchanRxPdtNum := (pdtEntriesOf ptEntries).toNat
    zchanRxPdtShift := fls (BitVec.ofNat 32 (ZCHAN_RX_PT_ENTRIES * ZCHAN_BUF_SIZE)) - 1
    zchanRxPtShift := fls (BitVec.ofNat 32 ZCHAN_BUF_SIZE) - 1
    zchanRxPtMask := ZCHAN_RX_PT_ENTRIES - 1
    zchanRxSize := ptEntries.toNat * ZCHAN_BUF_SIZE % 2 ^ 32
    zchanRxBufMask := ZCHAN_BUF_SIZE - 1 }

structure RxTables where
  zchanRx : ZchanRxTbl
  walk : PtWalk

/-- Allocating the tables touches each, and the walk begins with a look at the first. -/
def PtWalk.start (pdtEntries : Nat) : PtWalk where
  ptEntries := 0
  rxPtp := 0
  rxPt := 0
  pages := fun _ _ => none
  offset := fun _ => 0
  writes := []
  touched := List.range pdtEntries ++ [0]

/-- The flag tells whether `zvideo_init_rx` returns 0; `bufs` is `buf_list`. -/
def initRxTables (zchanRx : ZchanRxTbl) (count sizeimage : BitVec 32) (bufs : List Nat)
    (init : InitCall) : Option (Bool × RxTables) :=
  let ptEntries := ptEntriesOf count sizeimage
  let pdtEntries := (pdtEntriesOf ptEntries).toNat
  let zchanRx := initRxTbl zchanRx ptEntries
  if ¬ init.allocated then some (false, ⟨zchanRx, .start pdtEntries⟩)
  else
    (PtWalk.walkBufs pdtEntries (ALIGN sizeimage.toNat ZCHAN_BUF_SIZE / ZCHAN_BUF_SIZE)
      zchanRx.zchanRxPtShift init.mapFails bufs (.start pdtEntries)).map
      fun (mapped, walk) => (mapped, ⟨zchanRx, walk⟩)

def RxTables.byteAt (t : RxTables) (off : Nat) : Option (Nat × Nat) :=
  let ptr := t.zchanRx.zchanRxOff2addr off
  (t.walk.pages ptr.pdtEntry ptr.ptEntry).map fun page =>
    (page.buf, page.index * ZCHAN_BUF_SIZE + ptr.offset)

structure Walked (before : List Nat) (done : List Page) (w : PtWalk) : Prop where
  ptEntries : w.ptEntries = BitVec.ofNat 32 done.length
  rxPtp : w.rxPtp = done.length / ZCHAN_RX_PT_ENTRIES
  rxPt : w.rxPt = done.length % ZCHAN_RX_PT_ENTRIES
  pages : ∀ e, e < done.length →
    w.pages (e / ZCHAN_RX_PT_ENTRIES) (e % ZCHAN_RX_PT_ENTRIES) = done[e]?
  writes : w.writes = (List.range done.length).map fun e =>
    (e / ZCHAN_RX_PT_ENTRIES, e % ZCHAN_RX_PT_ENTRIES)
  touched : w.touched = before ++ List.range' 1 (done.length / ZCHAN_RX_PT_ENTRIES)

theorem walked_start (pdtEntries : Nat) :
    Walked (List.range pdtEntries ++ [0]) [] (.start pdtEntries) :=
  ⟨rfl, rfl, rfl, nofun, rfl, by simp [PtWalk.start]⟩

section Walk

variable {before : List Nat} {done : List Page} {w : PtWalk}

theorem toNat_mask (n : Nat) :
    (BitVec.ofNat 32 n &&& BitVec.ofNat 32 (ZCHAN_RX_PT_ENTRIES - 1)).toNat =
      n % ZCHAN_RX_PT_ENTRIES := by
  rw [BitVec.toNat_and, BitVec.toNat_ofNat]
  change n % 2 ^ 32 &&& (2 ^ 9 - 1) = n % 2 ^ 9
  rw [Nat.and_two_pow_sub_one_eq_mod]
  omega

theorem Walked.setOffset (hwalked : Walked before done w) (ptShift buf : Nat) :
    Walked before done (w.setOffset ptShift buf) :=
  ⟨hwalked.ptEntries, hwalked.rxPtp, hwalked.rxPt, hwalked.pages, hwalked.writes,
    hwalked.touched⟩

theorem Walked.pages_put (hwalked : Walked before done w) (page : Page) {e : Nat}
    (he : e < done.length + 1) :
    Function.update w.pages w.rxPtp (Function.update (w.pages w.rxPtp) w.rxPt (some page))
      (e / ZCHAN_RX_PT_ENTRIES) (e % ZCHAN_RX_PT_ENTRIES) = (done ++ [page])[e]? := by
  rcases Nat.lt_succ_iff_lt_or_eq.mp he with he | rfl
  · rw [List.getElem?_append_left he, ← hwalked.pages e he, Function.update_apply]
    split
    next htable =>
      rw [Function.update_of_ne, htable]
      intro hpt
      rw [hwalked.rxPtp] at htable
      rw [hwalked.rxPt] at hpt
      unfold ZCHAN_RX_PT_ENTRIES at htable hpt
      omega
    next => rfl
  · rw [hwalked.rxPtp, hwalked.rxPt, Function.update_self, Function.update_self]
    simp

theorem Walked.writes_put (hwalked : Walked before done w) :
    w.writes ++ [(w.rxPtp, w.rxPt)] = (List.range (done.length + 1)).map fun e =>
      (e / ZCHAN_RX_PT_ENTRIES, e % ZCHAN_RX_PT_ENTRIES) := by
  rw [List.range_succ, List.map_append, hwalked.writes, hwalked.rxPtp, hwalked.rxPt]
  rfl

theorem ofNat_succ (n : Nat) : BitVec.ofNat 32 n + 1 = BitVec.ofNat 32 (n + 1) := by
  rw [BitVec.ofNat_add]
  rfl

theorem Walked.put (hwalked : Walked before done w) (page : Page) :
    Walked before (done ++ [page]) (w.put page) := by
  have hlength : (done ++ [page]).length = done.length + 1 := by simp
  have hpages (e : Nat) (he : e < (done ++ [page]).length) :=
    hwalked.pages_put page (he.trans_eq hlength)
  have hwrites := hwalked.writes_put
  have hmask := toNat_mask (done.length + 1)
  unfold PtWalk.put
  dsimp only
  rw [hwalked.ptEntries, ofNat_succ]
  rw [← hlength] at hwrites
  split
  next hinside =>
    have hmod : (done.length + 1) % ZCHAN_RX_PT_ENTRIES ≠ 0 := by
      intro hzero
      exact hinside (BitVec.eq_of_toNat_eq (hmask.trans hzero))
    have hsame : (done.length + 1) / ZCHAN_RX_PT_ENTRIES =
        done.length / ZCHAN_RX_PT_ENTRIES := by
      unfold ZCHAN_RX_PT_ENTRIES at hmod ⊢
      omega
    refine ⟨by rw [hlength], ?_, ?_, hpages, hwrites, ?_⟩
    · rw [hlength, hsame]
      exact hwalked.rxPtp
    · rw [hlength]
      dsimp only
      rw [hwalked.rxPt]
      unfold ZCHAN_RX_PT_ENTRIES at hmod ⊢
      omega
    · rw [hlength, hsame]
      exact hwalked.touched
  next hfull =>
    have hmod : (done.length + 1) % ZCHAN_RX_PT_ENTRIES = 0 := by
      rw [← hmask, not_not.mp hfull]
      rfl
    have hnext : (done.length + 1) / ZCHAN_RX_PT_ENTRIES =
        done.length / ZCHAN_RX_PT_ENTRIES + 1 := by
      unfold ZCHAN_RX_PT_ENTRIES at hmod ⊢
      omega
    refine ⟨by rw [hlength], ?_, ?_, hpages, hwrites, ?_⟩
    · rw [hlength, hnext]
      dsimp only
      rw [hwalked.rxPtp]
    · rw [hlength]
      exact hmod.symm
    · rw [hlength, hnext, List.range'_concat]
      dsimp only
      rw [hwalked.touched, hwalked.rxPtp, List.append_assoc]
      congr 3
      omega

def pagesFrom (buf left index : Nat) : List Page :=
  (List.range' index left).map (Page.mk buf)

theorem walkPages_walked (hwalked : Walked before done w) {pdtEntries left : Nat}
    (buf index : Nat) (hroom : done.length + left ≤ pdtEntries * ZCHAN_RX_PT_ENTRIES) :
    ∃ w', PtWalk.walkPages pdtEntries (fun _ => false) buf left index w = some (true, w') ∧
      Walked before (done ++ pagesFrom buf left index) w' := by
  induction left generalizing index done w with
  | zero => exact ⟨w, rfl, by simpa [pagesFrom] using hwalked⟩
  | succ left ih =>
      have hin : ¬ pdtEntries ≤ w.rxPtp := by
        rw [hwalked.rxPtp]
        unfold ZCHAN_RX_PT_ENTRIES at *
        omega
      have hlength : (done ++ [Page.mk buf index]).length = done.length + 1 := by simp
      obtain ⟨w', hwalk, hrest⟩ := ih (hwalked.put ⟨buf, index⟩) (index + 1) (by
        rw [hlength]
        omega)
      refine ⟨w', ?_, ?_⟩
      · rw [PtWalk.walkPages, if_neg hin]
        exact hwalk
      · simpa [pagesFrom, List.range'_succ] using hrest

theorem walkPages_overrun (hwalked : Walked before done w) {pdtEntries left : Nat}
    (buf index : Nat) (hin : done.length ≤ pdtEntries * ZCHAN_RX_PT_ENTRIES)
    (hover : pdtEntries * ZCHAN_RX_PT_ENTRIES < done.length + left) :
    PtWalk.walkPages pdtEntries (fun _ => false) buf left index w = none := by
  induction left generalizing index done w with
  | zero => omega
  | succ left ih =>
      rw [PtWalk.walkPages]
      split
      next => rfl
      next hptp =>
        rw [hwalked.rxPtp] at hptp
        have hlength : (done ++ [Page.mk buf index]).length = done.length + 1 := by simp
        apply ih (hwalked.put ⟨buf, index⟩)
        · rw [hlength]
          unfold ZCHAN_RX_PT_ENTRIES at *
          omega
        · rw [hlength]
          omega

def allPages (pages : Nat) (bufs : List Nat) : List Page :=
  bufs.flatMap fun buf => pagesFrom buf pages 0

@[simp] theorem length_pagesFrom (buf left index : Nat) :
    (pagesFrom buf left index).length = left := by
  simp [pagesFrom]

theorem length_allPages (pages : Nat) (bufs : List Nat) :
    (allPages pages bufs).length = bufs.length * pages := by
  induction bufs with
  | nil => simp [allPages]
  | cons buf rest ih =>
      rw [allPages, List.flatMap_cons, List.length_append, length_pagesFrom]
      change pages + (allPages pages rest).length = _
      rw [ih, List.length_cons, Nat.succ_mul, Nat.add_comm]

theorem getElem?_allPages {pages : Nat} (hpages : 0 < pages) (bufs : List Nat) (e : Nat) :
    (allPages pages bufs)[e]? = bufs[e / pages]?.map fun buf => ⟨buf, e % pages⟩ := by
  induction bufs generalizing e with
  | nil => simp [allPages]
  | cons buf rest ih =>
      rw [allPages, List.flatMap_cons]
      by_cases he : e < pages
      · rw [List.getElem?_append_left (by rwa [length_pagesFrom]), Nat.div_eq_of_lt he,
          Nat.mod_eq_of_lt he]
        simp [pagesFrom, he]
      · have hle := not_lt.mp he
        rw [List.getElem?_append_right (by rwa [length_pagesFrom]), length_pagesFrom]
        change (allPages pages rest)[e - pages]? = _
        rw [ih, Nat.div_eq_sub_div hpages hle, List.getElem?_cons_succ,
          Nat.mod_eq_sub_mod hle]

theorem walkBufs_walked (hwalked : Walked before done w) {pdtEntries pages : Nat}
    (ptShift : Nat) {bufs : List Nat}
    (hroom : done.length + bufs.length * pages ≤ pdtEntries * ZCHAN_RX_PT_ENTRIES) :
    ∃ w', PtWalk.walkBufs pdtEntries pages ptShift (fun _ => false) bufs w =
        some (true, w') ∧
      Walked before (done ++ allPages pages bufs) w' := by
  induction bufs generalizing done w with
  | nil => exact ⟨w, rfl, by simpa [allPages] using hwalked⟩
  | cons buf rest ih =>
      rw [List.length_cons, Nat.succ_mul] at hroom
      have hfits : done.length + pages ≤ pdtEntries * ZCHAN_RX_PT_ENTRIES := by omega
      obtain ⟨w₁, hfirst, hwalked₁⟩ :=
        walkPages_walked (hwalked.setOffset ptShift buf) buf 0 hfits
      obtain ⟨w', hwalk, hrest⟩ := ih hwalked₁ (by
        rw [List.length_append, length_pagesFrom]
        omega)
      refine ⟨w', ?_, ?_⟩
      · rw [PtWalk.walkBufs, hfirst]
        exact hwalk
      · rw [List.append_assoc] at hrest
        exact hrest

theorem walkBufs_overrun (hwalked : Walked before done w) {pdtEntries pages : Nat}
    (ptShift : Nat) {bufs : List Nat}
    (hin : done.length ≤ pdtEntries * ZCHAN_RX_PT_ENTRIES)
    (hover : pdtEntries * ZCHAN_RX_PT_ENTRIES < done.length + bufs.length * pages) :
    PtWalk.walkBufs pdtEntries pages ptShift (fun _ => false) bufs w = none := by
  induction bufs generalizing done w with
  | nil =>
      rw [List.length_nil, Nat.zero_mul] at hover
      omega
  | cons buf rest ih =>
      rw [List.length_cons, Nat.succ_mul] at hover
      rw [PtWalk.walkBufs]
      by_cases hroom : done.length + pages ≤ pdtEntries * ZCHAN_RX_PT_ENTRIES
      · obtain ⟨w₁, hfirst, hwalked₁⟩ :=
          walkPages_walked (hwalked.setOffset ptShift buf) buf 0 hroom
        have hlength : (done ++ pagesFrom buf pages 0).length = done.length + pages := by
          rw [List.length_append, length_pagesFrom]
        rw [hfirst]
        apply ih hwalked₁
        · rw [hlength]
          exact hroom
        · rw [hlength]
          omega
      · rw [walkPages_overrun (hwalked.setOffset ptShift buf) buf 0 hin (not_le.mp hroom)]

end Walk

/-- `count * pages` entries are written, each once, no table is touched that was not
allocated, and every offset leads to its byte of its buffer. -/
structure TablesBuilt (pages pdtEntries : Nat) (bufs : List Nat) (t : RxTables) : Prop where
  writes_length : t.walk.writes.length = bufs.length * pages
  writes_nodup : t.walk.writes.Nodup
  touched : ∀ i ∈ t.walk.touched, i < pdtEntries
  byteAt : ∀ off < t.zchanRx.zchanRxSize,
    ∃ h : off / (pages * ZCHAN_BUF_SIZE) < bufs.length,
      t.byteAt off =
        some (bufs[off / (pages * ZCHAN_BUF_SIZE)], off % (pages * ZCHAN_BUF_SIZE))

theorem toNat_pdtEntriesOf (n : Nat) :
    (pdtEntriesOf (BitVec.ofNat 32 n)).toNat = (n + 511) % 2 ^ 32 / 512 := by
  unfold pdtEntriesOf ZCHAN_RX_PT_ENTRIES
  rw [BitVec.toNat_udiv]
  have hsum : (BitVec.ofNat 32 n + BitVec.ofNat 32 512 - 1).toNat = (n + 511) % 2 ^ 32 := by
    rw [BitVec.toNat_sub, BitVec.toNat_add, BitVec.toNat_ofNat, BitVec.toNat_ofNat]
    change (2 ^ 32 - 1 + (n % 2 ^ 32 + 512 % 2 ^ 32) % 2 ^ 32) % 2 ^ 32 = _
    omega
  rw [hsum]
  rfl

theorem initRxTbl_pageSized (zchanRx : ZchanRxTbl) (ptEntries : BitVec 32) :
    (initRxTbl zchanRx ptEntries).PageSized :=
  ⟨rfl, rfl, rfl, rfl⟩

section Init

variable (zchanRx : ZchanRxTbl) {count sizeimage : BitVec 32} {bufs : List Nat}

def InitCall.allMapped : InitCall where
  allocated := true
  mapFails := fun _ => false

def pagesOf (sizeimage : BitVec 32) : Nat := CEILING sizeimage.toNat ZCHAN_BUF_SIZE

theorem initRxTables_allMapped (hcount : bufs.length = count.toNat)
    (hfits : count.toNat * pagesOf sizeimage + 511 < 2 ^ 32) :
    ∃ w, initRxTables zchanRx count sizeimage bufs .allMapped =
        some (true, ⟨initRxTbl zchanRx (ptEntriesOf count sizeimage), w⟩) ∧
      Walked (List.range ((count.toNat * pagesOf sizeimage + 511) / 512) ++ [0])
        (allPages (pagesOf sizeimage) bufs) w := by
  have hpdt := toNat_pdtEntriesOf (count.toNat * pagesOf sizeimage)
  rw [Nat.mod_eq_of_lt hfits] at hpdt
  have hroom : ([] : List Page).length + bufs.length * pagesOf sizeimage ≤
      (count.toNat * pagesOf sizeimage + 511) / 512 * ZCHAN_RX_PT_ENTRIES := by
    rw [hcount, List.length_nil, Nat.zero_add]
    unfold ZCHAN_RX_PT_ENTRIES
    omega
  obtain ⟨w, hwalk, hwalked⟩ := walkBufs_walked (walked_start _)
    (initRxTbl zchanRx (ptEntriesOf count sizeimage)).zchanRxPtShift hroom
  refine ⟨w, ?_, hwalked⟩
  have hentries : (pdtEntriesOf (ptEntriesOf count sizeimage)).toNat =
      (count.toNat * pagesOf sizeimage + 511) / 512 := hpdt
  have hpages : ALIGN sizeimage.toNat ZCHAN_BUF_SIZE / ZCHAN_BUF_SIZE = pagesOf sizeimage :=
    Nat.mul_div_cancel _ (by decide)
  unfold initRxTables
  dsimp only
  rw [hentries, hpages, if_neg (by decide)]
  change Option.map _ (PtWalk.walkBufs _ _ _ (fun _ => false) _ _) = _
  rw [hwalk]
  rfl

theorem initRxTables_overrun (hcount : bufs.length = count.toNat)
    (hover : 2 ^ 32 ≤ count.toNat * pagesOf sizeimage + 511) :
    initRxTables zchanRx count sizeimage bufs .allMapped = none := by
  have hpdt : (pdtEntriesOf (ptEntriesOf count sizeimage)).toNat =
      (count.toNat * pagesOf sizeimage + 511) % 2 ^ 32 / 512 :=
    toNat_pdtEntriesOf (count.toNat * pagesOf sizeimage)
  have hpages : ALIGN sizeimage.toNat ZCHAN_BUF_SIZE / ZCHAN_BUF_SIZE = pagesOf sizeimage :=
    Nat.mul_div_cancel _ (by decide)
  have hlast : (count.toNat * pagesOf sizeimage + 511) % 2 ^ 32 / 512 * ZCHAN_RX_PT_ENTRIES <
      ([] : List Page).length + bufs.length * pagesOf sizeimage := by
    rw [hcount, List.length_nil, Nat.zero_add]
    unfold ZCHAN_RX_PT_ENTRIES
    omega
  have hnone := walkBufs_overrun
    (walked_start ((count.toNat * pagesOf sizeimage + 511) % 2 ^ 32 / 512))
    (initRxTbl zchanRx (ptEntriesOf count sizeimage)).zchanRxPtShift (Nat.zero_le _) hlast
  unfold initRxTables
  dsimp only
  rw [hpdt, hpages, if_neg (by decide)]
  change Option.map _ (PtWalk.walkBufs _ _ _ (fun _ => false) _ _) = _
  rw [hnone]
  rfl

theorem div_mod_mul_add_mod (off pages size : Nat) :
    off / size % pages * size + off % size = off % (pages * size) := by
  rw [Nat.mul_comm pages, Nat.mod_mul, Nat.add_comm, Nat.mul_comm size]

theorem pagesOf_pos (hsize : sizeimage ≠ 0) : 0 < pagesOf sizeimage := by
  have hpos : 0 < sizeimage.toNat :=
    Nat.pos_of_ne_zero fun hzero => hsize (BitVec.eq_of_toNat_eq hzero)
  unfold pagesOf CEILING ZCHAN_BUF_SIZE
  omega

theorem byteAt_initRxTables {before : List Nat} {w : PtWalk}
    (hcount : bufs.length = count.toNat) (hsize : sizeimage ≠ 0)
    (hfits : count.toNat * pagesOf sizeimage + 511 < 2 ^ 32)
    (hwalked : Walked before (allPages (pagesOf sizeimage) bufs) w) {off : Nat}
    (hoff : off < (initRxTbl zchanRx (ptEntriesOf count sizeimage)).zchanRxSize) :
    ∃ h : off / (pagesOf sizeimage * ZCHAN_BUF_SIZE) < bufs.length,
      (RxTables.mk (initRxTbl zchanRx (ptEntriesOf count sizeimage)) w).byteAt off =
        some (bufs[off / (pagesOf sizeimage * ZCHAN_BUF_SIZE)],
          off % (pagesOf sizeimage * ZCHAN_BUF_SIZE)) := by
  have hpages := pagesOf_pos hsize
  have hpdt : (pdtEntriesOf (ptEntriesOf count sizeimage)).toNat =
      (count.toNat * pagesOf sizeimage + 511) % 2 ^ 32 / 512 :=
    toNat_pdtEntriesOf (count.toNat * pagesOf sizeimage)
  have hentry : off / ZCHAN_BUF_SIZE < bufs.length * pagesOf sizeimage := by
    have hle : off < count.toNat * pagesOf sizeimage % 2 ^ 32 * ZCHAN_BUF_SIZE % 2 ^ 32 := hoff
    rw [hcount, Nat.div_lt_iff_lt_mul (by decide)]
    rw [Nat.mod_eq_of_lt (by omega : count.toNat * pagesOf sizeimage < 2 ^ 32)] at hle
    exact hle.trans_le (Nat.mod_le _ _)
  have hbuf : off / ZCHAN_BUF_SIZE / pagesOf sizeimage =
      off / (pagesOf sizeimage * ZCHAN_BUF_SIZE) := by
    rw [Nat.div_div_eq_div_mul, Nat.mul_comm]
  have hin : off / (pagesOf sizeimage * ZCHAN_BUF_SIZE) < bufs.length := by
    rw [← hbuf]
    exact Nat.div_lt_of_lt_mul (by rwa [Nat.mul_comm])
  refine ⟨hin, ?_⟩
  unfold RxTables.byteAt
  dsimp only
  rw [(initRxTbl_pageSized _ _).off2addr]
  · have hpage := hwalked.pages (off / ZCHAN_BUF_SIZE) (by rwa [length_allPages])
    rw [getElem?_allPages hpages, hbuf, List.getElem?_eq_getElem hin] at hpage
    have htable : (hwAddr off).pdtEntry = off / ZCHAN_BUF_SIZE / ZCHAN_RX_PT_ENTRIES :=
      (Nat.div_div_eq_div_mul off ZCHAN_BUF_SIZE ZCHAN_RX_PT_ENTRIES).symm
    rw [htable]
    change Option.map _ (w.pages (off / ZCHAN_BUF_SIZE / ZCHAN_RX_PT_ENTRIES)
      (off / ZCHAN_BUF_SIZE % ZCHAN_RX_PT_ENTRIES)) = _
    rw [hpage, Option.map_some, Option.map_some, ← div_mod_mul_add_mod]
    rfl
  · have htables : (initRxTbl zchanRx (ptEntriesOf count sizeimage)).zchanRxPdtNum =
        (count.toNat * pagesOf sizeimage + 511) % 2 ^ 32 / 512 := hpdt
    rw [htables, Nat.mul_comm ZCHAN_RX_PT_ENTRIES, ← Nat.div_div_eq_div_mul]
    unfold ZCHAN_RX_PT_ENTRIES
    rw [hcount] at hentry
    omega

theorem touched_initRxTables {n : Nat} (hn : 0 < n) :
    (∀ i ∈ List.range ((n + 511) / 512) ++ [0] ++ List.range' 1 (n / ZCHAN_RX_PT_ENTRIES),
      i < (n + 511) / 512) ↔ ¬ ZCHAN_RX_PT_ENTRIES ∣ n := by
  have hpt : ZCHAN_RX_PT_ENTRIES = 512 := rfl
  rw [hpt]
  constructor
  · intro htouched hfull
    have hlast := htouched (n / 512) (by
      rw [List.mem_append, List.mem_range'_1]
      right
      omega)
    omega
  · intro hpart i hi
    rw [List.mem_append, List.mem_append, List.mem_range, List.mem_singleton,
      List.mem_range'_1] at hi
    omega

/-- The page tables are built as they should be when the driver's count of the entries
does not overflow and the last page table keeps an entry free. -/
theorem zvideo_init_rx_builds (count sizeimage : BitVec 32)
    (bufs : List Nat) (hcount : bufs.length = count.toNat) (hbufs : count ≠ 0)
    (hsize : sizeimage ≠ 0) :
    (∃ t, initRxTables zchanRx count sizeimage bufs .allMapped = some (true, t) ∧
        TablesBuilt (pagesOf sizeimage) (pdtEntriesOf (ptEntriesOf count sizeimage)).toNat
          bufs t) ↔
      count.toNat * pagesOf sizeimage + 511 < 2 ^ 32 ∧
        ¬ ZCHAN_RX_PT_ENTRIES ∣ count.toNat * pagesOf sizeimage := by
  have hpos : 0 < count.toNat * pagesOf sizeimage :=
    Nat.mul_pos (Nat.pos_of_ne_zero fun hzero => hbufs (BitVec.eq_of_toNat_eq hzero))
      (pagesOf_pos hsize)
  by_cases hfits : count.toNat * pagesOf sizeimage + 511 < 2 ^ 32
  · obtain ⟨w, hinit, hwalked⟩ := initRxTables_allMapped zchanRx hcount hfits
    have hpdt : (pdtEntriesOf (ptEntriesOf count sizeimage)).toNat =
        (count.toNat * pagesOf sizeimage + 511) / 512 := by
      have hpdt := toNat_pdtEntriesOf (count.toNat * pagesOf sizeimage)
      rwa [Nat.mod_eq_of_lt hfits] at hpdt
    have hlength : (allPages (pagesOf sizeimage) bufs).length =
        count.toNat * pagesOf sizeimage := by
      rw [length_allPages, hcount]
    have htouched := hwalked.touched
    rw [hlength] at htouched
    rw [hinit, hpdt, ← touched_initRxTables hpos, ← htouched]
    constructor
    · rintro ⟨t, ht, hbuilt⟩
      cases ht
      exact ⟨hfits, hbuilt.touched⟩
    · rintro ⟨-, htables⟩
      refine ⟨_, rfl, ?_, ?_, htables, ?_⟩
      · rw [hwalked.writes, List.length_map, List.length_range, hlength, hcount]
      · rw [hwalked.writes]
        apply List.nodup_range.map
        intro e e' he
        rw [Prod.mk.injEq] at he
        unfold ZCHAN_RX_PT_ENTRIES at he
        omega
      · intro off hoff
        exact byteAt_initRxTables zchanRx hcount hsize hfits hwalked hoff
  · rw [initRxTables_overrun zchanRx hcount (not_lt.mp hfits)]
    constructor
    · rintro ⟨t, ht, -⟩
      cases ht
    · rintro ⟨hlt, -⟩
      exact absurd hlt hfits

end Init

theorem zvideo_init_rx_builds_three :
    ∃ t, initRxTables VideoState.init.zvideo.zchanRx 3 5000 [0, 1, 2] .allMapped =
        some (true, t) ∧
      TablesBuilt 2 1 [0, 1, 2] t :=
  (zvideo_init_rx_builds VideoState.init.zvideo.zchanRx 3 5000 [0, 1, 2] rfl (by decide)
    (by decide)).mpr ⟨by decide, by decide⟩

/-- One buffer of 512 pages fills its page table, and a second one is looked at. -/
theorem zvideo_init_rx_looks_past :
    ¬ ∃ t, initRxTables VideoState.init.zvideo.zchanRx 1 2097152 [0] .allMapped =
        some (true, t) ∧
      TablesBuilt (pagesOf 2097152) (pdtEntriesOf (ptEntriesOf 1 2097152)).toNat [0] t := by
  rintro ⟨t, ht, hbuilt⟩
  obtain ⟨w, hinit, hwalked⟩ := initRxTables_allMapped VideoState.init.zvideo.zchanRx
    (show [0].length = (1 : BitVec 32).toNat from rfl)
    (show (1 : BitVec 32).toNat * pagesOf 2097152 + 511 < 2 ^ 32 by decide)
  rw [hinit] at ht
  cases ht
  have hfull : (allPages (pagesOf 2097152) [0]).length / ZCHAN_RX_PT_ENTRIES = 1 := by
    rw [length_allPages]
    decide
  have hsecond := hbuilt.touched 1 (by
    dsimp only
    rw [hwalked.touched, hfull]
    simp)
  exact absurd hsecond (by decide)

/-- `mapBufs` and `walkBufs` have got to the same place, with the same tables behind them. -/
structure MapCursor.Walks (seen : List Nat) (c : MapCursor) (w : PtWalk) : Prop where
  atEntry : c.AtEntry
  ptEntries : w.ptEntries = BitVec.ofNat 32 c.ptEntries
  rxPtp : w.rxPtp = c.pdtEntry
  rxPt : w.rxPt = c.ptEntry
  pages : w.pages = c.zvideo.rxPt
  writes : w.writes.length = c.ptEntries
  offset : ∀ buf ∈ seen, (w.offset buf).toNat = c.zvideo.offset buf

namespace MapCursor

variable {seen : List Nat} {c : MapCursor} {w : PtWalk}

theorem Walks.put (hwalks : c.Walks seen w) (page : Page) :
    (c.put page).Walks seen (w.put page) := by
  have hentries : w.ptEntries + 1 = BitVec.ofNat 32 (c.ptEntries + 1) := by
    rw [hwalks.ptEntries, ofNat_succ]
  have hlast : w.ptEntries + 1 &&& BitVec.ofNat 32 (ZCHAN_RX_PT_ENTRIES - 1) ≠ 0 ↔
      ¬ (c.ptEntries + 1) &&& c.zvideo.zchanRx.zchanRxPtMask = 0 := by
    have hmod : (c.ptEntries + 1) &&& c.zvideo.zchanRx.zchanRxPtMask =
        (c.ptEntries + 1) % ZCHAN_RX_PT_ENTRIES := by
      rw [hwalks.atEntry.mask]
      exact Nat.and_two_pow_sub_one_eq_mod _ 9
    rw [hentries, hmod, ← toNat_mask, ne_eq, BitVec.toNat_eq]
    rfl
  have hwrites : (w.writes ++ [(w.rxPtp, w.rxPt)]).length = c.ptEntries + 1 := by
    rw [List.length_append, hwalks.writes]
    rfl
  have hpages : Function.update w.pages w.rxPtp
        (Function.update (w.pages w.rxPtp) w.rxPt (some page)) =
      (c.put page).zvideo.rxPt := by
    rw [hwalks.pages, hwalks.rxPtp, hwalks.rxPt]
    rfl
  unfold PtWalk.put
  dsimp only
  split
  next hinside =>
    have hmore := hlast.mp hinside
    refine ⟨hwalks.atEntry.put page, hentries, ?_, ?_, hpages, hwrites, hwalks.offset⟩
    · exact hwalks.rxPtp.trans (if_neg hmore).symm
    · dsimp only [MapCursor.put]
      rw [if_neg hmore, hwalks.rxPt]
  next hfull =>
    have hend := not_not.mp (mt hlast.mpr hfull)
    refine ⟨hwalks.atEntry.put page, hentries, ?_, ?_, hpages, hwrites, hwalks.offset⟩
    · dsimp only [MapCursor.put]
      rw [if_pos hend, hwalks.rxPtp]
    · exact (if_pos hend).symm

theorem Walks.setOffset (hwalks : c.Walks seen w)
    (hsize : c.ptEntries * ZCHAN_BUF_SIZE < 2 ^ 32) (buf : Nat) :
    (c.setOffset buf).Walks (buf :: seen)
      (w.setOffset c.zvideo.zchanRx.zchanRxPtShift buf) := by
  refine ⟨hwalks.atEntry.setOffset buf, hwalks.ptEntries, hwalks.rxPtp, hwalks.rxPt,
    hwalks.pages, hwalks.writes, ?_⟩
  intro other hother
  unfold MapCursor.setOffset PtWalk.setOffset
  dsimp only
  rw [Function.update_apply, Function.update_apply]
  split
  next =>
    rw [hwalks.ptEntries, hwalks.atEntry.shift, BitVec.toNat_shiftLeft, BitVec.toNat_ofNat,
      Nat.shiftLeft_eq, Nat.shiftLeft_eq]
    unfold ZCHAN_BUF_SIZE at hsize
    omega
  next hne =>
    exact hwalks.offset other ((List.mem_cons.mp hother).resolve_left hne)

variable {limit pdtEntries : Nat} (mapFails : Nat → Bool)

theorem walkPages_of_mapPages (hlimit : limit ≤ pdtEntries * ZCHAN_RX_PT_ENTRIES)
    (buf left index : Nat) (hwalks : c.Walks seen w)
    (hroom : c.ptEntries + left ≤ limit) :
    ∃ mapped c' w', mapPages limit mapFails buf left index c = some (mapped, c') ∧
      PtWalk.walkPages pdtEntries mapFails buf left index w = some (mapped, w') ∧
      c'.Walks seen w' ∧ c'.zvideo.zchanRx = c.zvideo.zchanRx ∧
      (mapped = true → c'.ptEntries = c.ptEntries + left) := by
  induction left generalizing index c w with
  | zero => exact ⟨true, c, w, rfl, rfl, hwalks, rfl, fun _ => rfl⟩
  | succ left ih =>
      have hin : ¬ pdtEntries ≤ w.rxPtp := by
        rw [hwalks.rxPtp, hwalks.atEntry.pdt]
        unfold ZCHAN_RX_PT_ENTRIES at *
        omega
      rw [mapPages, PtWalk.walkPages, if_neg (by omega), if_neg hin, hwalks.writes]
      cases hfails : mapFails c.ptEntries with
      | true =>
          exact ⟨false, c, w, rfl, rfl, hwalks, rfl, fun h => absurd h Bool.false_ne_true⟩
      | false =>
          obtain ⟨mapped, c', w', hmap, hwalk, hwalks', hzchan, hcount⟩ :=
            ih (index + 1) (hwalks.put ⟨buf, index⟩) (by
              change c.ptEntries + 1 + left ≤ limit
              omega)
          refine ⟨mapped, c', w', hmap, hwalk, hwalks', hzchan, fun hmapped => ?_⟩
          rw [hcount hmapped]
          exact Nat.add_right_comm c.ptEntries 1 left

theorem walkBufs_of_mapBufs (hlimit : limit ≤ pdtEntries * ZCHAN_RX_PT_ENTRIES)
    (hsize : limit * ZCHAN_BUF_SIZE < 2 ^ 32) {pages : Nat} (bufs : List Nat)
    (hwalks : c.Walks seen w) (hroom : c.ptEntries + bufs.length * pages ≤ limit) :
    ∃ mapped c' w', mapBufs limit pages mapFails bufs c = some (mapped, c') ∧
      PtWalk.walkBufs pdtEntries pages c.zvideo.zchanRx.zchanRxPtShift mapFails bufs w =
        some (mapped, w') ∧
      c'.zvideo.zchanRx = c.zvideo.zchanRx ∧
      (mapped = true → c'.Walks (bufs.reverse ++ seen) w') := by
  induction bufs generalizing seen c w with
  | nil => exact ⟨true, c, w, rfl, rfl, rfl, fun _ => hwalks⟩
  | cons buf rest ih =>
      rw [List.length_cons, Nat.succ_mul] at hroom
      have hoffset : c.ptEntries * ZCHAN_BUF_SIZE < 2 ^ 32 :=
        (Nat.mul_le_mul_right _ (by omega)).trans_lt hsize
      obtain ⟨mapped, c₁, w₁, hmap, hwalk, hwalks₁, hzchan₁, hcount⟩ :=
        walkPages_of_mapPages mapFails hlimit buf pages 0 (hwalks.setOffset hoffset buf) (by
          change c.ptEntries + pages ≤ limit
          omega)
      rw [mapBufs, PtWalk.walkBufs, hmap, hwalk]
      cases mapped with
      | false =>
          exact ⟨false, c₁, w₁, rfl, rfl, hzchan₁, fun h => absurd h Bool.false_ne_true⟩
      | true =>
          have hentries : c₁.ptEntries = c.ptEntries + pages := hcount rfl
          obtain ⟨mapped, c', w', hmap', hwalk', hzchan', hwalks'⟩ := ih hwalks₁ (by
            rw [hentries]
            omega)
          rw [hzchan₁] at hwalk' hzchan'
          refine ⟨mapped, c', w', hmap', hwalk', hzchan', ?_⟩
          rw [List.reverse_cons, List.append_assoc]
          exact hwalks'

end MapCursor

theorem initRxTbl_ofNat (zchanRx : ZchanRxTbl) {n : Nat} (hn : n * ZCHAN_BUF_SIZE < 2 ^ 32) :
    initRxTbl zchanRx (BitVec.ofNat 32 n) = videoRxTbl zchanRx n := by
  have hpdt : (pdtEntriesOf (BitVec.ofNat 32 n)).toNat = CEILING n ZCHAN_RX_PT_ENTRIES := by
    rw [toNat_pdtEntriesOf]
    unfold CEILING ZCHAN_RX_PT_ENTRIES
    unfold ZCHAN_BUF_SIZE at hn
    omega
  have hsize : (BitVec.ofNat 32 n).toNat * ZCHAN_BUF_SIZE % 2 ^ 32 = n * ZCHAN_BUF_SIZE := by
    rw [BitVec.toNat_ofNat]
    unfold ZCHAN_BUF_SIZE at *
    omega
  unfold initRxTbl videoRxTbl
  rw [hpdt, hsize]

/-- `zvideo_init_rx` of the capture model sets up the tables of `initRxTables`, as long as
their size fits the 32 bits of the driver. -/
theorem zvideoInitRx_initRxTables (cfg : VideoConfig) (z : ZynqVideo) {count : Nat}
    (init : InitCall) (hqueued : z.bufList.length ≤ count) (hsize : cfg.sizeimage < 2 ^ 32)
    (hfits : count * cfg.frame < 2 ^ 32) :
    ∃ mapped z' t, z.zvideoInitRx cfg count init = some (mapped, z') ∧
      initRxTables z.zchanRx (BitVec.ofNat 32 count) (BitVec.ofNat 32 cfg.sizeimage)
        z.bufList init = some (mapped, t) ∧
      (mapped = true → z'.zchanRx = t.zchanRx ∧ z'.rxPt = t.walk.pages ∧
        ∀ buf ∈ z.bufList, (t.walk.offset buf).toNat = z'.offset buf) := by
  have hlimit : count * cfg.pages * ZCHAN_BUF_SIZE < 2 ^ 32 := by
    rwa [Nat.mul_assoc]
  have hcount : (BitVec.ofNat 32 count).toNat = count := by
    rw [BitVec.toNat_ofNat]
    exact Nat.mod_eq_of_lt ((Nat.le_mul_of_pos_right _ cfg.frame_pos).trans_lt hfits)
  have himage : (BitVec.ofNat 32 cfg.sizeimage).toNat = cfg.sizeimage := by
    rw [BitVec.toNat_ofNat, Nat.mod_eq_of_lt hsize]
  have hentries : ptEntriesOf (BitVec.ofNat 32 count) (BitVec.ofNat 32 cfg.sizeimage) =
      BitVec.ofNat 32 (count * cfg.pages) := by
    unfold ptEntriesOf
    rw [hcount, himage]
    rfl
  have hpdt : count * cfg.pages ≤
      (pdtEntriesOf (BitVec.ofNat 32 (count * cfg.pages))).toNat * ZCHAN_RX_PT_ENTRIES := by
    rw [toNat_pdtEntriesOf]
    unfold ZCHAN_BUF_SIZE at hlimit
    unfold ZCHAN_RX_PT_ENTRIES
    omega
  have hat := @ZynqVideo.startCursor_atEntry cfg z count
  have hstart : (MapCursor.mk (z.allocTables (count * cfg.pages)) 0 0 0).Walks []
      (.start (pdtEntriesOf (BitVec.ofNat 32 (count * cfg.pages))).toNat) :=
    ⟨⟨hat.pdt, hat.pt, hat.mask, hat.shift⟩, rfl, rfl, rfl, rfl, rfl,
      fun _ hmem => absurd hmem List.not_mem_nil⟩
  unfold ZynqVideo.zvideoInitRx initRxTables
  dsimp only
  rw [hentries, himage, initRxTbl_ofNat _ hlimit]
  cases halloc : init.allocated with
  | false =>
      rw [if_pos Bool.false_ne_true, if_pos Bool.false_ne_true]
      exact ⟨false, _, _, rfl, rfl, fun h => absurd h Bool.false_ne_true⟩
  | true =>
      have hpages : ALIGN cfg.sizeimage ZCHAN_BUF_SIZE / ZCHAN_BUF_SIZE = cfg.pages :=
        Nat.mul_div_cancel _ (by decide)
      obtain ⟨mapped, c', w', hmap, hwalk, hzchan, hwalks⟩ :=
        MapCursor.walkBufs_of_mapBufs init.mapFails hpdt hlimit z.bufList hstart (by
          rw [Nat.zero_add]
          exact Nat.mul_le_mul_right _ hqueued)
      rw [if_neg (not_not.mpr rfl), if_neg (not_not.mpr rfl), hpages]
      refine ⟨mapped, if mapped then c'.zvideo else c'.zvideo.zvideoFiniRx,
        ⟨videoRxTbl z.zchanRx (count * cfg.pages), w'⟩, ?_, ?_, ?_⟩
      · exact congrArg (Option.map fun out =>
          (out.1, if out.1 then out.2.zvideo else out.2.zvideo.zvideoFiniRx)) hmap
      · exact congrArg (Option.map fun out =>
          (out.1, RxTables.mk (videoRxTbl z.zchanRx (count * cfg.pages)) out.2)) hwalk
      · rintro rfl
        refine ⟨hzchan, (hwalks rfl).pages.symm, fun buf hbuf => ?_⟩
        exact (hwalks rfl).offset buf (by simpa using hbuf)

end ApolloContrib.Video
