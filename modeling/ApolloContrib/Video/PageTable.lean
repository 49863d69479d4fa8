import ApolloContrib.Video.ZeroCopy
import Mathlib.Tactic.Ring

namespace ApolloContrib.Video

open ApolloContrib.Chan ApolloContrib.Library

/-! What `zvideo_init_rx` leaves in the page tables. -/

def ZynqVideo.hwPage (z : ZynqVideo) (off : Nat) : Option Page :=
  z.rxPt (hwAddr off).pdtEntry (hwAddr off).ptEntry

def ZynqVideo.entry (z : ZynqVideo) (e : Nat) : Option Page :=
  z.rxPt (e / ZCHAN_RX_PT_ENTRIES) (e % ZCHAN_RX_PT_ENTRIES)

theorem ZynqVideo.hwPage_entry (z : ZynqVideo) (e : Nat) :
    z.hwPage (e * ZCHAN_BUF_SIZE) = z.entry e := by
  unfold hwPage entry hwAddr ZCHAN_RX_PT_ENTRIES ZCHAN_BUF_SIZE
  dsimp only
  congr 1 <;> omega

def VideoConfig.frame (cfg : VideoConfig) : Nat := cfg.pages * ZCHAN_BUF_SIZE

theorem VideoConfig.pages_pos (cfg : VideoConfig) : 0 < cfg.pages := by
  have hpos := cfg.sizeimage_pos
  unfold pages CEILING ZCHAN_BUF_SIZE
  omega

theorem VideoConfig.frame_pos (cfg : VideoConfig) : 0 < cfg.frame :=
  Nat.mul_pos cfg.pages_pos (by decide)

theorem VideoConfig.align_sizeimage (cfg : VideoConfig) :
    ALIGN cfg.sizeimage ZCHAN_BUF_SIZE = cfg.frame := rfl

theorem ALIGN_add (x y a : Nat) (ha : 0 < a) : ALIGN (x * a + y) a = x * a + ALIGN y a := by
  unfold ALIGN
  rw [Nat.add_assoc, Nat.add_comm, Nat.add_mul_div_right _ _ ha, Nat.add_mul, Nat.add_comm]

theorem VideoConfig.sizeimage_le_frame (cfg : VideoConfig) : cfg.sizeimage ≤ cfg.frame := by
  unfold frame pages CEILING ZCHAN_BUF_SIZE
  omega

/-- The outcome of mapping `n` entries from entry `e` on: `none` at the first one
past the limit, `some false` at the first that fails to map. -/
def mapOutcome (limit : Nat) (mapFails : Nat → Bool) : Nat → Nat → Option Bool
  | 0, _ => some true
  | n + 1, e =>
      if limit ≤ e then none
      else if mapFails e then some false
      else mapOutcome limit mapFails n (e + 1)

section Outcome

variable {limit : Nat} {mapFails : Nat → Bool}

theorem mapOutcome_add (m n e : Nat) :
    mapOutcome limit mapFails (m + n) e =
      match mapOutcome limit mapFails m e with
      | some true => mapOutcome limit mapFails n (e + m)
      | outcome => outcome := by
  induction m generalizing e with
  | zero => simp only [mapOutcome, Nat.zero_add, Nat.add_zero]
  | succ m ih =>
      rw [Nat.succ_add, mapOutcome, mapOutcome]
      split
      · rfl
      · split
        · rfl
        · rw [ih, Nat.add_right_comm, Nat.add_assoc]

theorem mapOutcome_eq_true {n e : Nat} (hroom : e + n ≤ limit)
    (hmaps : ∀ i, i < limit → mapFails i = false) :
    mapOutcome limit mapFails n e = some true := by
  induction n generalizing e with
  | zero => rfl
  | succ n ih =>
      rw [mapOutcome, if_neg (by omega), hmaps e (by omega), if_neg Bool.false_ne_true]
      exact ih (by omega)

theorem mapOutcome_eq_false {n e i : Nat} (hfrom : e ≤ i) (hto : i < e + n)
    (hlimit : i < limit) (hfails : mapFails i = true) :
    mapOutcome limit mapFails n e = some false := by
  induction n generalizing e with
  | zero => omega
  | succ n ih =>
      rw [mapOutcome, if_neg (by omega)]
      split
      · rfl
      next hok =>
        have hne : i ≠ e := by
          rintro rfl
          exact hok hfails
        exact ih (by omega) (by omega)

theorem mapPages_outcome (buf left index : Nat) (c : MapCursor) :
    (mapPages limit mapFails buf left index c).map Prod.fst =
        mapOutcome limit mapFails left c.ptEntries ∧
      ∀ c', mapPages limit mapFails buf left index c = some (true, c') →
        c'.ptEntries = c.ptEntries + left := by
  induction left generalizing index c with
  | zero =>
      refine ⟨rfl, fun c' hmap => ?_⟩
      cases hmap
      rfl
  | succ left ih =>
      rw [mapPages, mapOutcome]
      split
      · exact ⟨rfl, nofun⟩
      · split
        · refine ⟨rfl, fun c' hmap => ?_⟩
          cases hmap
        · obtain ⟨houtcome, hentries⟩ := ih (index + 1) (c.put ⟨buf, index⟩)
          refine ⟨houtcome, fun c' hmap => ?_⟩
          rw [hentries c' hmap]
          change c.ptEntries + 1 + left = _
          omega

theorem mapBufs_outcome (pages : Nat) (bufs : List Nat) (c : MapCursor) :
    (mapBufs limit pages mapFails bufs c).map Prod.fst =
      mapOutcome limit mapFails (bufs.length * pages) c.ptEntries := by
  induction bufs generalizing c with
  | nil =>
      rw [List.length_nil, Nat.zero_mul]
      rfl
  | cons buf rest ih =>
      obtain ⟨houtcome, hentries⟩ :=
        mapPages_outcome buf pages 0
          (c.setOffset buf)
      rw [List.length_cons, Nat.succ_mul, Nat.add_comm, mapOutcome_add]
      have hset : (c.setOffset buf).ptEntries = c.ptEntries := rfl
      rw [hset] at houtcome hentries
      rw [← houtcome, mapBufs]
      cases hpages : mapPages limit mapFails buf pages 0 (c.setOffset buf) with
      | none => rfl
      | some result =>
          obtain ⟨mapped, c'⟩ := result
          cases mapped with
          | false => rfl
          | true =>
              simp only [Option.map_some]
              rw [ih c', hentries c' hpages]

end Outcome

namespace MapCursor

/-- The cursor points at the entry it counts, in tables of 512 entries. -/
structure AtEntry (c : MapCursor) : Prop where
  pdt : c.pdtEntry = c.ptEntries / ZCHAN_RX_PT_ENTRIES
  pt : c.ptEntry = c.ptEntries % ZCHAN_RX_PT_ENTRIES
  mask : c.zvideo.zchanRx.zchanRxPtMask = ZCHAN_RX_PT_ENTRIES - 1
  shift : c.zvideo.zchanRx.zchanRxPtShift = 12

theorem AtEntry.put {c : MapCursor} (hat : c.AtEntry) (page : Page) :
    (c.put page).AtEntry := by
  obtain ⟨hpdt, hpt, hmask, hshift⟩ := hat
  have hlast : (c.ptEntries + 1) &&& c.zvideo.zchanRx.zchanRxPtMask =
      (c.ptEntries + 1) % ZCHAN_RX_PT_ENTRIES := by
    rw [hmask]
    exact Nat.and_two_pow_sub_one_eq_mod _ 9
  refine ⟨?_, ?_, hmask, hshift⟩
  · simp only [MapCursor.put, hlast, hpdt]
    unfold ZCHAN_RX_PT_ENTRIES
    split <;> omega
  · simp only [MapCursor.put, hlast, hpt]
    unfold ZCHAN_RX_PT_ENTRIES
    split <;> omega

theorem AtEntry.setOffset {c : MapCursor} (hat : c.AtEntry) (buf : Nat) :
    (c.setOffset buf).AtEntry :=
  ⟨hat.pdt, hat.pt, hat.mask, hat.shift⟩

theorem entry_put {c : MapCursor} (hat : c.AtEntry) (page : Page) (e : Nat) :
    (c.put page).zvideo.entry e =
      if e = c.ptEntries then some page else c.zvideo.entry e := by
  unfold ZynqVideo.entry MapCursor.put
  simp only [hat.pdt, hat.pt, Function.update_apply]
  by_cases he : e = c.ptEntries
  · simp [he]
  · rw [if_neg he]
    split
    next htable =>
      rw [Function.update_apply, if_neg, htable]
      intro hpt
      apply he
      unfold ZCHAN_RX_PT_ENTRIES at htable hpt
      omega
    · rfl

structure SameButTables (c c' : MapCursor) : Prop where
  zvideo : c'.zvideo =
    { c.zvideo with rxPt := c'.zvideo.rxPt, offset := c'.zvideo.offset }

theorem sameButTables_put (c : MapCursor) (page : Page) : c.SameButTables (c.put page) :=
  ⟨rfl⟩

theorem sameButTables_setOffset (c : MapCursor) (buf : Nat) :
    c.SameButTables (c.setOffset buf) :=
  ⟨rfl⟩

theorem SameButTables.trans {c c' c'' : MapCursor} (hfirst : SameButTables c c')
    (hsecond : SameButTables c' c'') : SameButTables c c'' := by
  refine ⟨hsecond.zvideo.trans ?_⟩
  rw [hfirst.zvideo]

end MapCursor

section Maps

variable {limit : Nat} {mapFails : Nat → Bool} {pages : Nat}

theorem mapPages_same {buf left index : Nat} {c c' : MapCursor} {mapped : Bool}
    (hmap : mapPages limit mapFails buf left index c = some (mapped, c')) :
    c.SameButTables c' := by
  induction left generalizing index c with
  | zero =>
      cases hmap
      exact ⟨rfl⟩
  | succ left ih =>
      rw [mapPages] at hmap
      split at hmap
      · cases hmap
      · split at hmap
        · cases hmap
          exact ⟨rfl⟩
        · exact (MapCursor.sameButTables_put c _).trans (ih hmap)

theorem mapBufs_same {bufs : List Nat} {c c' : MapCursor} {mapped : Bool}
    (hmap : mapBufs limit pages mapFails bufs c = some (mapped, c')) :
    c.SameButTables c' := by
  induction bufs generalizing c with
  | nil =>
      cases hmap
      exact ⟨rfl⟩
  | cons buf rest ih =>
      have hset := MapCursor.sameButTables_setOffset c buf
      rw [mapBufs] at hmap
      split at hmap
      next hpages => exact hset.trans ((mapPages_same hpages).trans (ih hmap))
      · exact hset.trans (mapPages_same hmap)

structure PagesMapped (buf left index : Nat) (c c' : MapCursor) : Prop where
  atEntry : c'.AtEntry
  entries : c'.ptEntries = c.ptEntries + left
  offset : c'.zvideo.offset = c.zvideo.offset
  maps : ∀ i, i < left → c'.zvideo.entry (c.ptEntries + i) = some ⟨buf, index + i⟩
  keeps : ∀ e, e < c.ptEntries → c'.zvideo.entry e = c.zvideo.entry e

theorem mapPages_maps {buf left index : Nat} {c c' : MapCursor} (hat : c.AtEntry)
    (hmap : mapPages limit mapFails buf left index c = some (true, c')) :
    PagesMapped buf left index c c' := by
  induction left generalizing index c with
  | zero =>
      cases hmap
      exact ⟨hat, rfl, rfl, nofun, fun _ _ => rfl⟩
  | succ left ih =>
      rw [mapPages] at hmap
      split at hmap
      · cases hmap
      · split at hmap
        · cases hmap
        · have hrest := ih (hat.put _) hmap
          have hput : (c.put ⟨buf, index⟩).ptEntries = c.ptEntries + 1 := rfl
          refine ⟨hrest.atEntry, ?_, hrest.offset, ?_, ?_⟩
          · rw [hrest.entries, hput]
            omega
          · intro i hi
            cases i with
            | zero =>
                rw [hrest.keeps _ (by rw [hput]; omega), MapCursor.entry_put hat]
                exact if_pos rfl
            | succ i =>
                have hmaps := hrest.maps i (by omega)
                rw [hput, Nat.add_assoc, Nat.add_comm 1 i, Nat.add_assoc,
                  Nat.add_comm 1 i] at hmaps
                exact hmaps
          · intro e he
            rw [hrest.keeps e (by rw [hput]; omega), MapCursor.entry_put hat,
              if_neg (by omega)]

/-- Buffer `k` of the list gets the offset of its first entry, and its pages go
into the entries from there on. -/
structure BufsMapped (pages : Nat) (bufs : List Nat) (c c' : MapCursor) : Prop where
  offset : ∀ k (hk : k < bufs.length),
    c'.zvideo.offset bufs[k] = (c.ptEntries + k * pages) * ZCHAN_BUF_SIZE
  others : ∀ buf, buf ∉ bufs → c'.zvideo.offset buf = c.zvideo.offset buf
  maps : ∀ k (hk : k < bufs.length) i, i < pages →
    c'.zvideo.entry (c.ptEntries + k * pages + i) = some ⟨bufs[k], i⟩
  keeps : ∀ e, e < c.ptEntries → c'.zvideo.entry e = c.zvideo.entry e

theorem mapBufs_maps {bufs : List Nat} {c c' : MapCursor} (hat : c.AtEntry)
    (hnodup : bufs.Nodup)
    (hmap : mapBufs limit pages mapFails bufs c = some (true, c')) :
    BufsMapped pages bufs c c' := by
  induction bufs generalizing c with
  | nil =>
      cases hmap
      exact ⟨nofun, fun _ _ => rfl, nofun, fun _ _ => rfl⟩
  | cons buf rest ih =>
      obtain ⟨hfresh, hnodup⟩ := List.nodup_cons.mp hnodup
      rw [mapBufs] at hmap
      split at hmap
      next c₁ hpages =>
        have hfirst := mapPages_maps (hat.setOffset buf) hpages
        have hrest := ih hfirst.atEntry hnodup hmap
        have hentries : c₁.ptEntries = c.ptEntries + pages := hfirst.entries
        refine ⟨?_, ?_, ?_, ?_⟩
        · intro k hk
          cases k with
          | zero =>
              rw [List.getElem_cons_zero, hrest.others buf hfresh, hfirst.offset]
              simp only [MapCursor.setOffset, Function.update_self, hat.shift,
                Nat.shiftLeft_eq, Nat.zero_mul, Nat.add_zero]
              rfl
          | succ k =>
              rw [List.getElem_cons_succ, hrest.offset k (by simpa using hk), hentries]
              ring
        · intro other hother
          rw [List.mem_cons, not_or] at hother
          rw [hrest.others other hother.2, hfirst.offset]
          exact Function.update_of_ne hother.1 _ _
        · intro k hk i hi
          cases k with
          | zero =>
              rw [hrest.keeps _ (by rw [hentries]; omega), Nat.zero_mul, Nat.add_zero,
                List.getElem_cons_zero]
              have hmaps := hfirst.maps i hi
              rw [Nat.zero_add] at hmaps
              exact hmaps
          | succ k =>
              have hmaps := hrest.maps k (by simpa using hk) i hi
              rw [hentries] at hmaps
              rw [List.getElem_cons_succ, ← hmaps]
              congr 1
              ring
        · intro e he
          rw [hrest.keeps e (by rw [hentries]; omega), hfirst.keeps e he]
          rfl
      next hpages => exact absurd hmap (by simpa using fun h => hpages _ h)

end Maps

/-- Nothing that a start with `count` buffers asks for is refused. -/
def VideoConfig.Starts (cfg : VideoConfig) (count : Nat) (init : InitCall) : Prop :=
  cfg.zynqVideoBufNum ≤ count ∧ init.allocated = true ∧
    ∀ e, e < count * cfg.pages → init.mapFails e = false

instance (cfg : VideoConfig) (count : Nat) (init : InitCall) :
    Decidable (cfg.Starts count init) :=
  inferInstanceAs (Decidable (_ ∧ _ ∧ _))

structure TableMaps (cfg : VideoConfig) (z : ZynqVideo) (bufs : List Nat) : Prop where
  size : z.zchanRx.zchanRxSize = bufs.length * cfg.frame
  bufsz : z.zchanRxBufsz = ZCHAN_BUF_SIZE
  bufMask : z.zchanRx.zchanRxBufMask = ZCHAN_BUF_SIZE - 1
  offset : ∀ k (hk : k < bufs.length), z.offset bufs[k] = k * cfg.frame
  maps : ∀ k (hk : k < bufs.length) i, i < cfg.pages →
    z.hwPage (k * cfg.frame + i * ZCHAN_BUF_SIZE) = some ⟨bufs[k], i⟩

/-- The parts of the driver that `TableMaps` is about agree. -/
structure SameTables (z z' : ZynqVideo) : Prop where
  size : z'.zchanRx.zchanRxSize = z.zchanRx.zchanRxSize
  bufsz : z'.zchanRxBufsz = z.zchanRxBufsz
  bufMask : z'.zchanRx.zchanRxBufMask = z.zchanRx.zchanRxBufMask
  offset : z'.offset = z.offset
  rxPt : z'.rxPt = z.rxPt

theorem TableMaps.of_same {cfg : VideoConfig} {z z' : ZynqVideo} {bufs : List Nat}
    (htables : TableMaps cfg z bufs) (hsame : SameTables z z') :
    TableMaps cfg z' bufs := by
  refine ⟨hsame.size.trans htables.size, hsame.bufsz.trans htables.bufsz,
    hsame.bufMask.trans htables.bufMask, ?_, ?_⟩
  · intro k hk
    rw [hsame.offset]
    exact htables.offset k hk
  · intro k hk i hi
    rw [← htables.maps k hk i hi]
    unfold ZynqVideo.hwPage
    rw [hsame.rxPt]

namespace TableMaps

variable {cfg : VideoConfig} {z : ZynqVideo} {bufs : List Nat}

theorem exists_slot (htables : TableMaps cfg z bufs) {buf : Nat} (hbuf : buf ∈ bufs) :
    ∃ k, ∃ hk : k < bufs.length, bufs[k] = buf ∧ z.offset buf = k * cfg.frame := by
  obtain ⟨k, hk, hget⟩ := List.getElem_of_mem hbuf
  refine ⟨k, hk, hget, ?_⟩
  rw [← hget]
  exact htables.offset k hk

theorem hwPage_offset (htables : TableMaps cfg z bufs) {buf : Nat} (hbuf : buf ∈ bufs)
    {i : Nat} (hi : i < cfg.pages) :
    z.hwPage (z.offset buf + i * ZCHAN_BUF_SIZE) = some ⟨buf, i⟩ := by
  obtain ⟨k, hk, hget, hslot⟩ := htables.exists_slot hbuf
  rw [hslot, htables.maps k hk i hi, hget]

end TableMaps

/-- The driver after a start that succeeds; starting the channel again would
change nothing. -/
structure Started (cfg : VideoConfig) (z z' : ZynqVideo) : Prop where
  tables : TableMaps cfg z' z.bufList
  channel : z'.zchanRxStart cfg = z'
  streaming : z'.streaming = true
  startBufs : z'.startBufs = z.bufList
  bufTotal : z'.bufTotal = z.bufList.length
  bufAvail : z'.bufAvail = z.bufAvail
  bufList : z'.bufList = z.bufList
  pendingList : z'.pendingList = z.pendingList

/-- The driver after a start that fails: the buffers stay on `buf_list`. -/
structure NotStarted (z z' : ZynqVideo) : Prop where
  streaming : z'.streaming = z.streaming
  bufAvail : z'.bufAvail = z.bufAvail
  bufList : z'.bufList = z.bufList
  pendingList : z'.pendingList = z.pendingList
  bufsz : z'.zchanRxBufsz = 0

namespace ZynqVideo

variable {cfg : VideoConfig} {z : ZynqVideo} {count : Nat} {init : InitCall}

def startCursor (cfg : VideoConfig) (z : ZynqVideo) (count : Nat) : MapCursor :=
  ⟨(z.setTotal count).allocTables (count * cfg.pages), 0, 0, 0⟩

theorem startCursor_atEntry : (startCursor cfg z count).AtEntry := by
  refine ⟨(Nat.zero_div _).symm, (Nat.zero_mod _).symm, rfl, ?_⟩
  change fls (BitVec.ofNat 32 ZCHAN_BUF_SIZE) - 1 = 12
  decide

theorem zvideoStartStreaming_eq (hnum : cfg.zynqVideoBufNum ≤ count)
    (halloc : init.allocated = true) :
    z.zvideoStartStreaming cfg count init =
      (mapBufs (count * cfg.pages) cfg.pages init.mapFails z.bufList
        (startCursor cfg z count)).map fun (mapped, c) =>
          (mapped,
            if mapped then (c.zvideo.zchanRxStart cfg).setStreaming
            else c.zvideo.zvideoFiniRx) := by
  have hpages : ALIGN cfg.sizeimage ZCHAN_BUF_SIZE / ZCHAN_BUF_SIZE = cfg.pages :=
    Nat.mul_div_cancel _ (by decide)
  unfold zvideoStartStreaming zvideoInitRx
  rw [if_neg (by omega), if_neg (not_not.mpr halloc), hpages, Option.map_map]
  congr 1
  funext ⟨mapped, c⟩
  cases mapped <;> rfl

theorem mapBufs_startCursor_outcome (cfg : VideoConfig) (z : ZynqVideo) (count : Nat)
    (init : InitCall) :
    (mapBufs (count * cfg.pages) cfg.pages init.mapFails z.bufList
        (startCursor cfg z count)).map Prod.fst =
      mapOutcome (count * cfg.pages) init.mapFails (z.bufList.length * cfg.pages) 0 :=
  mapBufs_outcome cfg.pages z.bufList (startCursor cfg z count)

theorem tableMaps_of_bufsMapped {c' : MapCursor}
    (hsame : (startCursor cfg z z.bufList.length).SameButTables c')
    (hmapped : BufsMapped cfg.pages z.bufList (startCursor cfg z z.bufList.length) c') :
    TableMaps cfg c'.zvideo z.bufList := by
  refine ⟨?_, ?_, ?_, ?_, ?_⟩
  · rw [hsame.zvideo]
    exact Nat.mul_assoc _ _ _
  · rw [hsame.zvideo]
    rfl
  · rw [hsame.zvideo]
    rfl
  · intro k hk
    rw [hmapped.offset k hk, VideoConfig.frame, ← Nat.mul_assoc]
    exact congrArg (· * ZCHAN_BUF_SIZE) (Nat.zero_add _)
  · intro k hk i hi
    have hoff : k * cfg.frame + i * ZCHAN_BUF_SIZE =
        (0 + k * cfg.pages + i) * ZCHAN_BUF_SIZE := by
      unfold VideoConfig.frame
      ring
    rw [hoff, hwPage_entry]
    exact hmapped.maps k hk i hi

theorem zvideoStartStreaming_started (hstarts : cfg.Starts z.bufList.length init)
    (hnodup : z.bufList.Nodup) :
    ∃ z', z.zvideoStartStreaming cfg z.bufList.length init = some (true, z') ∧
      Started cfg z z' := by
  obtain ⟨hnum, halloc, hmaps⟩ := hstarts
  have houtcome := mapBufs_startCursor_outcome cfg z z.bufList.length init
  rw [mapOutcome_eq_true (Nat.zero_add _).le hmaps] at houtcome
  obtain ⟨⟨mapped, c'⟩, hmap, hmapped⟩ := Option.map_eq_some_iff.mp houtcome
  cases hmapped
  have hbufs := mapBufs_maps startCursor_atEntry hnodup hmap
  have hsame := mapBufs_same hmap
  refine ⟨(c'.zvideo.zchanRxStart cfg).setStreaming, ?_, ?_⟩
  · rw [zvideoStartStreaming_eq hnum halloc, hmap]
    rfl
  · have htables := tableMaps_of_bufsMapped hsame hbufs
    refine ⟨htables.of_same ⟨rfl, rfl, rfl, rfl, rfl⟩, rfl, rfl, ?_, ?_, ?_, ?_, ?_⟩
    all_goals
      simp only [setStreaming, zchanRxStart]
      rw [hsame.zvideo]
      rfl

theorem zvideoStartStreaming_notStarted (hstarts : ¬ cfg.Starts count init)
    (hcount : count ≤ z.bufList.length) (hbufsz : z.zchanRxBufsz = 0) :
    ∃ z', z.zvideoStartStreaming cfg count init = some (false, z') ∧
      NotStarted z z' := by
  by_cases hnum : cfg.zynqVideoBufNum ≤ count
  · by_cases halloc : init.allocated = true
    · obtain ⟨e, he, hfails⟩ :
          ∃ e, e < count * cfg.pages ∧ init.mapFails e = true := by
        by_contra hnone
        refine hstarts ⟨hnum, halloc, fun e he => ?_⟩
        exact Bool.eq_false_of_not_eq_true fun hfails => hnone ⟨e, he, hfails⟩
      have hlt : e < 0 + z.bufList.length * cfg.pages := by
        rw [Nat.zero_add]
        exact he.trans_le (Nat.mul_le_mul_right _ hcount)
      have houtcome := mapBufs_startCursor_outcome cfg z count init
      rw [mapOutcome_eq_false (Nat.zero_le _) hlt he hfails] at houtcome
      obtain ⟨⟨mapped, c'⟩, hmap, hmapped⟩ := Option.map_eq_some_iff.mp houtcome
      cases hmapped
      have hsame := mapBufs_same hmap
      refine ⟨c'.zvideo.zvideoFiniRx, ?_, ?_, ?_, ?_, ?_, rfl⟩
      · rw [zvideoStartStreaming_eq hnum halloc, hmap]
        rfl
      all_goals
        simp only [zvideoFiniRx]
        rw [hsame.zvideo]
        rfl
    · refine ⟨(z.setTotal count).zvideoFiniRx, ?_, rfl, rfl, rfl, rfl, rfl⟩
      unfold zvideoStartStreaming zvideoInitRx
      rw [if_neg (by omega), if_pos halloc]
      rfl
  · refine ⟨z, ?_, rfl, rfl, rfl, rfl, hbufsz⟩
    unfold zvideoStartStreaming
    rw [if_pos (by omega)]

end ZynqVideo

end ApolloContrib.Video
