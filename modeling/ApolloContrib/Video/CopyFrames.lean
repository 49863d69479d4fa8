import ApolloContrib.Library.Ring
import ApolloContrib.Library.Window
import ApolloContrib.Video.CopyRx
import ApolloContrib.Video.PageTable

namespace ApolloContrib.Video

open ApolloContrib.Chan ApolloContrib.Library

/-! The copying receive path takes the frames off in order. -/

/-! ### The geometry -/

namespace CopyChannel

variable (chan : CopyChannel)

theorem sizeimage_cases : chan.cfg.sizeimage ∈ [4147232, 4162592, 6220832, 6243872] := by
  unfold cfg
  dsimp only
  cases chan.format <;> cases chan.embeddedData <;> decide

theorem sizeimage_le : chan.cfg.sizeimage ≤ 2 ^ 23 := by
  have hcases := chan.sizeimage_cases
  simp only [List.mem_cons, List.not_mem_nil, or_false] at hcases
  omega

theorem extMetaData_le : ZVIDEO_EXT_META_DATA_BYTES ≤ chan.cfg.sizeimage := by
  have hcases := chan.sizeimage_cases
  simp only [List.mem_cons, List.not_mem_nil, or_false] at hcases
  unfold ZVIDEO_EXT_META_DATA_BYTES
  omega

theorem extMetaData_dvd : ZVIDEO_EXT_META_DATA_BYTES ∣ chan.cfg.sizeimage := by
  have hcases := chan.sizeimage_cases
  simp only [List.mem_cons, List.not_mem_nil, or_false] at hcases
  unfold ZVIDEO_EXT_META_DATA_BYTES
  omega

def rxSize : Nat := chan.pdtEntries * ZCHAN_RX_PT_ENTRIES * ZCHAN_BUF_SIZE

theorem page_dvd_rxSize : ZCHAN_BUF_SIZE ∣ chan.rxSize := Nat.dvd_mul_left _ _

theorem rxSize_le : chan.rxSize ≤ 2 ^ 28 := by
  have hpages : CEILING chan.cfg.sizeimage ZCHAN_BUF_SIZE ≤ 2048 := by
    have hle := chan.sizeimage_le
    unfold CEILING ZCHAN_BUF_SIZE
    omega
  have hentries : chan.zynqVideoBufNum * CEILING chan.cfg.sizeimage ZCHAN_BUF_SIZE ≤
      VB2_MAX_FRAME * 2048 :=
    Nat.mul_le_mul chan.bufNum_le hpages
  have htables : chan.pdtEntries ≤ 128 := by
    unfold pdtEntries CEILING ZCHAN_RX_PT_ENTRIES
    unfold VB2_MAX_FRAME CEILING at hentries
    omega
  unfold rxSize ZCHAN_RX_PT_ENTRIES ZCHAN_BUF_SIZE
  omega

theorem page_dvd_frame : ZCHAN_BUF_SIZE ∣ chan.cfg.frame := Nat.dvd_mul_left _ _

end CopyChannel

/-- What `zchan_init_rx_tbl`, the start of the channel and earlier calls leave. -/
structure CopyReady (chan : CopyChannel) (rx : CopyRx) : Prop where
  table : rx.zvideo.zchanRx =
    { zchanInitRxTbl chan.pdtEntries ZCHAN_BUF_SIZE with
      zchanRxHead := rx.zvideo.zchanRx.zchanRxHead }
  bufsz : rx.zvideo.zchanRxBufsz = ZCHAN_BUF_SIZE
  head_lt : rx.zvideo.zchanRx.zchanRxHead < chan.rxSize
  head_page : ZCHAN_BUF_SIZE ∣ rx.zvideo.zchanRx.zchanRxHead
  headReg : rx.rxHeadReg = rx.zvideo.zchanRx.zchanRxHead
  bufAvail : rx.zvideo.bufAvail = rx.zvideo.bufList.length

section Geometry

variable {chan : CopyChannel} {rx : CopyRx}

theorem CopyReady.size (hready : CopyReady chan rx) :
    rx.zvideo.zchanRx.zchanRxSize = chan.rxSize := by
  rw [hready.table]
  rfl

theorem CopyReady.pageSized (hready : CopyReady chan rx) : rx.zvideo.zchanRx.PageSized := by
  rw [hready.table]
  exact ⟨rfl, rfl, rfl, rfl⟩

theorem CopyReady.off2addr (hready : CopyReady chan rx) {off : Nat} (hoff : off < chan.rxSize) :
    rx.zvideo.zchanRx.zchanRxOff2addr off = hwAddr off := by
  apply hready.pageSized.off2addr
  rw [hready.table]
  rw [CopyChannel.rxSize, Nat.mul_assoc] at hoff
  exact Nat.div_lt_of_lt_mul (by rwa [Nat.mul_comm])

theorem CopyReady.wrap (hready : CopyReady chan rx) {off : Nat} (hoff : off < 2 * chan.rxSize) :
    rx.zvideo.zchanRx.wrap off = off % chan.rxSize := by
  unfold ZchanRxTbl.wrap
  rw [hready.size, mod_of_lt_two_mul hoff]
  split <;> split <;> omega

theorem page_add_le {off size : Nat} (hoff : off < size) (hpage : ZCHAN_BUF_SIZE ∣ off)
    (hsize : ZCHAN_BUF_SIZE ∣ size) : off + ZCHAN_BUF_SIZE ≤ size := by
  unfold ZCHAN_BUF_SIZE at *
  omega

end Geometry

/-! ### Copying one frame -/

section Frame

variable {chan : CopyChannel} {rx : CopyRx} {start rxTail left : Nat}

/-- The loop has copied the first `size` bytes of the frame at `start`. -/
structure Copying (chan : CopyChannel) (rx : CopyRx) (start : Nat) (l : PageCopy) : Prop where
  rxOff : l.rxOff = (start + l.size) % chan.rxSize
  sum : l.size + l.memsz = chan.cfg.sizeimage
  mem : l.mem = l.size
  page : ZCHAN_BUF_SIZE ∣ l.size ∨ l.memsz = 0
  data : ∀ j < l.size, l.data j = rx.mem (hwAddr ((start + j) % chan.rxSize))

theorem Copying.rxOff_ne (hsize : left * chan.cfg.frame < chan.rxSize) (hleft : 0 < left)
    {size : Nat} (hin : size < chan.cfg.sizeimage) :
    (start + size) % chan.rxSize ≠ (start + left * chan.cfg.frame) % chan.rxSize := by
  intro heq
  have hle := chan.cfg.sizeimage_le_frame
  have hframes : chan.cfg.frame ≤ left * chan.cfg.frame := Nat.le_mul_of_pos_left _ hleft
  have hsame : start + left * chan.cfg.frame = start + size :=
    mod_inj (by omega) (by omega) heq.symm
  omega

theorem Copying.pageLen (hready : CopyReady chan rx) {off : Nat} (hoff : ZCHAN_BUF_SIZE ∣ off)
    (htail : ZCHAN_BUF_SIZE ∣ rxTail) (hne : off ≠ rxTail) :
    rx.zvideo.pageLen rxTail off = ZCHAN_BUF_SIZE := by
  have hstart (x : Nat) (hx : ZCHAN_BUF_SIZE ∣ x) :
      rx.zvideo.zchanRx.ZCHAN_RX_BUF_OFFSET x = 0 := by
    rw [hready.pageSized.bufOffset]
    exact Nat.mod_eq_zero_of_dvd hx
  have hbuf (x : Nat) (hx : ZCHAN_BUF_SIZE ∣ x) : rx.zvideo.zchanRx.bufStart x = x := by
    have hzero := hstart x hx
    unfold ZchanRxTbl.ZCHAN_RX_BUF_OFFSET at hzero
    rw [ZchanRxTbl.bufStart, hzero, Nat.sub_zero]
  rw [ZynqVideo.pageLen, if_neg, hstart off hoff, hready.bufsz, Nat.sub_zero]
  rintro ⟨hwithin, -⟩
  rw [ZchanRxTbl.ZCHAN_WITHIN_RX_BUF, hbuf off hoff, hbuf rxTail htail] at hwithin
  exact hne hwithin

theorem Copying.round (hready : CopyReady chan rx) (hstart : ZCHAN_BUF_SIZE ∣ start)
    (htail : ZCHAN_BUF_SIZE ∣ rxTail) {l : PageCopy} (hcopying : Copying chan rx start l)
    (hne : l.rxOff ≠ rxTail) (hmemsz : 0 < l.memsz) :
    Copying chan rx start (rx.copyPage rxTail l) ∧
      (rx.copyPage rxTail l).memsz < l.memsz := by
  obtain ⟨hoff, hsum, hmem, hpage, hdata⟩ := hcopying
  have hpage : ZCHAN_BUF_SIZE ∣ l.size := hpage.resolve_right (by omega)
  have hsizes := chan.page_dvd_rxSize
  have hpos : 0 < chan.rxSize := Nat.zero_lt_of_lt hready.head_lt
  have hlt : l.rxOff < chan.rxSize := hoff ▸ Nat.mod_lt _ hpos
  have halign : ZCHAN_BUF_SIZE ∣ l.rxOff := by
    rw [hoff]
    exact (Nat.dvd_mod_iff hsizes).mpr (Nat.dvd_add hstart hpage)
  have hroom := page_add_le hlt halign hsizes
  obtain ⟨len, hlen, hle, hmin, hfull⟩ : ∃ len,
      rx.zvideo.syncLen rxTail l.toSyncLoop = len ∧ len ≤ ZCHAN_BUF_SIZE ∧
        0 < len ∧ len ≤ l.memsz ∧ (len = ZCHAN_BUF_SIZE ∨ len = l.memsz) := by
    refine ⟨_, rfl, ?_⟩
    rw [ZynqVideo.syncLen, pageLen hready halign htail hne]
    unfold ZCHAN_BUF_SIZE
    split <;> omega
  have hnext : l.rxOff + len ≤ chan.rxSize := by omega
  unfold CopyRx.copyPage ZynqVideo.syncRound
  dsimp only
  rw [hlen]
  refine ⟨⟨?_, ?_, ?_, ?_, ?_⟩, ?_⟩
  · dsimp only
    rw [hready.wrap (by omega), hoff, Nat.mod_add_mod, Nat.add_assoc]
  · dsimp only
    omega
  · dsimp only
    rw [hmem]
  · rcases hfull.2 with hfull | hfull
    · left
      dsimp only
      rw [hfull]
      exact Nat.dvd_add hpage dvd_rfl
    · right
      dsimp only
      omega
  · intro j hj
    dsimp only at hj ⊢
    unfold memcpy
    rw [hmem]
    split
    next hnew =>
      have hbyte : l.rxOff + (j - l.size) = (start + j) % chan.rxSize := by
        rw [← Nat.mod_eq_of_lt (show l.rxOff + (j - l.size) < chan.rxSize by omega), hoff,
          Nat.mod_add_mod]
        congr 1
        omega
      rw [hready.off2addr hlt]
      dsimp only
      rw [hwAddr_add, hbyte]
      rw [Nat.mod_eq_zero_of_dvd halign]
      omega
    next hold => exact hdata j (by omega)
  · omega

theorem copyFrame_copies (hready : CopyReady chan rx) (hstart : ZCHAN_BUF_SIZE ∣ start)
    (hlt : start < chan.rxSize) (htail : rxTail = (start + left * chan.cfg.frame) % chan.rxSize)
    (hleft : 0 < left) (hsize : left * chan.cfg.frame < chan.rxSize) (buf : Nat) :
    ∃ c, rx.copyFrame chan.cfg start rxTail buf = some c ∧
      Copying chan rx start c ∧ c.memsz = 0 := by
  have hpage : ZCHAN_BUF_SIZE ∣ rxTail := by
    rw [htail]
    exact (Nat.dvd_mod_iff chan.page_dvd_rxSize).mpr
      (Nat.dvd_add hstart (Nat.dvd_mul_left_of_dvd chan.page_dvd_frame _))
  have hround : ∀ l : PageCopy, Copying chan rx start l →
      ZynqVideo.syncMore chan.cfg rxTail l.toSyncLoop = true →
      Copying chan rx start (rx.copyPage rxTail l) ∧
        (rx.copyPage rxTail l).memsz < l.memsz := by
    intro l hcopying hmore
    unfold ZynqVideo.syncMore at hmore
    simp only [decide_eq_true_eq] at hmore
    exact hcopying.round hready hstart hpage hmore.1 hmore.2.1
  have hfirst : Copying chan rx start ⟨⟨start, 0, chan.cfg.sizeimage⟩, 0, rx.bufMem buf⟩ :=
    ⟨(Nat.mod_eq_of_lt hlt).symm, Nat.zero_add _, rfl, Or.inl (Nat.dvd_zero _), nofun⟩
  obtain ⟨c, hloop, hcopying, hend⟩ :=
    whileLoop_total (fun l : PageCopy => l.memsz) hround hfirst (le_refl chan.cfg.sizeimage)
  refine ⟨c, hloop, hcopying, ?_⟩
  have hne (hin : c.size < chan.cfg.sizeimage) : c.rxOff ≠ rxTail := by
    rw [htail, hcopying.rxOff]
    exact Copying.rxOff_ne hsize hleft hin
  have hsum := hcopying.sum
  unfold ZynqVideo.syncMore at hend
  simp only [decide_eq_false_iff_not, not_and, not_lt] at hend
  by_contra hmore
  exact absurd (hend (hne (by omega)) (by omega)) (by omega)

end Frame

/-! ### From frame to frame -/

namespace CopyRx

variable (chan : CopyChannel) (rx : CopyRx)

def frameOff (i j : Nat) : Nat :=
  (rx.zvideo.zchanRx.zchanRxHead + i * chan.cfg.frame + j) % chan.rxSize

/-- The extended metadata, the last bytes of frame `i`. -/
def extAddr (i : Nat) : BufPtr :=
  hwAddr (rx.frameOff chan i (chan.cfg.sizeimage - ZVIDEO_EXT_META_DATA_BYTES))

end CopyRx

/-- `n` frames have been passed: the head is at the first byte behind them, and the
metadata of exactly these frames have been reset. -/
structure FramesPassed (chan : CopyChannel) (rx rx' : CopyRx) (n : Nat) : Prop where
  zvideo : rx'.zvideo =
    { rx.zvideo with
      bufList := rx'.zvideo.bufList
      bufAvail := rx'.zvideo.bufAvail
      zchanRx := { rx.zvideo.zchanRx with zchanRxHead := rx.frameOff chan n 0 } }
  headReg : rx'.rxHeadReg = rx.frameOff chan n 0
  resets : rx'.resets = rx.resets ++ (List.range n).map (rx.extAddr chan)
  mem : ∀ ptr, rx'.mem ptr =
    if ∃ i < n, ptr = (rx.extAddr chan i).add CopyRx.extErrorOffset then
      CopyRx.ZVIDEO_EXT_ERR_INVALID
    else rx.mem ptr
  sequence : rx'.sequence = rx.sequence + BitVec.ofNat 32 n

section Passed

variable {chan : CopyChannel} {rx rx₁ : CopyRx} {n : Nat}

theorem CopyRx.frameOff_lt (hready : CopyReady chan rx) (i j : Nat) :
    rx.frameOff chan i j < chan.rxSize :=
  Nat.mod_lt _ (Nat.zero_lt_of_lt hready.head_lt)

theorem CopyRx.frameOff_add (i j : Nat) :
    rx.frameOff chan i j = (rx.frameOff chan i 0 + j) % chan.rxSize := by
  unfold CopyRx.frameOff
  rw [Nat.mod_add_mod, Nat.add_zero]

theorem CopyRx.frameOff_succ (i : Nat) :
    rx.frameOff chan (i + 1) 0 = (rx.frameOff chan i 0 + chan.cfg.frame) % chan.rxSize := by
  unfold CopyRx.frameOff
  rw [Nat.mod_add_mod, Nat.succ_mul]
  congr 1
  omega

theorem CopyRx.frameOff_page (hready : CopyReady chan rx) (i : Nat) :
    ZCHAN_BUF_SIZE ∣ rx.frameOff chan i 0 := by
  rw [CopyRx.frameOff, Nat.add_zero]
  exact (Nat.dvd_mod_iff chan.page_dvd_rxSize).mpr
    (Nat.dvd_add hready.head_page (Nat.dvd_mul_left_of_dvd chan.page_dvd_frame _))

theorem CopyRx.frameOff_zero (hready : CopyReady chan rx) :
    rx.frameOff chan 0 0 = rx.zvideo.zchanRx.zchanRxHead := by
  rw [CopyRx.frameOff, Nat.zero_mul, Nat.add_zero, Nat.mod_eq_of_lt hready.head_lt]

theorem CopyRx.frameOff_inj {frames i k j t : Nat} (hsize : frames * chan.cfg.frame ≤ chan.rxSize)
    (hi : i < frames) (hk : k < frames) (hj : j < chan.cfg.frame) (ht : t < chan.cfg.frame)
    (heq : rx.frameOff chan i j = rx.frameOff chan k t) : i = k ∧ j = t := by
  have hbound (a b : Nat) (ha : a < frames) (hb : b < chan.cfg.frame) :
      a * chan.cfg.frame + b < chan.rxSize := by
    have hframe : (a + 1) * chan.cfg.frame ≤ frames * chan.cfg.frame :=
      Nat.mul_le_mul_right _ ha
    rw [Nat.succ_mul] at hframe
    omega
  have hfirst := hbound i j hi hj
  have hsecond := hbound k t hk ht
  have hsame : i * chan.cfg.frame + j = k * chan.cfg.frame + t := by
    unfold CopyRx.frameOff at heq
    rcases Nat.le_total (i * chan.cfg.frame + j) (k * chan.cfg.frame + t) with hle | hle
    · have hpos := mod_inj (by omega) (by omega) heq.symm
      omega
    · have hpos := mod_inj (by omega) (by omega) heq
      omega
  have hpos := chan.cfg.frame_pos
  have hik : (i * chan.cfg.frame + j) / chan.cfg.frame =
      (k * chan.cfg.frame + t) / chan.cfg.frame := by
    rw [hsame]
  rw [Nat.mul_comm i, Nat.mul_comm k, Nat.mul_add_div hpos, Nat.mul_add_div hpos,
    Nat.div_eq_of_lt hj, Nat.div_eq_of_lt ht, Nat.add_zero, Nat.add_zero] at hik
  subst hik
  exact ⟨rfl, by omega⟩

theorem extAddr_add (hready : CopyReady chan rx) (i : Nat) {t : Nat}
    (ht : t < ZVIDEO_EXT_META_DATA_BYTES) :
    (rx.extAddr chan i).add t =
      hwAddr (rx.frameOff chan i (chan.cfg.sizeimage - ZVIDEO_EXT_META_DATA_BYTES + t)) := by
  have hlt := CopyRx.frameOff_lt hready i (chan.cfg.sizeimage - ZVIDEO_EXT_META_DATA_BYTES)
  have hsize := chan.page_dvd_rxSize
  have hdvd : ZVIDEO_EXT_META_DATA_BYTES ∣
      rx.frameOff chan i (chan.cfg.sizeimage - ZVIDEO_EXT_META_DATA_BYTES) := by
    rw [CopyRx.frameOff_add]
    apply (Nat.dvd_mod_iff (dvd_trans (by decide) hsize)).mpr
    apply Nat.dvd_add (dvd_trans (by decide) (CopyRx.frameOff_page hready i))
    exact Nat.dvd_sub chan.extMetaData_dvd dvd_rfl
  have hnext : rx.frameOff chan i (chan.cfg.sizeimage - ZVIDEO_EXT_META_DATA_BYTES + t) =
      rx.frameOff chan i (chan.cfg.sizeimage - ZVIDEO_EXT_META_DATA_BYTES) + t := by
    have hmod : rx.frameOff chan i (chan.cfg.sizeimage - ZVIDEO_EXT_META_DATA_BYTES + t) =
        (rx.frameOff chan i (chan.cfg.sizeimage - ZVIDEO_EXT_META_DATA_BYTES) + t) %
          chan.rxSize := by
      unfold CopyRx.frameOff
      rw [Nat.mod_add_mod, Nat.add_assoc _ _ t]
    rw [hmod, Nat.mod_eq_of_lt]
    unfold ZVIDEO_EXT_META_DATA_BYTES ZCHAN_BUF_SIZE at *
    omega
  rw [CopyRx.extAddr, hnext]
  apply hwAddr_add
  unfold ZVIDEO_EXT_META_DATA_BYTES ZCHAN_BUF_SIZE at *
  omega

theorem framesPassed_zero (hready : CopyReady chan rx) : FramesPassed chan rx rx 0 := by
  have hhead := CopyRx.frameOff_zero hready
  refine ⟨?_, ?_, ?_, ?_, ?_⟩
  · rw [hhead]
  · rw [hhead]
    exact hready.headReg
  · simp
  · simp
  · simp

theorem FramesPassed.of_same (hpassed : FramesPassed chan rx rx₁ n) {rx₂ : CopyRx}
    (hzvideo : rx₂.zvideo =
      { rx₁.zvideo with
        bufList := rx₂.zvideo.bufList
        bufAvail := rx₂.zvideo.bufAvail })
    (hheadReg : rx₂.rxHeadReg = rx₁.rxHeadReg) (hmem : rx₂.mem = rx₁.mem)
    (hresets : rx₂.resets = rx₁.resets) (hsequence : rx₂.sequence = rx₁.sequence) :
    FramesPassed chan rx rx₂ n := by
  refine ⟨?_, hheadReg.trans hpassed.headReg, hresets.trans hpassed.resets, ?_,
    hsequence.trans hpassed.sequence⟩
  · rw [hzvideo, hpassed.zvideo]
  · rw [hmem]
    exact hpassed.mem

theorem ZynqVideo.head_moves {z z₁ z₂ : ZynqVideo} {head next : Nat}
    (hfirst : z₁ =
      { z with
        bufList := z₁.bufList
        bufAvail := z₁.bufAvail
        zchanRx := { z.zchanRx with zchanRxHead := head } })
    (hnext : z₂ = { z₁ with zchanRx := { z₁.zchanRx with zchanRxHead := next } }) :
    z₂ =
      { z with
        bufList := z₂.bufList
        bufAvail := z₂.bufAvail
        zchanRx := { z.zchanRx with zchanRxHead := next } } := by
  have hbufList : z₂.bufList = z₁.bufList := by rw [hnext]
  have hbufAvail : z₂.bufAvail = z₁.bufAvail := by rw [hnext]
  rw [hbufList, hbufAvail, hnext, hfirst]

theorem FramesPassed.step (hpassed : FramesPassed chan rx rx₁ n) {rx₂ : CopyRx}
    (hzvideo : rx₂.zvideo =
      { rx₁.zvideo with zchanRx := { rx₁.zvideo.zchanRx with
        zchanRxHead := rx.frameOff chan (n + 1) 0 } })
    (hheadReg : rx₂.rxHeadReg = rx.frameOff chan (n + 1) 0)
    (hresets : rx₂.resets = rx₁.resets ++ [rx.extAddr chan n])
    (hmem : rx₂.mem = Function.update rx₁.mem
      ((rx.extAddr chan n).add CopyRx.extErrorOffset) CopyRx.ZVIDEO_EXT_ERR_INVALID)
    (hsequence : rx₂.sequence = rx₁.sequence + 1) :
    FramesPassed chan rx rx₂ (n + 1) := by
  refine ⟨?_, hheadReg, ?_, ?_, ?_⟩
  · exact ZynqVideo.head_moves hpassed.zvideo hzvideo
  · rw [hresets, hpassed.resets, List.range_succ, List.map_append, List.append_assoc]
    rfl
  · intro ptr
    rw [hmem, Function.update_apply, hpassed.mem]
    simp only [Nat.lt_succ_iff_lt_or_eq, or_and_right, exists_or, exists_eq_left]
    split <;> split <;> simp_all
  · rw [hsequence, hpassed.sequence, BitVec.ofNat_add, BitVec.add_assoc]
    rfl

theorem FramesPassed.ready (hpassed : FramesPassed chan rx rx₁ n) (hready : CopyReady chan rx)
    (havail : rx₁.zvideo.bufAvail = rx₁.zvideo.bufList.length) : CopyReady chan rx₁ := by
  have hhead : rx₁.zvideo.zchanRx.zchanRxHead = rx.frameOff chan n 0 := by
    rw [hpassed.zvideo]
  refine ⟨?_, ?_, ?_, ?_, ?_, havail⟩
  · rw [hhead, hpassed.zvideo]
    dsimp only
    rw [hready.table]
  · rw [hpassed.zvideo]
    exact hready.bufsz
  · rw [hhead]
    exact CopyRx.frameOff_lt hready n 0
  · rw [hhead]
    exact CopyRx.frameOff_page hready n
  · rw [hhead]
    exact hpassed.headReg

/-- Whether the offset behind the data has wrapped or not, the head comes to the next
frame. -/
theorem wrap_align_frame (hready : CopyReady chan rx) (hsize : chan.cfg.frame < chan.rxSize)
    {start rxOff : Nat} (hlt : start < chan.rxSize) (hpage : ZCHAN_BUF_SIZE ∣ start)
    (hrxOff : rxOff = (start + chan.cfg.sizeimage) % 2 ^ 32 ∨
      rxOff = (start + chan.cfg.sizeimage) % chan.rxSize) :
    rx.zvideo.zchanRx.wrap (ALIGN rxOff rx.zvideo.zchanRxBufsz % 2 ^ 32) =
      (start + chan.cfg.frame) % chan.rxSize := by
  have hbound := chan.rxSize_le
  have hle := chan.cfg.sizeimage_le_frame
  have hframe : chan.cfg.frame = ALIGN chan.cfg.sizeimage ZCHAN_BUF_SIZE := rfl
  have htable := chan.page_dvd_rxSize
  have halign : ALIGN rxOff ZCHAN_BUF_SIZE = start + chan.cfg.frame ∨
      chan.rxSize ≤ start + chan.cfg.frame ∧
        ALIGN rxOff ZCHAN_BUF_SIZE = start + chan.cfg.frame - chan.rxSize := by
    rw [hframe]
    rw [Nat.mod_eq_of_lt (show start + chan.cfg.sizeimage < 2 ^ 32 by omega),
      mod_of_lt_two_mul (by omega)] at hrxOff
    unfold ALIGN ZCHAN_BUF_SIZE at *
    split at hrxOff <;> omega
  rw [hready.bufsz, Nat.mod_eq_of_lt (by omega), hready.wrap (by omega)]
  rcases halign with halign | ⟨hwrap, halign⟩
  · rw [halign]
  · rw [halign, ← Nat.mod_eq_sub_mod hwrap]

/-- The head comes to the next frame, and the metadata that are reset are those of the
frame passed. -/
theorem FramesPassed.next (hpassed : FramesPassed chan rx rx₁ n) (hready : CopyReady chan rx)
    (hready₁ : CopyReady chan rx₁) (hsize : chan.cfg.frame < chan.rxSize) {rxOff : Nat}
    (hrxOff : rxOff = (rx.frameOff chan n 0 + chan.cfg.sizeimage) % 2 ^ 32 ∨
      rxOff = (rx.frameOff chan n 0 + chan.cfg.sizeimage) % chan.rxSize)
    (outcome : FrameOutcome) :
    (rx₁.nextFrame chan.cfg rxOff).2 = rx.frameOff chan (n + 1) 0 ∧
      FramesPassed chan rx ((rx₁.nextFrame chan.cfg rxOff).1.addOutcome outcome) (n + 1) := by
  have hhead : rx₁.zvideo.zchanRx.zchanRxHead = rx.frameOff chan n 0 := by
    rw [hpassed.zvideo]
  have hlt := CopyRx.frameOff_lt hready n 0
  have hnext : (rx₁.nextFrame chan.cfg rxOff).2 = rx.frameOff chan (n + 1) 0 := by
    rw [CopyRx.frameOff_succ]
    exact wrap_align_frame hready₁ hsize hlt (CopyRx.frameOff_page hready n) hrxOff
  have hext : rx₁.zvideo.zchanRx.zchanRxOff2addr (rx₁.zvideo.zchanRx.wrap
      ((rx₁.zvideo.zchanRx.zchanRxHead + chan.cfg.sizeimage - ZVIDEO_EXT_META_DATA_BYTES) %
        2 ^ 32)) = rx.extAddr chan n := by
    have hbound := chan.rxSize_le
    have hle := chan.cfg.sizeimage_le_frame
    have hoff : rx.frameOff chan n 0 + chan.cfg.sizeimage - ZVIDEO_EXT_META_DATA_BYTES <
        2 * chan.rxSize := by omega
    rw [hhead, Nat.mod_eq_of_lt (hoff.trans (by omega)), hready₁.wrap hoff,
      hready₁.off2addr (Nat.mod_lt _ (by omega)), CopyRx.extAddr,
      CopyRx.frameOff_add n (chan.cfg.sizeimage - ZVIDEO_EXT_META_DATA_BYTES),
      Nat.add_sub_assoc chan.extMetaData_le]
  refine ⟨hnext, hpassed.step ?_ hnext ?_ ?_ rfl⟩
  · rw [← hnext]
    rfl
  · rw [← hext]
    rfl
  · rw [← hext]
    rfl

end Passed

/-! ### The fate of the frames -/

def FrameOutcome.doneBuf : FrameOutcome → Option Nat
  | .copied buf _ _ true => some buf
  | _ => none

def FrameOutcome.isDiscarded : FrameOutcome → Bool
  | .discarded => true
  | _ => false

/-- Frame `i` is the last that was copied to `buf`. -/
structure LastCopied (outcomes : List FrameOutcome) (i buf : Nat) : Prop where
  copied : ∃ size data done, outcomes[i]? = some (.copied buf size data done)
  last : ∀ k > i, ∀ size data done, outcomes[k]? ≠ some (.copied buf size data done)

/-- The frames that have been passed had these `outcomes`, in order. A buffer that is put
back can be taken again, so what it holds is the last frame that was copied to it; one that
is completed is out of the list. -/
structure FramesDelivered (chan : CopyChannel) (corrupted : Nat → Bool) (rx rx' : CopyRx)
    (outcomes : List FrameOutcome) : Prop where
  log : rx'.outcomes = rx.outcomes ++ outcomes
  copied : ∀ i buf size data done, outcomes[i]? = some (.copied buf size data done) →
    size = chan.cfg.sizeimage ∧
      (∀ j < chan.cfg.sizeimage, data j = rx.mem (hwAddr (rx.frameOff chan i j))) ∧
      done = !corrupted (rx.outcomes.length + i)
  written : ∀ i buf, LastCopied outcomes i buf →
    ∀ j < chan.cfg.sizeimage, rx'.bufMem buf j = rx.mem (hwAddr (rx.frameOff chan i j))
  completed : rx.zvideo.bufList.Nodup →
    ∀ i buf size data, outcomes[i]? = some (.copied buf size data true) →
      ∀ j < chan.cfg.sizeimage, rx'.bufMem buf j = rx.mem (hwAddr (rx.frameOff chan i j))
  payload : ∀ (i : Nat) buf size data, outcomes[i]? = some (.copied buf size data true) →
    rx'.payload buf = chan.cfg.sizeimage
  discarded : ∀ i, outcomes[i]? = some .discarded →
    rx.zvideo.zchanRx.ZCHAN_RX_FREE_SIZE (rx.frameOff chan i 0) rx.zvideo.rxTail <
      chan.cfg.sizeimage
  statsRxDrop : rx'.statsRxDrop =
    rx.statsRxDrop + outcomes.countP FrameOutcome.isDiscarded
  doneList : rx'.doneList = rx.doneList ++ outcomes.filterMap FrameOutcome.doneBuf
  bufs : (rx'.zvideo.bufList ++ outcomes.filterMap FrameOutcome.doneBuf).Perm
    rx.zvideo.bufList

/-- There is no buffer for the next frame, and still room behind the tail. -/
structure LeftInPlace (chan : CopyChannel) (rx rx' : CopyRx) : Prop where
  noBuf : rx'.zvideo.streaming = true → rx'.zvideo.bufList = []
  room : chan.cfg.sizeimage ≤ rx'.zvideo.zchanRx.ZCHAN_RX_FREE_SIZE
    rx'.zvideo.zchanRx.zchanRxHead rx.zvideo.rxTail

theorem CopyRx.takeBuf_cases (rx : CopyRx) :
    (rx.takeBuf = (none, rx) ∧ (rx.zvideo.streaming = true → rx.zvideo.bufList = [])) ∨
      ∃ buf rest, rx.zvideo.bufList = buf :: rest ∧
        rx.takeBuf = (some buf,
          { rx with zvideo := { rx.zvideo with
              bufList := rest
              bufAvail := rx.zvideo.bufAvail - 1 } }) := by
  unfold takeBuf
  split
  next buf rest _ hlist => exact Or.inr ⟨buf, rest, hlist, rfl⟩
  next hnone =>
    refine Or.inl ⟨rfl, fun hstreaming => ?_⟩
    cases hlist : rx.zvideo.bufList with
    | nil => rfl
    | cons buf rest => exact absurd hlist (hnone buf rest hstreaming)

theorem getElem?_concat_eq_some {α : Type*} {list : List α} {x y : α} {i : Nat}
    (hget : (list ++ [x])[i]? = some y) :
    list[i]? = some y ∨ i = list.length ∧ x = y := by
  rcases Nat.lt_trichotomy i list.length with hlt | rfl | hgt
  · rw [List.getElem?_append_left hlt] at hget
    exact Or.inl hget
  · rw [List.getElem?_concat_length] at hget
    exact Or.inr ⟨rfl, Option.some.inj hget⟩
  · rw [List.getElem?_eq_none (by
      rw [List.length_append, List.length_singleton]
      omega)] at hget
    cases hget

theorem LastCopied.of_concat {outcomes : List FrameOutcome} {outcome : FrameOutcome} {i buf : Nat}
    (hlast : LastCopied (outcomes ++ [outcome]) i buf) (hi : i ≠ outcomes.length) :
    LastCopied outcomes i buf := by
  obtain ⟨⟨size, data, done, hget⟩, hlater⟩ := hlast
  refine ⟨⟨size, data, done, ?_⟩, fun k hk size data done hother => ?_⟩
  · exact (getElem?_concat_eq_some hget).resolve_right fun h => hi h.1
  · refine hlater k hk size data done ?_
    rw [List.getElem?_append_left (List.getElem?_eq_some_iff.mp hother).1, hother]

section Judge

variable (rx : CopyRx) (failed : Bool) (buf size : Nat)

theorem CopyRx.judge_doneList :
    (rx.judge failed buf size).doneList = rx.doneList ++ if failed then [] else [buf] := by
  cases failed <;> simp [judge]

theorem CopyRx.judge_bufList :
    (rx.judge failed buf size).zvideo.bufList =
      rx.zvideo.bufList ++ if failed then [buf] else [] := by
  cases failed <;> simp [judge]

theorem CopyRx.judge_bufAvail :
    (rx.judge failed buf size).zvideo.bufAvail =
      rx.zvideo.bufAvail + if failed then 1 else 0 := by
  cases failed <;> simp [judge]

theorem CopyRx.judge_bufMem : (rx.judge failed buf size).bufMem = rx.bufMem := by
  cases failed <;> simp [judge]

theorem CopyRx.judge_payload :
    (rx.judge failed buf size).payload =
      if failed then rx.payload else Function.update rx.payload buf size := by
  cases failed <;> simp [judge]

end Judge

section Taking

variable {chan : CopyChannel} {corrupted : Nat → Bool} {frames : Nat} {rx : CopyRx}
  {l : CopyLoop} {outcomes : List FrameOutcome}

structure Taking (chan : CopyChannel) (corrupted : Nat → Bool) (rx : CopyRx) (l : CopyLoop)
    (outcomes : List FrameOutcome) : Prop where
  rxOff : l.rxOff = rx.frameOff chan outcomes.length 0
  passed : FramesPassed chan rx l.rx outcomes.length
  delivered : FramesDelivered chan corrupted rx l.rx outcomes
  bufAvail : l.rx.zvideo.bufAvail = l.rx.zvideo.bufList.length

theorem CopyReady.freeSize {rx₁ : CopyRx} (hready : CopyReady chan rx)
    (hready₁ : CopyReady chan rx₁) (head tail : Nat) :
    rx₁.zvideo.zchanRx.ZCHAN_RX_FREE_SIZE head tail =
      rx.zvideo.zchanRx.ZCHAN_RX_FREE_SIZE head tail := by
  unfold ZchanRxTbl.ZCHAN_RX_FREE_SIZE
  rw [hready₁.size, hready.size]

theorem FramesPassed.mem_ahead {rx₁ : CopyRx} {n j : Nat}
    (hpassed : FramesPassed chan rx rx₁ n) (hready : CopyReady chan rx)
    (hsize : frames * chan.cfg.frame ≤ chan.rxSize) (hn : n < frames)
    (hj : j < chan.cfg.sizeimage) :
    rx₁.mem (hwAddr (rx.frameOff chan n j)) = rx.mem (hwAddr (rx.frameOff chan n j)) := by
  rw [hpassed.mem, if_neg]
  rintro ⟨i, hi, heq⟩
  have hle := chan.cfg.sizeimage_le_frame
  have hext := chan.extMetaData_le
  rw [extAddr_add hready i (by decide)] at heq
  have hlast : chan.cfg.sizeimage - ZVIDEO_EXT_META_DATA_BYTES + CopyRx.extErrorOffset <
      chan.cfg.frame := by
    unfold CopyRx.extErrorOffset ZVIDEO_EXT_META_DATA_BYTES at *
    omega
  have hsame := CopyRx.frameOff_inj hsize hn (hi.trans hn) (hj.trans_le hle) hlast (hwAddr_inj heq)
  omega

theorem framesDelivered_nil (rx : CopyRx) : FramesDelivered chan corrupted rx rx [] where
  log := (List.append_nil _).symm
  copied := nofun
  written _ _ hlast := let ⟨_, _, _, hget⟩ := hlast.copied; nomatch hget
  completed _ := nofun
  payload := nofun
  discarded := nofun
  statsRxDrop := rfl
  doneList := (List.append_nil _).symm
  bufs := by simp

theorem FramesDelivered.discard {rx₁ rx₂ : CopyRx}
    (hdelivered : FramesDelivered chan corrupted rx rx₁ outcomes)
    (houtcomes : rx₂.outcomes = rx₁.outcomes ++ [.discarded])
    (hdrop : rx₂.statsRxDrop = rx₁.statsRxDrop + 1) (hdone : rx₂.doneList = rx₁.doneList)
    (hbufs : rx₂.zvideo.bufList = rx₁.zvideo.bufList) (hbufMem : rx₂.bufMem = rx₁.bufMem)
    (hpayload : rx₂.payload = rx₁.payload)
    (hfull : rx.zvideo.zchanRx.ZCHAN_RX_FREE_SIZE (rx.frameOff chan outcomes.length 0)
      rx.zvideo.rxTail < chan.cfg.sizeimage) :
    FramesDelivered chan corrupted rx rx₂ (outcomes ++ [.discarded]) := by
  have hnone : (outcomes ++ [FrameOutcome.discarded]).filterMap FrameOutcome.doneBuf =
      outcomes.filterMap FrameOutcome.doneBuf := by
    simp [FrameOutcome.doneBuf]
  have hold {i buf size : Nat} {data : Nat → BitVec 8} {done : Bool}
      (hget : (outcomes ++ [.discarded])[i]? = some (.copied buf size data done)) :
      outcomes[i]? = some (.copied buf size data done) := by
    refine (getElem?_concat_eq_some hget).resolve_right ?_
    rintro ⟨-, hnew⟩
    cases hnew
  refine ⟨?_, ?_, ?_, ?_, ?_, ?_, ?_, ?_, ?_⟩
  · rw [houtcomes, hdelivered.log, List.append_assoc]
  · intro i buf size data done hget
    exact hdelivered.copied i buf size data done (hold hget)
  · intro i buf hlast j hj
    obtain ⟨size, data, done, hget⟩ := hlast.copied
    have hlt := (List.getElem?_eq_some_iff.mp (hold hget)).1
    rw [hbufMem, hdelivered.written i buf (hlast.of_concat hlt.ne) j hj]
  · intro hnodup i buf size data hget j hj
    rw [hbufMem, hdelivered.completed hnodup i buf size data (hold hget) j hj]
  · intro i buf size data hget
    rw [hpayload, hdelivered.payload i buf size data (hold hget)]
  · intro i hget
    rcases getElem?_concat_eq_some hget with hold | ⟨rfl, -⟩
    · exact hdelivered.discarded i hold
    · exact hfull
  · rw [hdrop, hdelivered.statsRxDrop, List.countP_append]
    rfl
  · rw [hdone, hdelivered.doneList, hnone]
  · rw [hbufs, hnone]
    exact hdelivered.bufs

theorem FramesDelivered.copy {rx₁ rx₂ : CopyRx} {buf : Nat} {rest : List Nat}
    {data : Nat → BitVec 8} {failed : Bool}
    (hdelivered : FramesDelivered chan corrupted rx rx₁ outcomes)
    (houtcomes : rx₂.outcomes =
      rx₁.outcomes ++ [.copied buf chan.cfg.sizeimage data (!failed)])
    (hdrop : rx₂.statsRxDrop = rx₁.statsRxDrop)
    (hdone : rx₂.doneList = rx₁.doneList ++ if failed then [] else [buf])
    (hlist : rx₁.zvideo.bufList = buf :: rest)
    (hbufs : rx₂.zvideo.bufList = rest ++ if failed then [buf] else [])
    (hbufMem : rx₂.bufMem = Function.update rx₁.bufMem buf data)
    (hpayload : rx₂.payload =
      if failed then rx₁.payload else Function.update rx₁.payload buf chan.cfg.sizeimage)
    (hdata : ∀ j < chan.cfg.sizeimage,
      data j = rx.mem (hwAddr (rx.frameOff chan outcomes.length j)))
    (hfailed : failed = corrupted (rx.outcomes.length + outcomes.length)) :
    FramesDelivered chan corrupted rx rx₂
      (outcomes ++ [.copied buf chan.cfg.sizeimage data (!failed)]) := by
  have hbuf :
      (outcomes ++ [FrameOutcome.copied buf chan.cfg.sizeimage data (!failed)]).filterMap
        FrameOutcome.doneBuf =
        outcomes.filterMap FrameOutcome.doneBuf ++ if failed then [] else [buf] := by
    rw [List.filterMap_append]
    cases failed <;> rfl
  refine ⟨?_, ?_, ?_, ?_, ?_, ?_, ?_, ?_, ?_⟩
  · rw [houtcomes, hdelivered.log, List.append_assoc]
  · intro i buf' size data' done hget
    rcases getElem?_concat_eq_some hget with hold | ⟨rfl, hnew⟩
    · exact hdelivered.copied i buf' size data' done hold
    · cases hnew
      exact ⟨rfl, hdata, congrArg (!·) hfailed⟩
  · intro i buf' hlast j hj
    obtain ⟨size, data', done, hget⟩ := hlast.copied
    rcases getElem?_concat_eq_some hget with hold | ⟨rfl, hnew⟩
    · have hlt := (List.getElem?_eq_some_iff.mp hold).1
      have hne : buf' ≠ buf := by
        rintro rfl
        exact hlast.last _ hlt _ _ _ List.getElem?_concat_length
      rw [hbufMem, Function.update_of_ne hne,
        hdelivered.written i buf' (hlast.of_concat hlt.ne) j hj]
    · cases hnew
      rw [hbufMem, Function.update_self, hdata j hj]
  · intro hnodup i buf' size data' hget j hj
    rcases getElem?_concat_eq_some hget with hold | ⟨rfl, hnew⟩
    · -- a buffer that is completed is not the one taken from the list
      have hne : buf' ≠ buf := by
        rintro rfl
        have hdisjoint := List.disjoint_of_nodup_append (hdelivered.bufs.nodup_iff.mpr hnodup)
        exact hdisjoint (hlist ▸ List.mem_cons_self)
          (List.mem_filterMap.mpr ⟨_, List.mem_of_getElem? hold, rfl⟩)
      rw [hbufMem, Function.update_of_ne hne,
        hdelivered.completed hnodup i buf' size data' hold j hj]
    · obtain ⟨rfl, -, rfl, -⟩ := FrameOutcome.copied.inj hnew
      rw [hbufMem, Function.update_self, hdata j hj]
  · intro i buf' size data' hget
    rw [hpayload]
    rcases getElem?_concat_eq_some hget with hold | ⟨rfl, hnew⟩
    · have hsize := hdelivered.payload i buf' size data' hold
      split
      · exact hsize
      · rw [Function.update_apply, hsize, ite_self]
    · cases failed with
      | true => cases hnew
      | false =>
          cases hnew
          exact Function.update_self _ _ _
  · intro i hget
    rcases getElem?_concat_eq_some hget with hold | ⟨-, hnew⟩
    · exact hdelivered.discarded i hold
    · cases hnew
  · rw [hdrop, hdelivered.statsRxDrop, List.countP_append]
    rfl
  · rw [hdone, hdelivered.doneList, hbuf, List.append_assoc]
  · have hperm := hdelivered.bufs
    rw [hlist] at hperm
    rw [hbufs, hbuf]
    refine List.Perm.trans ?_ hperm
    cases failed with
    | true =>
        rw [if_pos rfl, if_pos rfl, List.append_nil]
        exact (List.perm_append_singleton buf rest).append_right _
    | false =>
        rw [if_neg Bool.false_ne_true, if_neg Bool.false_ne_true, List.append_nil,
          ← List.append_assoc]
        exact List.perm_append_singleton buf _

theorem Taking.withoutBuf (hready : CopyReady chan rx)
    (hsize : frames * chan.cfg.frame < chan.rxSize)
    (htaking : Taking chan corrupted rx l outcomes) (hmore : outcomes.length < frames)
    (hreturned : l.returned = false)
    (htake : l.rx.takeBuf = (none, l.rx))
    (hnone : l.rx.zvideo.streaming = true → l.rx.zvideo.bufList = []) :
    ∃ next, CopyRx.copyRound chan.cfg corrupted rx.zvideo.rxTail l = some next ∧
      (next.returned = true ∧ Taking chan corrupted rx next outcomes ∧
          LeftInPlace chan rx next.rx ∨
        next.returned = false ∧ ∃ outcome,
          Taking chan corrupted rx next (outcomes ++ [outcome])) := by
  obtain ⟨hoff, hpassed, hdelivered, havail⟩ := htaking
  have hready₁ : CopyReady chan l.rx := hpassed.ready hready havail
  have hframe : chan.cfg.frame < chan.rxSize :=
    (Nat.le_mul_of_pos_left _ (Nat.zero_lt_of_lt hmore)).trans_lt hsize
  have hlength (outcome : FrameOutcome) :
      (outcomes ++ [outcome]).length = outcomes.length + 1 := List.length_append
  unfold CopyRx.copyRound
  rw [htake]
  dsimp only
  split
  next hroom =>
    refine ⟨_, rfl, Or.inl ⟨rfl, ⟨hoff, ?_, ?_, havail⟩, hnone, ?_⟩⟩
    · exact hpassed.of_same rfl rfl rfl rfl rfl
    · exact ⟨hdelivered.log, hdelivered.copied, hdelivered.written, hdelivered.completed,
        hdelivered.payload, hdelivered.discarded, hdelivered.statsRxDrop, hdelivered.doneList,
        hdelivered.bufs⟩
    · rw [hoff, ← hpassed.headReg, hready₁.headReg] at hroom
      exact hroom
  next hfull =>
    let rx₁ : CopyRx :=
      { l.rx with
        statsNoVideoBuf := l.rx.statsNoVideoBuf + 1
        statsRxDrop := l.rx.statsRxDrop + 1 }
    have hpassed₁ : FramesPassed chan rx rx₁ outcomes.length :=
      hpassed.of_same rfl rfl rfl rfl rfl
    have hfirst : (l.rxOff + chan.cfg.sizeimage) % 2 ^ 32 =
        (rx.frameOff chan outcomes.length 0 + chan.cfg.sizeimage) % 2 ^ 32 := by
      rw [hoff]
    obtain ⟨hnext, hpassed₂⟩ := hpassed₁.next hready (hpassed₁.ready hready havail) hframe
      (Or.inl hfirst) .discarded
    refine ⟨⟨(rx₁.nextFrame chan.cfg ((l.rxOff + chan.cfg.sizeimage) % 2 ^ 32)).1.addOutcome
      .discarded, _, l.returned⟩, rfl, Or.inr ⟨hreturned, .discarded, ?_, ?_, ?_, havail⟩⟩
    · rw [hlength]
      exact hnext
    · rw [hlength]
      exact hpassed₂
    · rw [hready.freeSize hready₁, hoff] at hfull
      exact hdelivered.discard rfl rfl rfl rfl rfl rfl (not_le.mp hfull)

/-- The whole frame behind the ones already passed is copied, as the hardware wrote it. -/
theorem FramesPassed.copyFrame {rx₁ : CopyRx} {n : Nat} (hpassed : FramesPassed chan rx rx₁ n)
    (hready : CopyReady chan rx) (hready₁ : CopyReady chan rx₁)
    (hsize : frames * chan.cfg.frame < chan.rxSize) (hn : n < frames)
    (htail : rx.zvideo.rxTail = rx.frameOff chan frames 0) (buf : Nat) :
    ∃ c, rx₁.copyFrame chan.cfg (rx.frameOff chan n 0) rx.zvideo.rxTail buf = some c ∧
      c.size = chan.cfg.sizeimage ∧
      c.rxOff = (rx.frameOff chan n 0 + chan.cfg.sizeimage) % chan.rxSize ∧
      ∀ j < chan.cfg.sizeimage, c.data j = rx.mem (hwAddr (rx.frameOff chan n j)) := by
  obtain ⟨left, hpos, hleft⟩ : ∃ left, 0 < left ∧ frames = n + left :=
    ⟨frames - n, by omega, by omega⟩
  have hahead : rx.zvideo.rxTail =
      (rx.frameOff chan n 0 + left * chan.cfg.frame) % chan.rxSize := by
    rw [htail, hleft, CopyRx.frameOff, CopyRx.frameOff, Nat.mod_add_mod, Nat.add_mul]
    congr 1
    omega
  have hroom : left * chan.cfg.frame < chan.rxSize :=
    (Nat.mul_le_mul_right _ (by omega)).trans_lt hsize
  obtain ⟨c, hcopy, hcopying, hmemsz⟩ := copyFrame_copies hready₁
    (CopyRx.frameOff_page hready n) (CopyRx.frameOff_lt hready n 0) hahead hpos hroom buf
  have hwhole : c.size = chan.cfg.sizeimage := by
    have hsum := hcopying.sum
    omega
  refine ⟨c, hcopy, hwhole, ?_, ?_⟩
  · rw [hcopying.rxOff, hwhole]
  · intro j hj
    rw [hcopying.data j (by omega), ← CopyRx.frameOff_add]
    exact hpassed.mem_ahead hready hsize.le hn hj

theorem Taking.withBuf (hready : CopyReady chan rx)
    (hsize : frames * chan.cfg.frame < chan.rxSize)
    (htaking : Taking chan corrupted rx l outcomes) (hmore : outcomes.length < frames)
    (hreturned : l.returned = false)
    (htail : rx.zvideo.rxTail = rx.frameOff chan frames 0) {buf : Nat} {rest : List Nat}
    (hlist : l.rx.zvideo.bufList = buf :: rest)
    (htake : l.rx.takeBuf = (some buf,
      { l.rx with zvideo := { l.rx.zvideo with
          bufList := rest
          bufAvail := l.rx.zvideo.bufAvail - 1 } })) :
    ∃ next, CopyRx.copyRound chan.cfg corrupted rx.zvideo.rxTail l = some next ∧
      next.returned = false ∧ ∃ outcome,
        Taking chan corrupted rx next (outcomes ++ [outcome]) := by
  obtain ⟨hoff, hpassed, hdelivered, havail⟩ := htaking
  have hframe : chan.cfg.frame < chan.rxSize :=
    (Nat.le_mul_of_pos_left _ (Nat.zero_lt_of_lt hmore)).trans_lt hsize
  have hlength (outcome : FrameOutcome) :
      (outcomes ++ [outcome]).length = outcomes.length + 1 := List.length_append
  unfold CopyRx.copyRound
  rw [htake]
  let taken : CopyRx :=
    { l.rx with zvideo := { l.rx.zvideo with
        bufList := rest
        bufAvail := l.rx.zvideo.bufAvail - 1 } }
  have htaken : taken.zvideo.bufAvail = taken.zvideo.bufList.length := by
    change l.rx.zvideo.bufAvail - 1 = rest.length
    rw [havail, hlist, List.length_cons, Nat.add_sub_cancel]
  have hpassed₁ : FramesPassed chan rx taken outcomes.length :=
    hpassed.of_same rfl rfl rfl rfl rfl
  obtain ⟨c, hcopy, hwhole, hbehind, hdata⟩ := hpassed₁.copyFrame hready
    (hpassed₁.ready hready htaken) hsize hmore htail buf
  let rx₁ : CopyRx :=
    { taken with
      bufMem := Function.update taken.bufMem buf c.data
      statsRx := taken.statsRx + 1 }
  have hpassed₂ : FramesPassed chan rx rx₁ outcomes.length :=
    hpassed₁.of_same rfl rfl rfl rfl rfl
  let rx₂ : CopyRx := (rx₁.nextFrame chan.cfg c.rxOff).1
  let failed : Bool := corrupted rx₂.outcomes.length
  let outcome : FrameOutcome := .copied buf c.size (rx₂.bufMem buf) (!failed)
  obtain ⟨hnext, hpassed₃⟩ := hpassed₂.next hready (hpassed₂.ready hready htaken) hframe
    (Or.inr hbehind) outcome
  change ∃ next, Option.map _ (taken.copyFrame chan.cfg l.rxOff rx.zvideo.rxTail buf) =
    some next ∧ _
  rw [hoff, hcopy, Option.map_some]
  refine ⟨⟨(rx₂.judge failed buf c.size).addOutcome outcome, _, l.returned⟩, rfl,
    hreturned, outcome, ?_, ?_, ?_, ?_⟩
  · rw [hlength]
    exact hnext
  · rw [hlength]
    refine hpassed₃.of_same ?_ ?_ ?_ ?_ ?_
    all_goals
      unfold CopyRx.judge
      split <;> rfl
  · have hindex : rx₂.outcomes.length = rx.outcomes.length + outcomes.length := by
      change l.rx.outcomes.length = _
      rw [hdelivered.log, List.length_append]
    have hbytes : rx₂.bufMem buf = c.data := by
      change Function.update taken.bufMem buf c.data buf = c.data
      rw [Function.update_self]
    have houtcome : outcome = .copied buf chan.cfg.sizeimage c.data (!failed) := by
      rw [← hwhole, ← hbytes]
    rw [houtcome]
    refine hdelivered.copy ?_ ?_ ?_ hlist ?_ ?_ ?_ hdata (congrArg corrupted hindex)
    · unfold CopyRx.judge
      split <;> rfl
    · unfold CopyRx.judge
      split <;> rfl
    · exact rx₂.judge_doneList failed buf c.size
    · exact rx₂.judge_bufList failed buf c.size
    · exact rx₂.judge_bufMem failed buf c.size
    · rw [← hwhole]
      exact rx₂.judge_payload failed buf c.size
  · change (rx₂.judge failed buf c.size).zvideo.bufAvail =
      (rx₂.judge failed buf c.size).zvideo.bufList.length
    rw [rx₂.judge_bufAvail, rx₂.judge_bufList, List.length_append]
    change taken.zvideo.bufAvail + _ = taken.zvideo.bufList.length + _
    rw [htaken]
    cases failed <;> rfl

theorem Taking.round (hready : CopyReady chan rx)
    (hsize : frames * chan.cfg.frame < chan.rxSize)
    (htaking : Taking chan corrupted rx l outcomes) (hmore : outcomes.length < frames)
    (hreturned : l.returned = false)
    (htail : rx.zvideo.rxTail = rx.frameOff chan frames 0) :
    ∃ next, CopyRx.copyRound chan.cfg corrupted rx.zvideo.rxTail l = some next ∧
      (next.returned = true ∧ Taking chan corrupted rx next outcomes ∧
          LeftInPlace chan rx next.rx ∨
        next.returned = false ∧ ∃ outcome,
          Taking chan corrupted rx next (outcomes ++ [outcome])) := by
  rcases l.rx.takeBuf_cases with ⟨htake, hnone⟩ | ⟨buf, rest, hlist, htake⟩
  · exact htaking.withoutBuf hready hsize hmore hreturned htake hnone
  · obtain ⟨next, hround, hnext⟩ :=
      htaking.withBuf hready hsize hmore hreturned htail hlist htake
    exact ⟨next, hround, Or.inr hnext⟩

theorem CopyRx.frameOff_eq_tail {n : Nat} (hsize : frames * chan.cfg.frame < chan.rxSize)
    (hn : n ≤ frames) (heq : rx.frameOff chan n 0 = rx.frameOff chan frames 0) : n = frames := by
  have hle : n * chan.cfg.frame ≤ frames * chan.cfg.frame := Nat.mul_le_mul_right _ hn
  have hsame := mod_inj (show rx.zvideo.zchanRx.zchanRxHead + n * chan.cfg.frame + 0 ≤
    rx.zvideo.zchanRx.zchanRxHead + frames * chan.cfg.frame + 0 by omega) (by omega) heq.symm
  exact Nat.eq_of_mul_eq_mul_right chan.cfg.frame_pos (by omega)

def Underway (chan : CopyChannel) (corrupted : Nat → Bool) (rx : CopyRx) (frames : Nat)
    (l : CopyLoop) : Prop :=
  l.returned = false ∧ ∃ outcomes, outcomes.length < frames ∧
    Taking chan corrupted rx l outcomes

def AllTaken (chan : CopyChannel) (corrupted : Nat → Bool) (rx : CopyRx) (frames : Nat)
    (l : CopyLoop) : Prop :=
  ∃ outcomes, outcomes.length ≤ frames ∧ Taking chan corrupted rx l outcomes ∧
    (outcomes.length = frames ∨ LeftInPlace chan rx l.rx)

theorem Taking.length_outcomes (htaking : Taking chan corrupted rx l outcomes) :
    l.rx.outcomes.length = rx.outcomes.length + outcomes.length := by
  rw [htaking.delivered.log, List.length_append]

theorem Underway.round (hunderway : Underway chan corrupted rx frames l)
    (hready : CopyReady chan rx) (hsize : frames * chan.cfg.frame < chan.rxSize)
    (htail : rx.zvideo.rxTail = rx.frameOff chan frames 0) :
    ∃ next, CopyRx.copyRound chan.cfg corrupted rx.zvideo.rxTail l = some next ∧
      ((!next.returned && next.rxOff != rx.zvideo.rxTail) = true →
        Underway chan corrupted rx frames next ∧
          rx.outcomes.length + frames - 1 - next.rx.outcomes.length <
            rx.outcomes.length + frames - 1 - l.rx.outcomes.length) ∧
      ((!next.returned && next.rxOff != rx.zvideo.rxTail) = false →
        AllTaken chan corrupted rx frames next) := by
  obtain ⟨hreturned, outcomes, hmore, htaking⟩ := hunderway
  have hcount := htaking.length_outcomes
  obtain ⟨next, hround, hnext⟩ := htaking.round hready hsize hmore hreturned htail
  refine ⟨next, hround, ?_⟩
  rcases hnext with ⟨hleft, htaken, hplace⟩ | ⟨hgoes, outcome, htaken⟩
  · rw [hleft]
    exact ⟨nofun, fun _ => ⟨outcomes, hmore.le, htaken, Or.inr hplace⟩⟩
  · have hlength : (outcomes ++ [outcome]).length = outcomes.length + 1 := List.length_append
    have hcount' := htaken.length_outcomes
    have hoff := htaken.rxOff
    rw [hlength] at hcount' hoff
    rw [hgoes, htail, hoff]
    refine ⟨fun hagain => ?_, fun hend => ?_⟩
    · simp only [Bool.not_false, Bool.true_and, bne_iff_ne] at hagain
      have hne : outcomes.length + 1 ≠ frames := by
        rintro rfl
        exact hagain rfl
      refine ⟨⟨hgoes, outcomes ++ [outcome], ?_, htaken⟩, ?_⟩
      · rw [hlength]
        omega
      · omega
    · simp only [Bool.not_false, Bool.true_and, bne_eq_false_iff_eq] at hend
      have hlast := CopyRx.frameOff_eq_tail hsize hmore hend
      refine ⟨outcomes ++ [outcome], ?_, htaken, Or.inl ?_⟩
      · rw [hlength]
        exact hmore
      · rw [hlength]
        exact hlast

end Taking

/-- The frames up to the tail are taken off in order: each is copied whole into one buffer,
which the user gets or which is put back, or dropped, or left for the next interrupt. -/
theorem zvideo_rx_proc_copy_takes (chan : CopyChannel) (rx : CopyRx) (corrupted : Nat → Bool)
    {frames fuel : Nat} (hready : CopyReady chan rx)
    (htail : rx.zvideo.rxTail = rx.frameOff chan frames 0)
    (hsize : frames * chan.cfg.frame < chan.rxSize) (hfuel : frames ≤ fuel) :
    ∃ rx' outcomes, rx.zvideoRxProcCopy chan.cfg corrupted fuel = some rx' ∧
      outcomes.length ≤ frames ∧ CopyReady chan rx' ∧
      FramesPassed chan rx rx' outcomes.length ∧
      FramesDelivered chan corrupted rx rx' outcomes ∧
      (outcomes.length = frames ∨ LeftInPlace chan rx rx') := by
  have hfirst : Taking chan corrupted rx ⟨rx, rx.zvideo.zchanRx.zchanRxHead, false⟩ [] :=
    ⟨(CopyRx.frameOff_zero hready).symm, framesPassed_zero hready, framesDelivered_nil rx,
      hready.bufAvail⟩
  unfold CopyRx.zvideoRxProcCopy
  dsimp only
  rw [← CopyRx.frameOff_zero hready]
  split
  next hempty =>
    rw [htail] at hempty
    refine ⟨rx, [], rfl, Nat.zero_le _, hready, hfirst.passed, hfirst.delivered, Or.inl ?_⟩
    exact CopyRx.frameOff_eq_tail hsize (Nat.zero_le _) hempty
  next hdata =>
    have hframes : frames ≠ 0 := by
      rintro rfl
      exact hdata htail.symm
    have hround : ∀ l : CopyLoop, Underway chan corrupted rx frames l →
        ∃ next, CopyRx.copyRound chan.cfg corrupted rx.zvideo.rxTail l = some next ∧
          ((!next.returned && next.rxOff != rx.zvideo.rxTail) = true →
            Underway chan corrupted rx frames next ∧
              rx.outcomes.length + frames - 1 - next.rx.outcomes.length <
                rx.outcomes.length + frames - 1 - l.rx.outcomes.length) ∧
          ((!next.returned && next.rxOff != rx.zvideo.rxTail) = false →
            AllTaken chan corrupted rx frames next) := by
      intro l hunderway
      exact hunderway.round hready hsize htail
    have hstart : Underway chan corrupted rx frames
        ⟨rx, rx.zvideo.zchanRx.zchanRxHead, false⟩ :=
      ⟨rfl, [], Nat.pos_of_ne_zero hframes, hfirst⟩
    obtain ⟨l, hloop, outcomes, hle, htaking, hend⟩ := doWhile_total
      (fun l => rx.outcomes.length + frames - 1 - l.rx.outcomes.length) hround hstart
      (show rx.outcomes.length + frames - 1 - rx.outcomes.length < fuel by omega)
    refine ⟨l.rx, outcomes, ?_, hle, htaking.passed.ready hready htaking.bufAvail,
      htaking.passed, htaking.delivered, hend⟩
    rw [CopyRx.frameOff_zero hready, hloop]
    rfl

/-- A channel that has just been started with `bufs`, and has received up to the tail. -/
def CopyRx.started (chan : CopyChannel) (bufs : List Nat) (tailReg : BitVec 32)
    (mem : BufPtr → BitVec 8) : CopyRx where
  zvideo :=
    { VideoState.init.zvideo with
      streaming := true
      bufTotal := bufs.length
      bufAvail := bufs.length
      bufList := bufs
      zchanRx := zchanInitRxTbl chan.pdtEntries ZCHAN_BUF_SIZE
      zchanRxBufsz := ZCHAN_BUF_SIZE
      rxTailReg := tailReg }
  rxHeadReg := 0
  mem := mem
  bufMem := fun _ _ => 0
  payload := fun _ => 0
  doneList := []
  sequence := 0
  statsRx := 0
  statsRxDrop := 0
  statsNoVideoBuf := 0
  outcomes := []
  resets := []

theorem copyReady_started {chan : CopyChannel} (htables : 0 < chan.pdtEntries)
    (bufs : List Nat) (tailReg : BitVec 32) (mem : BufPtr → BitVec 8) :
    CopyReady chan (.started chan bufs tailReg mem) :=
  ⟨rfl, rfl, Nat.mul_pos (Nat.mul_pos htables (by decide)) (by decide), Nat.dvd_zero _, rfl,
    rfl⟩

def yuyvChannel : CopyChannel := ⟨.V4L2_PIX_FMT_YUYV, false, 4, by decide⟩

def twoFrames : CopyRx := .started yuyvChannel [0] 8298496 fun _ => 0

theorem zvideo_rx_proc_copy_takes_two :
    ∃ rx' outcomes, twoFrames.zvideoRxProcCopy yuyvChannel.cfg (fun _ => false) 2 = some rx' ∧
      outcomes.length ≤ 2 ∧ CopyReady yuyvChannel rx' ∧
      FramesPassed yuyvChannel twoFrames rx' outcomes.length ∧
      FramesDelivered yuyvChannel (fun _ => false) twoFrames rx' outcomes ∧
      (outcomes.length = 2 ∨ LeftInPlace yuyvChannel twoFrames rx') :=
  zvideo_rx_proc_copy_takes yuyvChannel twoFrames (fun _ => false)
    (copyReady_started (by decide) [0] 8298496 fun _ => 0) (by decide) (by decide) le_rfl

end ApolloContrib.Video
