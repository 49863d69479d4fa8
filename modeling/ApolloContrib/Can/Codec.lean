import ApolloContrib.Can.Msg

namespace ApolloContrib.Can

open ApolloContrib.Library

theorem fls_CMSG_ID_EID_MASK : fls CMSG_ID_EID_MASK = 18 := by decide

theorem getLsbD_CMSG_ID_EID_MASK (i : Nat) :
    CMSG_ID_EID_MASK.getLsbD i = decide (i < 18) :=
  getLsbD_lowMask (n := 32) (k := 18) (by omega) i

theorem getLsbD_CMSG_ID_SID_MASK (i : Nat) :
    CMSG_ID_SID_MASK.getLsbD i = decide (i < 11) :=
  getLsbD_lowMask (n := 32) (k := 11) (by omega) i

theorem getLsbD_CMSG_LEN_MASK (i : Nat) :
    CMSG_LEN_MASK.getLsbD i = decide (i < 4) :=
  getLsbD_lowMask (n := 32) (k := 4) (by omega) i

theorem getLsbD_BCAN_EXTENDED_FRAME (i : Nat) :
    BCAN_EXTENDED_FRAME.getLsbD i = decide (i = 29) := by
  have hframe : BCAN_EXTENDED_FRAME = BitVec.twoPow 32 29 := by decide
  rw [hframe, BitVec.getLsbD_twoPow]
  by_cases hi : i = 29
  · simp [hi]
  · simp [hi, Ne.symm hi]

theorem isExtended_iff (m : Msg) :
    m.isExtended ↔ m.bcanMsgId.getLsbD 29 = true := by
  constructor
  · intro hext
    by_contra hbit
    apply hext
    apply BitVec.eq_of_getLsbD_eq
    intro i hi
    rw [BitVec.getLsbD_and, getLsbD_BCAN_EXTENDED_FRAME]
    by_cases h29 : i = 29
    · subst h29; simpa using hbit
    · simp [h29]
  · intro hbit hzero
    have hand : (m.bcanMsgId &&& BCAN_EXTENDED_FRAME).getLsbD 29 = false := by
      rw [hzero]; rfl
    rw [BitVec.getLsbD_and, hbit, getLsbD_BCAN_EXTENDED_FRAME] at hand
    contradiction

/-! What the two conversions leave in each word. -/

theorem bcanToZcan_word0_extended {m : Msg} (hext : m.isExtended) :
    (bcanToZcan m).word0 =
      setBitField (setBitField (setBitField (setBitField (setBitField m.word0
        0 (0 : BitVec 1))
        1 ((m.bcanMsgId &&& CMSG_ID_EID_MASK).setWidth 18))
        19 (1 : BitVec 1)) 20 (1 : BitVec 1))
        21 (((m.bcanMsgId >>> fls CMSG_ID_EID_MASK) &&&
          CMSG_ID_SID_MASK).setWidth 11) := by
  simp only [bcanToZcan, if_pos hext, Msg.setCmsgIdErtr, Msg.setCmsgIdEid,
    Msg.setCmsgIdIde, Msg.setCmsgIdSrtr, Msg.setCmsgIdSid]

theorem bcanToZcan_word0_standard {m : Msg} (hstd : ¬ m.isExtended) :
    (bcanToZcan m).word0 =
      (m.bcanMsgId &&& CMSG_ID_SID_MASK) <<< CMSG_ID_SID_SHIFT := by
  simp only [bcanToZcan, if_neg hstd]

theorem getLsbD_bcanToZcan_word0_extended {m : Msg} (hext : m.isExtended)
    {i : Nat} (hi : i < 32) :
    (bcanToZcan m).word0.getLsbD i =
      if i = 0 then false
      else if i < 19 then m.bcanMsgId.getLsbD (i - 1)
      else if i < 21 then true
      else m.bcanMsgId.getLsbD (i - 3) := by
  rw [bcanToZcan_word0_extended hext]
  simp only [getLsbD_setBitField _ _ _ hi, fls_CMSG_ID_EID_MASK]
  rcases Nat.lt_or_ge i 21 with hlow | hsid
  · interval_cases i <;>
      simp [getLsbD_CMSG_ID_EID_MASK]
  · have hrange : 21 ≤ i ∧ i < 21 + 11 := ⟨hsid, hi⟩
    rw [if_pos hrange, if_neg (by omega), if_neg (by omega),
      if_neg (by omega), BitVec.getLsbD_setWidth, BitVec.getLsbD_and,
      BitVec.getLsbD_ushiftRight, getLsbD_CMSG_ID_SID_MASK]
    have hwidth : i - 21 < 11 := by omega
    have hsource : 18 + (i - 21) = i - 3 := by omega
    simp [hwidth, hsource]

theorem getLsbD_bcanToZcan_word0_standard {m : Msg} (hstd : ¬ m.isExtended)
    {i : Nat} (hi : i < 32) :
    (bcanToZcan m).word0.getLsbD i =
      (decide (21 ≤ i) && m.bcanMsgId.getLsbD (i - 21)) := by
  rw [bcanToZcan_word0_standard hstd, BitVec.getLsbD_shiftLeft,
    BitVec.getLsbD_and, getLsbD_CMSG_ID_SID_MASK, CMSG_ID_SID_SHIFT]
  by_cases hsid : 21 ≤ i
  · have hwidth : i - 21 < 11 := by omega
    simp [hi, hsid, hwidth, Nat.not_lt.mpr hsid]
  · simp [hi, hsid, Nat.not_le.mp hsid]

theorem cmsgIdIde_ne_zero_iff (m : Msg) :
    m.cmsgIdIde ≠ 0 ↔ m.word0.getLsbD 19 = true := by
  have hbit : m.cmsgIdIde.getLsbD 0 = m.word0.getLsbD 19 := by
    rw [Msg.cmsgIdIde, getLsbD_bitField]; simp
  rw [← hbit]
  generalize m.cmsgIdIde = b
  revert b
  decide

theorem getLsbD_zcanToBcan_word0_extended {m : Msg}
    (hide : m.word0.getLsbD 19 = true) {i : Nat} (hi : i < 32) :
    (zcanToBcan m).word0.getLsbD i =
      if i < 18 then m.word0.getLsbD (i + 1)
      else if i < 29 then m.word0.getLsbD (i + 3)
      else decide (i = 29) := by
  have hne : m.cmsgIdIde ≠ 0 := (cmsgIdIde_ne_zero_iff m).mpr hide
  simp only [zcanToBcan, Msg.setBcanMsgId, Msg.setBcanMsgDatalen, hne, ne_eq,
    not_false_eq_true, if_true, BitVec.getLsbD_or, BitVec.getLsbD_shiftLeft,
    BitVec.getLsbD_setWidth, getLsbD_BCAN_EXTENDED_FRAME, Msg.cmsgIdSid,
    Msg.cmsgIdEid, getLsbD_bitField, fls_CMSG_ID_EID_MASK, hi, decide_true,
    Bool.true_and]
  by_cases heid : i < 18
  · simp [heid, Nat.add_comm 1 i, show i ≠ 29 by omega]
  · by_cases hsid : i < 29
    · have hwidth : i - 18 < 11 := by omega
      have hsource : 21 + (i - 18) = i + 3 := by omega
      simp [heid, hsid, hwidth, hsource, show i - 18 < 32 by omega,
        show i ≠ 29 by omega]
    · have hwidth : ¬ i - 18 < 11 := by omega
      simp [heid, hsid, hwidth]

theorem getLsbD_zcanToBcan_word0_standard {m : Msg}
    (hide : m.word0.getLsbD 19 = false) (i : Nat) :
    (zcanToBcan m).word0.getLsbD i = m.word0.getLsbD (i + 21) := by
  have hzero : m.cmsgIdIde = 0 := by
    by_contra hne
    rw [(cmsgIdIde_ne_zero_iff m).mp hne] at hide
    contradiction
  simp [zcanToBcan, Msg.setBcanMsgId, Msg.setBcanMsgDatalen, hzero,
    CMSG_ID_SID_SHIFT, Nat.add_comm]

@[simp] theorem bcanToZcan_word2 (m : Msg) :
    (bcanToZcan m).word2 = byteSwap m.word2 := by
  unfold bcanToZcan
  split <;> rfl

@[simp] theorem bcanToZcan_word3 (m : Msg) :
    (bcanToZcan m).word3 = byteSwap m.word3 := by
  unfold bcanToZcan
  split <;> rfl

theorem bcanToZcan_word1 (m : Msg) :
    (bcanToZcan m).word1 =
      (m.bcanMsgDatalen.setWidth 32 &&& CMSG_LEN_MASK) <<< CMSG_LEN_SHIFT := by
  simp only [bcanToZcan]
  by_cases hext : m.isExtended
  · rw [if_pos hext]
    simp only [Msg.setCmsgIdErtr, Msg.setCmsgIdEid, Msg.setCmsgIdIde,
      Msg.setCmsgIdSrtr, Msg.setCmsgIdSid, Msg.bcanMsgDatalen]
  · rw [if_neg hext]
    simp only [Msg.bcanMsgDatalen]

@[simp] theorem zcanToBcan_word2 (m : Msg) :
    (zcanToBcan m).word2 = byteSwap m.word2 := rfl

@[simp] theorem zcanToBcan_word3 (m : Msg) :
    (zcanToBcan m).word3 = byteSwap m.word3 := rfl

theorem zcanToBcan_word1 (m : Msg) :
    (zcanToBcan m).word1 =
      setBitField m.word1 0 ((m.word1 >>> CMSG_LEN_SHIFT).setWidth 8) := rfl


/-- The id `zcan_to_bcan` gives back for an arbitrary one. -/
def normalId (id : BitVec 32) : BitVec 32 :=
  if id &&& BCAN_EXTENDED_FRAME ≠ 0 then id &&& 0x3FFFFFFF#32
  else id &&& CMSG_ID_SID_MASK

/-- A standard id (bit 29 clear, at most `0x7FF`) or an extended one (bit 29 set,
bits 30 and 31 clear). -/
def IsCanId (id : BitVec 32) : Prop :=
  (id &&& BCAN_EXTENDED_FRAME = 0 ∧ id ≤ 0x7FF#32) ∨
    (id &&& BCAN_EXTENDED_FRAME ≠ 0 ∧ bitField id 30 2 = 0)

/-- A data frame as the CAN IP writes it: no remote request, and the extended
fields all zero in a standard frame. -/
structure IsDataFrame (c : Msg) : Prop where
  rsvd : c.cmsgLenRsvd = 0
  ertr : c.cmsgIdErtr = 0
  format : (c.cmsgIdIde = 0 ∧ c.cmsgIdSrtr = 0 ∧ c.cmsgIdEid = 0) ∨
    (c.cmsgIdIde = 1 ∧ c.cmsgIdSrtr = 1)

instance (id : BitVec 32) : Decidable (IsCanId id) :=
  inferInstanceAs (Decidable (_ ∨ _))

instance (c : Msg) : Decidable (IsDataFrame c) :=
  decidable_of_iff (c.cmsgLenRsvd = 0 ∧ c.cmsgIdErtr = 0 ∧
      ((c.cmsgIdIde = 0 ∧ c.cmsgIdSrtr = 0 ∧ c.cmsgIdEid = 0) ∨
        (c.cmsgIdIde = 1 ∧ c.cmsgIdSrtr = 1)))
    ⟨fun h => ⟨h.1, h.2.1, h.2.2⟩, fun h => ⟨h.rsvd, h.ertr, h.format⟩⟩

theorem getLsbD_low30 (i : Nat) :
    (0x3FFFFFFF#32).getLsbD i = decide (i < 30) :=
  getLsbD_lowMask (n := 32) (k := 30) (by omega) i

theorem zcanToBcan_bcanToZcan_id (m : Msg) :
    (zcanToBcan (bcanToZcan m)).bcanMsgId = normalId m.bcanMsgId := by
  by_cases hext : m.isExtended
  · have hide : (bcanToZcan m).word0.getLsbD 19 = true := by
      rw [getLsbD_bcanToZcan_word0_extended hext (by omega)]; rfl
    have hbit29 := (isExtended_iff m).mp hext
    rw [normalId, if_pos (show m.bcanMsgId &&& BCAN_EXTENDED_FRAME ≠ 0 from hext)]
    apply BitVec.eq_of_getLsbD_eq
    intro i hi
    rw [Msg.bcanMsgId, getLsbD_zcanToBcan_word0_extended hide hi,
      BitVec.getLsbD_and, getLsbD_low30]
    rcases Nat.lt_trichotomy i 29 with hlow | rfl | hhigh
    · by_cases heid : i < 18
      · rw [if_pos heid, getLsbD_bcanToZcan_word0_extended hext (by omega),
          if_neg (by omega), if_pos (by omega)]
        simp [show i < 30 by omega]
      · rw [if_neg heid, if_pos hlow,
          getLsbD_bcanToZcan_word0_extended hext (by omega),
          if_neg (by omega), if_neg (by omega), if_neg (by omega)]
        simp [show i < 30 by omega]
    · simp [hbit29]
    · rw [if_neg (by omega), if_neg (by omega)]
      simp [show ¬ i < 30 by omega, show i ≠ 29 by omega]
  · have hide : (bcanToZcan m).word0.getLsbD 19 = false := by
      rw [getLsbD_bcanToZcan_word0_standard hext (by omega)]; rfl
    rw [normalId, if_neg (show ¬ m.bcanMsgId &&& BCAN_EXTENDED_FRAME ≠ 0 from hext)]
    apply BitVec.eq_of_getLsbD_eq
    intro i hi
    rw [Msg.bcanMsgId, getLsbD_zcanToBcan_word0_standard hide,
      BitVec.getLsbD_and, getLsbD_CMSG_ID_SID_MASK]
    by_cases hsid : i < 11
    · rw [getLsbD_bcanToZcan_word0_standard hext (by omega)]
      simp [hsid]
    · rw [BitVec.getLsbD_of_ge _ _ (by omega)]
      simp [hsid]

theorem zcanToBcan_bcanToZcan_datalen (m : Msg) :
    (zcanToBcan (bcanToZcan m)).bcanMsgDatalen = m.bcanMsgDatalen &&& 0xF#8 := by
  rw [Msg.bcanMsgDatalen, zcanToBcan_word1, bitField_setBitField _ _ _ (by omega),
    bcanToZcan_word1]
  have hmask : CMSG_LEN_MASK = (0xF#8).setWidth 32 := by decide
  generalize m.bcanMsgDatalen = len
  rw [hmask]
  revert len
  decide +kernel

theorem zcanToBcan_bcanToZcan_data (m : Msg) (i : Fin 8) :
    (zcanToBcan (bcanToZcan m)).bcanMsgData i = m.bcanMsgData i := by
  simp [Msg.bcanMsgData]

theorem normalId_of_isCanId {id : BitVec 32} (hid : IsCanId id) :
    normalId id = id := by
  rcases hid with ⟨hstd, hle⟩ | ⟨hext, htop⟩
  · rw [normalId, if_neg (by simpa using hstd)]
    have hlt : id.toNat < 2 ^ 11 := by
      have : id.toNat ≤ 0x7FF := hle
      omega
    apply BitVec.eq_of_getLsbD_eq
    intro i hi
    rw [BitVec.getLsbD_and, getLsbD_CMSG_ID_SID_MASK]
    by_cases hsid : i < 11
    · simp [hsid]
    · have hbit : id.getLsbD i = false := by
        apply Nat.testBit_lt_two_pow
        exact Nat.lt_of_lt_of_le hlt (Nat.pow_le_pow_right (by omega) (by omega))
      simp [hsid, hbit]
  · rw [normalId, if_pos hext]
    apply BitVec.eq_of_getLsbD_eq
    intro i hi
    rw [BitVec.getLsbD_and, getLsbD_low30]
    by_cases hlow : i < 30
    · simp [hlow]
    · have hbit : id.getLsbD i = false := by
        have hfield := getLsbD_of_bitField_eq htop (i := i - 30) (by omega)
        rw [show 30 + (i - 30) = i by omega] at hfield
        simpa using hfield
      simp [hlow, hbit]

theorem and_15_of_le {len : BitVec 8} (hle : len ≤ 15#8) : len &&& 0xF#8 = len := by
  revert len
  decide

theorem bcanToZcan_zcanToBcan_word1 {c : Msg} (hrsvd : c.cmsgLenRsvd = 0) :
    (bcanToZcan (zcanToBcan c)).word1 = c.word1 := by
  have hlow : ∀ i, i < 28 → c.word1.getLsbD i = false := by
    intro i hi
    have hfield := getLsbD_of_bitField_eq hrsvd hi
    rw [Nat.zero_add] at hfield
    exact hfield.trans BitVec.getLsbD_zero
  rw [bcanToZcan_word1, Msg.bcanMsgDatalen, zcanToBcan_word1,
    bitField_setBitField _ _ _ (by omega)]
  apply BitVec.eq_of_getLsbD_eq
  intro i hi
  rw [BitVec.getLsbD_shiftLeft, BitVec.getLsbD_and, getLsbD_CMSG_LEN_MASK,
    BitVec.getLsbD_setWidth, BitVec.getLsbD_setWidth,
    BitVec.getLsbD_ushiftRight]
  simp only [CMSG_LEN_SHIFT]
  by_cases hlen : i < 28
  · simp [hlen, hlow i hlen]
  · have hsource : 28 + (i - 28) = i := by omega
    simp [hlen, hi, hsource, show i - 28 < 4 by omega,
      show i - 28 < 8 by omega, show i - 28 < 32 by omega]

theorem bcanToZcan_zcanToBcan_word0 {c : Msg} (hframe : IsDataFrame c) :
    (bcanToZcan (zcanToBcan c)).word0 = c.word0 := by
  have hertr : c.word0.getLsbD 0 = false :=
    getLsbD_of_bitField_eq hframe.ertr (i := 0) (by omega)
  rcases hframe.format with ⟨hide, hsrtr, heid⟩ | ⟨hide, hsrtr⟩
  · have hide19 : c.word0.getLsbD 19 = false :=
      getLsbD_of_bitField_eq hide (i := 0) (by omega)
    have hsrtr20 : c.word0.getLsbD 20 = false :=
      getLsbD_of_bitField_eq hsrtr (i := 0) (by omega)
    have heid1 : ∀ i, i < 18 → c.word0.getLsbD (1 + i) = false := by
      intro i hi
      exact (getLsbD_of_bitField_eq heid hi).trans BitVec.getLsbD_zero
    have hstd : ¬ (zcanToBcan c).isExtended := by
      rw [isExtended_iff, Msg.bcanMsgId, getLsbD_zcanToBcan_word0_standard hide19,
        BitVec.getLsbD_of_ge _ _ (by omega)]
      simp
    apply BitVec.eq_of_getLsbD_eq
    intro i hi
    rw [getLsbD_bcanToZcan_word0_standard hstd hi, Msg.bcanMsgId,
      getLsbD_zcanToBcan_word0_standard hide19]
    by_cases hsid : 21 ≤ i
    · simp [hsid]
    · have hzero : c.word0.getLsbD i = false := by
        rcases (by omega : i = 0 ∨ (1 ≤ i ∧ i < 19) ∨ i = 19 ∨ i = 20) with
          rfl | ⟨hpos, hlt⟩ | rfl | rfl
        · exact hertr
        · have := heid1 (i - 1) (by omega)
          rwa [show 1 + (i - 1) = i by omega] at this
        · exact hide19
        · exact hsrtr20
      simp [hsid, hzero]
  · have hide19 : c.word0.getLsbD 19 = true :=
      getLsbD_of_bitField_eq hide (i := 0) (by omega)
    have hsrtr20 : c.word0.getLsbD 20 = true :=
      getLsbD_of_bitField_eq hsrtr (i := 0) (by omega)
    have hext : (zcanToBcan c).isExtended := by
      rw [isExtended_iff, Msg.bcanMsgId,
        getLsbD_zcanToBcan_word0_extended hide19 (by omega)]
      rfl
    apply BitVec.eq_of_getLsbD_eq
    intro i hi
    rw [getLsbD_bcanToZcan_word0_extended hext hi]
    rcases (by omega : i = 0 ∨ (1 ≤ i ∧ i < 19) ∨ (i = 19 ∨ i = 20) ∨ 21 ≤ i) with
      rfl | ⟨hpos, hlt⟩ | hflag | hsid
    · exact hertr.symm
    · rw [if_neg (by omega), if_pos hlt, Msg.bcanMsgId,
        getLsbD_zcanToBcan_word0_extended hide19 (by omega), if_pos (by omega)]
      rw [show i - 1 + 1 = i by omega]
    · rw [if_neg (by omega), if_neg (by omega), if_pos (by omega)]
      rcases hflag with rfl | rfl
      · exact hide19.symm
      · exact hsrtr20.symm
    · rw [if_neg (by omega), if_neg (by omega), if_neg (by omega), Msg.bcanMsgId,
        getLsbD_zcanToBcan_word0_extended hide19 (by omega), if_neg (by omega),
        if_pos (by omega)]
      rw [show i - 3 + 3 = i by omega]

theorem Msg.ext_words {m m' : Msg} (h0 : m.word0 = m'.word0)
    (h1 : m.word1 = m'.word1) (h2 : m.word2 = m'.word2) (h3 : m.word3 = m'.word3)
    (hsec : m.tvSec = m'.tvSec) (husec : m.tvUsec = m'.tvUsec) : m = m' := by
  cases m; cases m'
  simp_all

theorem bcanToZcan_tv (m : Msg) :
    (bcanToZcan m).tvSec = m.tvSec ∧ (bcanToZcan m).tvUsec = m.tvUsec := by
  unfold bcanToZcan
  split <;> exact ⟨rfl, rfl⟩

theorem bcanToZcan_zcanToBcan {c : Msg} (hframe : IsDataFrame c) :
    bcanToZcan (zcanToBcan c) = c := by
  apply Msg.ext_words
  · exact bcanToZcan_zcanToBcan_word0 hframe
  · exact bcanToZcan_zcanToBcan_word1 hframe.rsvd
  · simp
  · simp
  · exact (bcanToZcan_tv _).1
  · exact (bcanToZcan_tv _).2

/-- The codec is exact on the ids CAN has, normalises every other message, and
gives every hardware data frame back. -/
theorem codec_roundTrip :
    (∀ m : Msg, IsCanId m.bcanMsgId → m.bcanMsgDatalen ≤ 15#8 →
      (zcanToBcan (bcanToZcan m)).bcanMsgId = m.bcanMsgId ∧
      (zcanToBcan (bcanToZcan m)).bcanMsgDatalen = m.bcanMsgDatalen ∧
      ∀ i, (zcanToBcan (bcanToZcan m)).bcanMsgData i = m.bcanMsgData i) ∧
    (∀ m : Msg,
      (zcanToBcan (bcanToZcan m)).bcanMsgId = normalId m.bcanMsgId ∧
      (zcanToBcan (bcanToZcan m)).bcanMsgDatalen = m.bcanMsgDatalen &&& 0xF#8 ∧
      ∀ i, (zcanToBcan (bcanToZcan m)).bcanMsgData i = m.bcanMsgData i) ∧
    (∀ c : Msg, IsDataFrame c → bcanToZcan (zcanToBcan c) = c) := by
  refine ⟨fun m hid hlen => ⟨?_, ?_, zcanToBcan_bcanToZcan_data m⟩,
    fun m => ⟨zcanToBcan_bcanToZcan_id m, zcanToBcan_bcanToZcan_datalen m,
      zcanToBcan_bcanToZcan_data m⟩,
    fun c hframe => bcanToZcan_zcanToBcan hframe⟩
  · rw [zcanToBcan_bcanToZcan_id, normalId_of_isCanId hid]
  · rw [zcanToBcan_bcanToZcan_datalen, and_15_of_le hlen]

/-- The round trips at a full extended message and at the frame encoding it. -/
theorem codec_roundTrip_extended :
    let m : Msg := ⟨0x3ABCDEF1#32, 0x8#32, 0x04030201#32, 0x08070605#32, 0, 0⟩
    ((zcanToBcan (bcanToZcan m)).bcanMsgId = 0x3ABCDEF1#32 ∧
      (zcanToBcan (bcanToZcan m)).bcanMsgDatalen = 8#8) ∧
    bcanToZcan (zcanToBcan (bcanToZcan m)) = bcanToZcan m := by
  intro m
  have hdecoded := codec_roundTrip.1 m (by decide) (by decide)
  exact ⟨⟨hdecoded.1, hdecoded.2.1⟩, codec_roundTrip.2.2 _ (by decide)⟩

end ApolloContrib.Can
