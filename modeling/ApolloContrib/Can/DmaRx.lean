import ApolloContrib.Can.RxQueue
import ApolloContrib.Chan.RxTable
import ApolloContrib.Library.Run
import ApolloContrib.Library.While

namespace ApolloContrib.Can

open ApolloContrib.Library
open ApolloContrib.Chan

/-! CAN receive by DMA: `zcan_dma_rx_proc`, and the hardware that fills the
receive table. -/

def NSEC_PER_USEC : BitVec 64 := 1000

/-- The device flag and the module parameter that choose the message size and
the time stamp. -/
structure DmaConfig where
  zcanRxHwTs : Bool
  zynqDisableCanHwTs : Bool

/-- The size of a `bcan_msg_t` or of a `zcan_msg_t`. -/
def DmaConfig.msgsz (cfg : DmaConfig) : Nat := if cfg.zcanRxHwTs then 32 else 16

abbrev Memory := BufPtr → BitVec 8

structure Timespec where
  tvSec : BitVec 64
  tvNsec : BitVec 64

def le32 (src : Nat → BitVec 8) (i : Nat) : BitVec 32 :=
  src (i + 3) ++ src (i + 2) ++ src (i + 1) ++ src i

def le64 (src : Nat → BitVec 8) (i : Nat) : BitVec 64 :=
  le32 src (i + 4) ++ le32 src i

/-- The ring slot after the `memcpy` from `src` and the software time stamp. -/
def dmaMsg (cfg : DmaConfig) (src : Nat → BitVec 8) (now : Timespec) : Msg :=
  let swStamp := !cfg.zcanRxHwTs || cfg.zynqDisableCanHwTs
  { word0 := le32 src 0
    word1 := le32 src 4
    word2 := le32 src 8
    word3 := le32 src 12
    tvSec := if swStamp then now.tvSec else le64 src 16
    tvUsec := if swStamp then now.tvNsec.sdiv NSEC_PER_USEC else le64 src 24 }

/-- What `zcan_dma_rx_proc` works on. `handed` and `reads` record all messages
handed to the software ring and the offset and pointer each was read at. -/
structure DmaRx where
  zchanRx : ZchanRxTbl
  zcan : ZynqCanRx
  handed : List Msg
  reads : List (Nat × BufPtr)

structure DmaLoop where
  rxOff : Nat
  msg : BufPtr
  zcan : ZynqCanRx
  handed : List Msg
  reads : List (Nat × BufPtr)

section Proc

variable (cfg : DmaConfig) (clock : Nat → Timespec) (mem : Nat → Memory)

/-- One round: `mem` and `clock` give the memory and the time at the `n`-th
message handed over. -/
def dmaRxRound (zchanRx : ZchanRxTbl) (rxHead : Nat) (l : DmaLoop) : DmaLoop :=
  let msg :=
    if l.rxOff = rxHead ∨ zchanRx.ZCHAN_RX_BUF_OFFSET l.rxOff = 0 then
      zchanRx.zchanRxOff2addr l.rxOff
    else l.msg.add cfg.msgsz
  let bmsg := dmaMsg cfg (fun i => mem l.handed.length (msg.add i))
    (clock l.handed.length)
  { rxOff := (l.rxOff + cfg.msgsz) &&& (zchanRx.zchanRxSize - 1)
    msg := msg
    zcan := l.zcan.rxPush bmsg
    handed := l.handed ++ [bmsg]
    reads := l.reads ++ [(l.rxOff, msg)] }

def zcanDmaRxProc (fuel : Nat) (rx : DmaRx) (tailReg : BitVec 32) :
    Option DmaRx :=
  let rxTail := (tailReg &&& ~~~(BitVec.ofNat 32 (cfg.msgsz - 1))).toNat
  let rxHead := rx.zchanRx.zchanRxHead
  if rxHead ≥ rx.zchanRx.zchanRxSize ∨ rxTail ≥ rx.zchanRx.zchanRxSize then
    some rx
  else
    let zchanRx := { rx.zchanRx with zchanRxTail := rxTail }
    (whileLoop (fun l => l.rxOff != rxTail)
      (dmaRxRound cfg clock mem zchanRx rxHead) fuel
      { rxOff := rxHead
        msg := ⟨0, 0, 0⟩
        zcan := rx.zcan
        handed := rx.handed
        reads := rx.reads }).map fun l =>
      { zchanRx := { zchanRx with zchanRxHead := l.rxOff }
        zcan := l.zcan
        handed := l.handed
        reads := l.reads }

end Proc

/-- The driver, the number of bytes the hardware has written, and how many of
them the last accepted tail covers. -/
structure DmaState where
  rx : DmaRx
  written : Nat
  seen : Nat

/-- `reported` is the number of bytes that the tail register stands for. -/
inductive DmaEvent where
  | write (bytes : Nat)
  | interrupt (tailReg : BitVec 32) (reported : Nat) (mem : Nat → Memory)

def dmaStep (cfg : DmaConfig) (clock : Nat → Timespec) (s : DmaState) :
    DmaEvent → Option DmaState
  | .write bytes => some { s with written := s.written + bytes }
  | .interrupt tailReg reported mem =>
      (zcanDmaRxProc cfg clock mem s.rx.zchanRx.zchanRxSize s.rx tailReg).map
        fun rx =>
          { s with
            rx := rx
            seen :=
              if tailReg.toNat < s.rx.zchanRx.zchanRxSize then reported
              else s.seen }

def DmaState.init (zcan : ZynqCanRx) : DmaState where
  rx := { zchanRx := canRxTbl, zcan := zcan, handed := [], reads := [] }
  written := 0
  seen := 0

def DmaState.room (s : DmaState) : Nat :=
  s.rx.zchanRx.ZCHAN_RX_FREE_SIZE s.rx.zchanRx.zchanRxHead
    (s.written % s.rx.zchanRx.zchanRxSize)

/-- After `now` bytes the memory shows the last table full of them. -/
def Shows (stream : Nat → BitVec 8) (size now : Nat) (mem : Memory) : Prop :=
  ∀ a, a < now → now ≤ a + size → mem (hwAddr (a % size)) = stream a

/-- The hardware never laps the published head. An interrupt reads the offset of
some byte written since the last one, or a value outside the table, and the
hardware goes on writing while the driver copies. -/
def HardwareOk (stream : Nat → BitVec 8) (s : DmaState) : DmaEvent → Prop
  | .write bytes => bytes < s.room
  | .interrupt tailReg reported mem =>
      (s.seen ≤ reported ∧ reported ≤ s.written ∧
          tailReg.toNat = reported % s.rx.zchanRx.zchanRxSize ∨
        s.rx.zchanRx.zchanRxSize ≤ tailReg.toNat) ∧
      ∀ n, ∃ more, more < s.room ∧
        Shows stream s.rx.zchanRx.zchanRxSize (s.written + more) (mem n)

def streamMsg (cfg : DmaConfig) (clock : Nat → Timespec)
    (stream : Nat → BitVec 8) (k : Nat) : Msg :=
  dmaMsg cfg (fun i => stream (k * cfg.msgsz + i)) (clock k)

/-- All complete messages that the last accepted tail covers have been handed
over, each once and in order, from the address of their offset. -/
structure DmaSpec (cfg : DmaConfig) (clock : Nat → Timespec)
    (stream : Nat → BitVec 8) (zcan : ZynqCanRx) (s : DmaState) : Prop where
  handed : s.rx.handed =
    (List.range (s.seen / cfg.msgsz)).map (streamMsg cfg clock stream)
  ring : s.rx.zcan = s.rx.handed.foldl ZynqCanRx.rxPush zcan
  pointers : ∀ read ∈ s.rx.reads,
    read.2 = s.rx.zchanRx.zchanRxOff2addr read.1 ∧
      read.2.offset + cfg.msgsz ≤ ZCHAN_BUF_SIZE

/-! The table in messages: `slots` of them, none across two buffers. -/

section Geometry

variable (cfg : DmaConfig)

theorem DmaConfig.msgsz_cases : cfg.msgsz = 16 ∨ cfg.msgsz = 32 := by
  unfold msgsz
  cases cfg.zcanRxHwTs
  · exact Or.inl rfl
  · exact Or.inr rfl

def DmaConfig.slots : Nat := canRxTbl.zchanRxSize / cfg.msgsz

theorem DmaConfig.msgsz_mul_slots :
    cfg.msgsz * cfg.slots = canRxTbl.zchanRxSize := by
  unfold slots
  rw [canRxTbl_size]
  rcases cfg.msgsz_cases with hsz | hsz <;> rw [hsz] <;> decide

theorem DmaConfig.slots_pos : 0 < cfg.slots := by
  unfold slots
  rw [canRxTbl_size]
  rcases cfg.msgsz_cases with hsz | hsz <;> rw [hsz] <;> decide

theorem DmaConfig.msgsz_pos : 0 < cfg.msgsz := by
  rcases cfg.msgsz_cases with hsz | hsz <;> rw [hsz] <;> decide

def DmaConfig.slotOff (k : Nat) : Nat := cfg.msgsz * (k % cfg.slots)

theorem DmaConfig.slotOff_lt (k : Nat) : cfg.slotOff k < canRxTbl.zchanRxSize := by
  rw [← cfg.msgsz_mul_slots]
  exact Nat.mul_lt_mul_of_pos_left (Nat.mod_lt k cfg.slots_pos) cfg.msgsz_pos

theorem DmaConfig.slotOff_eq (k : Nat) :
    cfg.slotOff k = cfg.msgsz * k % canRxTbl.zchanRxSize := by
  rw [← cfg.msgsz_mul_slots, Nat.mul_mod_mul_left]
  rfl

theorem DmaConfig.slotOff_next (k : Nat) :
    (cfg.slotOff k + cfg.msgsz) &&& (canRxTbl.zchanRxSize - 1) =
      cfg.slotOff (k + 1) := by
  have hmask : ∀ x, x &&& (canRxTbl.zchanRxSize - 1) = x % canRxTbl.zchanRxSize :=
    fun x => Nat.and_two_pow_sub_one_eq_mod x 21
  rw [hmask, cfg.slotOff_eq, cfg.slotOff_eq, Nat.mod_add_mod, Nat.mul_succ]

theorem DmaConfig.slotOff_inj {k target : Nat} (hle : k ≤ target)
    (hless : target < k + cfg.slots) :
    cfg.slotOff k = cfg.slotOff target ↔ k = target := by
  constructor
  · intro heq
    have hmod : k % cfg.slots = target % cfg.slots :=
      Nat.eq_of_mul_eq_mul_left cfg.msgsz_pos heq
    have hdvd := (Nat.modEq_iff_dvd' hle).mp hmod
    have hzero := Nat.eq_zero_of_dvd_of_lt hdvd (by omega)
    omega
  · rintro rfl
    rfl

theorem DmaConfig.slotOff_in_buffer (k : Nat) :
    cfg.slotOff k % ZCHAN_BUF_SIZE + cfg.msgsz ≤ ZCHAN_BUF_SIZE := by
  unfold slotOff ZCHAN_BUF_SIZE
  rcases cfg.msgsz_cases with hsz | hsz <;> rw [hsz] <;> omega

theorem canRxTbl_off2addr_slot (k : Nat) :
    canRxTbl.zchanRxOff2addr (cfg.slotOff k) = hwAddr (cfg.slotOff k) :=
  canRxTbl_off2addr (cfg.slotOff_lt k)

theorem hwAddr_slotOff_add (k : Nat) {i : Nat} (hi : i < cfg.msgsz) :
    (hwAddr (cfg.slotOff k)).add i =
      hwAddr ((cfg.msgsz * k + i) % canRxTbl.zchanRxSize) := by
  have hin := cfg.slotOff_in_buffer k
  have hlt := cfg.slotOff_lt k
  have hoff : (cfg.msgsz * k + i) % canRxTbl.zchanRxSize = cfg.slotOff k + i := by
    rw [Nat.add_mod, ← cfg.slotOff_eq, Nat.add_mod_mod, Nat.mod_eq_of_lt]
    rw [canRxTbl_size] at hlt ⊢
    unfold ZCHAN_BUF_SIZE at hin
    omega
  rw [hoff]
  exact hwAddr_add (by omega)

theorem hwAddr_next (k : Nat)
    (hsame : cfg.slotOff (k + 1) % ZCHAN_BUF_SIZE ≠ 0) :
    (hwAddr (cfg.slotOff k)).add cfg.msgsz = hwAddr (cfg.slotOff (k + 1)) := by
  have hnext : cfg.slotOff (k + 1) = cfg.slotOff k + cfg.msgsz := by
    have hlt := cfg.slotOff_lt k
    rw [cfg.slotOff_eq (k + 1), Nat.mul_succ, Nat.add_mod, ← cfg.slotOff_eq,
      Nat.add_mod_mod]
    rcases Nat.lt_or_ge (cfg.slotOff k + cfg.msgsz) canRxTbl.zchanRxSize with
      hin | hwrap
    · exact Nat.mod_eq_of_lt hin
    · -- the next message is the first of the table
      exfalso
      apply hsame
      have hin := cfg.slotOff_in_buffer k
      rw [← cfg.slotOff_next]
      have hend : cfg.slotOff k + cfg.msgsz = canRxTbl.zchanRxSize := by
        rw [canRxTbl_size] at *
        unfold ZCHAN_BUF_SIZE at hin
        omega
      rw [hend]
      rfl
  have hin := cfg.slotOff_in_buffer k
  rw [hnext] at hsame ⊢
  apply hwAddr_add
  unfold ZCHAN_BUF_SIZE at *
  omega

end Geometry

theorem dmaMsg_congr (cfg : DmaConfig) {src src' : Nat → BitVec 8} (now : Timespec)
    (hsrc : ∀ i < cfg.msgsz, src i = src' i) :
    dmaMsg cfg src now = dmaMsg cfg src' now := by
  have hle : 16 ≤ cfg.msgsz := by
    rcases cfg.msgsz_cases with hsz | hsz <;> omega
  have hword : ∀ i, i + 4 ≤ cfg.msgsz → le32 src i = le32 src' i := by
    intro i hi
    unfold le32
    rw [hsrc i (by omega), hsrc (i + 1) (by omega), hsrc (i + 2) (by omega),
      hsrc (i + 3) (by omega)]
  unfold dmaMsg
  rw [hword 0 (by omega), hword 4 (by omega), hword 8 (by omega),
    hword 12 (by omega)]
  cases hts : cfg.zcanRxHwTs with
  | false => simp only [Bool.not_false, Bool.true_or, if_true]
  | true =>
      have hsz : cfg.msgsz = 32 := by rw [DmaConfig.msgsz, hts, if_pos rfl]
      unfold le64
      rw [hword 16 (by omega), hword 20 (by omega), hword 24 (by omega),
        hword 28 (by omega)]

def canRxTblAt (head tail : Nat) : ZchanRxTbl :=
  { canRxTbl with zchanRxHead := head, zchanRxTail := tail }

section Loop

variable (cfg : DmaConfig) (clock : Nat → Timespec) (stream : Nat → BitVec 8)
  (mem : Nat → Memory) (base : ZynqCanRx)

/-- The loop has handed over the messages `first` to `l.handed.length`. -/
structure LoopInv (first target : Nat) (l : DmaLoop) : Prop where
  started : first ≤ l.handed.length
  notPast : l.handed.length ≤ target
  rxOff : l.rxOff = cfg.slotOff l.handed.length
  msg : ∀ k, first ≤ k → l.handed.length = k + 1 → l.msg = hwAddr (cfg.slotOff k)
  handed : l.handed =
    (List.range l.handed.length).map (streamMsg cfg clock stream)
  ring : l.zcan = l.handed.foldl ZynqCanRx.rxPush base
  pointers : ∀ read ∈ l.reads, read.2 = canRxTbl.zchanRxOff2addr read.1 ∧
    read.2.offset + cfg.msgsz ≤ ZCHAN_BUF_SIZE

variable {cfg clock stream mem base}

theorem dmaRxRound_msg {first target head tail : Nat} {l : DmaLoop}
    (hinv : LoopInv cfg clock stream base first target l)
    (hhead : head = cfg.slotOff first) :
    (dmaRxRound cfg clock mem (canRxTblAt head tail) head l).msg =
      hwAddr (cfg.slotOff l.handed.length) := by
  change (if l.rxOff = head ∨ canRxTbl.ZCHAN_RX_BUF_OFFSET l.rxOff = 0 then
    canRxTbl.zchanRxOff2addr l.rxOff else l.msg.add cfg.msgsz) = _
  split
  · rw [hinv.rxOff, canRxTbl_off2addr_slot]
  · rename_i hsame
    obtain ⟨hne, hoff⟩ := not_or.mp hsame
    have hstarted := hinv.started
    obtain ⟨k, hk⟩ : ∃ k, l.handed.length = k + 1 := by
      apply Nat.exists_eq_succ_of_ne_zero
      intro hzero
      apply hne
      rw [hinv.rxOff, hhead, show first = l.handed.length by omega]
    have hfirst : first ≤ k := by
      rcases Nat.lt_or_ge k first with hless | hge
      · exfalso
        apply hne
        rw [hinv.rxOff, hhead, show first = l.handed.length by omega]
      · exact hge
    rw [hinv.rxOff, canRxTbl_bufOffset, hk] at hoff
    rw [hinv.msg k hfirst hk, hk]
    exact hwAddr_next cfg k hoff

theorem streamMsg_of_shows {first target written room k : Nat}
    (hfirst : first ≤ k) (hk : k < target) (htarget : target * cfg.msgsz ≤ written)
    (hroom : written + room ≤ first * cfg.msgsz + canRxTbl.zchanRxSize)
    (hmem : ∃ more, more < room ∧
      Shows stream canRxTbl.zchanRxSize (written + more) (mem k)) :
    dmaMsg cfg (fun i => mem k ((hwAddr (cfg.slotOff k)).add i)) (clock k) =
      streamMsg cfg clock stream k := by
  obtain ⟨more, hmore, hshows⟩ := hmem
  apply dmaMsg_congr
  intro i hi
  have hnext : (k + 1) * cfg.msgsz ≤ target * cfg.msgsz :=
    Nat.mul_le_mul_right _ hk
  have hold : first * cfg.msgsz ≤ k * cfg.msgsz := Nat.mul_le_mul_right _ hfirst
  rw [Nat.succ_mul] at hnext
  rw [hwAddr_slotOff_add cfg k hi, Nat.mul_comm cfg.msgsz k]
  exact hshows _ (by omega) (by omega)

theorem dmaRxRound_inv {first target written room head tail : Nat} {l : DmaLoop}
    (hhead : head = cfg.slotOff first)
    (htarget : target * cfg.msgsz ≤ written)
    (hroom : written + room ≤ first * cfg.msgsz + canRxTbl.zchanRxSize)
    (hmem : ∀ n, ∃ more, more < room ∧
      Shows stream canRxTbl.zchanRxSize (written + more) (mem n))
    (hinv : LoopInv cfg clock stream base first target l)
    (hless : l.handed.length < target) :
    LoopInv cfg clock stream base first target
      (dmaRxRound cfg clock mem (canRxTblAt head tail) head l) := by
  have hmsg : (dmaRxRound cfg clock mem (canRxTblAt head tail) head l).msg =
      hwAddr (cfg.slotOff l.handed.length) :=
    dmaRxRound_msg hinv hhead
  have hread : dmaMsg cfg (fun i => mem l.handed.length
      ((hwAddr (cfg.slotOff l.handed.length)).add i)) (clock l.handed.length) =
        streamMsg cfg clock stream l.handed.length :=
    streamMsg_of_shows hinv.started hless htarget hroom (hmem _)
  rw [← hmsg] at hread
  have hhanded : (dmaRxRound cfg clock mem (canRxTblAt head tail) head l).handed =
      l.handed ++ [streamMsg cfg clock stream l.handed.length] := by
    rw [← hread]
    rfl
  have hlen : (dmaRxRound cfg clock mem (canRxTblAt head tail) head l).handed.length =
      l.handed.length + 1 := by
    rw [hhanded, List.length_append, List.length_singleton]
  refine ⟨?_, ?_, ?_, ?_, ?_, ?_, ?_⟩
  · rw [hlen]
    exact Nat.le_succ_of_le hinv.started
  · rw [hlen]
    exact hless
  · rw [hlen, ← cfg.slotOff_next, ← hinv.rxOff]
    rfl
  · intro k _ hk
    rw [hlen, Nat.add_right_cancel_iff] at hk
    rw [hmsg, hk]
  · rw [hlen, List.range_succ, List.map_append, ← hinv.handed, List.map_singleton]
    exact hhanded
  · rw [hhanded, List.foldl_append, ← hinv.ring, ← hread]
    rfl
  · intro read hmem
    rcases List.mem_append.mp hmem with hold | hnew
    · exact hinv.pointers read hold
    · obtain rfl := List.mem_singleton.mp hnew
      change (dmaRxRound cfg clock mem (canRxTblAt head tail) head l).msg = _ ∧
        (dmaRxRound cfg clock mem (canRxTblAt head tail) head l).msg.offset + _ ≤ _
      rw [hmsg, hinv.rxOff, canRxTbl_off2addr_slot]
      exact ⟨rfl, cfg.slotOff_in_buffer _⟩

theorem dmaRxLoop_total {first target written room head fuel : Nat} (tail : Nat)
    {l : DmaLoop} (hhead : head = cfg.slotOff first)
    (htarget : target * cfg.msgsz ≤ written)
    (hspan : target < first + cfg.slots)
    (hroom : written + room ≤ first * cfg.msgsz + canRxTbl.zchanRxSize)
    (hmem : ∀ n, ∃ more, more < room ∧
      Shows stream canRxTbl.zchanRxSize (written + more) (mem n))
    (hfuel : target ≤ first + fuel)
    (hinv : LoopInv cfg clock stream base first target l) :
    ∃ final, whileLoop (fun l => l.rxOff != cfg.slotOff target)
        (dmaRxRound cfg clock mem (canRxTblAt head tail) head) fuel l = some final ∧
      LoopInv cfg clock stream base first target final ∧
      final.handed.length = target := by
  have hstarted := hinv.started
  have hcond : ∀ {l : DmaLoop}, LoopInv cfg clock stream base first target l →
      (l.rxOff = cfg.slotOff target ↔ l.handed.length = target) := by
    intro l hl
    have hstarted := hl.started
    rw [hl.rxOff]
    exact cfg.slotOff_inj hl.notPast (by omega)
  have hround : ∀ l : DmaLoop, LoopInv cfg clock stream base first target l →
      (l.rxOff != cfg.slotOff target) = true →
      LoopInv cfg clock stream base first target
          (dmaRxRound cfg clock mem (canRxTblAt head tail) head l) ∧
        target - (dmaRxRound cfg clock mem
            (canRxTblAt head tail) head l).handed.length <
          target - l.handed.length := by
    intro l hl hgo
    have hne : l.handed.length ≠ target := mt (hcond hl).mpr (bne_iff_ne.mp hgo)
    have hless : l.handed.length < target := Nat.lt_of_le_of_ne hl.notPast hne
    refine ⟨dmaRxRound_inv hhead htarget hroom hmem hl hless, ?_⟩
    change target - (l.handed ++ [_]).length < _
    rw [List.length_append, List.length_singleton]
    omega
  obtain ⟨final, hloop, hfinal, hdone⟩ :=
    whileLoop_total (fun l : DmaLoop => target - l.handed.length) hround hinv
      (show target - l.handed.length ≤ fuel by omega)
  exact ⟨final, hloop, hfinal, (hcond hfinal).mp (by simpa using hdone)⟩

end Loop

section Tail

variable (cfg : DmaConfig) (tailReg : BitVec 32)

theorem toNat_alignedTail :
    (tailReg &&& ~~~(BitVec.ofNat 32 (cfg.msgsz - 1))).toNat =
      tailReg.toNat / cfg.msgsz * cfg.msgsz := by
  rcases cfg.msgsz_cases with hsz | hsz <;> rw [hsz]
  · exact toNat_and_not_lowMask tailReg (k := 4) (by decide)
  · exact toNat_and_not_lowMask tailReg (k := 5) (by decide)

theorem alignedTail_in {written : Nat}
    (htail : tailReg.toNat = written % canRxTbl.zchanRxSize) :
    tailReg.toNat / cfg.msgsz * cfg.msgsz = cfg.slotOff (written / cfg.msgsz) := by
  rw [htail, ← cfg.msgsz_mul_slots, Nat.mod_mul_right_div_self, Nat.mul_comm]
  rfl

theorem alignedTail_out (hout : canRxTbl.zchanRxSize ≤ tailReg.toNat) :
    canRxTbl.zchanRxSize ≤ tailReg.toNat / cfg.msgsz * cfg.msgsz := by
  rw [← cfg.msgsz_mul_slots] at *
  rw [Nat.mul_comm (tailReg.toNat / cfg.msgsz)]
  apply Nat.mul_le_mul_left
  exact (Nat.le_div_iff_mul_le cfg.msgsz_pos).mpr (Nat.mul_comm _ _ ▸ hout)

end Tail

structure DmaInv (cfg : DmaConfig) (clock : Nat → Timespec)
    (stream : Nat → BitVec 8) (zcan : ZynqCanRx) (s : DmaState) : Prop where
  table : ∃ tail, s.rx.zchanRx = canRxTblAt (cfg.slotOff s.rx.handed.length) tail
  seen : s.rx.handed.length = s.seen / cfg.msgsz
  behind : s.seen ≤ s.written
  ahead : s.written < s.rx.handed.length * cfg.msgsz + canRxTbl.zchanRxSize
  spec : DmaSpec cfg clock stream zcan s

section Runs

variable {cfg : DmaConfig} {clock : Nat → Timespec} {stream : Nat → BitVec 8}
  {zcan : ZynqCanRx} {s : DmaState}

theorem DmaInv.handed_le (hinv : DmaInv cfg clock stream zcan s) :
    s.rx.handed.length * cfg.msgsz ≤ s.seen := by
  rw [hinv.seen]
  exact Nat.div_mul_le_self _ _

theorem dmaInv_init : DmaInv cfg clock stream zcan (DmaState.init zcan) where
  table := ⟨0, by simp [DmaState.init, canRxTblAt, DmaConfig.slotOff]; rfl⟩
  seen := (Nat.zero_div _).symm
  behind := by simp [DmaState.init]
  ahead := by
    rw [canRxTbl_size]
    simp [DmaState.init]
  spec := ⟨by simp [DmaState.init], rfl, nofun⟩

theorem room_eq (hinv : DmaInv cfg clock stream zcan s) :
    s.written + s.room =
      s.rx.handed.length * cfg.msgsz + canRxTbl.zchanRxSize := by
  obtain ⟨tail, htable⟩ := hinv.table
  have hbehind := Nat.le_trans hinv.handed_le hinv.behind
  have hahead := hinv.ahead
  unfold DmaState.room
  rw [htable]
  change _ + canRxTbl.ZCHAN_RX_FREE_SIZE (cfg.slotOff s.rx.handed.length)
    (s.written % canRxTbl.zchanRxSize) = _
  unfold ZchanRxTbl.ZCHAN_RX_FREE_SIZE
  rw [cfg.slotOff_eq, Nat.mul_comm cfg.msgsz, canRxTbl_size] at *
  split <;> omega

theorem dmaInv_write (hinv : DmaInv cfg clock stream zcan s) {bytes : Nat}
    (hroom : bytes < s.room) :
    DmaInv cfg clock stream zcan { s with written := s.written + bytes } where
  table := hinv.table
  seen := hinv.seen
  behind := Nat.le_add_right_of_le hinv.behind
  ahead := by
    have hfree := room_eq hinv
    change s.written + bytes < s.rx.handed.length * cfg.msgsz + _
    omega
  spec := ⟨hinv.spec.handed, hinv.spec.ring, hinv.spec.pointers⟩

theorem zcanDmaRxProc_outside (cfg : DmaConfig) (clock : Nat → Timespec)
    (mem : Nat → Memory) (fuel : Nat) (rx : DmaRx) (tailReg : BitVec 32)
    (hout : rx.zchanRx.zchanRxSize ≤ rx.zchanRx.zchanRxHead ∨
      rx.zchanRx.zchanRxSize ≤
        (tailReg &&& ~~~(BitVec.ofNat 32 (cfg.msgsz - 1))).toNat) :
    zcanDmaRxProc cfg clock mem fuel rx tailReg = some rx :=
  if_pos hout

theorem dmaInv_outside (hinv : DmaInv cfg clock stream zcan s)
    {tailReg : BitVec 32} (hout : s.rx.zchanRx.zchanRxSize ≤ tailReg.toNat)
    (reported : Nat) (mem : Nat → Memory) :
    dmaStep cfg clock s (.interrupt tailReg reported mem) = some s := by
  have hsize : s.rx.zchanRx.zchanRxSize = canRxTbl.zchanRxSize := by
    obtain ⟨tail, htable⟩ := hinv.table
    rw [htable]
    rfl
  have hproc := zcanDmaRxProc_outside cfg clock mem s.rx.zchanRx.zchanRxSize s.rx
    tailReg (Or.inr (by
      rw [toNat_alignedTail, hsize]
      exact alignedTail_out cfg tailReg (hsize ▸ hout)))
  simp only [dmaStep, hproc, Option.map_some, if_neg (Nat.not_lt.mpr hout)]

/-- A call that sees the tail of the hardware hands over every complete message
up to it. -/
theorem dmaInv_interrupt (hinv : DmaInv cfg clock stream zcan s)
    {tailReg : BitVec 32} {reported : Nat} {mem : Nat → Memory}
    (hsince : s.seen ≤ reported) (hpast : reported ≤ s.written)
    (htail : tailReg.toNat = reported % s.rx.zchanRx.zchanRxSize)
    (hmem : ∀ n, ∃ more, more < s.room ∧
      Shows stream s.rx.zchanRx.zchanRxSize (s.written + more) (mem n)) :
    ∃ next, dmaStep cfg clock s (.interrupt tailReg reported mem) = some next ∧
      DmaInv cfg clock stream zcan next := by
  obtain ⟨tail, htable⟩ := hinv.table
  have hroom := room_eq hinv
  have hbehind := Nat.le_trans hinv.handed_le hsince
  have hahead := hinv.ahead
  have hsize : s.rx.zchanRx.zchanRxSize = canRxTbl.zchanRxSize := by
    rw [htable]
    rfl
  rw [hsize] at htail hmem
  have haligned : (tailReg &&& ~~~(BitVec.ofNat 32 (cfg.msgsz - 1))).toNat =
      cfg.slotOff (reported / cfg.msgsz) := by
    rw [toNat_alignedTail, alignedTail_in cfg tailReg htail]
  have htarget : reported / cfg.msgsz * cfg.msgsz ≤ reported :=
    Nat.div_mul_le_self _ _
  have hspan : reported / cfg.msgsz < s.rx.handed.length + cfg.slots := by
    rw [Nat.div_lt_iff_lt_mul cfg.msgsz_pos, Nat.add_mul, Nat.mul_comm cfg.slots,
      cfg.msgsz_mul_slots]
    exact Nat.lt_of_le_of_lt hpast hahead
  have hstart : LoopInv cfg clock stream zcan s.rx.handed.length
      (reported / cfg.msgsz)
      ⟨cfg.slotOff s.rx.handed.length, ⟨0, 0, 0⟩, s.rx.zcan, s.rx.handed,
        s.rx.reads⟩ := by
    refine ⟨Nat.le_refl _, (Nat.le_div_iff_mul_le cfg.msgsz_pos).mpr hbehind, rfl,
      ?_, ?_, hinv.spec.ring, ?_⟩
    · intro k hk heq
      change s.rx.handed.length = k + 1 at heq
      omega
    · rw [hinv.seen]
      exact hinv.spec.handed
    · have hpointers := hinv.spec.pointers
      rw [htable] at hpointers
      exact hpointers
  have hfuel : reported / cfg.msgsz ≤
      s.rx.handed.length + canRxTbl.zchanRxSize := by
    have hslots : cfg.slots ≤ canRxTbl.zchanRxSize := Nat.div_le_self _ _
    omega
  obtain ⟨final, hloop, hfinal, hlen⟩ := dmaRxLoop_total
    (cfg.slotOff (reported / cfg.msgsz)) rfl (Nat.le_trans htarget hpast) hspan
    (Nat.le_of_eq hroom) hmem hfuel hstart
  have hproc : zcanDmaRxProc cfg clock mem s.rx.zchanRx.zchanRxSize s.rx tailReg =
      some
        { zchanRx := canRxTblAt final.rxOff (cfg.slotOff (reported / cfg.msgsz))
          zcan := final.zcan
          handed := final.handed
          reads := final.reads } := by
    unfold zcanDmaRxProc
    dsimp only
    rw [haligned, htable, if_neg]
    · exact congrArg (Option.map _) hloop
    · rw [not_or]
      exact ⟨Nat.not_le.mpr (cfg.slotOff_lt _), Nat.not_le.mpr (cfg.slotOff_lt _)⟩
  have hin : tailReg.toNat < s.rx.zchanRx.zchanRxSize := by
    rw [hsize, htail]
    exact Nat.mod_lt _ (Nat.pos_of_ne_zero nofun)
  simp only [dmaStep, hproc, Option.map_some, if_pos hin, Option.some.injEq,
    exists_eq_left']
  refine ⟨⟨cfg.slotOff (reported / cfg.msgsz), ?_⟩, hlen, hpast, ?_, ?_,
    hfinal.ring, hfinal.pointers⟩
  · dsimp only
    rw [← hfinal.rxOff]
  · have hkept := hfinal.started
    have hmore : s.rx.handed.length * cfg.msgsz ≤
        final.handed.length * cfg.msgsz := Nat.mul_le_mul_right _ hkept
    dsimp only
    omega
  · rw [hfinal.handed, hlen]

theorem dmaInv_step {event : DmaEvent} (hinv : DmaInv cfg clock stream zcan s)
    (hok : HardwareOk stream s event) :
    ∃ next, dmaStep cfg clock s event = some next ∧
      DmaInv cfg clock stream zcan next := by
  cases event with
  | write bytes => exact ⟨_, rfl, dmaInv_write hinv hok⟩
  | interrupt tailReg reported mem =>
      obtain ⟨⟨hsince, hpast, htail⟩ | hout, hmem⟩ := hok
      · exact dmaInv_interrupt hinv hsince hpast htail hmem
      · exact ⟨s, dmaInv_outside hinv hout reported mem, hinv⟩

end Runs

/-- Every run of the hardware and the receive interrupt gets to its end, and in
every state of it the software ring has been handed each complete message up to
the last accepted tail, once and in order. A call that sees an offset outside
the table changes nothing. -/
theorem zcanDmaRx_run (cfg : DmaConfig) (clock : Nat → Timespec)
    (stream : Nat → BitVec 8) (zcan : ZynqCanRx) (events : List DmaEvent)
    (hhw : StepsMeet (dmaStep cfg clock) (HardwareOk stream) (DmaState.init zcan)
      events) :
    (∃ final, run (dmaStep cfg clock) (DmaState.init zcan) events = some final) ∧
    Throughout (dmaStep cfg clock) (DmaSpec cfg clock stream zcan)
      (DmaState.init zcan) events ∧
    ∀ (mem : Nat → Memory) (fuel : Nat) (rx : DmaRx) (tailReg : BitVec 32),
      rx.zchanRx.zchanRxSize ≤ rx.zchanRx.zchanRxHead ∨
        rx.zchanRx.zchanRxSize ≤
          (tailReg &&& ~~~(BitVec.ofNat 32 (cfg.msgsz - 1))).toNat →
      zcanDmaRxProc cfg clock mem fuel rx tailReg = some rx := by
  have hstart : DmaInv cfg clock stream zcan (DmaState.init zcan) := dmaInv_init
  refine ⟨run_total dmaInv_step hstart hhw, ?_, ?_⟩
  · have hinv : Throughout (dmaStep cfg clock) (DmaInv cfg clock stream zcan)
        (DmaState.init zcan) events := by
      refine throughout_of_stepsMeet ?_ hstart hhw
      intro s event next hs hok hstep
      obtain ⟨other, hother, hnext⟩ := dmaInv_step hs hok
      rw [hstep] at hother
      cases hother
      exact hnext
    exact hinv.imp fun _ hs => hs.spec
  · intro mem fuel rx tailReg hout
    exact zcanDmaRxProc_outside cfg clock mem fuel rx tailReg hout

/-- The hardware writes twenty zero bytes, one message and a quarter, and an
interrupt reads the tail in the middle of the second. -/
def shortEvents : List DmaEvent :=
  [.write 20, .interrupt 20 20 fun _ _ => 0]

theorem zcanDmaRx_run_short :
    Throughout (dmaStep ⟨false, false⟩ fun _ => ⟨0, 0⟩)
      (DmaSpec ⟨false, false⟩ (fun _ => ⟨0, 0⟩) (fun _ => 0) smallestRing)
      (DmaState.init smallestRing) shortEvents := by
  refine (zcanDmaRx_run ⟨false, false⟩ (fun _ => ⟨0, 0⟩) (fun _ => 0) smallestRing
    shortEvents ?_).2.1
  have hroom : 20 < (DmaState.init smallestRing).room := by decide
  refine stepsMeet_cons.mpr ⟨hroom, fun first hfirst =>
    stepsMeet_cons.mpr ⟨?_, fun _ _ => stepsMeet_nil⟩⟩
  cases hfirst
  refine ⟨Or.inl ⟨by decide, by decide, by decide⟩, fun n => ⟨0, by decide, ?_⟩⟩
  intro a _ _
  rfl

end ApolloContrib.Can
