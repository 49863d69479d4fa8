import ApolloContrib.Library.Bits

namespace ApolloContrib.Chan

open ApolloContrib.Library

/-! The two-level receive table of `basa_chan.c`. -/

def ZCHAN_BUF_SIZE : Nat := 4096
def ZCHAN_RX_PT_ENTRIES : Nat := 512
def ZCHAN_RX_PDT_ENTRIES_CAN : Nat := 1

structure BufPtr where
  pdtEntry : Nat
  ptEntry : Nat
  offset : Nat
deriving DecidableEq, Repr

def BufPtr.add (ptr : BufPtr) (n : Nat) : BufPtr :=
  { ptr with offset := ptr.offset + n }

structure ZchanRxTbl where
  zchanRxPdtNum : Nat
  zchanRxPdtShift : Nat
  zchanRxPtMask : Nat
  zchanRxPtShift : Nat
  zchanRxSize : Nat
  zchanRxBufMask : Nat
  zchanRxOff : Nat
  zchanRxHead : Nat
  zchanRxTail : Nat
deriving DecidableEq, Repr

namespace ZchanRxTbl

def ZCHAN_RX_BUF_OFFSET (zchanRx : ZchanRxTbl) (rxOff : Nat) : Nat :=
  rxOff &&& zchanRx.zchanRxBufMask

def ZCHAN_RX_PT_ENTRY (zchanRx : ZchanRxTbl) (rxOff : Nat) : Nat :=
  (rxOff >>> zchanRx.zchanRxPtShift) &&& zchanRx.zchanRxPtMask

def ZCHAN_RX_PDT_ENTRY (zchanRx : ZchanRxTbl) (rxOff : Nat) : Nat :=
  (rxOff >>> zchanRx.zchanRxPdtShift) % zchanRx.zchanRxPdtNum

def ZCHAN_RX_FREE_SIZE (zchanRx : ZchanRxTbl) (head tail : Nat) : Nat :=
  if head > tail then head - tail else zchanRx.zchanRxSize + head - tail

def ZCHAN_RX_USED_SIZE (zchanRx : ZchanRxTbl) (head tail : Nat) : Nat :=
  if tail ≥ head then tail - head else zchanRx.zchanRxSize + tail - head

def bufStart (zchanRx : ZchanRxTbl) (rxOff : Nat) : Nat :=
  rxOff - (rxOff &&& zchanRx.zchanRxBufMask)

def ZCHAN_WITHIN_RX_BUF (zchanRx : ZchanRxTbl) (rxOff1 rxOff2 : Nat) : Prop :=
  zchanRx.bufStart rxOff1 = zchanRx.bufStart rxOff2

instance (zchanRx : ZchanRxTbl) (rxOff1 rxOff2 : Nat) :
    Decidable (zchanRx.ZCHAN_WITHIN_RX_BUF rxOff1 rxOff2) :=
  inferInstanceAs (Decidable (_ = _))

/-- An offset past the end of the table goes on at its start. -/
def wrap (zchanRx : ZchanRxTbl) (rxOff : Nat) : Nat :=
  if rxOff ≥ zchanRx.zchanRxSize then rxOff - zchanRx.zchanRxSize else rxOff

def zchanRxOff2addr (zchanRx : ZchanRxTbl) (rxOff : Nat) : BufPtr where
  pdtEntry := zchanRx.ZCHAN_RX_PDT_ENTRY rxOff
  ptEntry := zchanRx.ZCHAN_RX_PT_ENTRY rxOff
  offset := zchanRx.ZCHAN_RX_BUF_OFFSET rxOff

end ZchanRxTbl

/-- The fields `zchan_init_rx_tbl` computes, with the offsets as
`zchan_rx_start` sets them. -/
def zchanInitRxTbl (pdtEntries bufsz : Nat) : ZchanRxTbl where
  zchanRxPdtNum := pdtEntries
  zchanRxPdtShift := fls (BitVec.ofNat 32 (ZCHAN_RX_PT_ENTRIES * bufsz)) - 1
  zchanRxPtMask := ZCHAN_RX_PT_ENTRIES - 1
  zchanRxPtShift := fls (BitVec.ofNat 32 bufsz) - 1
  zchanRxSize := pdtEntries * ZCHAN_RX_PT_ENTRIES * bufsz
  zchanRxBufMask := bufsz - 1
  zchanRxOff := 0
  zchanRxHead := 0
  zchanRxTail := 0

def canRxTbl : ZchanRxTbl := zchanInitRxTbl ZCHAN_RX_PDT_ENTRIES_CAN ZCHAN_BUF_SIZE

/-- The memory page the hardware finds for a table offset when it walks the page
directory table and then the page table. -/
def hwAddr (off : Nat) : BufPtr where
  pdtEntry := off / (ZCHAN_RX_PT_ENTRIES * ZCHAN_BUF_SIZE)
  ptEntry := off / ZCHAN_BUF_SIZE % ZCHAN_RX_PT_ENTRIES
  offset := off % ZCHAN_BUF_SIZE

/-- The shifts and masks of a table of `ZCHAN_BUF_SIZE` byte pages. -/
structure ZchanRxTbl.PageSized (zchanRx : ZchanRxTbl) : Prop where
  ptShift : zchanRx.zchanRxPtShift = 12
  pdtShift : zchanRx.zchanRxPdtShift = 21
  ptMask : zchanRx.zchanRxPtMask = ZCHAN_RX_PT_ENTRIES - 1
  bufMask : zchanRx.zchanRxBufMask = ZCHAN_BUF_SIZE - 1

theorem zchanInitRxTbl_pageSized (pdtEntries : Nat) :
    (zchanInitRxTbl pdtEntries ZCHAN_BUF_SIZE).PageSized :=
  ⟨rfl, rfl, rfl, rfl⟩

namespace ZchanRxTbl.PageSized

variable {zchanRx : ZchanRxTbl}

theorem bufOffset (hsized : zchanRx.PageSized) (off : Nat) :
    zchanRx.ZCHAN_RX_BUF_OFFSET off = off % ZCHAN_BUF_SIZE := by
  rw [ZCHAN_RX_BUF_OFFSET, hsized.bufMask]
  exact Nat.and_two_pow_sub_one_eq_mod off 12

theorem off2addr (hsized : zchanRx.PageSized) {off : Nat}
    (hoff : off / (ZCHAN_RX_PT_ENTRIES * ZCHAN_BUF_SIZE) < zchanRx.zchanRxPdtNum) :
    zchanRx.zchanRxOff2addr off = hwAddr off := by
  unfold zchanRxOff2addr hwAddr
  congr 1
  · rw [ZCHAN_RX_PDT_ENTRY, hsized.pdtShift, Nat.shiftRight_eq_div_pow]
    exact Nat.mod_eq_of_lt hoff
  · rw [ZCHAN_RX_PT_ENTRY, hsized.ptShift, hsized.ptMask, Nat.shiftRight_eq_div_pow]
    exact Nat.and_two_pow_sub_one_eq_mod _ 9
  · exact hsized.bufOffset off

end ZchanRxTbl.PageSized

theorem hwAddr_inj {off off' : Nat} (heq : hwAddr off = hwAddr off') : off = off' := by
  unfold hwAddr at heq
  rw [BufPtr.mk.injEq] at heq
  obtain ⟨hpdt, hpt, hoffset⟩ := heq
  unfold ZCHAN_RX_PT_ENTRIES ZCHAN_BUF_SIZE at *
  omega

theorem hwAddr_add {off i : Nat} (hin : off % ZCHAN_BUF_SIZE + i < ZCHAN_BUF_SIZE) :
    (hwAddr off).add i = hwAddr (off + i) := by
  unfold hwAddr BufPtr.add
  dsimp only
  rw [BufPtr.mk.injEq]
  unfold ZCHAN_RX_PT_ENTRIES ZCHAN_BUF_SIZE at *
  omega

theorem canRxTbl_size : canRxTbl.zchanRxSize = 2 ^ 21 := rfl

theorem canRxTbl_bufOffset (off : Nat) :
    canRxTbl.ZCHAN_RX_BUF_OFFSET off = off % ZCHAN_BUF_SIZE :=
  (zchanInitRxTbl_pageSized _).bufOffset off

theorem canRxTbl_off2addr {off : Nat} (hoff : off < canRxTbl.zchanRxSize) :
    canRxTbl.zchanRxOff2addr off = hwAddr off :=
  (zchanInitRxTbl_pageSized _).off2addr (Nat.div_lt_of_lt_mul hoff)

end ApolloContrib.Chan
