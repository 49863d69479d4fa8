import ApolloContrib.Can.Msg
import ApolloContrib.Library.Ring

namespace ApolloContrib.Can

open ApolloContrib.Library

/-! The software receive ring of `basa_can.c`: the receive half of `zynq_can_t`
and the functions that work on it. -/

inductive BcanErrCode where
  | BCAN_PARAM_INVALID
  | BCAN_HDL_INVALID
  | BCAN_DEV_INVALID
  | BCAN_DEV_ERR
  | BCAN_DEV_BUSY
  | BCAN_TIMEOUT
  | BCAN_FAIL
  | BCAN_NOT_SUPPORTED
  | BCAN_NOT_IMPLEMENTED
  | BCAN_INVALID
  | BCAN_NO_BUFFERS
  | BCAN_ERR
  | BCAN_OK
  | BCAN_PARTIAL_OK
deriving DecidableEq, Repr

def ZCAN_IP_RXFIFO_MAX : Nat := 64
def ZCAN_IP_MSG_MIN : Nat := 256
def ZCAN_IP_MSG_MAX : Nat := 65536

/-- User pointers are addresses counted in messages, so that `NULL` is 0. -/
def NULL : Nat := 0

/-- The receive half of `zynq_can_t`. `usrMsgs` is what `copy_to_user` has
stored, oldest first, with the address of each message. -/
@[ext] structure ZynqCanRx where
  zcanBufRxMsg : Nat → Msg
  zcanBufRxNum : Nat
  zcanBufRxHead : Nat
  zcanBufRxTail : Nat
  zcanUsrBuf : Nat
  zcanUsrBufNum : Nat
  zcanUsrRxNum : Nat
  zcanUsrRxComp : Nat
  chanStatsRxDrop : Nat
  usrMsgs : List (Nat × Msg)
  bufRxNum_min : ZCAN_IP_MSG_MIN ≤ zcanBufRxNum
  bufRxNum_max : zcanBufRxNum ≤ ZCAN_IP_MSG_MAX
  bufRxHead_lt : zcanBufRxHead < zcanBufRxNum
  bufRxTail_lt : zcanBufRxTail < zcanBufRxNum

namespace ZynqCanRx

theorem bufRxNum_pos (zcan : ZynqCanRx) : 0 < zcan.zcanBufRxNum :=
  Nat.lt_of_lt_of_le (by decide) zcan.bufRxNum_min

/-- The number of buffered messages, as `zcan_usr_rx_complete` computes it. -/
def rxNum (zcan : ZynqCanRx) : Nat :=
  ringCount zcan.zcanBufRxNum zcan.zcanBufRxHead zcan.zcanBufRxTail

theorem rxNum_lt (zcan : ZynqCanRx) : zcan.rxNum < zcan.zcanBufRxNum :=
  ringCount_lt zcan.bufRxHead_lt zcan.bufRxTail_lt

def rxSlots (zcan : ZynqCanRx) : List Nat :=
  ringIndices zcan.zcanBufRxNum zcan.zcanBufRxHead zcan.rxNum

@[simp] theorem length_rxSlots (zcan : ZynqCanRx) :
    zcan.rxSlots.length = zcan.rxNum :=
  length_ringIndices _

theorem rxSlots_nodup (zcan : ZynqCanRx) : zcan.rxSlots.Nodup :=
  ringIndices_nodup zcan.bufRxHead_lt (Nat.le_of_lt zcan.rxNum_lt)

theorem rxNum_eq_zero_iff (zcan : ZynqCanRx) :
    zcan.rxNum = 0 ↔ zcan.zcanBufRxHead = zcan.zcanBufRxTail :=
  ringCount_eq_zero_iff zcan.bufRxHead_lt

theorem tail_notMem_rxSlots (zcan : ZynqCanRx) :
    zcan.zcanBufRxTail ∉ zcan.rxSlots := by
  intro hmem
  rw [rxSlots, mem_ringIndices_iff zcan.bufRxHead_lt zcan.bufRxTail_lt
    (Nat.le_of_lt zcan.rxNum_lt)] at hmem
  exact Nat.lt_irrefl _ hmem

def zcanBufRxFull (zcan : ZynqCanRx) : Bool :=
  (zcan.zcanBufRxTail + 1) % zcan.zcanBufRxNum == zcan.zcanBufRxHead

theorem zcanBufRxFull_iff (zcan : ZynqCanRx) :
    zcan.zcanBufRxFull = true ↔ zcan.rxNum + 1 = zcan.zcanBufRxNum := by
  rw [zcanBufRxFull, beq_iff_eq]
  exact next_eq_head_iff zcan.bufRxHead_lt zcan.bufRxTail_lt

theorem rxNum_add_one_lt (zcan : ZynqCanRx) (hroom : zcan.zcanBufRxFull = false) :
    zcan.rxNum + 1 < zcan.zcanBufRxNum := by
  have hlt := zcan.rxNum_lt
  have hne : ¬ zcan.rxNum + 1 = zcan.zcanBufRxNum := by
    rw [← zcanBufRxFull_iff, hroom]
    exact Bool.false_ne_true
  omega

def zcanBufIncRxHead (zcan : ZynqCanRx) (inc : Nat) : ZynqCanRx :=
  { zcan with
    zcanBufRxHead := (zcan.zcanBufRxHead + inc) % zcan.zcanBufRxNum
    bufRxHead_lt := Nat.mod_lt _ zcan.bufRxNum_pos
    chanStatsRxDrop := zcan.chanStatsRxDrop + inc }

def writeTail (zcan : ZynqCanRx) (msg : Msg) : ZynqCanRx :=
  { zcan with
    zcanBufRxMsg := Function.update zcan.zcanBufRxMsg zcan.zcanBufRxTail msg }

def storeTail (zcan : ZynqCanRx) : ZynqCanRx :=
  { zcan with
    zcanBufRxTail := (zcan.zcanBufRxTail + 1) % zcan.zcanBufRxNum
    bufRxTail_lt := Nat.mod_lt _ zcan.bufRxNum_pos }

def zcanUsrRxComplete (zcan : ZynqCanRx) : ZynqCanRx :=
  if zcan.zcanUsrBuf = NULL then zcan
  else
    let reqNum := zcan.zcanUsrBufNum - zcan.zcanUsrRxNum
    if zcan.rxNum > 0 ∧ zcan.rxNum ≥ reqNum then
      { zcan with zcanUsrRxComp := zcan.zcanUsrRxComp + 1 }
    else zcan

/-- What `zcan_pio_rx_proc` and `zcan_dma_rx_proc` do with each message. -/
def rxPush (zcan : ZynqCanRx) (msg : Msg) : ZynqCanRx :=
  let zcan :=
    if zcan.zcanBufRxFull then zcan.zcanBufIncRxHead ZCAN_IP_RXFIFO_MAX else zcan
  (zcan.writeTail msg).storeTail.zcanUsrRxComplete

def zcanClearBufRx (zcan : ZynqCanRx) : ZynqCanRx :=
  { zcan with
    zcanBufRxHead := zcan.zcanBufRxTail
    bufRxHead_lt := zcan.bufRxTail_lt }

def convertHead (zcan : ZynqCanRx) : ZynqCanRx :=
  { zcan with
    zcanBufRxMsg := Function.update zcan.zcanBufRxMsg zcan.zcanBufRxHead
      (zcanToBcan (zcan.zcanBufRxMsg zcan.zcanBufRxHead)) }

/-- The address `copy_to_user` stores the next message at. -/
def usrAddr (zcan : ZynqCanRx) : Nat := zcan.zcanUsrBuf + zcan.zcanUsrRxNum

def deliverHead (zcan : ZynqCanRx) : ZynqCanRx :=
  { zcan with
    usrMsgs := zcan.usrMsgs ++
      [(zcan.usrAddr, zcan.zcanBufRxMsg zcan.zcanBufRxHead)]
    zcanUsrRxNum := zcan.zcanUsrRxNum + 1
    zcanBufRxHead := (zcan.zcanBufRxHead + 1) % zcan.zcanBufRxNum
    bufRxHead_lt := Nat.mod_lt _ zcan.bufRxNum_pos }

/-- The loop of `zcan_copy_to_user` with `wanted` messages left to copy. The
local `head` is kept in `zcanBufRxHead`, where every exit of the loop stores it
before the lock is released. The result says whether no copy failed. -/
def zcanCopyLoop (copyFails : Nat → Bool) : Nat → ZynqCanRx → Bool × ZynqCanRx
  | 0, zcan => (true, zcan)
  | wanted + 1, zcan =>
      if zcan.zcanBufRxHead = zcan.zcanBufRxTail then (true, zcan)
      else if copyFails zcan.usrAddr then (false, zcan.convertHead)
      else zcanCopyLoop copyFails wanted zcan.convertHead.deliverHead

/-- `zcan_copy_to_user`, where `copyFails` tells at which user addresses
`copy_to_user` fails. -/
def zcanCopyToUser (zcan : ZynqCanRx) (copyFails : Nat → Bool) :
    BcanErrCode × ZynqCanRx :=
  match zcanCopyLoop copyFails (zcan.zcanUsrBufNum - zcan.zcanUsrRxNum) zcan with
  | (false, zcan) => (.BCAN_FAIL, zcan)
  | (true, zcan) =>
      if zcan.zcanUsrRxNum < zcan.zcanUsrBufNum then (.BCAN_PARTIAL_OK, zcan)
      else (.BCAN_OK, zcan)

theorem rxNum_incHead (zcan : ZynqCanRx) {inc : Nat} (hinc : inc ≤ zcan.rxNum) :
    (zcan.zcanBufIncRxHead inc).rxNum = zcan.rxNum - inc :=
  ringCount_advance zcan.bufRxHead_lt zcan.bufRxTail_lt hinc

theorem rxSlots_incHead (zcan : ZynqCanRx) {inc : Nat} (hinc : inc ≤ zcan.rxNum) :
    (zcan.zcanBufIncRxHead inc).rxSlots = zcan.rxSlots.drop inc := by
  rw [rxSlots, rxNum_incHead zcan hinc, rxSlots, drop_ringIndices hinc]
  rfl

theorem rxFifoMax_le_rxNum (zcan : ZynqCanRx) (hfull : zcan.zcanBufRxFull = true) :
    ZCAN_IP_RXFIFO_MAX ≤ zcan.rxNum := by
  have hmin := zcan.bufRxNum_min
  have hnum := zcan.zcanBufRxFull_iff.mp hfull
  unfold ZCAN_IP_RXFIFO_MAX ZCAN_IP_MSG_MIN at *
  omega

theorem notFull_incHead (zcan : ZynqCanRx)
    (hcount : ZCAN_IP_RXFIFO_MAX ≤ zcan.rxNum) :
    (zcan.zcanBufIncRxHead ZCAN_IP_RXFIFO_MAX).zcanBufRxFull = false := by
  have hlt := zcan.rxNum_lt
  have hnum := zcan.rxNum_incHead hcount
  rw [← Bool.not_eq_true, zcanBufRxFull_iff, hnum]
  change ¬ zcan.rxNum - ZCAN_IP_RXFIFO_MAX + 1 = zcan.zcanBufRxNum
  unfold ZCAN_IP_RXFIFO_MAX at *
  omega

theorem rxNum_incHead_overtake (zcan : ZynqCanRx) {inc : Nat}
    (hinc : zcan.rxNum < inc) (hnum : inc ≤ zcan.zcanBufRxNum) :
    (zcan.zcanBufIncRxHead inc).rxNum = zcan.zcanBufRxNum + zcan.rxNum - inc :=
  ringCount_overtake zcan.bufRxHead_lt zcan.bufRxTail_lt hinc hnum

theorem writeTail_slot (zcan : ZynqCanRx) (msg : Msg) {i : Nat}
    (hi : i ∈ zcan.rxSlots) :
    (zcan.writeTail msg).zcanBufRxMsg i = zcan.zcanBufRxMsg i := by
  apply Function.update_of_ne
  rintro rfl
  exact zcan.tail_notMem_rxSlots hi

theorem rxNum_storeTail (zcan : ZynqCanRx) (hroom : zcan.zcanBufRxFull = false) :
    zcan.storeTail.rxNum = zcan.rxNum + 1 :=
  ringCount_next zcan.bufRxHead_lt zcan.bufRxTail_lt (zcan.rxNum_add_one_lt hroom)

theorem rxSlots_storeTail (zcan : ZynqCanRx)
    (hroom : zcan.zcanBufRxFull = false) :
    zcan.storeTail.rxSlots = zcan.rxSlots ++ [zcan.zcanBufRxTail] := by
  rw [rxSlots, rxNum_storeTail zcan hroom]
  change ringIndices zcan.zcanBufRxNum zcan.zcanBufRxHead (zcan.rxNum + 1) = _
  rw [ringIndices_succ_last, rxNum,
    head_add_ringCount zcan.bufRxHead_lt zcan.bufRxTail_lt]
  rfl

theorem rxNum_storeTail_of_full (zcan : ZynqCanRx)
    (hfull : zcan.zcanBufRxFull = true) : zcan.storeTail.rxNum = 0 := by
  rw [rxNum_eq_zero_iff]
  exact (beq_iff_eq.mp hfull).symm

@[simp] theorem rxNum_clearBufRx (zcan : ZynqCanRx) :
    zcan.zcanClearBufRx.rxNum = 0 :=
  ringCount_self

theorem zcanUsrRxComplete_frame (zcan : ZynqCanRx) :
    ∃ comp, zcan.zcanUsrRxComplete = { zcan with zcanUsrRxComp := comp } := by
  unfold zcanUsrRxComplete
  split
  · exact ⟨_, rfl⟩
  · dsimp only
    split <;> exact ⟨_, rfl⟩

/-! What one `zcan_copy_to_user` does, in closed form. -/

/-- How many of `limit` copies from `addr` on succeed before one fails. -/
def copiedBeforeFault (copyFails : Nat → Bool) (addr : Nat) : Nat → Nat
  | 0 => 0
  | limit + 1 =>
      if copyFails addr then 0
      else copiedBeforeFault copyFails (addr + 1) limit + 1

theorem copiedBeforeFault_le (copyFails : Nat → Bool) (addr limit : Nat) :
    copiedBeforeFault copyFails addr limit ≤ limit := by
  induction limit generalizing addr with
  | zero => exact Nat.le_refl 0
  | succ limit ih =>
      unfold copiedBeforeFault
      split
      · exact Nat.zero_le _
      · exact Nat.succ_le_succ (ih (addr + 1))

theorem copiedBeforeFault_eq_limit {copyFails : Nat → Bool}
    (hgood : ∀ addr, copyFails addr = false) (addr limit : Nat) :
    copiedBeforeFault copyFails addr limit = limit := by
  induction limit generalizing addr with
  | zero => rfl
  | succ limit ih =>
      rw [copiedBeforeFault, hgood addr, if_neg Bool.false_ne_true, ih]

/-- The messages the user still asks for, as far as the ring has them. -/
def copyLimit (zcan : ZynqCanRx) : Nat :=
  min (zcan.zcanUsrBufNum - zcan.zcanUsrRxNum) zcan.rxNum

def copyCount (zcan : ZynqCanRx) (copyFails : Nat → Bool) : Nat :=
  copiedBeforeFault copyFails zcan.usrAddr zcan.copyLimit

def convertSlots (slot : Nat → Msg) (touched : List Nat) (i : Nat) : Msg :=
  if i ∈ touched then zcanToBcan (slot i) else slot i

@[simp] theorem convertSlots_nil (slot : Nat → Msg) :
    convertSlots slot [] = slot := by
  funext i
  exact if_neg List.not_mem_nil

theorem convertSlots_cons (slot : Nat → Msg) {i : Nat} {rest : List Nat}
    (hfresh : i ∉ rest) :
    convertSlots slot (i :: rest) =
      convertSlots (Function.update slot i (zcanToBcan (slot i))) rest := by
  funext j
  unfold convertSlots
  rcases eq_or_ne j i with rfl | hne
  · rw [if_pos List.mem_cons_self, if_neg hfresh, Function.update_self]
  · simp only [List.mem_cons, hne, false_or, Function.update_of_ne hne]

def copied (zcan : ZynqCanRx) (count touched : Nat) : ZynqCanRx :=
  { zcan with
    zcanBufRxMsg := convertSlots zcan.zcanBufRxMsg
      (ringIndices zcan.zcanBufRxNum zcan.zcanBufRxHead touched)
    usrMsgs := zcan.usrMsgs ++ (List.range count).map fun i =>
      (zcan.usrAddr + i, zcanToBcan
        (zcan.zcanBufRxMsg ((zcan.zcanBufRxHead + i) % zcan.zcanBufRxNum)))
    zcanUsrRxNum := zcan.zcanUsrRxNum + count
    zcanBufRxHead := (zcan.zcanBufRxHead + count) % zcan.zcanBufRxNum
    bufRxHead_lt := Nat.mod_lt _ zcan.bufRxNum_pos }

theorem copied_zero_zero (zcan : ZynqCanRx) : zcan.copied 0 0 = zcan := by
  ext1 <;> simp [copied, Nat.mod_eq_of_lt zcan.bufRxHead_lt]

theorem copied_zero_one (zcan : ZynqCanRx) :
    zcan.copied 0 1 = zcan.convertHead := by
  ext1
  case zcanBufRxMsg =>
    have hone : ringIndices zcan.zcanBufRxNum zcan.zcanBufRxHead 1 =
        [zcan.zcanBufRxHead] := by
      rw [ringIndices_succ zcan.bufRxHead_lt, ringIndices_zero]
    simp only [copied, convertHead, hone,
      convertSlots_cons _ List.not_mem_nil, convertSlots_nil]
  all_goals simp [copied, convertHead, Nat.mod_eq_of_lt zcan.bufRxHead_lt]

theorem head_notMem_next (zcan : ZynqCanRx) {n : Nat}
    (hn : n < zcan.zcanBufRxNum) :
    zcan.zcanBufRxHead ∉ ringIndices zcan.zcanBufRxNum
      ((zcan.zcanBufRxHead + 1) % zcan.zcanBufRxNum) n := by
  have hnodup := ringIndices_nodup zcan.bufRxHead_lt (Nat.succ_le_of_lt hn)
  rw [Nat.succ_eq_add_one, ringIndices_succ zcan.bufRxHead_lt] at hnodup
  exact (List.nodup_cons.mp hnodup).1

theorem copied_convertHead_deliverHead (zcan : ZynqCanRx) {count touched : Nat}
    (hcount : count ≤ touched) (htouched : touched < zcan.zcanBufRxNum) :
    zcan.convertHead.deliverHead.copied count touched =
      zcan.copied (count + 1) (touched + 1) := by
  have hhead := zcan.bufRxHead_lt
  ext1
  case zcanBufRxMsg =>
    simp only [copied, deliverHead, convertHead, ringIndices_succ hhead]
    rw [convertSlots_cons _ (zcan.head_notMem_next htouched)]
  case usrMsgs =>
    have hslot : ∀ i ∈ List.range count,
        (zcan.zcanBufRxHead + (i + 1)) % zcan.zcanBufRxNum ≠
          zcan.zcanBufRxHead := by
      intro i hi heq
      apply zcan.head_notMem_next htouched
      have hi := List.mem_range.mp hi
      refine mem_ringIndices.mpr ⟨i, by omega, ?_⟩
      rw [Nat.mod_add_mod, Nat.add_assoc, Nat.add_comm 1 i]
      exact heq
    simp only [copied, deliverHead, convertHead, usrAddr, List.append_assoc,
      List.range_succ_eq_map, List.map_cons, List.map_map,
      List.singleton_append, Nat.add_zero, Nat.mod_eq_of_lt hhead,
      Function.update_self]
    congr 2
    apply List.map_congr_left
    intro i hi
    simp only [Function.comp, Nat.mod_add_mod, Nat.succ_eq_add_one,
      Nat.add_assoc, Nat.add_comm 1 i, Function.update_of_ne (hslot i hi)]
  case zcanUsrRxNum =>
    simp only [copied, deliverHead, convertHead]
    omega
  case zcanBufRxHead =>
    simp only [copied, deliverHead, convertHead, Nat.mod_add_mod]
    rw [Nat.add_assoc, Nat.add_comm 1 count]
  all_goals rfl

theorem rxNum_copied (zcan : ZynqCanRx) {count : Nat} (touched : Nat)
    (hcount : count ≤ zcan.rxNum) :
    (zcan.copied count touched).rxNum = zcan.rxNum - count :=
  ringCount_advance zcan.bufRxHead_lt zcan.bufRxTail_lt hcount

theorem rxSlots_copied (zcan : ZynqCanRx) {count : Nat} (touched : Nat)
    (hcount : count ≤ zcan.rxNum) :
    (zcan.copied count touched).rxSlots = zcan.rxSlots.drop count := by
  rw [rxSlots, rxNum_copied zcan touched hcount, rxSlots, drop_ringIndices hcount]
  rfl

theorem rxNum_deliverHead (zcan : ZynqCanRx) (hsome : 0 < zcan.rxNum) :
    zcan.deliverHead.rxNum = zcan.rxNum - 1 :=
  ringCount_advance zcan.bufRxHead_lt zcan.bufRxTail_lt hsome

theorem zcanCopyLoop_eq (copyFails : Nat → Bool) (wanted : Nat)
    (zcan : ZynqCanRx) :
    zcanCopyLoop copyFails wanted zcan =
      let limit := min wanted zcan.rxNum
      let count := copiedBeforeFault copyFails zcan.usrAddr limit
      (decide (count = limit), zcan.copied count (min (count + 1) limit)) := by
  induction wanted generalizing zcan with
  | zero =>
      simp [zcanCopyLoop, copiedBeforeFault, copied_zero_zero]
  | succ wanted ih =>
      rw [zcanCopyLoop]
      split
      · rename_i hempty
        rw [zcan.rxNum_eq_zero_iff.mpr hempty]
        simp [copiedBeforeFault, copied_zero_zero]
      · rename_i hne
        obtain ⟨rest, hrest⟩ : ∃ rest, zcan.rxNum = rest + 1 :=
          Nat.exists_eq_succ_of_ne_zero (mt zcan.rxNum_eq_zero_iff.mp hne)
        have hlt := zcan.rxNum_lt
        rw [hrest, Nat.succ_min_succ]
        split
        · rename_i hfail
          simp [copiedBeforeFault, hfail, copied_zero_one]
        · rename_i hgood
          have hnum : zcan.convertHead.deliverHead.rxNum = rest := by
            have := zcan.convertHead.rxNum_deliverHead (by
              change 0 < zcan.rxNum
              omega)
            rw [this]
            change zcan.rxNum - 1 = rest
            omega
          have haddr : zcan.convertHead.deliverHead.usrAddr = zcan.usrAddr + 1 :=
            rfl
          have hle := copiedBeforeFault_le copyFails (zcan.usrAddr + 1)
            (min wanted rest)
          simp only [ih, hnum, haddr, copiedBeforeFault, if_neg hgood]
          rw [copied_convertHead_deliverHead _ (by omega) (by omega),
            ← Nat.succ_min_succ]
          simp

theorem copyCount_le_copyLimit (zcan : ZynqCanRx) (copyFails : Nat → Bool) :
    zcan.copyCount copyFails ≤ zcan.copyLimit :=
  copiedBeforeFault_le copyFails zcan.usrAddr zcan.copyLimit

theorem copyLimit_le_rxNum (zcan : ZynqCanRx) : zcan.copyLimit ≤ zcan.rxNum :=
  Nat.min_le_right _ _

theorem copyCount_le_rxNum (zcan : ZynqCanRx) (copyFails : Nat → Bool) :
    zcan.copyCount copyFails ≤ zcan.rxNum :=
  Nat.le_trans (zcan.copyCount_le_copyLimit copyFails) zcan.copyLimit_le_rxNum

theorem zcanCopyToUser_eq (zcan : ZynqCanRx) (copyFails : Nat → Bool) :
    zcan.zcanCopyToUser copyFails =
      let count := zcan.copyCount copyFails
      (if count < zcan.copyLimit then .BCAN_FAIL
        else if zcan.zcanUsrRxNum + count < zcan.zcanUsrBufNum then
          .BCAN_PARTIAL_OK
        else .BCAN_OK,
        zcan.copied count (min (count + 1) zcan.copyLimit)) := by
  have hle := zcan.copyCount_le_copyLimit copyFails
  have hloop :
      zcanCopyLoop copyFails (zcan.zcanUsrBufNum - zcan.zcanUsrRxNum) zcan =
        (decide (zcan.copyCount copyFails = zcan.copyLimit),
          zcan.copied (zcan.copyCount copyFails)
            (min (zcan.copyCount copyFails + 1) zcan.copyLimit)) :=
    zcanCopyLoop_eq copyFails _ zcan
  rw [zcanCopyToUser, hloop]
  rcases Nat.lt_or_eq_of_le hle with hfault | hall
  · rw [decide_eq_false (Nat.ne_of_lt hfault)]
    simp only [hfault, if_true]
  · rw [decide_eq_true hall]
    simp only [hall, Nat.lt_irrefl, if_false]
    split
    · rename_i hless
      exact congrArg (·, _) (if_pos hless).symm
    · rename_i hless
      exact congrArg (·, _) (if_neg hless).symm

theorem zcanCopyToUser_snd (zcan : ZynqCanRx) (copyFails : Nat → Bool) :
    (zcan.zcanCopyToUser copyFails).2 =
      zcan.copied (zcan.copyCount copyFails)
        (min (zcan.copyCount copyFails + 1) zcan.copyLimit) := by
  rw [zcanCopyToUser_eq]

theorem zcanCopyToUser_fail_iff (zcan : ZynqCanRx) (copyFails : Nat → Bool) :
    (zcan.zcanCopyToUser copyFails).1 = .BCAN_FAIL ↔
      zcan.copyCount copyFails < zcan.copyLimit := by
  rw [zcanCopyToUser_eq]
  dsimp only
  split
  · simp_all
  · split <;> simp_all

end ZynqCanRx

/-- The smallest ring the driver allocates, as `kzalloc` leaves it. -/
def smallestRing : ZynqCanRx where
  zcanBufRxMsg := fun _ => ⟨0, 0, 0, 0, 0, 0⟩
  zcanBufRxNum := ZCAN_IP_MSG_MIN
  zcanBufRxHead := 0
  zcanBufRxTail := 0
  zcanUsrBuf := NULL
  zcanUsrBufNum := 0
  zcanUsrRxNum := 0
  zcanUsrRxComp := 0
  chanStatsRxDrop := 0
  usrMsgs := []
  bufRxNum_min := Nat.le_refl _
  bufRxNum_max := by decide
  bufRxHead_lt := by decide
  bufRxTail_lt := by decide

end ApolloContrib.Can
