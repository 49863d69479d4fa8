import ApolloContrib.Can.RxRing
import ApolloContrib.Library.BoundedQueue

namespace ApolloContrib.Can

open ApolloContrib.Library

/-! The ring as a queue of messages: what the producer and the receiver do to
it, apart from the slots. -/

namespace ZynqCanRx

def rxMsgs (zcan : ZynqCanRx) : List Msg := zcan.rxSlots.map zcan.zcanBufRxMsg

@[simp] theorem length_rxMsgs (zcan : ZynqCanRx) :
    zcan.rxMsgs.length = zcan.rxNum := by
  simp [rxMsgs]

def madeRoom (zcan : ZynqCanRx) : ZynqCanRx :=
  if zcan.zcanBufRxFull then zcan.zcanBufIncRxHead ZCAN_IP_RXFIFO_MAX else zcan

theorem rxPush_eq (zcan : ZynqCanRx) (msg : Msg) :
    zcan.rxPush msg = (zcan.madeRoom.writeTail msg).storeTail.zcanUsrRxComplete :=
  rfl

theorem notFull_madeRoom (zcan : ZynqCanRx) :
    zcan.madeRoom.zcanBufRxFull = false := by
  unfold madeRoom
  split
  · rename_i hfull
    exact notFull_incHead zcan (zcan.rxFifoMax_le_rxNum hfull)
  · rename_i hroom
    exact Bool.not_eq_true _ |>.mp hroom

theorem rxMsgs_madeRoom (zcan : ZynqCanRx) :
    zcan.madeRoom.rxMsgs =
      if zcan.rxMsgs.length = zcan.zcanBufRxNum - 1 then
        zcan.rxMsgs.drop ZCAN_IP_RXFIFO_MAX
      else zcan.rxMsgs := by
  have hfull := zcan.zcanBufRxFull_iff
  have hpos := zcan.bufRxNum_pos
  rw [length_rxMsgs]
  unfold madeRoom
  by_cases hnum : zcan.rxNum + 1 = zcan.zcanBufRxNum
  · rw [if_pos (hfull.mpr hnum), if_pos (by omega), rxMsgs,
      rxSlots_incHead _ (zcan.rxFifoMax_le_rxNum (hfull.mpr hnum)), List.map_drop]
    rfl
  · rw [if_neg (mt hfull.mp hnum), if_neg (by omega)]

theorem rxMsgs_storeTail (zcan : ZynqCanRx) (hroom : zcan.zcanBufRxFull = false) :
    zcan.storeTail.rxMsgs =
      zcan.rxMsgs ++ [zcan.zcanBufRxMsg zcan.zcanBufRxTail] := by
  rw [rxMsgs, rxSlots_storeTail zcan hroom, List.map_append, List.map_singleton]
  rfl

theorem rxMsgs_writeTail (zcan : ZynqCanRx) (msg : Msg) :
    (zcan.writeTail msg).rxMsgs = zcan.rxMsgs :=
  List.map_congr_left fun _ hi => zcan.writeTail_slot msg hi

theorem rxMsgs_usrRxComplete (zcan : ZynqCanRx) :
    zcan.zcanUsrRxComplete.rxMsgs = zcan.rxMsgs := by
  obtain ⟨comp, hcomp⟩ := zcan.zcanUsrRxComplete_frame
  rw [hcomp]
  rfl

theorem rxMsgs_rxPush (zcan : ZynqCanRx) (msg : Msg) :
    (zcan.rxPush msg).rxMsgs =
      overflowPush (zcan.zcanBufRxNum - 1) ZCAN_IP_RXFIFO_MAX zcan.rxMsgs msg := by
  have htail : (zcan.madeRoom.writeTail msg).zcanBufRxMsg
      (zcan.madeRoom.writeTail msg).zcanBufRxTail = msg :=
    Function.update_self ..
  have hroom : (zcan.madeRoom.writeTail msg).zcanBufRxFull = false :=
    zcan.notFull_madeRoom
  rw [rxPush_eq, rxMsgs_usrRxComplete, rxMsgs_storeTail _ hroom, htail, rxMsgs_writeTail,
    rxMsgs_madeRoom]
  rfl

structure SameReceiver (zcan zcan' : ZynqCanRx) : Prop where
  bufRxNum : zcan'.zcanBufRxNum = zcan.zcanBufRxNum
  usrBuf : zcan'.zcanUsrBuf = zcan.zcanUsrBuf
  usrBufNum : zcan'.zcanUsrBufNum = zcan.zcanUsrBufNum
  usrRxNum : zcan'.zcanUsrRxNum = zcan.zcanUsrRxNum
  usrMsgs : zcan'.usrMsgs = zcan.usrMsgs

theorem sameReceiver_rxPush (zcan : ZynqCanRx) (msg : Msg) :
    SameReceiver zcan (zcan.rxPush msg) := by
  obtain ⟨comp, hcomp⟩ :=
    ((zcan.madeRoom.writeTail msg).storeTail).zcanUsrRxComplete_frame
  rw [rxPush_eq, hcomp]
  unfold madeRoom
  split <;> exact ⟨rfl, rfl, rfl, rfl, rfl⟩

theorem sameReceiver_rxPushAll (zcan : ZynqCanRx) (msgs : List Msg) :
    SameReceiver zcan (msgs.foldl rxPush zcan) := by
  induction msgs generalizing zcan with
  | nil => exact ⟨rfl, rfl, rfl, rfl, rfl⟩
  | cons msg msgs ih =>
      have hfirst := zcan.sameReceiver_rxPush msg
      have hrest := ih (zcan.rxPush msg)
      exact ⟨hrest.bufRxNum.trans hfirst.bufRxNum,
        hrest.usrBuf.trans hfirst.usrBuf,
        hrest.usrBufNum.trans hfirst.usrBufNum,
        hrest.usrRxNum.trans hfirst.usrRxNum,
        hrest.usrMsgs.trans hfirst.usrMsgs⟩

theorem rxMsgs_rxPushAll (zcan : ZynqCanRx) (msgs : List Msg) :
    (msgs.foldl rxPush zcan).rxMsgs =
      overflowPushAll (zcan.zcanBufRxNum - 1) ZCAN_IP_RXFIFO_MAX zcan.rxMsgs
        msgs := by
  induction msgs generalizing zcan with
  | nil => rfl
  | cons msg msgs ih =>
      have hrest := ih (zcan.rxPush msg)
      rw [rxMsgs_rxPush, (zcan.sameReceiver_rxPush msg).bufRxNum] at hrest
      exact hrest

/-- A copy takes messages off the front, and converts the next one in place when
it fails there. -/
theorem rxMsgs_copied (zcan : ZynqCanRx) {count limit : Nat}
    (hcount : count ≤ limit) (hlimit : limit ≤ zcan.rxNum) :
    (zcan.copied count (min (count + 1) limit)).rxMsgs =
      if count < limit then (zcan.rxMsgs.drop count).modifyHead zcanToBcan
      else zcan.rxMsgs.drop count := by
  have hrest : ∀ {taken}, taken ≤ zcan.rxNum →
      ∀ i ∈ zcan.rxSlots.drop taken,
        convertSlots zcan.zcanBufRxMsg (ringIndices zcan.zcanBufRxNum
          zcan.zcanBufRxHead taken) i = zcan.zcanBufRxMsg i := by
    intro taken htaken i hi
    apply if_neg
    rw [← take_ringIndices htaken]
    intro hmem
    exact List.disjoint_take_drop zcan.rxSlots_nodup (Nat.le_refl _) hmem hi
  rw [rxMsgs, rxSlots_copied _ _ (Nat.le_trans hcount hlimit)]
  rcases Nat.lt_or_eq_of_le hcount with hfault | rfl
  · rw [Nat.min_eq_left hfault, if_pos hfault]
    have hlen : count < zcan.rxSlots.length := by
      rw [length_rxSlots]
      omega
    rw [rxMsgs, ← List.map_drop, List.drop_eq_getElem_cons hlen, List.map_cons,
      List.map_cons, List.modifyHead_cons]
    congr 1
    · apply if_pos
      rw [← take_ringIndices (Nat.le_trans hfault hlimit)]
      change _ ∈ zcan.rxSlots.take (count + 1)
      exact List.mem_take_iff_getElem.mpr ⟨count, by omega, rfl⟩
    · exact List.map_congr_left (hrest (Nat.le_trans hfault hlimit))
  · rw [Nat.min_eq_right (Nat.le_succ _), if_neg (Nat.lt_irrefl _), rxMsgs,
      ← List.map_drop]
    exact List.map_congr_left (hrest hlimit)

theorem usrMsgs_copied (zcan : ZynqCanRx) {count : Nat} (touched : Nat)
    (hcount : count ≤ zcan.rxNum) :
    (zcan.copied count touched).usrMsgs =
      zcan.usrMsgs ++ ((zcan.rxMsgs.take count).map zcanToBcan).mapIdx
        fun i msg => (zcan.usrAddr + i, msg) := by
  have htake : zcan.rxMsgs.take count = (List.range count).map fun i =>
      zcan.zcanBufRxMsg ((zcan.zcanBufRxHead + i) % zcan.zcanBufRxNum) := by
    rw [rxMsgs, ← List.map_take, rxSlots, take_ringIndices hcount, ringIndices,
      List.map_map]
    rfl
  rw [htake, List.map_map]
  apply congrArg (zcan.usrMsgs ++ ·)
  apply List.ext_getElem
  · simp
  · intro i _ _
    simp

end ZynqCanRx

end ApolloContrib.Can
