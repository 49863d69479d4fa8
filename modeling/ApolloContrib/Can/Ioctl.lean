import ApolloContrib.Can.RxUser
import ApolloContrib.Can.TxUser

namespace ApolloContrib.Can

/-! The ioctls of `zcan_ioctl` that transfer messages. -/

def BcanErrCode.toInt : BcanErrCode → Int
  | .BCAN_PARAM_INVALID => -12
  | .BCAN_HDL_INVALID => -11
  | .BCAN_DEV_INVALID => -10
  | .BCAN_DEV_ERR => -9
  | .BCAN_DEV_BUSY => -8
  | .BCAN_TIMEOUT => -7
  | .BCAN_FAIL => -6
  | .BCAN_NOT_SUPPORTED => -5
  | .BCAN_NOT_IMPLEMENTED => -4
  | .BCAN_INVALID => -3
  | .BCAN_NO_BUFFERS => -2
  | .BCAN_ERR => -1
  | .BCAN_OK => 0
  | .BCAN_PARTIAL_OK => 1

/-- `ioc_bcan_msg_t`, with the address of the messages counted in messages. -/
structure IocBcanMsg where
  iocMsgs : Nat
  iocMsgNum : BitVec 32
  iocMsgNumDone : BitVec 32
  iocMsgErr : Int
  iocMsgRxClear : BitVec 32
deriving DecidableEq, Repr

/-- The driver: its configuration, its receive ring and what its transmit
functions have handed to the hardware. A receiver that is not in a call has
received nothing yet. -/
structure ZynqCan where
  pio : ZynqCanPio
  rx : ZynqCanRx
  zcanTxDma : Bool
  txMsgs : List Msg
  usrRxNum_idle : rx.zcanUsrBuf = NULL → rx.zcanUsrRxNum = 0

/-- What surrounds the call of a transfer ioctl. `copyFromUser` is what a failing
`copy_from_user` leaves in the argument, `none` when it succeeds, `devErr` what
`ZDEV_IS_ERR` reads and `copyToUser` whether the copy of the answer succeeds. -/
structure IocCall where
  copyFromUser : Option IocBcanMsg
  devErr : Bool
  copyToUser : Bool

/-- The value of the ioctl, what the user finds in the argument afterwards, the
answer of `zcan_rx_user` or `zcan_tx_user` if the call got there, and the
driver. -/
structure IocResult where
  err : Int
  arg : IocBcanMsg
  answer : Option BcanErrCode
  zcan : ZynqCan

/-- The common exit: `ioc_msg_num_done` and `ioc_msg_err` go back to the user. -/
def iocOut (call : IocCall) (arg kernelArg : IocBcanMsg)
    (answer : Option BcanErrCode) (zcan : ZynqCan) : IocResult where
  err := if call.copyToUser then 0 else -EFAULT
  arg :=
    if call.copyToUser then
      { arg with
        iocMsgNumDone := kernelArg.iocMsgNumDone
        iocMsgErr := kernelArg.iocMsgErr }
    else arg
  answer := answer
  zcan := zcan

def IocBcanMsg.setErr (arg : IocBcanMsg) (err : BcanErrCode) : IocBcanMsg :=
  { arg with iocMsgErr := err.toInt }

def IocBcanMsg.setDone (arg : IocBcanMsg) (done : Nat) (err : BcanErrCode) :
    IocBcanMsg :=
  { arg with
    iocMsgNumDone := BitVec.ofNat 32 done
    iocMsgErr := err.toInt }

namespace ZynqCan

variable (zcan : ZynqCan)

def clearBufRx (rxClear : BitVec 32) : ZynqCan :=
  if rxClear ≠ 0 then
    { zcan with
      rx := zcan.rx.zcanClearBufRx
      usrRxNum_idle := zcan.usrRxNum_idle }
  else zcan

/-- The request that a RECV makes of `zcan_rx_user`; the rest of `rxCall` is what
surrounds it. -/
def rxRequest (arg : IocBcanMsg) (rxCall : RxCall) : RxCall :=
  { rxCall with
    iocMsgs := arg.iocMsgs
    iocMsgNum := arg.iocMsgNum.toNat }

theorem usrRxNum_idle_zcanRxUser (call : RxCall)
    (hidle : (zcan.rx.zcanRxUser call).zcan.zcanUsrBuf = NULL) :
    (zcan.rx.zcanRxUser call).zcan.zcanUsrRxNum = 0 := by
  by_cases hfree : zcan.rx.zcanUsrBuf = NULL
  · exact (ZynqCanRx.zcanRxUser_realizes call hfree (zcan.usrRxNum_idle hfree)).usrRxNum
  · rw [ZynqCanRx.zcanRxUser, if_pos hfree] at hidle ⊢
    exact absurd hidle hfree

def rxUser (call : RxCall) : ZynqCan :=
  { zcan with
    rx := (zcan.rx.zcanRxUser call).zcan
    usrRxNum_idle := zcan.usrRxNum_idle_zcanRxUser call }

def zcanIoctlRecv (arg : IocBcanMsg) (call : IocCall) (rxCall : RxCall) :
    IocResult :=
  match call.copyFromUser with
  | some kernelArg => iocOut call arg (kernelArg.setErr .BCAN_FAIL) none zcan
  | none =>
      let zcan := zcan.clearBufRx arg.iocMsgRxClear
      if call.devErr then
        iocOut call arg (arg.setErr .BCAN_DEV_ERR) none zcan
      else
        let request := rxRequest arg rxCall
        let result := zcan.rx.zcanRxUser request
        iocOut call arg (arg.setDone result.rxDone result.ret) (some result.ret)
          (zcan.rxUser request)

def txUser (msgs : List Msg) : ZynqCan :=
  { zcan with txMsgs := zcan.txMsgs ++ msgs }

/-- `ZYNQ_IOC_CAN_SEND` and, with `txHipri`, `ZYNQ_IOC_CAN_SEND_HIPRI`; `usrMsgs`
is the memory of the user. -/
def zcanIoctlSend (txHipri : Bool) (arg : IocBcanMsg) (call : IocCall)
    (txCall : TxCall) (usrMsgs : Nat → Msg) : IocResult :=
  match call.copyFromUser with
  | some kernelArg => iocOut call arg (kernelArg.setErr .BCAN_FAIL) none zcan
  | none =>
      if call.devErr then
        iocOut call arg (arg.setErr .BCAN_DEV_ERR) none zcan
      else
        let bmsgs := (List.range arg.iocMsgNum.toNat).map fun i =>
          usrMsgs (arg.iocMsgs + i)
        let result := zcanTxUser zcan.pio txHipri zcan.zcanTxDma txCall bmsgs
        iocOut call arg (arg.setDone result.txNumDone result.ret) (some result.ret)
          (zcan.txUser result.txMsgs)

end ZynqCan

theorem BcanErrCode.toInt_neg {err : BcanErrCode} (hok : err ≠ .BCAN_OK)
    (hpartly : err ≠ .BCAN_PARTIAL_OK) : err.toInt < 0 := by
  cases err with
  | BCAN_OK => exact absurd rfl hok
  | BCAN_PARTIAL_OK => exact absurd rfl hpartly
  | _ => decide

/-- The answer of a served request of `num` messages that transferred `done`. -/
structure ServedRequest (num done : Nat) (answer : BcanErrCode) : Prop where
  done_le : done ≤ num
  ok : answer = .BCAN_OK → done = num
  not_partly : answer ≠ .BCAN_PARTIAL_OK

theorem served_txUser {bmsgs : List Msg} {result : TxResult}
    (hsent : TxPrefix bmsgs result) :
    ServedRequest bmsgs.length result.txNumDone result.ret := by
  refine ⟨hsent.done_le, ?_, ?_⟩
  · intro hok
    rcases hsent.ret with hret | hret | hret
    · exact hret.2
    · rw [hok] at hret
      cases hret
    · rw [hok] at hret
      cases hret
  · intro hpartly
    rcases hsent.ret with hret | hret | hret
    · rw [hret.1] at hpartly
      cases hpartly
    · rw [hpartly] at hret
      cases hret
    · rw [hpartly] at hret
      cases hret

namespace ZynqCanRx

theorem copyCount_le_wanted (zcan : ZynqCanRx) (copyFails : Nat → Bool) :
    zcan.copyCount copyFails ≤ zcan.zcanUsrBufNum - zcan.zcanUsrRxNum :=
  Nat.le_trans (zcan.copyCount_le_copyLimit copyFails) (Nat.min_le_left _ _)

theorem served_copied {zcan : ZynqCanRx} (copyFails : Nat → Bool)
    (answer : BcanErrCode) (hnum : zcan.zcanUsrRxNum ≤ zcan.zcanUsrBufNum)
    (hok : answer = .BCAN_OK → (zcan.zcanCopyToUser copyFails).1 = .BCAN_OK)
    (hpartly : answer ≠ .BCAN_PARTIAL_OK) :
    ServedRequest zcan.zcanUsrBufNum
      ((zcan.zcanCopyToUser copyFails).2.rxUserDone answer).rxDone answer := by
  have hcount := zcan.copyCount_le_wanted copyFails
  have hdone : ((zcan.zcanCopyToUser copyFails).2.rxUserDone answer).rxDone =
      zcan.zcanUsrRxNum + zcan.copyCount copyFails :=
    zcan.usrRxNum_zcanCopyToUser copyFails
  rw [hdone]
  refine ⟨by omega, fun hanswer => ?_, hpartly⟩
  exact (zcan.zcanCopyToUser_ok_iff copyFails hnum).mp (hok hanswer)

theorem rxUserAgain_served (zcan : ZynqCanRx) (copyFails : Nat → Bool)
    {partialRet : BcanErrCode} (hnum : zcan.zcanUsrRxNum ≤ zcan.zcanUsrBufNum)
    (hok : partialRet ≠ .BCAN_OK) (hpartly : partialRet ≠ .BCAN_PARTIAL_OK) :
    ServedRequest zcan.zcanUsrBufNum (zcan.rxUserAgain copyFails partialRet).rxDone
      (zcan.rxUserAgain copyFails partialRet).ret := by
  unfold rxUserAgain
  split
  next copied heq =>
    have hserved := served_copied copyFails partialRet hnum
      (fun hanswer => absurd hanswer hok) hpartly
    rw [heq] at hserved
    exact hserved
  next ret copied hne heq =>
    have hserved := served_copied copyFails ret hnum
      (fun hanswer => by rw [heq]; exact hanswer)
      hne
    rw [heq] at hserved
    exact hserved

theorem rxUserWait_served {zcan : ZynqCanRx} (call : RxCall)
    (hnum : zcan.zcanUsrRxNum ≤ zcan.zcanUsrBufNum) :
    ServedRequest zcan.zcanUsrBufNum (zcan.rxUserWait call).rxDone
      (zcan.rxUserWait call).ret := by
  have hwaited := (zcan.setComp 0).sameReceiver_rxPushAll call.arrivals
  have hbufNum : (zcan.waited call).zcanUsrBufNum = zcan.zcanUsrBufNum :=
    hwaited.usrBufNum
  have hrxNum : (zcan.waited call).zcanUsrRxNum = zcan.zcanUsrRxNum :=
    hwaited.usrRxNum
  have hle : (zcan.waited call).zcanUsrRxNum ≤ (zcan.waited call).zcanUsrBufNum := by
    rw [hbufNum, hrxNum]
    exact hnum
  rw [← hbufNum]
  unfold rxUserWait
  cases call.outcome with
  | interrupted => exact ⟨hle, nofun, nofun⟩
  | timedOut =>
      exact rxUserAgain_served (zcan.waited call) call.copyFailsAgain hle
        (by simp) (by simp)
  | woken =>
      exact rxUserAgain_served ((zcan.waited call).setComp
        ((zcan.waited call).zcanUsrRxComp - 1)) call.copyFailsAgain hle
          (by simp) (by simp)

theorem zcanRxUser_served {zcan : ZynqCanRx} (call : RxCall)
    (hidle : zcan.zcanUsrBuf = NULL → zcan.zcanUsrRxNum = 0) :
    ServedRequest call.iocMsgNum (zcan.zcanRxUser call).rxDone
      (zcan.zcanRxUser call).ret := by
  unfold zcanRxUser
  split
  next => exact ⟨Nat.zero_le _, nofun, nofun⟩
  next hfree =>
    have hzero : (zcan.started call).zcanUsrRxNum = 0 := hidle (not_not.mp hfree)
    have hnum : (zcan.started call).zcanUsrRxNum ≤
        (zcan.started call).zcanUsrBufNum := by
      rw [hzero]
      exact Nat.zero_le _
    split
    next copied heq =>
      have hserved := served_copied call.copyFails .BCAN_OK hnum
        (fun _ => by rw [heq]) (by simp)
      rw [heq] at hserved
      exact hserved
    next ret copied hne heq =>
      have hcount := (zcan.started call).copyCount_le_wanted call.copyFails
      have hrxNum := (zcan.started call).usrRxNum_zcanCopyToUser call.copyFails
      have hframe := (zcan.started call).zcanCopyToUser_snd call.copyFails
      have hbufNum : copied.zcanUsrBufNum = call.iocMsgNum := by
        rw [heq] at hframe
        change copied = _ at hframe
        rw [hframe]
        rfl
      rw [heq, hzero, Nat.zero_add] at hrxNum
      rw [hzero, Nat.sub_zero] at hcount
      rw [← hbufNum]
      apply rxUserWait_served call
      rw [hbufNum]
      exact hrxNum.le.trans hcount

end ZynqCanRx

end ApolloContrib.Can
