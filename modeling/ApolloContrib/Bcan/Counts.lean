import ApolloContrib.Bcan.Lib

namespace ApolloContrib.Bcan

open ApolloContrib.Can

/-! The counts that `bcan_recv`, `bcan_send` and `bcan_send_hi_pri` report. -/

/-- A positive `ret` is the number of items transferred, which are the first of
the buffer; without any transfer `ret` is negative, or 0 on success. -/
structure CountExact {α : Type*} (transferred : List α) (firstOf : Nat → List α)
    (ret : Int) (answer : Option BcanErrCode) : Prop where
  positive : 0 < ret →
    transferred.length = ret.toNat ∧ transferred = firstOf ret.toNat
  nothing : transferred = [] → ret < 0 ∨ ret = 0 ∧ answer = some .BCAN_OK

def bufAddrs (buf n : Nat) : List Nat := (List.range n).map (buf + ·)

/-- The call stored messages at addresses of which `CountExact` holds. -/
def RecvExact (sys : BcanSystem) (buf : Nat) (result : IoResult) : Prop :=
  ∃ got, result.sys.zcan.rx.usrMsgs = sys.zcan.rx.usrMsgs ++ got ∧
    CountExact (got.map Prod.fst) (bufAddrs buf) result.ret result.answer

def bufFrames (usrMsgs : Nat → Msg) (buf num n : Nat) : List Msg :=
  (((List.range num).map fun i => usrMsgs (buf + i)).take n).map bcanToZcan

def SendExact (sys : BcanSystem) (usrMsgs : Nat → Msg) (buf num : Nat)
    (result : IoResult) : Prop :=
  ∃ got, result.sys.zcan.txMsgs = sys.zcan.txMsgs ++ got ∧
    CountExact got (bufFrames usrMsgs buf num) result.ret result.answer

/-- The driver leaves before it serves the request, and the count that goes back
to the library, its own or that of a failed copy, is one the library takes. -/
def StaleCount (taken : BitVec 32 → Prop) (stack : IocBcanMsg) (call : IocCall) :
    Prop :=
  call.copyToUser = true ∧
    match call.copyFromUser with
    | some kernelArg => taken kernelArg.iocMsgNumDone
    | none => call.devErr = true ∧ taken stack.iocMsgNumDone

def PositiveCount (numDone : BitVec 32) : Prop := 0 < numDone.toInt

def OneCount (numDone : BitVec 32) : Prop := numDone = 1

def Requested (sys : BcanSystem) (numMsg : BitVec 32) (max : Nat) : Prop :=
  numMsg ≠ 0 ∧ numMsg.toNat ≤ max ∧ IsStarted sys.hdl

section Unserved

variable {α : Type*} {firstOf : Nat → List α} {ret : Int}

theorem countExact_nil_iff :
    CountExact ([] : List α) firstOf ret none ↔ ret < 0 := by
  constructor
  · intro hexact
    rcases hexact.nothing rfl with hneg | ⟨_, hnone⟩
    · exact hneg
    · cases hnone
  · intro hneg
    exact ⟨fun hpos => absurd hpos (by omega), fun _ => Or.inl hneg⟩

end Unserved

/-- `ret` answers -1 when the ioctl fails, and otherwise the count it finds, or
the error if it does not take the count. -/
structure ReadsBack (ret : IocResult → Int) (taken : BitVec 32 → Prop) : Prop where
  taken_pos : ∀ {numDone}, taken numDone → 0 < numDone.toInt
  failed : ∀ {result}, result.err < 0 → ret result = BcanErrCode.BCAN_ERR.toInt
  count : ∀ {result}, ¬ result.err < 0 → taken result.arg.iocMsgNumDone →
    ret result = result.arg.iocMsgNumDone.toInt
  other : ∀ {result}, ¬ result.err < 0 → ¬ taken result.arg.iocMsgNumDone →
    ret result < 0 ∨ ret result = result.arg.iocMsgErr

theorem readsBack_countRet : ReadsBack countRet PositiveCount where
  taken_pos := id
  failed hfailed := if_pos hfailed
  count {result} hok htaken := by
    have hne : result.arg.iocMsgNumDone ≠ 0 := by
      intro hzero
      rw [PositiveCount, hzero] at htaken
      exact absurd htaken (by decide)
    rw [countRet, if_neg hok, if_pos hne]
  other {result} hok hnot := by
    rw [countRet, if_neg hok]
    split
    next hne =>
      have hne : result.arg.iocMsgNumDone.toInt ≠ 0 := by
        intro hzero
        exact hne (BitVec.eq_of_toInt_eq hzero)
      unfold PositiveCount at hnot
      exact Or.inl (by omega)
    next => exact Or.inr rfl

theorem readsBack_hiPriRet : ReadsBack hiPriRet OneCount where
  taken_pos {numDone} htaken := by
    rw [show numDone = 1 from htaken]
    decide
  failed hfailed := if_pos hfailed
  count {result} hok htaken := by
    have hone : result.arg.iocMsgNumDone = 1 := htaken
    rw [hiPriRet, if_neg hok, if_pos hone, hone]
    rfl
  other {result} hok hnot := by
    have hne : ¬ result.arg.iocMsgNumDone = 1 := hnot
    rw [hiPriRet, if_neg hok, if_neg hne]
    exact Or.inr rfl

section Exits

variable {ret : IocResult → Int} {taken : BitVec 32 → Prop}

theorem iocOut_err_neg_iff {call : IocCall} {arg kernelArg : IocBcanMsg}
    {answer : Option BcanErrCode} {zcan : ZynqCan} :
    (iocOut call arg kernelArg answer zcan).err < 0 ↔ call.copyToUser = false := by
  change (if call.copyToUser = true then (0 : Int) else -EFAULT) < 0 ↔ _
  cases call.copyToUser with
  | false => decide
  | true => decide

theorem iocOut_arg {call : IocCall} (arg kernelArg : IocBcanMsg)
    (answer : Option BcanErrCode) (zcan : ZynqCan) (hcopied : call.copyToUser = true) :
    (iocOut call arg kernelArg answer zcan).arg.iocMsgNumDone =
        kernelArg.iocMsgNumDone ∧
      (iocOut call arg kernelArg answer zcan).arg.iocMsgErr = kernelArg.iocMsgErr := by
  simp only [iocOut, hcopied, if_true, and_self]

theorem toInt_ofNat_of_le_max {done : Nat} (hmax : done ≤ BCAN_MAX_RX_MSG) :
    (BitVec.ofNat 32 done).toInt = done := by
  unfold BCAN_MAX_RX_MSG at hmax
  have hnat : (BitVec.ofNat 32 done).toNat = done := by
    rw [BitVec.toNat_ofNat]
    omega
  rw [BitVec.toInt_eq_toNat_of_lt (by rw [hnat]; omega), hnat]

/-- An ioctl that leaves with the error `err` before it serves the request has a
negative value, unless the library takes the count for the answer. -/
theorem unserved_ret_neg_iff (hreads : ReadsBack ret taken) (call : IocCall)
    (arg kernelArg : IocBcanMsg) {err : BcanErrCode} (herr : err.toInt < 0)
    (zcan : ZynqCan) :
    ret (iocOut call arg (kernelArg.setErr err) none zcan) < 0 ↔
      ¬ (call.copyToUser = true ∧ taken kernelArg.iocMsgNumDone) := by
  cases hcopied : call.copyToUser with
  | false =>
      rw [hreads.failed (iocOut_err_neg_iff.mpr hcopied)]
      exact iff_of_true (by decide) (fun hboth => Bool.false_ne_true hboth.1)
  | true =>
      have hok : ¬ (iocOut call arg (kernelArg.setErr err) none zcan).err < 0 := by
        rw [iocOut_err_neg_iff, hcopied]
        exact nofun
      obtain ⟨hnum, hmsgErr⟩ := iocOut_arg arg (kernelArg.setErr err) none zcan hcopied
      simp only [true_and]
      constructor
      · intro hneg htaken
        rw [hreads.count hok (by rw [hnum]; exact htaken), hnum] at hneg
        have hpos := hreads.taken_pos htaken
        exact absurd hneg (Int.not_lt.mpr hpos.le)
      · intro hnot
        rcases hreads.other hok (by rw [hnum]; exact hnot) with hneg | herrRet
        · exact hneg
        · rw [herrRet, hmsgErr]
          exact herr

theorem served_countExact {α : Type*} {transferred : List α}
    {firstOf : Nat → List α} (hreads : ReadsBack ret taken) (call : IocCall)
    (arg : IocBcanMsg) {num done : Nat} {answer : BcanErrCode}
    (hserved : ServedRequest num done answer) (hnum : 0 < num) (hmax : num ≤ BCAN_MAX_RX_MSG)
    (htaken : ∀ count, 0 < count → count ≤ num → taken (BitVec.ofNat 32 count))
    (hlength : transferred.length = done) (hfirst : transferred = firstOf done)
    (zcan : ZynqCan) :
    CountExact transferred firstOf
      (ret (iocOut call arg (arg.setDone done answer) (some answer) zcan))
      (some answer) := by
  have hle := hserved.done_le
  have hzero (hnone : transferred = []) : answer.toInt < 0 := by
    rw [hnone] at hlength
    refine BcanErrCode.toInt_neg (fun hok => ?_) hserved.not_partly
    have hall := hserved.ok hok
    simp only [List.length_nil] at hlength
    omega
  cases hcopied : call.copyToUser with
  | false =>
      rw [hreads.failed (iocOut_err_neg_iff.mpr hcopied)]
      exact ⟨fun hpos => absurd hpos (by decide), fun _ => Or.inl (by decide)⟩
  | true =>
      have hok : ¬ (iocOut call arg (arg.setDone done answer) (some answer)
          zcan).err < 0 := by
        rw [iocOut_err_neg_iff, hcopied]
        exact nofun
      obtain ⟨hdone, hmsgErr⟩ := iocOut_arg arg (arg.setDone done answer) (some answer)
        zcan hcopied
      have hdone : (iocOut call arg (arg.setDone done answer) (some answer)
          zcan).arg.iocMsgNumDone = BitVec.ofNat 32 done := hdone
      have hmsgErr : (iocOut call arg (arg.setDone done answer) (some answer)
          zcan).arg.iocMsgErr = answer.toInt := hmsgErr
      rcases Nat.eq_zero_or_pos done with rfl | hpos
      · have hnone : transferred = [] := List.length_eq_zero_iff.mp hlength
        have hneg := hzero hnone
        have hnot : ¬ taken (BitVec.ofNat 32 0) := by
          intro htaken
          exact absurd (hreads.taken_pos htaken) (by decide)
        have hret : ret (iocOut call arg (arg.setDone 0 answer) (some answer)
            zcan) < 0 := by
          rcases hreads.other hok (by rw [hdone]; exact hnot) with hret | hret
          · exact hret
          · rw [hret, hmsgErr]
            exact hneg
        exact ⟨fun hgreater => absurd hgreater (Int.not_lt.mpr hret.le),
          fun _ => Or.inl hret⟩
      · have hint := toInt_ofNat_of_le_max (hle.trans hmax)
        have hret := hreads.count hok (by rw [hdone]; exact htaken done hpos hle)
        rw [hdone, hint] at hret
        rw [hret]
        refine ⟨fun _ => ⟨hlength, hfirst⟩, fun hnone => ?_⟩
        rw [hnone] at hlength
        simp only [List.length_nil] at hlength
        omega

/-- How a transfer ioctl ends: before it serves the request, with the count of
`kernelArg` on its way back, or with what it transferred. -/
inductive IocExit {α : Type*} (call : IocCall) (arg : IocBcanMsg)
    (firstOf : Nat → List α) : IocResult → List α → Prop
  | unserved (kernelArg : IocBcanMsg) (err : BcanErrCode) (zcan : ZynqCan)
      (hleft : call.copyFromUser = some kernelArg ∨
        call.copyFromUser = none ∧ call.devErr = true ∧ kernelArg = arg)
      (herr : err.toInt < 0) :
      IocExit call arg firstOf (iocOut call arg (kernelArg.setErr err) none zcan) []
  | served (done : Nat) (answer : BcanErrCode) (transferred : List α) (zcan : ZynqCan)
      (hfrom : call.copyFromUser = none) (halive : call.devErr = false)
      (hserved : ServedRequest arg.iocMsgNum.toNat done answer)
      (hlength : transferred.length = done) (hfirst : transferred = firstOf done) :
      IocExit call arg firstOf
        (iocOut call arg (arg.setDone done answer) (some answer) zcan) transferred

theorem IocExit.countExact_iff {α : Type*} {firstOf : Nat → List α} {call : IocCall}
    {arg : IocBcanMsg} {result : IocResult} {transferred : List α}
    (hexit : IocExit call arg firstOf result transferred)
    (hreads : ReadsBack ret taken) (hnum : 0 < arg.iocMsgNum.toNat)
    (hmax : arg.iocMsgNum.toNat ≤ BCAN_MAX_RX_MSG)
    (htaken : ∀ count, 0 < count → count ≤ arg.iocMsgNum.toNat →
      taken (BitVec.ofNat 32 count)) :
    CountExact transferred firstOf (ret result) result.answer ↔
      ¬ StaleCount taken arg call := by
  cases hexit with
  | unserved kernelArg err zcan hleft herr =>
      have hret := unserved_ret_neg_iff hreads call arg kernelArg herr zcan
      refine countExact_nil_iff.trans (hret.trans (not_congr ?_))
      unfold StaleCount
      rcases hleft with hfrom | ⟨hfrom, hdead, rfl⟩
      · rw [hfrom]
      · rw [hfrom, hdead]
        simp only [true_and]
  | served done answer transferred zcan hfrom halive hserved hlength hfirst =>
      refine iff_of_true ?_ ?_
      · exact served_countExact hreads call arg hserved hnum hmax htaken hlength
          hfirst zcan
      · unfold StaleCount
        rw [hfrom, halive]
        exact fun hstale => Bool.false_ne_true hstale.2.1

end Exits

theorem map_fst_mapIdx (msgs : List Msg) (buf : Nat) :
    (msgs.mapIdx fun i msg => (buf + i, msg)).map Prod.fst =
      bufAddrs buf msgs.length := by
  apply List.ext_getElem
  · simp [bufAddrs]
  · intro i _ _
    simp [bufAddrs]

theorem zcanRxUser_stores {zcan : ZynqCanRx} (call : RxCall)
    (hidle : zcan.zcanUsrBuf = NULL → zcan.zcanUsrRxNum = 0) :
    ∃ got, (zcan.zcanRxUser call).zcan.usrMsgs = zcan.usrMsgs ++ got ∧
      got.map Prod.fst = bufAddrs call.iocMsgs (zcan.zcanRxUser call).rxDone := by
  by_cases hfree : zcan.zcanUsrBuf = NULL
  · have hcode := ZynqCanRx.zcanRxUser_realizes call hfree (hidle hfree)
    refine ⟨_, hcode.usrMsgs, ?_⟩
    rw [map_fst_mapIdx, List.length_map, hcode.rxDone]
  · refine ⟨[], ?_, ?_⟩
    · rw [ZynqCanRx.zcanRxUser, if_pos hfree, List.append_nil]
    · rw [ZynqCanRx.zcanRxUser, if_pos hfree]
      rfl

theorem clearBufRx_usrMsgs (zcan : ZynqCan) (rxClear : BitVec 32) :
    (zcan.clearBufRx rxClear).rx.usrMsgs = zcan.rx.usrMsgs := by
  unfold ZynqCan.clearBufRx
  split <;> rfl

theorem zcanIoctlRecv_exit (zcan : ZynqCan) (arg : IocBcanMsg) (call : IocCall)
    (rxCall : RxCall) :
    ∃ got, (zcan.zcanIoctlRecv arg call rxCall).zcan.rx.usrMsgs =
        zcan.rx.usrMsgs ++ got ∧
      IocExit call arg (bufAddrs arg.iocMsgs) (zcan.zcanIoctlRecv arg call rxCall)
        (got.map Prod.fst) := by
  unfold ZynqCan.zcanIoctlRecv
  cases hfrom : call.copyFromUser with
  | some kernelArg =>
      refine ⟨[], (List.append_nil _).symm, ?_⟩
      exact .unserved kernelArg _ _ (Or.inl hfrom) (by decide)
  | none =>
      dsimp only
      cases hdev : call.devErr with
      | true =>
          refine ⟨[], ?_, ?_⟩
          · exact (clearBufRx_usrMsgs zcan _).trans (List.append_nil _).symm
          · exact .unserved arg _ _ (Or.inr ⟨hfrom, hdev, rfl⟩) (by decide)
      | false =>
          have hidle := (zcan.clearBufRx arg.iocMsgRxClear).usrRxNum_idle
          obtain ⟨got, hgot, haddr⟩ := zcanRxUser_stores
            (ZynqCan.rxRequest arg rxCall) hidle
          refine ⟨got, ?_, ?_⟩
          · rw [clearBufRx_usrMsgs] at hgot
            exact hgot
          · refine .served _ _ _ _ hfrom hdev ?_ ?_ haddr
            · exact ZynqCanRx.zcanRxUser_served (ZynqCan.rxRequest arg rxCall) hidle
            · rw [haddr]
              simp [bufAddrs]

theorem zcanIoctlSend_exit (zcan : ZynqCan) (txHipri : Bool) (arg : IocBcanMsg)
    (call : IocCall) (txCall : TxCall) (usrMsgs : Nat → Msg) :
    ∃ got, (zcan.zcanIoctlSend txHipri arg call txCall usrMsgs).zcan.txMsgs =
        zcan.txMsgs ++ got ∧
      IocExit call arg (bufFrames usrMsgs arg.iocMsgs arg.iocMsgNum.toNat)
        (zcan.zcanIoctlSend txHipri arg call txCall usrMsgs) got := by
  unfold ZynqCan.zcanIoctlSend
  cases hfrom : call.copyFromUser with
  | some kernelArg =>
      refine ⟨[], (List.append_nil _).symm, ?_⟩
      exact .unserved kernelArg _ _ (Or.inl hfrom) (by decide)
  | none =>
      dsimp only
      cases hdev : call.devErr with
      | true =>
          refine ⟨[], (List.append_nil _).symm, ?_⟩
          exact .unserved arg _ _ (Or.inr ⟨hfrom, hdev, rfl⟩) (by decide)
      | false =>
          have hsent := txPrefix_zcanTxUser zcan.pio txHipri zcan.zcanTxDma txCall
            ((List.range arg.iocMsgNum.toNat).map fun i => usrMsgs (arg.iocMsgs + i))
          have hserved := served_txUser hsent
          have hle := hsent.done_le
          rw [List.length_map, List.length_range] at hserved hle
          refine ⟨_, rfl, .served _ _ _ _ hfrom hdev hserved ?_ hsent.txMsgs⟩
          rw [hsent.txMsgs]
          simp [hle]

section Library

variable (sys : BcanSystem)

theorem recvExact_iff {buf : Nat} {result : IoResult} {got : List (Nat × Msg)}
    (hgot : result.sys.zcan.rx.usrMsgs = sys.zcan.rx.usrMsgs ++ got) :
    RecvExact sys buf result ↔
      CountExact (got.map Prod.fst) (bufAddrs buf) result.ret result.answer := by
  constructor
  · rintro ⟨other, hother, hexact⟩
    obtain rfl := List.append_cancel_left (hgot.symm.trans hother)
    exact hexact
  · intro hexact
    exact ⟨got, hgot, hexact⟩

theorem sendExact_iff {usrMsgs : Nat → Msg} {buf num : Nat} {result : IoResult}
    {got : List Msg} (hgot : result.sys.zcan.txMsgs = sys.zcan.txMsgs ++ got) :
    SendExact sys usrMsgs buf num result ↔
      CountExact got (bufFrames usrMsgs buf num) result.ret result.answer := by
  constructor
  · rintro ⟨other, hother, hexact⟩
    obtain rfl := List.append_cancel_left (hgot.symm.trans hother)
    exact hexact
  · intro hexact
    exact ⟨got, hgot, hexact⟩

theorem recvExact_refused (buf : Nat) {err : BcanErrCode} (herr : err.toInt < 0) :
    RecvExact sys buf (sys.ioRefused err) := by
  have hgot : (sys.ioRefused err).sys.zcan.rx.usrMsgs = sys.zcan.rx.usrMsgs ++ [] :=
    (List.append_nil _).symm
  exact (recvExact_iff sys hgot).mpr (countExact_nil_iff.mpr herr)

theorem sendExact_refused (usrMsgs : Nat → Msg) (buf num : Nat) {err : BcanErrCode}
    (herr : err.toInt < 0) : SendExact sys usrMsgs buf num (sys.ioRefused err) := by
  have hgot : (sys.ioRefused err).sys.zcan.txMsgs = sys.zcan.txMsgs ++ [] :=
    (List.append_nil _).symm
  exact (sendExact_iff sys hgot).mpr (countExact_nil_iff.mpr herr)

theorem positiveCount_of_le {numMsg : BitVec 32} (hmax : numMsg.toNat ≤ BCAN_MAX_RX_MSG)
    (count : Nat) (hpos : 0 < count) (hle : count ≤ numMsg.toNat) :
    PositiveCount (BitVec.ofNat 32 count) := by
  rw [PositiveCount, toInt_ofNat_of_le_max (hle.trans hmax)]
  exact Int.natCast_pos.mpr hpos

theorem not_requested_of_range {numMsg : BitVec 32} {max : Nat} {taken : Prop}
    (hrange : numMsg = 0 ∨ max < numMsg.toNat) :
    ¬ (Requested sys numMsg max ∧ taken) := by
  rintro ⟨⟨hnum, hmax, _⟩, _⟩
  rcases hrange with hzero | hbig
  · exact hnum hzero
  · exact Nat.not_le.mpr hbig hmax

theorem toNat_pos_of_ne_zero {numMsg : BitVec 32} (hnum : numMsg ≠ 0) :
    0 < numMsg.toNat :=
  Nat.pos_of_ne_zero fun hzero => hnum (BitVec.eq_of_toNat_eq hzero)

theorem bcanRecv_exact_iff (buf : Nat) (numMsg : BitVec 32) (stack : IocBcanMsg)
    (call : IocCall) (rxCall : RxCall) :
    RecvExact sys buf (sys.bcanRecv buf numMsg stack call rxCall) ↔
      ¬ (Requested sys numMsg BCAN_MAX_RX_MSG ∧
        StaleCount PositiveCount stack call) := by
  by_cases hrange : numMsg = 0 ∨ BCAN_MAX_RX_MSG < numMsg.toNat
  · rw [BcanSystem.bcanRecv, if_pos hrange]
    exact iff_of_true (recvExact_refused sys buf (by decide))
      (not_requested_of_range sys hrange)
  · obtain ⟨hnum, hmax⟩ := not_or.mp hrange
    have hmax := Nat.not_lt.mp hmax
    rw [BcanSystem.bcanRecv, if_neg hrange]
    split
    next hdl hhdl hcheck =>
      have hstarted := (bcanCheckState_active_iff sys.hdl).mp hcheck
      obtain ⟨got, hgot, hexit⟩ := zcanIoctlRecv_exit sys.zcan
        { BcanSystem.iocArg stack buf numMsg with
          iocMsgRxClear := BcanSystem.rxClear hdl } call rxCall
      rw [recvExact_iff sys hgot]
      refine (hexit.countExact_iff readsBack_countRet (toNat_pos_of_ne_zero hnum) hmax
        (positiveCount_of_le hmax)).trans (not_congr ?_)
      exact ⟨fun hstale => ⟨⟨hnum, hmax, hstarted⟩, hstale⟩, fun hboth => hboth.2⟩
    next hne =>
      refine iff_of_true ?_ (fun hboth => ?_)
      · apply recvExact_refused
        apply bcanCheckState_neg
        intro hok
        obtain ⟨hdl, hhdl, _⟩ := (bcanCheckState_active_iff sys.hdl).mp hok
        exact hne hdl hhdl hok
      · obtain ⟨⟨_, _, hstarted⟩, _⟩ := hboth
        have hok := (bcanCheckState_active_iff sys.hdl).mpr hstarted
        obtain ⟨hdl, hhdl, _⟩ := hstarted
        exact hne hdl hhdl hok

theorem bcanSend_exact_iff (buf : Nat) (numMsg : BitVec 32) (stack : IocBcanMsg)
    (call : IocCall) (txCall : TxCall) (usrMsgs : Nat → Msg) :
    SendExact sys usrMsgs buf numMsg.toNat
        (sys.bcanSend buf numMsg stack call txCall usrMsgs) ↔
      ¬ (Requested sys numMsg BCAN_MAX_TX_MSG ∧
        StaleCount PositiveCount stack call) := by
  by_cases hrange : numMsg = 0 ∨ BCAN_MAX_TX_MSG < numMsg.toNat
  · rw [BcanSystem.bcanSend, if_pos hrange]
    exact iff_of_true (sendExact_refused sys usrMsgs buf _ (by decide))
      (not_requested_of_range sys hrange)
  · obtain ⟨hnum, hmax⟩ := not_or.mp hrange
    have hmax := Nat.not_lt.mp hmax
    rw [BcanSystem.bcanSend, if_neg hrange]
    split
    next hcheck =>
      have hstarted := (bcanCheckState_active_iff sys.hdl).mp hcheck
      obtain ⟨got, hgot, hexit⟩ := zcanIoctlSend_exit sys.zcan false
        (BcanSystem.iocArg stack buf numMsg) call txCall usrMsgs
      rw [sendExact_iff sys hgot]
      refine (hexit.countExact_iff readsBack_countRet (toNat_pos_of_ne_zero hnum) hmax
        (positiveCount_of_le hmax)).trans (not_congr ?_)
      exact ⟨fun hstale => ⟨⟨hnum, hmax, hstarted⟩, hstale⟩, fun hboth => hboth.2⟩
    next hne =>
      refine iff_of_true ?_ (fun hboth => hne ?_)
      · exact sendExact_refused sys usrMsgs buf _ (bcanCheckState_neg hne)
      · exact (bcanCheckState_active_iff sys.hdl).mpr hboth.1.2.2

theorem bcanSendHiPri_exact_iff (buf : Nat) (stack : IocBcanMsg) (call : IocCall)
    (txCall : TxCall) (usrMsgs : Nat → Msg) :
    SendExact sys usrMsgs buf 1 (sys.bcanSendHiPri buf stack call txCall usrMsgs) ↔
      ¬ (IsStarted sys.hdl ∧ StaleCount OneCount stack call) := by
  rw [BcanSystem.bcanSendHiPri]
  split
  next hcheck =>
    have hstarted := (bcanCheckState_active_iff sys.hdl).mp hcheck
    obtain ⟨got, hgot, hexit⟩ := zcanIoctlSend_exit sys.zcan true
      (BcanSystem.iocArg stack buf 1) call txCall usrMsgs
    rw [sendExact_iff sys hgot]
    have hone (count : Nat) (hpos : 0 < count) (hle : count ≤ 1) :
        OneCount (BitVec.ofNat 32 count) := by
      obtain rfl : count = 1 := Nat.le_antisymm hle hpos
      rfl
    have hmax : (1 : BitVec 32).toNat ≤ BCAN_MAX_RX_MSG := by decide
    refine (hexit.countExact_iff readsBack_hiPriRet Nat.one_pos hmax hone).trans
      (not_congr ?_)
    exact ⟨fun hstale => ⟨hstarted, hstale⟩, fun hboth => hboth.2⟩
  next hne =>
    refine iff_of_true ?_ (fun hboth => hne ?_)
    · exact sendExact_refused sys usrMsgs buf _ (bcanCheckState_neg hne)
    · exact (bcanCheckState_active_iff sys.hdl).mpr hboth.1

/-- Each transfer call reports an exact count unless the driver leaves early and
hands back a count, left over on one of the stacks, that the library takes. -/
theorem bcan_counts_iff (buf : Nat) (numMsg : BitVec 32) (stack : IocBcanMsg)
    (call : IocCall) (rxCall : RxCall) (txCall : TxCall) (usrMsgs : Nat → Msg) :
    (RecvExact sys buf (sys.bcanRecv buf numMsg stack call rxCall) ↔
      ¬ (Requested sys numMsg BCAN_MAX_RX_MSG ∧ StaleCount PositiveCount stack call)) ∧
    (SendExact sys usrMsgs buf numMsg.toNat
        (sys.bcanSend buf numMsg stack call txCall usrMsgs) ↔
      ¬ (Requested sys numMsg BCAN_MAX_TX_MSG ∧ StaleCount PositiveCount stack call)) ∧
    (SendExact sys usrMsgs buf 1 (sys.bcanSendHiPri buf stack call txCall usrMsgs) ↔
      ¬ (IsStarted sys.hdl ∧ StaleCount OneCount stack call)) :=
  ⟨bcanRecv_exact_iff sys buf numMsg stack call rxCall,
    bcanSend_exact_iff sys buf numMsg stack call txCall usrMsgs,
    bcanSendHiPri_exact_iff sys buf stack call txCall usrMsgs⟩

end Library

def startedChannel : BcanSystem where
  zcan :=
    { pio := (ZynqCanPio.initialised .ZCAN_IP_NORMAL 256).zcanPioStart
      rx := smallestRing
      zcanTxDma := false
      txMsgs := []
      usrRxNum_idle := fun _ => rfl }
  hdl := some ⟨BCAN_DEV_OPEN ||| BCAN_DEV_BAUD_SET ||| BCAN_DEV_START, 1⟩

def deadDevice : IocCall where
  copyFromUser := none
  devErr := true
  copyToUser := true

/-- On a dead device `bcan_recv` answers the 5 that lay on its stack. -/
theorem bcanRecv_dead_not_exact :
    ¬ RecvExact startedChannel 1 (startedChannel.bcanRecv 1 8 ⟨0, 0, 5, 0, 0⟩
      deadDevice ⟨1, 8, fun _ => false, [], .timedOut, fun _ => false⟩) := by
  intro hexact
  have hrequested : Requested startedChannel 8 BCAN_MAX_RX_MSG :=
    ⟨by decide, by decide, _, rfl, by decide⟩
  have hstale : StaleCount PositiveCount ⟨0, 0, 5, 0, 0⟩ deadDevice := by
    refine ⟨rfl, rfl, ?_⟩
    unfold PositiveCount
    decide
  exact (bcanRecv_exact_iff startedChannel 1 8 _ _ _).mp hexact ⟨hrequested, hstale⟩

end ApolloContrib.Bcan
