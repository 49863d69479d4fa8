import ApolloContrib.Can.TxClock
import Mathlib.Data.Int.ConditionallyCompleteOrder
import Mathlib.Data.List.GetD

namespace ApolloContrib.Can

open ApolloContrib.Library

/-! What a batch of messages comes to, whatever the attempts answer and however the
clock goes on. -/

/-- The answer of an attempt, which depends on neither the message nor the past. -/
def txAnswer (txHipri zcanTxDma : Bool) (attempt : TxAttempt) : BcanErrCode :=
  if txHipri ∨ ¬ zcanTxDma then pioTxOne attempt.zcan attempt.full
  else if ZCAN_MSG_SIZE > attempt.zchanTxBufsz then .BCAN_FAIL
  else if attempt.full then .BCAN_DEV_BUSY
  else .BCAN_OK

theorem txAnswer_cases (txHipri zcanTxDma : Bool) (attempt : TxAttempt) :
    TxAnswer (txAnswer txHipri zcanTxDma attempt) := by
  unfold txAnswer
  split
  next => exact pioTxOne_answer _ _
  next =>
    split
    next => exact .inl rfl
    next =>
      split
      next => exact .inr (.inl rfl)
      next => exact .inr (.inr rfl)

theorem exists_txAnswer (txHipri zcanTxDma : Bool) {ret : BcanErrCode}
    (hret : TxAnswer ret) : ∃ attempt, txAnswer txHipri zcanTxDma attempt = ret := by
  have hstarted : ∀ full, pioTxOne (ZynqCanPio.zeroed.setState .ZYNQ_STATE_START) full =
      if full then .BCAN_DEV_BUSY else .BCAN_OK := fun _ => rfl
  rcases hret with rfl | rfl | rfl
  · refine ⟨⟨.zeroed, false, 0⟩, ?_⟩
    unfold txAnswer
    split <;> rfl
  · refine ⟨⟨ZynqCanPio.zeroed.setState .ZYNQ_STATE_START, true, ZCAN_MSG_SIZE⟩, ?_⟩
    unfold txAnswer
    split <;> simp [hstarted]
  · refine ⟨⟨ZynqCanPio.zeroed.setState .ZYNQ_STATE_START, false, ZCAN_MSG_SIZE⟩, ?_⟩
    unfold txAnswer
    split <;> simp [hstarted]

namespace TxHw

theorem txFunc_eq (hw : TxHw) (txHipri zcanTxDma : Bool) (attempt : TxAttempt)
    (cmsg : ZcanMsg) :
    hw.txFunc txHipri zcanTxDma attempt cmsg =
      hw.taken (backEnd txHipri zcanTxDma) cmsg
        (txAnswer txHipri zcanTxDma attempt) := by
  unfold txFunc backEnd txAnswer
  cases txHipri with
  | true => rfl
  | false =>
      cases zcanTxDma with
      | false => rfl
      | true =>
          simp only [Bool.false_eq_true, if_false, not_true, or_self, zcanDmaTxOne,
            zchanTxOneMsg]
          split
          · rfl
          · split <;> rfl

def pushAll (hw : TxHw) (cmsgs : List ZcanMsg) : TxBackEnd → TxHw
  | .fifo => { hw with txFifo := hw.txFifo ++ cmsgs }
  | .hpb => { hw with txHpb := hw.txHpb ++ cmsgs }
  | .ring => { hw with txRing := hw.txRing ++ cmsgs }

@[simp] theorem pushAll_nil (hw : TxHw) (backEnd : TxBackEnd) :
    hw.pushAll [] backEnd = hw := by
  cases backEnd <;> simp [pushAll]

theorem push_pushAll (hw : TxHw) (cmsgs : List ZcanMsg) (cmsg : ZcanMsg)
    (backEnd : TxBackEnd) :
    (hw.pushAll cmsgs backEnd).push cmsg backEnd =
      hw.pushAll (cmsgs ++ [cmsg]) backEnd := by
  cases backEnd <;> simp [push, pushAll]

end TxHw

def encode (m : Msg) : ZcanMsg := (bcanToZcan m).cmsg

namespace TxSetting

variable (setting : TxSetting)

def answer (k : Nat) : BcanErrCode :=
  txAnswer setting.txHipri setting.zcanTxDma (setting.attempt k)

theorem answer_cases (k : Nat) : TxAnswer (setting.answer k) :=
  txAnswer_cases _ _ _

def handed (usrMsgs : List Msg) (hw : TxHw) (done : Nat) : TxHw :=
  hw.pushAll ((usrMsgs.take done).map encode)
    (TxHw.backEnd setting.txHipri setting.zcanTxDma)

/-- The last attempt was answered `BCAN_DEV_BUSY`, and the reading after it is not
before the deadline. -/
def TimedOut (ktimeEnd : BitVec 64) (s : TxState) : Prop :=
  ∃ k r, s.polls = k + 1 ∧ s.reads = r + 1 ∧ setting.answer k = .BCAN_DEV_BUSY ∧
    ktimeEnd.toInt ≤ (setting.ktimeGet r).toInt

def Copied (usrMsgs : List Msg) : Prop :=
  (usrMsgs.length = 1 ∨ setting.kmalloc = true) ∧ setting.copyFromUser = true

/-- The messages did not get into the kernel, or the last attempt was refused. -/
def Refused (usrMsgs : List Msg) (s : TxState) : Prop :=
  ¬ setting.Copied usrMsgs ∨ ∃ k, s.polls = k + 1 ∧ setting.answer k = .BCAN_FAIL

def Ended (ktimeEnd : BitVec 64) (usrMsgs : List Msg) (s : TxState) : Prop :=
  s.ret = .BCAN_OK ∨ s.ret = .BCAN_FAIL ∧ setting.Refused usrMsgs s ∨
    s.ret = .BCAN_TIMEOUT ∧ setting.TimedOut ktimeEnd s

structure Batch (ktimeEnd : BitVec 64) (usrMsgs : List Msg) (hw : TxHw) (s : TxState) :
    Prop where
  done_le : s.txNumDone ≤ usrMsgs.length
  handed : s.hw = setting.handed usrMsgs hw s.txNumDone
  encoded_done : ∀ i < s.txNumDone, s.encoded i = 1
  encoded_le : ∀ i, s.encoded i ≤ 1
  ok_iff : s.ret = .BCAN_OK ↔ s.txNumDone = usrMsgs.length
  timeout : s.ret = .BCAN_TIMEOUT → setting.TimedOut ktimeEnd s
  ended : setting.Ended ktimeEnd usrMsgs s

def Current (ktimeEnd : BitVec 64) (usrMsgs : List Msg) (s : TxState) : TxPc → Prop
  | .loop => s.ret = .BCAN_OK ∧ s.buf s.bmsg = usrMsgs.getD s.bmsg ⟨0, 0, 0, 0, 0, 0⟩ ∧
      s.encoded s.bmsg = 0
  | .retry => s.txNum ≠ 0 ∧
      s.buf s.bmsg = bcanToZcan (usrMsgs.getD s.bmsg ⟨0, 0, 0, 0, 0, 0⟩) ∧
      s.encoded s.bmsg = 1
  | .txDone => s.encoded s.bmsg ≤ 1 ∧ (s.ret = .BCAN_OK ↔ s.txNum = 0) ∧
      setting.Ended ktimeEnd usrMsgs s

structure Sending (ktimeEnd : BitVec 64) (usrMsgs : List Msg) (hw : TxHw) (s : TxState) :
    Prop where
  count : s.txNumDone = s.bmsg
  left : s.bmsg + s.txNum = usrMsgs.length
  handed : s.hw = setting.handed usrMsgs hw s.bmsg
  encoded : ∀ i < s.bmsg, s.encoded i = 1
  unencoded : ∀ i, s.bmsg < i → s.encoded i = 0
  untouched : ∀ i, s.bmsg < i → s.buf i = usrMsgs.getD i ⟨0, 0, 0, 0, 0, 0⟩
  current : setting.Current ktimeEnd usrMsgs s s.pc

variable {setting} {ktimeEnd : BitVec 64} {usrMsgs : List Msg} {hw : TxHw} {s : TxState}

theorem handed_succ {done : Nat} (hdone : done < usrMsgs.length) :
    setting.handed usrMsgs hw (done + 1) =
      (setting.handed usrMsgs hw done).push
        (encode (usrMsgs.getD done ⟨0, 0, 0, 0, 0, 0⟩))
        (TxHw.backEnd setting.txHipri setting.zcanTxDma) := by
  unfold handed
  rw [TxHw.push_pushAll, ← List.take_append_getElem hdone, List.map_append,
    List.getD_eq_getElem _ _ hdone]
  rfl

theorem sending_start (hmsgs : usrMsgs ≠ []) :
    setting.Sending ktimeEnd usrMsgs hw (setting.start usrMsgs hw) := by
  have hlength : usrMsgs.length ≠ 0 := by simpa using hmsgs
  have hhanded : hw = setting.handed usrMsgs hw 0 := by simp [handed]
  have hrefused : ∀ s : TxState, ¬ setting.Copied usrMsgs → s.ret = .BCAN_FAIL →
      setting.Ended ktimeEnd usrMsgs s :=
    fun s hcopied hret => .inr (.inl ⟨hret, .inl hcopied⟩)
  unfold start
  dsimp only
  split
  next hkmalloc =>
    refine ⟨rfl, Nat.zero_add _, hhanded, nofun, fun _ _ => rfl, fun _ _ => rfl,
      Nat.zero_le _, iff_of_false (by simp) hlength, hrefused _ ?_ rfl⟩
    exact fun hcopied => hcopied.1.elim hkmalloc.1 hkmalloc.2
  next =>
    split
    next hcopy =>
      exact ⟨rfl, Nat.zero_add _, hhanded, nofun, fun _ _ => rfl, fun _ _ => rfl,
        Nat.zero_le _, iff_of_false (by simp) hlength,
        hrefused _ (fun hcopied => hcopy hcopied.2) rfl⟩
    next =>
      exact ⟨rfl, Nat.zero_add _, hhanded, nofun, fun _ _ => rfl, fun _ _ => rfl,
        rfl, rfl, rfl⟩

theorem sending_loopHead (hsending : setting.Sending ktimeEnd usrMsgs hw s)
    (hpc : s.pc = .loop) : setting.Sending ktimeEnd usrMsgs hw (loopHead s) := by
  have hcurrent := hsending.current
  rw [hpc] at hcurrent
  obtain ⟨hret, hbuf, hencoded⟩ := hcurrent
  unfold loopHead
  split
  next hzero =>
    refine { hsending with current := ?_ }
    exact ⟨hencoded.trans_le (Nat.zero_le 1), iff_of_true hret hzero, .inl hret⟩
  next hleft =>
    refine { hsending with
      encoded := ?_
      unencoded := ?_
      untouched := ?_
      current := ⟨hleft, ?_, ?_⟩ }
    · intro i hi
      dsimp only
      rw [Function.update_of_ne hi.ne]
      exact hsending.encoded i hi
    · intro i hi
      dsimp only
      rw [Function.update_of_ne hi.ne']
      exact hsending.unencoded i hi
    · intro i hi
      dsimp only
      rw [Function.update_of_ne hi.ne']
      exact hsending.untouched i hi
    · dsimp only
      rw [Function.update_self, hbuf]
    · dsimp only
      rw [Function.update_self, hencoded]

theorem retry_cases (setting : TxSetting) (ktimeEnd : BitVec 64) (s : TxState) :
    setting.answer s.polls = .BCAN_OK ∧
      setting.retry ktimeEnd s =
        { s with
          pc := .loop
          ret := .BCAN_OK
          hw := s.hw.push (s.buf s.bmsg).cmsg
            (TxHw.backEnd setting.txHipri setting.zcanTxDma)
          polls := s.polls + 1
          txNumDone := s.txNumDone + 1
          bmsg := s.bmsg + 1
          txNum := s.txNum - 1 } ∨
    setting.answer s.polls = .BCAN_FAIL ∧
      setting.retry ktimeEnd s =
        { s with pc := .txDone, ret := .BCAN_FAIL, polls := s.polls + 1 } ∨
    setting.answer s.polls = .BCAN_DEV_BUSY ∧
      (setting.ktimeGet s.reads).toInt < ktimeEnd.toInt ∧
      setting.retry ktimeEnd s =
        { s with ret := .BCAN_DEV_BUSY, polls := s.polls + 1, reads := s.reads + 1 } ∨
    setting.answer s.polls = .BCAN_DEV_BUSY ∧
      ktimeEnd.toInt ≤ (setting.ktimeGet s.reads).toInt ∧
      setting.retry ktimeEnd s =
        { s with
          pc := .txDone
          ret := .BCAN_TIMEOUT
          polls := s.polls + 1
          reads := s.reads + 1 } := by
  have htaken := s.hw.txFunc_eq setting.txHipri setting.zcanTxDma
    (setting.attempt s.polls) (s.buf s.bmsg).cmsg
  rw [← answer] at htaken
  rcases setting.answer_cases s.polls with hret | hret | hret
  · refine .inr (.inl ⟨hret, ?_⟩)
    rw [hret] at htaken
    simp only [retry, htaken, TxHw.taken]
    rfl
  · refine .inr (.inr ?_)
    rw [hret] at htaken
    by_cases hbefore : (setting.ktimeGet s.reads).toInt < ktimeEnd.toInt
    · refine .inl ⟨hret, hbefore, ?_⟩
      simp only [retry, htaken, TxHw.taken, if_pos hbefore]
      rfl
    · refine .inr ⟨hret, not_lt.mp hbefore, ?_⟩
      simp only [retry, htaken, TxHw.taken, if_neg hbefore]
      rfl
  · refine .inl ⟨hret, ?_⟩
    rw [hret] at htaken
    simp only [retry, htaken, TxHw.taken]
    rfl

theorem sending_retry (hsending : setting.Sending ktimeEnd usrMsgs hw s)
    (hpc : s.pc = .retry) :
    setting.Sending ktimeEnd usrMsgs hw (setting.retry ktimeEnd s) := by
  have hcurrent := hsending.current
  rw [hpc] at hcurrent
  obtain ⟨hleft, hbuf, hencoded⟩ := hcurrent
  have hlt : s.bmsg < usrMsgs.length := by
    have hsum := hsending.left
    omega
  obtain ⟨hok, hretry⟩ | ⟨hfail, hretry⟩ | ⟨hbusy, hbefore, hretry⟩ |
    ⟨hbusy, hpast, hretry⟩ := setting.retry_cases ktimeEnd s
  · rw [hretry]
    refine ⟨?_, ?_, ?_, ?_, ?_, ?_, rfl, ?_, ?_⟩
    · exact congrArg (· + 1) hsending.count
    · have hsum := hsending.left
      dsimp only
      omega
    · dsimp only
      rw [handed_succ hlt, ← hsending.handed, hbuf]
      rfl
    · intro i hi
      rcases Nat.lt_succ_iff_lt_or_eq.mp hi with hi | rfl
      · exact hsending.encoded i hi
      · exact hencoded
    · exact fun i hi => hsending.unencoded i (Nat.lt_of_succ_lt hi)
    · exact fun i hi => hsending.untouched i (Nat.lt_of_succ_lt hi)
    · exact hsending.untouched _ (Nat.lt_succ_self _)
    · exact hsending.unencoded _ (Nat.lt_succ_self _)
  · rw [hretry]
    exact { hsending with
      current := ⟨hencoded.le, iff_of_false (by simp) hleft,
        .inr (.inl ⟨rfl, .inr ⟨s.polls, rfl, hfail⟩⟩)⟩ }
  · rw [hretry]
    refine { hsending with current := ?_ }
    dsimp only
    rw [hpc]
    exact ⟨hleft, hbuf, hencoded⟩
  · rw [hretry]
    refine { hsending with
      current := ⟨hencoded.le, iff_of_false (by simp) hleft, .inr (.inr ⟨rfl, ?_⟩)⟩ }
    exact ⟨s.polls, s.reads, rfl, rfl, hbusy, hpast⟩

theorem sending_body (hsending : setting.Sending ktimeEnd usrMsgs hw s) :
    setting.Sending ktimeEnd usrMsgs hw (setting.body ktimeEnd s) := by
  unfold body
  split
  next hpc => exact sending_loopHead hsending hpc
  next hpc => exact sending_retry hsending hpc
  next => exact hsending

theorem Ended.timedOut (hended : setting.Ended ktimeEnd usrMsgs s)
    (hret : s.ret = .BCAN_TIMEOUT) : setting.TimedOut ktimeEnd s := by
  obtain hok | ⟨hfail, -⟩ | ⟨-, htimedOut⟩ := hended
  · cases hret.symm.trans hok
  · cases hret.symm.trans hfail
  · exact htimedOut

theorem Ended.ok (hended : setting.Ended ktimeEnd usrMsgs s) (hcopied : setting.Copied usrMsgs)
    (hanswers : ∀ k, setting.answer k = .BCAN_OK) : s.ret = .BCAN_OK := by
  have hanswer : ∀ {k ret}, setting.answer k = ret → ret = .BCAN_OK := by
    intro k ret hret
    exact hret.symm.trans (hanswers k)
  obtain hok | ⟨-, hnot | ⟨k, -, hfail⟩⟩ | ⟨-, k, r, -, -, hbusy, -⟩ := hended
  · exact hok
  · exact absurd hcopied hnot
  · cases hanswer hfail
  · cases hanswer hbusy

theorem batch_of_sending (hsending : setting.Sending ktimeEnd usrMsgs hw s)
    (hpc : s.pc = .txDone) : setting.Batch ktimeEnd usrMsgs hw s := by
  have hcurrent := hsending.current
  rw [hpc] at hcurrent
  obtain ⟨hencoded, hok, hended⟩ := hcurrent
  have hcount := hsending.count
  have hleft := hsending.left
  refine ⟨by omega, ?_, ?_, ?_, ?_, hended.timedOut, hended⟩
  · rw [hcount]
    exact hsending.handed
  · intro i hi
    exact hsending.encoded i (hcount ▸ hi)
  · intro i
    rcases Nat.lt_trichotomy i s.bmsg with hi | rfl | hi
    · exact (hsending.encoded i hi).le
    · exact hencoded
    · rw [hsending.unencoded i hi]
      exact Nat.zero_le 1
  · rw [hok]
    omega

/-- Rounds that are left when reading `last` is at the deadline. -/
def roundsLeft (last : Nat) (s : TxState) : Nat :=
  match s.pc with
  | .loop => 2 * s.txNum + (last + 1 - s.reads) + 1
  | .retry => 2 * s.txNum + (last + 1 - s.reads)
  | .txDone => 0

theorem roundsLeft_body {last : Nat}
    (hclock : Monotone fun r => (setting.ktimeGet r).toInt)
    (hlast : ktimeEnd.toInt ≤ (setting.ktimeGet last).toInt)
    (hsending : setting.Sending ktimeEnd usrMsgs hw s) (hrunning : running s = true) :
    roundsLeft last (setting.body ktimeEnd s) < roundsLeft last s := by
  unfold body
  cases hpc : s.pc with
  | txDone => simp [running, hpc] at hrunning
  | loop =>
      dsimp only
      unfold loopHead
      split
      · simp [roundsLeft, hpc]
      · simp [roundsLeft, hpc]
  | retry =>
      dsimp only
      have hcurrent := hsending.current
      rw [hpc] at hcurrent
      have hleft := hcurrent.1
      obtain ⟨-, hretry⟩ | ⟨-, hretry⟩ | ⟨-, hbefore, hretry⟩ | ⟨-, -, hretry⟩ :=
        setting.retry_cases ktimeEnd s
      · simp only [hretry, roundsLeft, hpc]
        omega
      · simp only [hretry, roundsLeft, hpc]
        omega
      · -- a reading before the deadline is one before `last`
        have hreads : s.reads < last := by
          by_contra hge
          have hmono := hclock (not_lt.mp hge)
          dsimp only at hmono
          omega
        simp only [hretry, roundsLeft, hpc]
        omega
      · simp only [hretry, roundsLeft, hpc]
        omega

theorem running_eq_false : running s = false ↔ s.pc = .txDone := by
  simp [running]

theorem batch_of_run (hmsgs : usrMsgs ≠ []) {zcanTxTimeout : BitVec 64} {fuel : Nat}
    (hrun : setting.zcanTxUser zcanTxTimeout usrMsgs hw fuel = some s) :
    setting.Batch (setting.deadline zcanTxTimeout) usrMsgs hw s := by
  have hend := whileLoop_partial (fun _ hsending _ => sending_body hsending)
    (sending_start hmsgs) hrun
  exact batch_of_sending hend.1 (running_eq_false.mp hend.2)

theorem exists_run (hmsgs : usrMsgs ≠ []) (zcanTxTimeout : BitVec 64)
    (hclock : Monotone fun r => (setting.ktimeGet r).toInt) {last : Nat}
    (hlast : (setting.deadline zcanTxTimeout).toInt ≤ (setting.ktimeGet last).toInt) :
    ∃ fuel s, setting.zcanTxUser zcanTxTimeout usrMsgs hw fuel = some s := by
  obtain ⟨s, hrun, -⟩ := whileLoop_total (roundsLeft last)
    (fun _ hsending hrunning =>
      ⟨sending_body hsending, roundsLeft_body hclock hlast hsending hrunning⟩)
    (sending_start hmsgs) (le_refl _)
  exact ⟨_, s, hrun⟩

def roundsLeftOk (s : TxState) : Nat :=
  match s.pc with
  | .loop => 2 * s.txNum + 1
  | .retry => 2 * s.txNum
  | .txDone => 0

theorem roundsLeftOk_body (hanswers : ∀ k, setting.answer k = .BCAN_OK)
    (hsending : setting.Sending ktimeEnd usrMsgs hw s) (hrunning : running s = true) :
    roundsLeftOk (setting.body ktimeEnd s) < roundsLeftOk s := by
  unfold body
  cases hpc : s.pc with
  | txDone => simp [running, hpc] at hrunning
  | loop =>
      dsimp only
      unfold loopHead
      split
      · simp [roundsLeftOk, hpc]
      · simp [roundsLeftOk, hpc]
  | retry =>
      dsimp only
      have hcurrent := hsending.current
      rw [hpc] at hcurrent
      have hleft := hcurrent.1
      obtain ⟨-, hretry⟩ | ⟨hfail, -⟩ | ⟨hbusy, -⟩ | ⟨hbusy, -⟩ := setting.retry_cases ktimeEnd s
      · simp only [hretry, roundsLeftOk, hpc]
        omega
      · cases hfail.symm.trans (hanswers s.polls)
      · cases hbusy.symm.trans (hanswers s.polls)
      · cases hbusy.symm.trans (hanswers s.polls)

theorem exists_run_ok (hmsgs : usrMsgs ≠ []) (zcanTxTimeout : BitVec 64)
    (hcopied : setting.Copied usrMsgs) (hanswers : ∀ k, setting.answer k = .BCAN_OK) :
    ∃ fuel s, setting.zcanTxUser zcanTxTimeout usrMsgs hw fuel = some s ∧ s.ret = .BCAN_OK := by
  obtain ⟨s, hrun, -⟩ := whileLoop_total roundsLeftOk
    (fun _ hsending hrunning =>
      ⟨sending_body hsending, roundsLeftOk_body hanswers hsending hrunning⟩)
    (sending_start hmsgs) (le_refl _)
  exact ⟨_, s, hrun, (batch_of_run hmsgs hrun).ended.ok hcopied hanswers⟩

/-- A batch that is sent is sent in order, once, and as far as `tx_done` says; the call
returns if the clock gets to the deadline, and sends it all where no attempt fails. -/
theorem zcanTxUser_batch (setting : TxSetting) (zcanTxTimeout : BitVec 64)
    (usrMsgs : List Msg) (hw : TxHw) (hmsgs : usrMsgs ≠ [])
    (hclock : Monotone fun r => (setting.ktimeGet r).toInt) :
    (∀ fuel s, setting.zcanTxUser zcanTxTimeout usrMsgs hw fuel = some s →
      setting.Batch (setting.deadline zcanTxTimeout) usrMsgs hw s) ∧
    ((∃ r, (setting.deadline zcanTxTimeout).toInt ≤ (setting.ktimeGet r).toInt) →
      ∃ fuel s, setting.zcanTxUser zcanTxTimeout usrMsgs hw fuel = some s) ∧
    (setting.Copied usrMsgs → (∀ k, setting.answer k = .BCAN_OK) →
      ∃ fuel s, setting.zcanTxUser zcanTxTimeout usrMsgs hw fuel = some s ∧
        s.ret = .BCAN_OK) := by
  refine ⟨?_, ?_, ?_⟩
  · exact fun _ _ hrun => batch_of_run hmsgs hrun
  · exact fun ⟨_, hlast⟩ => exists_run hmsgs zcanTxTimeout hclock hlast
  · exact exists_run_ok hmsgs zcanTxTimeout

/-- A full ring, a free place, and a ring that stays full past the deadline of 1 ms. -/
def freeOnce : TxSetting where
  txHipri := false
  zcanTxDma := true
  kmalloc := true
  copyFromUser := true
  attempt := fun k => ⟨.zeroed, k ≠ 1, ZCAN_MSG_SIZE⟩
  ktimeGet := fun r => if r ≤ 1 then 0 else 5000000

theorem zcanTxUser_batch_freeOnce : ∃ fuel s,
    freeOnce.zcanTxUser 1 [⟨1, 0, 0, 0, 0, 0⟩, ⟨2, 0, 0, 0, 0, 0⟩] ⟨[], [], []⟩ fuel =
        some s ∧
      freeOnce.Batch (freeOnce.deadline 1)
        [⟨1, 0, 0, 0, 0, 0⟩, ⟨2, 0, 0, 0, 0, 0⟩] ⟨[], [], []⟩ s := by
  have hclock : Monotone fun r => (freeOnce.ktimeGet r).toInt := by
    intro r r' hle
    dsimp only [freeOnce]
    split
    next hr => split <;> decide
    next hr => rw [if_neg (by omega)]
  obtain ⟨hall, hend, -⟩ := zcanTxUser_batch freeOnce 1
    [⟨1, 0, 0, 0, 0, 0⟩, ⟨2, 0, 0, 0, 0, 0⟩] ⟨[], [], []⟩ (by simp) hclock
  obtain ⟨fuel, s, hrun⟩ := hend ⟨2, by decide⟩
  exact ⟨fuel, s, hrun, hall fuel s hrun⟩

end TxSetting

end ApolloContrib.Can
