import ApolloContrib.Can.RxUser
import ApolloContrib.Can.TxBatch

namespace ApolloContrib.Can

open ApolloContrib.Library

/-! The timeouts of `bcan_open`, in milliseconds, and the time that passes before a
blocked call reports one. -/

inductive Wait where
  | infinite
  | jiffies (n : Nat)
  deriving DecidableEq, Repr

/-- The timers of the kernel, as it documents them: `msecs_to_jiffies` takes an
`unsigned int`, rounds up to a jiffy, and takes a negative value for no timeout. -/
structure Timers where
  hz : Nat
  msecsToJiffies : BitVec 32 → Wait
  hz_pos : 0 < hz
  hz_le : hz ≤ 1000
  negative : ∀ m, 2 ^ 31 ≤ m.toNat → msecsToJiffies m = .infinite
  roundsUp : ∀ m, m.toNat < 2 ^ 31 → ∃ n, msecsToJiffies m = .jiffies n ∧
    m.toNat * hz ≤ n * 1000 ∧ n * 1000 < m.toNat * hz + 1000

/-- A wait that runs out has lasted its jiffies; `elapsed` is in nanoseconds. -/
def Timers.RunsOut (timers : Timers) (elapsed : Nat) : Wait → Prop
  | .infinite => False
  | .jiffies n => n * 1000000000 ≤ elapsed * timers.hz

structure ZcanTimeouts where
  zcanTxTimeout : BitVec 64
  zcanRxTimeout : BitVec 64

def bcanOpenTimeouts (txTo rxTo : BitVec 64) : ZcanTimeouts := ⟨txTo, rxTo⟩

def effectiveRxTimeout (zcanRxTimeout : BitVec 64) : BitVec 64 :=
  if zcanRxTimeout = 0 then ZCAN_TIMEOUT_MAX else zcanRxTimeout

def Timers.rxWait (timers : Timers) (zcanRxTimeout : BitVec 64) : Wait :=
  timers.msecsToJiffies ((effectiveRxTimeout zcanRxTimeout).setWidth 32)

/-- `elapsed` nanoseconds are the `timeout` milliseconds asked for; 0 asks for no
timeout. -/
def LongEnough (timeout : BitVec 64) (elapsed : Int) : Prop :=
  timeout ≠ 0 ∧ timeout.toNat * 1000000 ≤ elapsed

def TxHonoured (txTo now : BitVec 64) : Prop :=
  ∀ (setting : TxSetting) (usrMsgs : List Msg) (hw : TxHw) (fuel : Nat) (s : TxState),
    setting.ktimeGet 0 = now → (Monotone fun r => (setting.ktimeGet r).toInt) →
    usrMsgs ≠ [] → setting.zcanTxUser txTo usrMsgs hw fuel = some s →
    s.ret = .BCAN_TIMEOUT →
      ∃ r, s.reads = r + 1 ∧ LongEnough txTo ((setting.ktimeGet r).toInt - now.toInt)

/-- A receive whose wait may run out after `elapsed` reports a timeout only in time. -/
def RxHonoured (timers : Timers) (rxTo : BitVec 64) : Prop :=
  ∀ (zcan : ZynqCanRx) (call : RxCall) (elapsed : Nat),
    (call.outcome = .timedOut → timers.RunsOut elapsed (timers.rxWait rxTo)) →
    (zcan.zcanRxUser call).ret = .BCAN_TIMEOUT → LongEnough rxTo elapsed

def TimeoutsHonoured (timers : Timers) (now : BitVec 64) (timeouts : ZcanTimeouts) : Prop :=
  TxHonoured timeouts.zcanTxTimeout now ∧ RxHonoured timers timeouts.zcanRxTimeout

theorem toInt_ktimeEnd {now timeout : BitVec 64} (hnow : 0 ≤ now.toInt)
    (hfits : now.toInt + timeout.toNat * 1000000 < 2 ^ 63) :
    (ktimeEnd now timeout).toInt = now.toInt + timeout.toNat * 1000000 := by
  have hnowNat : now.toInt = now.toNat := by
    rw [BitVec.toInt_eq_toNat_cond]
    split
    next => rfl
    next hge =>
      have hlt := now.isLt
      rw [BitVec.toInt_eq_toNat_cond, if_neg hge] at hnow
      omega
  have hsum : (ktimeEnd now timeout).toNat = now.toNat + timeout.toNat * 1000000 := by
    have hproduct : (1000000 * timeout).toNat = timeout.toNat * 1000000 := by
      rw [BitVec.toNat_mul, Nat.mul_comm]
      apply Nat.mod_eq_of_lt
      change timeout.toNat * 1000000 < 2 ^ 64
      omega
    rw [ktimeEnd, BitVec.toNat_add, hproduct]
    apply Nat.mod_eq_of_lt
    omega
  rw [BitVec.toInt_eq_toNat_of_lt (by omega), hsum, hnowNat]
  simp

theorem txHonoured_of_fits {txTo now : BitVec 64} (hnow : 0 ≤ now.toInt)
    (hset : txTo ≠ 0) (hfits : now.toInt + txTo.toNat * 1000000 < 2 ^ 63) :
    TxHonoured txTo now := by
  intro setting usrMsgs hw fuel s hstart hclock hmsgs hrun htimeout
  obtain ⟨k, r, -, hreads, -, hpast⟩ := (TxSetting.batch_of_run hmsgs hrun).timeout htimeout
  refine ⟨r, hreads, hset, ?_⟩
  have hdeadline : (setting.deadline txTo).toInt = now.toInt + txTo.toNat * 1000000 := by
    rw [TxSetting.deadline, hstart, effectiveTxTimeout, if_neg hset]
    exact toInt_ktimeEnd hnow hfits
  omega

/-- The hardware is busy for ever and the second reading of the clock is its last
value. -/
def busyTillTheEnd (now : BitVec 64) : TxSetting where
  txHipri := false
  zcanTxDma := true
  kmalloc := true
  copyFromUser := true
  attempt := fun _ => ⟨.zeroed, true, ZCAN_MSG_SIZE⟩
  ktimeGet := fun r => if r = 0 then now else BitVec.intMax 64

theorem toInt_le_intMax (x : BitVec 64) : x.toInt ≤ (BitVec.intMax 64).toInt := by
  have hmax : (BitVec.intMax 64).toInt = 2 ^ 63 - 1 := by decide
  have hlt := BitVec.toInt_lt (x := x)
  omega

theorem busyTillTheEnd_monotone (now : BitVec 64) :
    Monotone fun r => ((busyTillTheEnd now).ktimeGet r).toInt := by
  intro r r' hle
  dsimp only [busyTillTheEnd]
  split
  next hr =>
    split
    next => exact le_refl _
    next => exact toInt_le_intMax _
  next hr =>
    rw [if_neg (by omega)]

theorem busyTillTheEnd_timeout (now txTo : BitVec 64) (hw : TxHw) :
    ∃ s, (busyTillTheEnd now).zcanTxUser txTo [⟨0, 0, 0, 0, 0, 0⟩] hw 2 = some s ∧
      s.ret = .BCAN_TIMEOUT ∧ s.reads = 2 := by
  let s : TxState :=
    TxSetting.loopHead ((busyTillTheEnd now).start [⟨0, 0, 0, 0, 0, 0⟩] hw)
  have hrun : (busyTillTheEnd now).zcanTxUser txTo [⟨0, 0, 0, 0, 0, 0⟩] hw 2 =
      whileLoop TxSetting.running
        ((busyTillTheEnd now).body ((busyTillTheEnd now).deadline txTo)) 0
        ((busyTillTheEnd now).retry ((busyTillTheEnd now).deadline txTo) s) := by
    rw [TxSetting.zcanTxUser, whileLoop_round rfl, whileLoop_round rfl]
    rfl
  rw [hrun]
  obtain ⟨hok, -⟩ | ⟨hfail, -⟩ | ⟨-, hbefore, -⟩ | ⟨-, -, hretry⟩ :=
    TxSetting.retry_cases (busyTillTheEnd now) ((busyTillTheEnd now).deadline txTo) s
  · cases hok
  · cases hfail
  · exact absurd hbefore (not_lt.mpr (toInt_le_intMax _))
  · rw [hretry]
    exact ⟨_, whileLoop_done rfl 0, rfl, rfl⟩

theorem txHonoured_iff {txTo now : BitVec 64} (hnow : 0 ≤ now.toInt) :
    TxHonoured txTo now ↔
      txTo ≠ 0 ∧ now.toInt + txTo.toNat * 1000000 < 2 ^ 63 := by
  constructor
  · intro hhonoured
    obtain ⟨s, hrun, htimeout, hreads⟩ := busyTillTheEnd_timeout now txTo ⟨[], [], []⟩
    obtain ⟨r, hr, hset, hlong⟩ := hhonoured _ _ _ _ s rfl
      (busyTillTheEnd_monotone now) (by simp) hrun htimeout
    have hr : r = 1 := by omega
    subst hr
    have hlast : ((busyTillTheEnd now).ktimeGet 1).toInt = 2 ^ 63 - 1 := by
      change (BitVec.intMax 64).toInt = 2 ^ 63 - 1
      decide
    refine ⟨hset, ?_⟩
    omega
  · rintro ⟨hset, hfits⟩
    exact txHonoured_of_fits hnow hset hfits

theorem zcanCopyToUser_ne_timeout (zcan : ZynqCanRx) (copyFails : Nat → Bool) :
    (zcan.zcanCopyToUser copyFails).1 ≠ .BCAN_TIMEOUT := by
  unfold ZynqCanRx.zcanCopyToUser
  split
  · nofun
  · split <;> nofun

theorem rxUserAgain_timeout {zcan : ZynqCanRx} {copyFails : Nat → Bool}
    {partialRet : BcanErrCode}
    (htimeout : (zcan.rxUserAgain copyFails partialRet).ret = .BCAN_TIMEOUT) :
    partialRet = .BCAN_TIMEOUT := by
  have hne := zcanCopyToUser_ne_timeout zcan copyFails
  unfold ZynqCanRx.rxUserAgain at htimeout
  split at htimeout
  next => exact htimeout
  next ret copied _ heq =>
    rw [heq] at hne
    exact absurd htimeout hne

theorem zcanRxUser_timeout {zcan : ZynqCanRx} {call : RxCall}
    (htimeout : (zcan.zcanRxUser call).ret = .BCAN_TIMEOUT) :
    call.outcome = .timedOut := by
  unfold ZynqCanRx.zcanRxUser at htimeout
  split at htimeout
  next => cases htimeout
  next =>
    split at htimeout
    next => cases htimeout
    next =>
      unfold ZynqCanRx.rxUserWait at htimeout
      cases hout : call.outcome with
      | timedOut => rfl
      | interrupted =>
          rw [hout] at htimeout
          cases htimeout
      | woken =>
          rw [hout] at htimeout
          cases rxUserAgain_timeout htimeout

section Receive

variable {timers : Timers}

theorem longEnough_of_lt {rxTo : BitVec 64} (hrx : rxTo.toNat < 2 ^ 32) {elapsed : Nat}
    (hout : timers.RunsOut elapsed (timers.rxWait rxTo)) : LongEnough rxTo elapsed := by
  have hmax : (ZCAN_TIMEOUT_MAX.setWidth 32).toNat = 2 ^ 32 - 1 := by decide
  have hnegative : ∀ m : BitVec 32, 2 ^ 31 ≤ m.toNat →
      ¬ timers.RunsOut elapsed (timers.msecsToJiffies m) := by
    intro m hm
    rw [timers.negative m hm]
    exact not_false
  unfold Timers.rxWait effectiveRxTimeout at hout
  split at hout
  next hzero =>
    exact absurd hout (hnegative _ (by omega))
  next hset =>
    have hlow : (rxTo.setWidth 32).toNat = rxTo.toNat := by
      rw [BitVec.toNat_setWidth]
      exact Nat.mod_eq_of_lt hrx
    by_cases hpositive : (rxTo.setWidth 32).toNat < 2 ^ 31
    · obtain ⟨n, hn, hmin, -⟩ := timers.roundsUp _ hpositive
      rw [hn] at hout
      have hlong : rxTo.toNat * 1000000 * timers.hz ≤ elapsed * timers.hz := by
        rw [hlow] at hmin
        have hreorder : rxTo.toNat * 1000000 * timers.hz =
            rxTo.toNat * timers.hz * 1000000 := Nat.mul_right_comm ..
        change n * 1000000000 ≤ elapsed * timers.hz at hout
        omega
      refine ⟨hset, ?_⟩
      exact_mod_cast Nat.le_of_mul_le_mul_right hlong timers.hz_pos
    · exact absurd hout (hnegative _ (not_lt.mp hpositive))

def noMessage : RxCall where
  iocMsgs := 4096
  iocMsgNum := 1
  copyFails := fun _ => false
  arrivals := []
  outcome := .timedOut
  copyFailsAgain := fun _ => false

theorem rxHonoured_iff {rxTo : BitVec 64} :
    RxHonoured timers rxTo ↔
      rxTo.toNat < 2 ^ 32 ∨ 2 ^ 31 ≤ rxTo.toNat % 2 ^ 32 := by
  constructor
  · intro hhonoured
    by_contra hcut
    push Not at hcut
    obtain ⟨hlarge, hlow⟩ := hcut
    have hset : rxTo ≠ 0 := by
      rintro rfl
      exact absurd hlarge (by decide)
    have hwidth : (rxTo.setWidth 32).toNat = rxTo.toNat % 2 ^ 32 :=
      BitVec.toNat_setWidth ..
    obtain ⟨n, hn, -, hmax⟩ := timers.roundsUp (rxTo.setWidth 32) (hwidth ▸ hlow)
    have htimeout : (smallestRing.zcanRxUser noMessage).ret = .BCAN_TIMEOUT := by decide
    have hshort := hhonoured smallestRing noMessage (rxTo.toNat * 1000000 - 1) (by
      intro _
      rw [Timers.rxWait, effectiveRxTimeout, if_neg hset, hn]
      -- the milliseconds cut off are more than the jiffy that is rounded up to
      have hcut : (rxTo.toNat % 2 ^ 32 + 2 ^ 32) * timers.hz ≤ rxTo.toNat * timers.hz := by
        apply Nat.mul_le_mul_right
        omega
      have hhz := timers.hz_pos
      have hreorder : rxTo.toNat * 1000000 * timers.hz =
          rxTo.toNat * timers.hz * 1000000 := Nat.mul_right_comm ..
      change n * 1000000000 ≤ (rxTo.toNat * 1000000 - 1) * timers.hz
      rw [Nat.sub_mul, hreorder]
      rw [Nat.add_mul] at hcut
      rw [hwidth] at hmax
      omega) htimeout
    have hlong := hshort.2
    omega
  · intro hfits zcan call elapsed hout htimeout
    have hrunsOut := hout (zcanRxUser_timeout htimeout)
    rcases hfits with hsmall | hnegative
    · exact longEnough_of_lt hsmall hrunsOut
    · by_cases hset : rxTo = 0
      · subst hset
        exact absurd hnegative (by decide)
      · rw [Timers.rxWait, effectiveRxTimeout, if_neg hset,
          timers.negative _ (BitVec.toNat_setWidth .. ▸ hnegative)] at hrunsOut
        cases hrunsOut

end Receive

/-- The timeouts of a handle are honoured when the send timeout is set and its deadline
is a time, and the receive timeout has 32 bits or its low half means no timeout. -/
theorem timeoutsHonoured_iff (timers : Timers) (now txTo rxTo : BitVec 64)
    (hnow : 0 ≤ now.toInt) :
    TimeoutsHonoured timers now (bcanOpenTimeouts txTo rxTo) ↔
      (txTo ≠ 0 ∧ now.toInt + txTo.toNat * 1000000 < 2 ^ 63) ∧
        (rxTo.toNat < 2 ^ 32 ∨ 2 ^ 31 ≤ rxTo.toNat % 2 ^ 32) :=
  and_congr (txHonoured_iff hnow) rxHonoured_iff

def millisecondTimers : Timers where
  hz := 1000
  msecsToJiffies := fun m => if m.toNat < 2 ^ 31 then .jiffies m.toNat else .infinite
  hz_pos := by decide
  hz_le := le_refl _
  negative := fun _ hm => if_neg (not_lt.mpr hm)
  roundsUp := fun m hm => ⟨m.toNat, if_pos hm, le_refl _, Nat.lt_add_of_pos_right (by decide)⟩

theorem timeoutsHonoured_second :
    TimeoutsHonoured millisecondTimers 5000000000 (bcanOpenTimeouts 1000 1000) :=
  (timeoutsHonoured_iff millisecondTimers 5000000000 1000 1000 (by decide)).mpr
    (by decide)

/-- A timeout of `2³³` milliseconds for receiving does not wait at all. -/
theorem timeoutsHonoured_fails :
    ¬ TimeoutsHonoured millisecondTimers 0 (bcanOpenTimeouts 1000 (2 ^ 33)) := by
  rintro ⟨-, hrx⟩
  exact absurd (rxHonoured_iff.mp hrx) (by decide)

end ApolloContrib.Can
