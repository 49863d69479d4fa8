import ApolloContrib.Can.Pio

namespace ApolloContrib.Can

/-! The transmit path of `basa_can.c`: `zcan_tx_user` and the functions that hand
one message to the hardware. -/

/-- The part that `zcan_pio_tx_one` and `zcan_pio_tx_hi_one` share, called with
`wait` and `poll` clear as `zcan_tx_user` does. -/
def pioTxOne (zcan : ZynqCanPio) (full : Bool) : BcanErrCode :=
  if zcan.zcanPioState ≠ .ZYNQ_STATE_START then .BCAN_FAIL
  else if full then .BCAN_DEV_BUSY
  else .BCAN_OK

def zcanPioTxOne (zcan : ZynqCanPio) (full : Bool) : BcanErrCode :=
  pioTxOne zcan full

def zcanPioTxHiOne (zcan : ZynqCanPio) (full : Bool) : BcanErrCode :=
  pioTxOne zcan full

/-- `zchan_tx_one_msg` with a message that fits a buffer of the ring; `full` is
whether the ring is. -/
def zcanDmaTxOne (_ : ZynqCanPio) (full : Bool) : BcanErrCode :=
  if full then .BCAN_DEV_BUSY else .BCAN_OK

def txFunc (txHipri zcanTxDma : Bool) : ZynqCanPio → Bool → BcanErrCode :=
  if txHipri then zcanPioTxHiOne
  else if ¬ zcanTxDma then zcanPioTxOne
  else zcanDmaTxOne

/-- What surrounds a SEND: whether the messages can be allocated and copied in,
which polls find the hardware full, and the poll from which on the time is up. -/
structure TxCall where
  kmalloc : Bool
  copyFromUser : Bool
  full : Nat → Bool
  deadline : Nat

structure TxResult where
  ret : BcanErrCode
  txNumDone : Nat
  txMsgs : List Msg
deriving DecidableEq, Repr

/-- The `retry` loop for one message from poll `t` on, with `left` polls until
the time is up; also the poll that follows. -/
def zcanTxRetry (tx : Nat → BcanErrCode) : Nat → Nat → BcanErrCode × Nat
  | 0, t =>
      match tx t with
      | .BCAN_DEV_BUSY => (.BCAN_TIMEOUT, t + 1)
      | ret => (ret, t + 1)
  | left + 1, t =>
      match tx t with
      | .BCAN_DEV_BUSY => zcanTxRetry tx left (t + 1)
      | ret => (ret, t + 1)

/-- The send loop of `zcan_tx_user`; `txMsgs` collects what the hardware took. -/
def zcanTxLoop (tx : Nat → BcanErrCode) (deadline : Nat) :
    List Msg → Nat → TxResult → TxResult
  | [], _, result => result
  | bmsg :: rest, t, result =>
      match zcanTxRetry tx (deadline - t) t with
      | (.BCAN_OK, next) =>
          zcanTxLoop tx deadline rest next
            { ret := .BCAN_OK
              txNumDone := result.txNumDone + 1
              txMsgs := result.txMsgs ++ [bcanToZcan bmsg] }
      | (ret, _) => { result with ret := ret }

def zcanTxUser (zcan : ZynqCanPio) (txHipri zcanTxDma : Bool) (call : TxCall)
    (bmsgs : List Msg) : TxResult :=
  if bmsgs.length ≠ 1 ∧ ¬ call.kmalloc then ⟨.BCAN_FAIL, 0, []⟩
  else if ¬ call.copyFromUser then ⟨.BCAN_FAIL, 0, []⟩
  else
    zcanTxLoop (fun t => txFunc txHipri zcanTxDma zcan (call.full t)) call.deadline
      bmsgs 0 ⟨.BCAN_OK, 0, []⟩

def TxAnswer (ret : BcanErrCode) : Prop :=
  ret = .BCAN_FAIL ∨ ret = .BCAN_DEV_BUSY ∨ ret = .BCAN_OK

theorem pioTxOne_answer (zcan : ZynqCanPio) (full : Bool) :
    TxAnswer (pioTxOne zcan full) := by
  unfold pioTxOne TxAnswer
  split
  · exact Or.inl rfl
  · cases full with
    | false => exact Or.inr (Or.inr rfl)
    | true => exact Or.inr (Or.inl rfl)

theorem zcanDmaTxOne_answer (zcan : ZynqCanPio) (full : Bool) :
    TxAnswer (zcanDmaTxOne zcan full) := by
  cases full with
  | false => exact Or.inr (Or.inr rfl)
  | true => exact Or.inr (Or.inl rfl)

theorem txFunc_answer (txHipri zcanTxDma : Bool) (zcan : ZynqCanPio) (full : Bool) :
    TxAnswer (txFunc txHipri zcanTxDma zcan full) := by
  unfold txFunc
  split
  · exact pioTxOne_answer zcan full
  · split
    · exact pioTxOne_answer zcan full
    · exact zcanDmaTxOne_answer zcan full

theorem pioTxOne_refused_iff (zcan : ZynqCanPio) (full : Bool) :
    pioTxOne zcan full = .BCAN_FAIL ↔ zcan.zcanPioState ≠ .ZYNQ_STATE_START := by
  unfold pioTxOne
  split
  next hstate => exact iff_of_true rfl hstate
  next hstate =>
    refine iff_of_false ?_ hstate
    cases full <;> simp

theorem zcanTxRetry_answer {tx : Nat → BcanErrCode} (htx : ∀ t, TxAnswer (tx t))
    (left t : Nat) :
    (zcanTxRetry tx left t).1 = .BCAN_OK ∨ (zcanTxRetry tx left t).1 = .BCAN_FAIL ∨
      (zcanTxRetry tx left t).1 = .BCAN_TIMEOUT := by
  induction left generalizing t with
  | zero =>
      rw [zcanTxRetry]
      rcases htx t with hret | hret | hret <;> rw [hret]
      · exact Or.inr (Or.inl rfl)
      · exact Or.inr (Or.inr rfl)
      · exact Or.inl rfl
  | succ left ih =>
      rw [zcanTxRetry]
      rcases htx t with hret | hret | hret <;> rw [hret]
      · exact Or.inr (Or.inl rfl)
      · exact ih (t + 1)
      · exact Or.inl rfl

/-- The hardware has taken the first `txNumDone` of `bmsgs`, in order, and the
answer is `BCAN_OK` only when it has taken them all. -/
structure TxPrefix (bmsgs : List Msg) (result : TxResult) : Prop where
  done_le : result.txNumDone ≤ bmsgs.length
  txMsgs : result.txMsgs = (bmsgs.take result.txNumDone).map bcanToZcan
  ret : result.ret = .BCAN_OK ∧ result.txNumDone = bmsgs.length ∨
    result.ret = .BCAN_FAIL ∨ result.ret = .BCAN_TIMEOUT

theorem txPrefix_zcanTxLoop {tx : Nat → BcanErrCode} (htx : ∀ t, TxAnswer (tx t))
    (deadline : Nat) {sent rest : List Msg} (t : Nat) {result : TxResult}
    (hdone : TxPrefix sent result) (hok : result.ret = .BCAN_OK) :
    TxPrefix (sent ++ rest) (zcanTxLoop tx deadline rest t result) := by
  have hall : result.txNumDone = sent.length := by
    rcases hdone.ret with hret | hret | hret
    · exact hret.2
    · rw [hok] at hret
      cases hret
    · rw [hok] at hret
      cases hret
  induction rest generalizing sent t result with
  | nil =>
      rw [List.append_nil]
      exact hdone
  | cons bmsg rest ih =>
      have htaken : result.txMsgs = sent.map bcanToZcan := by
        rw [hdone.txMsgs, hall, List.take_length]
      have hstopped (ret : BcanErrCode)
          (hret : ret = .BCAN_FAIL ∨ ret = .BCAN_TIMEOUT) :
          TxPrefix (sent ++ bmsg :: rest) { result with ret := ret } := by
        refine ⟨?_, ?_, Or.inr hret⟩
        · simp only [List.length_append, hall]
          exact Nat.le_add_right _ _
        · simp only [hall, List.take_left, htaken]
      rw [zcanTxLoop]
      have hanswer := zcanTxRetry_answer htx (deadline - t) t
      generalize zcanTxRetry tx (deadline - t) t = answer at hanswer
      obtain ⟨ret, next⟩ := answer
      rcases hanswer with hret | hret | hret <;> cases hret
      · have hnext : TxPrefix (sent ++ [bmsg])
            { ret := .BCAN_OK
              txNumDone := result.txNumDone + 1
              txMsgs := result.txMsgs ++ [bcanToZcan bmsg] } := by
          refine ⟨?_, ?_, Or.inl ⟨rfl, ?_⟩⟩
          · simp [hall]
          · simp [hall, htaken, List.take_of_length_le]
          · simp [hall]
        have hrest := ih next hnext rfl (by simp [hall])
        rw [List.append_assoc] at hrest
        exact hrest
      · exact hstopped _ (Or.inl rfl)
      · exact hstopped _ (Or.inr rfl)

theorem txPrefix_zcanTxUser (zcan : ZynqCanPio) (txHipri zcanTxDma : Bool)
    (call : TxCall) (bmsgs : List Msg) :
    TxPrefix bmsgs (zcanTxUser zcan txHipri zcanTxDma call bmsgs) := by
  have hnone : TxPrefix bmsgs ⟨.BCAN_FAIL, 0, []⟩ :=
    ⟨Nat.zero_le _, rfl, Or.inr (Or.inl rfl)⟩
  have hstart : TxPrefix [] ⟨.BCAN_OK, 0, []⟩ :=
    ⟨Nat.le_refl _, rfl, Or.inl ⟨rfl, rfl⟩⟩
  unfold zcanTxUser
  split
  · exact hnone
  · split
    · exact hnone
    · exact txPrefix_zcanTxLoop  (fun t => txFunc_answer _ _ _ _)
        call.deadline 0 hstart rfl

end ApolloContrib.Can
