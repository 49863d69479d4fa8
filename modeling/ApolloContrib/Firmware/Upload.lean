import Mathlib.Data.List.Count
import Mathlib.Data.List.Range

namespace ApolloContrib.Firmware

/-! `ZYNQ_IOC_FW_IMAGE_UPLOAD`: an image of the user goes to the FPGA in units of 16 bytes. -/

def ENOMEM : Int := 12
def EFAULT : Int := 14
def EIO : Int := 5
def ENOSPC : Int := 28

def ZYNQ_FW_MSG_SZ : BitVec 32 := 16
/-- 1 second, in milliseconds. -/
def ZYNQ_FW_TIMEOUT : Int := 1000

inductive PsData where
  | data1
  | data2
  | data3
  | data4
deriving DecidableEq, Repr

/-- A register is written; `none` is a word that does not come from the user. -/
structure FwWrite where
  reg : PsData
  word : Option (BitVec 32)
deriving DecidableEq, Repr

structure FwUpload where
  fwData : Nat → BitVec 32
  fwNum : BitVec 32
  fwDone : BitVec 32

/-- What the kernel and the FPGA answer. `full k` is the status of the FIFO at poll `k`,
and `clock k` the time read after it, in nanoseconds; `start` is the time read first. -/
structure UploadEnv where
  copyArg : Bool
  isErr : Bool
  kmalloc : BitVec 64 → Bool
  copyData : BitVec 64 → Bool
  start : Int
  full : Nat → Bool
  clock : Nat → Int
  copyDone : Bool

/-- `tx_num * ZYNQ_FW_MSG_SZ`, an `int` that becomes a `size_t`. -/
def allocSize (txNum : BitVec 32) : BitVec 64 := (txNum * ZYNQ_FW_MSG_SZ).signExtend 64

/-- The words from `fw_data_alloc` on: only the first `size` bytes have been copied. -/
def copied (user : Nat → BitVec 32) (size : BitVec 64) (i : Nat) : Option (BitVec 32) :=
  if 4 * (i + 1) ≤ size.toNat then some (user i) else none

/-- The registers of one unit, from `fw_data` on. -/
def unitWrites (fwData : Nat → Option (BitVec 32)) (pos : Nat) : List FwWrite :=
  [⟨.data1, fwData pos⟩, ⟨.data2, fwData (pos + 1)⟩, ⟨.data3, fwData (pos + 2)⟩,
    ⟨.data4, fwData (pos + 3)⟩]

/-- As it is called, with `wait` 0. -/
def zynqFwTxOne (full : Bool) (fwData : Nat → Option (BitVec 32)) (pos : Nat) :
    Int × List FwWrite :=
  if full then (-ENOSPC, []) else (0, unitWrites fwData pos)

/-- The local variables of `zynq_fw_tx_user`, and what has been polled and written;
`fw_data` points to word `pos`. -/
structure TxVars where
  txNum : BitVec 32
  txNumDone : BitVec 32
  pos : Nat
  ret : Int
  polls : Nat
  written : List FwWrite

def txStart (txNum : BitVec 32) : TxVars := ⟨txNum, 0, 0, 0, 0, []⟩

section Driver

variable (env : UploadEnv)

/-- `none` when the transfer has not ended after `fuel` polls. -/
def txLoop (fwData : Nat → Option (BitVec 32)) (ktimeEnd : Int) : Nat → TxVars → Option TxVars
  | 0, _ => none
  | fuel + 1, v =>
      if v.txNum = 0 then some v
      else
        let (ret, writes) := zynqFwTxOne (env.full v.polls) fwData v.pos
        if ret ≠ 0 then
          if env.clock v.polls < ktimeEnd then
            txLoop fwData ktimeEnd fuel { v with ret, polls := v.polls + 1 }
          else some { v with ret, polls := v.polls + 1 }
        else
          txLoop fwData ktimeEnd fuel
            { txNum := v.txNum - 1
              txNumDone := v.txNumDone + 1
              pos := v.pos + 4
              ret
              polls := v.polls + 1
              written := v.written ++ writes }

def ktimeEnd : Int := env.start + 1000000 * ZYNQ_FW_TIMEOUT

/-- What a call comes to, with the `ioc_zynq_fw_done` it leaves to the user. -/
structure UploadOut where
  ret : Int
  started : Bool
  written : List FwWrite
  fwDone : BitVec 32
deriving DecidableEq, Repr

/-- The return value, what is written, and the new `ioc_zynq_fw_done` of the copy of the
argument where the transfer starts. -/
def zynqFwTxUser (arg : FwUpload) (fuel : Nat) : Option (Int × List FwWrite × Option (BitVec 32)) :=
  let size := allocSize arg.fwNum
  if !env.kmalloc size then some (-ENOMEM, [], none)
  else if !env.copyData size then some (-EFAULT, [], none)
  else
    (txLoop env (copied arg.fwData size) (ktimeEnd env) fuel (txStart arg.fwNum)).map fun v =>
      (v.ret, v.written, some v.txNumDone)

/-- The case `ZYNQ_IOC_FW_IMAGE_UPLOAD` of `zynq_fw_ioctl`. -/
def zynqFwIoctlUpload (arg : FwUpload) (fuel : Nat) : Option UploadOut :=
  if !env.copyArg then some ⟨-EFAULT, false, [], arg.fwDone⟩
  else if env.isErr then some ⟨- EIO, false, [], arg.fwDone⟩
  else
    (zynqFwTxUser env arg fuel).map fun (err, written, done) =>
      match done with
      | none => ⟨err, false, written, arg.fwDone⟩
      | some done =>
          if err ≠ 0 then ⟨err, true, written, arg.fwDone⟩
          else if !env.copyDone then ⟨-EFAULT, true, written, arg.fwDone⟩
          else ⟨err, true, written, done⟩

end Driver

/-- The first `d` units of the data of the user, in order. -/
def firstUnits (user : Nat → BitVec 32) (d : Nat) : List FwWrite :=
  (List.range d).flatMap fun unit => unitWrites (some ∘ user) (4 * unit)

/-- Some first units are written, and the user is told how many when the transfer ends. -/
def Uploaded (arg : FwUpload) (out : UploadOut) : Prop :=
  ∃ d, out.written = firstUnits arg.fwData d ∧
    (out.started = true → out.ret = 0 ∨ out.ret = -ENOSPC → out.fwDone = BitVec.ofNat 32 d)

namespace UploadEnv

variable (env : UploadEnv)

def Starts (arg : FwUpload) : Prop :=
  env.copyArg = true ∧ env.isErr = false ∧ env.kmalloc (allocSize arg.fwNum) = true ∧
    env.copyData (allocSize arg.fwNum) = true

/-- How many of the first `k` polls find room. -/
def room (k : Nat) : Nat := (List.range k).countP fun j => !env.full j

/-- Poll `k` finds the FIFO full at the deadline or later, with units left to send, and is
the first to. -/
def TimesOut (num k : Nat) : Prop :=
  env.room k < num ∧ env.full k = true ∧ ktimeEnd env ≤ env.clock k ∧
    ∀ j < k, env.full j = true → env.clock j < ktimeEnd env

/-- All units that are sent lie within the allocation; on a timeout the user had the right
number from before. -/
def Sound (arg : FwUpload) : Prop :=
  (∀ k, env.TimesOut arg.fwNum.toNat k →
    16 * env.room k ≤ (allocSize arg.fwNum).toNat ∧ arg.fwDone = BitVec.ofNat 32 (env.room k)) ∧
  ((∀ k, ¬ env.TimesOut arg.fwNum.toNat k) →
    16 * arg.fwNum.toNat ≤ (allocSize arg.fwNum).toNat)

end UploadEnv

section Loop

variable {env : UploadEnv} {num : Nat} {fwData : Nat → Option (BitVec 32)}

theorem toNat_sub_one {txNum : BitVec 32} (hleft : txNum ≠ 0) :
    (txNum - 1).toNat + 1 = txNum.toNat := by
  have hpos : 0 < txNum.toNat := Nat.pos_of_ne_zero fun h => hleft (BitVec.eq_of_toNat_eq h)
  have hle : (1 : BitVec 32) ≤ txNum := BitVec.le_def.mpr hpos
  rw [BitVec.toNat_sub_of_le hle]
  exact Nat.sub_add_cancel hpos

theorem room_of_full {k : Nat} (hfull : env.full k = true) : env.room (k + 1) = env.room k := by
  unfold UploadEnv.room
  rw [List.range_succ, List.countP_append, List.countP_singleton, hfull]
  rfl

theorem room_of_not_full {k : Nat} (hfull : env.full k = false) :
    env.room (k + 1) = env.room k + 1 := by
  unfold UploadEnv.room
  rw [List.range_succ, List.countP_append, List.countP_singleton, hfull]
  rfl

theorem room_mono (env : UploadEnv) {j k : Nat} (hjk : j ≤ k) : env.room j ≤ env.room k := by
  unfold UploadEnv.room
  exact (List.range_sublist.mpr hjk).countP_le

/-- `d` units have been sent. -/
structure Sent (fwData : Nat → Option (BitVec 32)) (d : Nat) (v : TxVars) : Prop where
  done : v.txNumDone = BitVec.ofNat 32 d
  pos : v.pos = 4 * d
  written : v.written = (List.range d).flatMap fun unit => unitWrites fwData (4 * unit)

theorem Sent.next {d : Nat} {v : TxVars} (hsent : Sent fwData d v) (txNum : BitVec 32) (ret : Int)
    (polls : Nat) :
    Sent fwData (d + 1) ⟨txNum, v.txNumDone + 1, v.pos + 4, ret, polls,
      v.written ++ unitWrites fwData v.pos⟩ := by
  refine ⟨?_, ?_, ?_⟩
  · change v.txNumDone + 1 = _
    rw [hsent.done, BitVec.ofNat_add]
    rfl
  · change v.pos + 4 = _
    rw [hsent.pos]
    omega
  · change v.written ++ _ = _
    rw [hsent.written, hsent.pos, List.range_succ, List.flatMap_append, List.flatMap_singleton]

/-- No poll has been too late, and one unit has been sent for each that found room. -/
structure TxInv (env : UploadEnv) (fwData : Nat → Option (BitVec 32)) (num : Nat) (v : TxVars) :
    Prop where
  left : v.txNum.toNat + env.room v.polls = num
  sent : Sent fwData (env.room v.polls) v
  early : ∀ j < v.polls, env.full j = true → env.clock j < ktimeEnd env
  ret : v.txNum = 0 → v.ret = 0

def TxEnds (env : UploadEnv) (fwData : Nat → Option (BitVec 32)) (num : Nat) (v : TxVars) : Prop :=
  v.ret = 0 ∧ Sent fwData num v ∧ (∀ k, ¬ env.TimesOut num k) ∨
    v.ret = -ENOSPC ∧ ∃ k, env.TimesOut num k ∧ Sent fwData (env.room k) v

theorem TxInv.ends_of_zero {v : TxVars} (hinv : TxInv env fwData num v) (hzero : v.txNum = 0) :
    TxEnds env fwData num v := by
  have hroom : env.room v.polls = num := by
    have hleft := hinv.left
    rw [hzero] at hleft
    exact (Nat.zero_add _).symm.trans hleft
  refine Or.inl ⟨hinv.ret hzero, hroom ▸ hinv.sent, fun k htimes => ?_⟩
  obtain ⟨hless, hfull, hlate, -⟩ := htimes
  rcases Nat.lt_or_ge k v.polls with hk | hk
  · exact absurd (hinv.early k hk hfull) (by omega)
  · exact absurd (room_mono env hk) (by omega)

theorem TxInv.ends_of_late {v : TxVars} (hinv : TxInv env fwData num v) (hleft : v.txNum ≠ 0)
    (hfull : env.full v.polls = true) (hlate : ¬ env.clock v.polls < ktimeEnd env) :
    TxEnds env fwData num { v with ret := -ENOSPC, polls := v.polls + 1 } := by
  have hunit := toNat_sub_one hleft
  have htotal := hinv.left
  refine Or.inr ⟨rfl, v.polls, ⟨by omega, hfull, by omega, hinv.early⟩, ?_⟩
  exact ⟨hinv.sent.done, hinv.sent.pos, hinv.sent.written⟩

theorem TxInv.retry {v : TxVars} (hinv : TxInv env fwData num v) (hleft : v.txNum ≠ 0)
    (hfull : env.full v.polls = true) (hearly : env.clock v.polls < ktimeEnd env) :
    TxInv env fwData num { v with ret := -ENOSPC, polls := v.polls + 1 } := by
  refine ⟨?_, ?_, ?_, fun hzero => absurd hzero hleft⟩
  · change v.txNum.toNat + env.room (v.polls + 1) = num
    rw [room_of_full hfull]
    exact hinv.left
  · change Sent fwData (env.room (v.polls + 1)) _
    rw [room_of_full hfull]
    exact ⟨hinv.sent.done, hinv.sent.pos, hinv.sent.written⟩
  · intro j hj hjfull
    rcases Nat.lt_succ_iff_lt_or_eq.mp hj with hlt | rfl
    · exact hinv.early j hlt hjfull
    · exact hearly

theorem TxInv.send {v : TxVars} (hinv : TxInv env fwData num v) (hleft : v.txNum ≠ 0)
    (hroom : env.full v.polls = false) :
    TxInv env fwData num ⟨v.txNum - 1, v.txNumDone + 1, v.pos + 4, 0, v.polls + 1,
      v.written ++ unitWrites fwData v.pos⟩ := by
  have hunit := toNat_sub_one hleft
  have htotal := hinv.left
  refine ⟨?_, ?_, ?_, fun _ => rfl⟩
  · change (v.txNum - 1).toNat + env.room (v.polls + 1) = num
    rw [room_of_not_full hroom]
    omega
  · change Sent fwData (env.room (v.polls + 1)) _
    rw [room_of_not_full hroom]
    exact hinv.sent.next _ _ _
  · intro j hj hjfull
    rcases Nat.lt_succ_iff_lt_or_eq.mp hj with hlt | rfl
    · exact hinv.early j hlt hjfull
    · exact absurd hjfull (Bool.eq_false_iff.mp hroom)

theorem txLoop_ends {fuel : Nat} {v last : TxVars} (hinv : TxInv env fwData num v)
    (hloop : txLoop env fwData (ktimeEnd env) fuel v = some last) :
    TxEnds env fwData num last := by
  induction fuel generalizing v with
  | zero => cases hloop
  | succ fuel ih =>
      rw [txLoop] at hloop
      split at hloop
      next hzero =>
        cases hloop
        exact hinv.ends_of_zero hzero
      next hleft =>
        cases hfull : env.full v.polls with
        | true =>
            rw [zynqFwTxOne, hfull] at hloop
            dsimp only at hloop
            rw [if_pos rfl, if_pos (by decide)] at hloop
            split at hloop
            next hearly => exact ih (hinv.retry hleft hfull hearly) hloop
            next hlate =>
              cases hloop
              exact hinv.ends_of_late hleft hfull hlate
        | false =>
            rw [zynqFwTxOne, hfull] at hloop
            dsimp only at hloop
            exact ih (hinv.send hleft hfull) hloop

/-- Once the clock is past the deadline, every further poll ends the transfer or sends a
unit. -/
theorem txLoop_returns {fuel late : Nat} {v : TxVars}
    (hlate : ∀ k, late ≤ k → ktimeEnd env ≤ env.clock k)
    (hfuel : late - v.polls + v.txNum.toNat < fuel) :
    ∃ last, txLoop env fwData (ktimeEnd env) fuel v = some last := by
  induction fuel generalizing v with
  | zero => omega
  | succ fuel ih =>
      rw [txLoop]
      split
      next => exact ⟨v, rfl⟩
      next hleft =>
        have hunit := toNat_sub_one hleft
        cases hfull : env.full v.polls with
        | true =>
            rw [zynqFwTxOne]
            dsimp only
            rw [if_pos rfl, if_pos (by decide)]
            split
            next hearly =>
              have hbefore : v.polls < late := by
                by_contra hafter
                exact absurd (hlate v.polls (by omega)) (by omega)
              refine ih ?_
              change late - (v.polls + 1) + v.txNum.toNat < fuel
              omega
            next => exact ⟨_, rfl⟩
        | false =>
            rw [zynqFwTxOne]
            refine ih ?_
            change late - (v.polls + 1) + (v.txNum - 1).toNat < fuel
            omega

end Loop

section Units

variable {user : Nat → BitVec 32} {size : BitVec 64} {d d' : Nat}

theorem copied_units (hfits : 16 * d ≤ size.toNat) :
    (List.range d).flatMap (fun unit => unitWrites (copied user size) (4 * unit)) =
      firstUnits user d := by
  unfold firstUnits
  rw [List.flatMap_def, List.flatMap_def]
  refine congrArg _ (List.map_congr_left fun unit hunit => ?_)
  have hless := List.mem_range.mp hunit
  unfold unitWrites copied
  rw [if_pos (by omega), if_pos (by omega), if_pos (by omega), if_pos (by omega)]
  rfl

theorem length_units (fwData : Nat → Option (BitVec 32)) (d : Nat) :
    ((List.range d).flatMap fun unit => unitWrites fwData (4 * unit)).length = 4 * d := by
  induction d with
  | zero => rfl
  | succ d ih =>
      rw [List.range_succ, List.flatMap_append, List.length_append, ih, List.flatMap_singleton]
      rfl

theorem word_ne_none {w : FwWrite} (hw : w ∈ firstUnits user d) : w.word ≠ none := by
  obtain ⟨unit, -, hunit⟩ := List.mem_flatMap.mp hw
  intro hnone
  obtain ⟨reg, word⟩ := w
  obtain rfl : word = none := hnone
  simp [unitWrites] at hunit

theorem copied_units_iff :
    (List.range d).flatMap (fun unit => unitWrites (copied user size) (4 * unit)) =
      firstUnits user d' ↔ d = d' ∧ 16 * d ≤ size.toNat := by
  constructor
  · intro heq
    have hlength := congrArg List.length heq
    unfold firstUnits at heq hlength
    rw [length_units, length_units] at hlength
    obtain rfl : d = d' := by omega
    refine ⟨rfl, ?_⟩
    cases d with
    | zero => exact Nat.zero_le _
    | succ d =>
        have hlast : ⟨.data4, copied user size (4 * d + 3)⟩ ∈ (List.range (d + 1)).flatMap
            fun unit => unitWrites (copied user size) (4 * unit) := by
          refine List.mem_flatMap.mpr ⟨d, List.mem_range.mpr (Nat.lt_succ_self d), ?_⟩
          simp [unitWrites]
        rw [heq] at hlast
        have hsome : copied user size (4 * d + 3) ≠ none := word_ne_none hlast
        unfold copied at hsome
        split at hsome
        next hfits => omega
        next => exact absurd rfl hsome
  · rintro ⟨rfl, hfits⟩
    exact copied_units hfits

end Units

section Call

variable {env : UploadEnv} {arg : FwUpload} {fuel : Nat} {out : UploadOut}

theorem txInv_start (fwData : Nat → Option (BitVec 32)) :
    TxInv env fwData arg.fwNum.toNat (txStart arg.fwNum) :=
  ⟨rfl, ⟨rfl, rfl, rfl⟩, fun _ hj => absurd hj (Nat.not_lt_zero _), fun _ => rfl⟩

theorem uploaded_of_not_starts (hstarts : ¬ env.Starts arg)
    (hout : zynqFwIoctlUpload env arg fuel = some out) : Uploaded arg out := by
  have hnothing (ret : Int) : Uploaded arg ⟨ret, false, [], arg.fwDone⟩ := ⟨0, rfl, nofun⟩
  unfold zynqFwIoctlUpload at hout
  cases hcopy : env.copyArg with
  | false =>
      rw [hcopy] at hout
      cases hout
      exact hnothing _
  | true =>
      cases herr : env.isErr with
      | true =>
          rw [hcopy, herr] at hout
          cases hout
          exact hnothing _
      | false =>
          rw [hcopy, herr] at hout
          unfold zynqFwTxUser at hout
          dsimp only at hout
          cases halloc : env.kmalloc (allocSize arg.fwNum) with
          | false =>
              rw [halloc] at hout
              cases hout
              exact hnothing _
          | true =>
              cases hdata : env.copyData (allocSize arg.fwNum) with
              | false =>
                  rw [halloc, hdata] at hout
                  cases hout
                  exact hnothing _
              | true => exact absurd ⟨hcopy, herr, halloc, hdata⟩ hstarts

/-- Only a transfer that has come to its end without an error is told to the user. -/
theorem zynqFwIoctlUpload_of_starts (hstarts : env.Starts arg)
    (hout : zynqFwIoctlUpload env arg fuel = some out) :
    ∃ v, TxEnds env (copied arg.fwData (allocSize arg.fwNum)) arg.fwNum.toNat v ∧
      out = if v.ret ≠ 0 then ⟨v.ret, true, v.written, arg.fwDone⟩
        else if env.copyDone then ⟨0, true, v.written, v.txNumDone⟩
        else ⟨-EFAULT, true, v.written, arg.fwDone⟩ := by
  obtain ⟨hcopy, herr, halloc, hdata⟩ := hstarts
  unfold zynqFwIoctlUpload zynqFwTxUser at hout
  rw [hcopy, herr] at hout
  dsimp only at hout
  rw [halloc, hdata] at hout
  simp only [Bool.not_true, Bool.false_eq_true, if_false, Option.map_map] at hout
  obtain ⟨v, hloop, rfl⟩ := Option.map_eq_some_iff.mp hout
  refine ⟨v, txLoop_ends (txInv_start _) hloop, ?_⟩
  dsimp only [Function.comp_apply]
  by_cases hret : v.ret = 0
  · rw [hret, if_neg (not_not.mpr rfl), if_neg (not_not.mpr rfl)]
    cases env.copyDone <;> rfl
  · rw [if_pos hret, if_pos hret]

theorem uploaded_of_sent {d : Nat} {v : TxVars}
    (hsent : Sent (copied arg.fwData (allocSize arg.fwNum)) d v) {ret : Int} {fwDone : BitVec 32} :
    Uploaded arg ⟨ret, true, v.written, fwDone⟩ ↔
      16 * d ≤ (allocSize arg.fwNum).toNat ∧
        (ret = 0 ∨ ret = -ENOSPC → fwDone = BitVec.ofNat 32 d) := by
  unfold Uploaded
  dsimp only
  rw [hsent.written]
  constructor
  · rintro ⟨d', heq, hdone⟩
    obtain ⟨rfl, hfits⟩ := copied_units_iff.mp heq
    exact ⟨hfits, hdone rfl⟩
  · rintro ⟨hfits, hdone⟩
    exact ⟨d, copied_units hfits, fun _ => hdone⟩

theorem timesOut_unique {num k k' : Nat} (htimes : env.TimesOut num k)
    (htimes' : env.TimesOut num k') : k = k' := by
  rcases Nat.lt_trichotomy k k' with hlt | heq | hgt
  · exact absurd (htimes'.2.2.2 k hlt htimes.2.1) (Int.not_lt.mpr htimes.2.2.1)
  · exact heq
  · exact absurd (htimes.2.2.2 k' hgt htimes'.2.1) (Int.not_lt.mpr htimes'.2.2.1)

theorem zynqFwIoctlUpload_uploaded_iff (hout : zynqFwIoctlUpload env arg fuel = some out) :
    Uploaded arg out ↔ (env.Starts arg → env.Sound arg) := by
  by_cases hstarts : env.Starts arg
  · rw [forall_prop_of_true hstarts]
    obtain ⟨v, hends, rfl⟩ := zynqFwIoctlUpload_of_starts hstarts hout
    rcases hends with ⟨hret, hsent, hnever⟩ | ⟨hret, k, htimes, hsent⟩
    · rw [if_neg (not_not.mpr hret)]
      have hsound : env.Sound arg ↔ 16 * arg.fwNum.toNat ≤ (allocSize arg.fwNum).toNat :=
        ⟨fun h => h.2 hnever, fun h => ⟨fun k hk => absurd hk (hnever k), fun _ => h⟩⟩
      rw [hsound]
      split
      · rw [uploaded_of_sent hsent]
        exact and_iff_left fun _ => hsent.done
      · rw [uploaded_of_sent hsent]
        exact and_iff_left fun h => absurd h (by decide)
    · rw [if_pos (by rw [hret]; decide), uploaded_of_sent hsent, hret]
      constructor
      · rintro ⟨hfits, hdone⟩
        refine ⟨fun k' htimes' => ?_, fun hnever => absurd htimes (hnever k)⟩
        obtain rfl := timesOut_unique htimes htimes'
        exact ⟨hfits, hdone (Or.inr rfl)⟩
      · intro hsound
        exact ⟨(hsound.1 k htimes).1, fun _ => (hsound.1 k htimes).2⟩
  · exact iff_of_true (uploaded_of_not_starts hstarts hout) fun h => absurd h hstarts

theorem zynqFwIoctlUpload_returns {late : Nat} (hlate : ∀ k, late ≤ k → ktimeEnd env ≤ env.clock k)
    (hfuel : late + arg.fwNum.toNat < fuel) :
    ∃ out, zynqFwIoctlUpload env arg fuel = some out := by
  have hreturns : ∃ v, txLoop env (copied arg.fwData (allocSize arg.fwNum)) (ktimeEnd env) fuel
      (txStart arg.fwNum) = some v := txLoop_returns hlate hfuel
  obtain ⟨v, hloop⟩ := hreturns
  unfold zynqFwIoctlUpload zynqFwTxUser
  dsimp only
  rw [hloop]
  split_ifs <;> exact ⟨_, rfl⟩

end Call

/-- Polls from `polls` on find the FIFO full, and the deadline past. -/
def fullFrom (polls : Nat) : UploadEnv where
  copyArg := true
  isErr := false
  kmalloc := fun _ => true
  copyData := fun _ => true
  start := 0
  full := fun k => polls ≤ k
  clock := fun _ => 1000000000
  copyDone := true

theorem fullFrom_late (polls k : Nat) (_ : 0 ≤ k) :
    ktimeEnd (fullFrom polls) ≤ (fullFrom polls).clock k := by
  change (0 : Int) + 1000000 * 1000 ≤ 1000000000
  decide

theorem zynqFwIoctlUpload_uploaded_two :
    ∃ out, zynqFwIoctlUpload (fullFrom 2) ⟨fun i => BitVec.ofNat 32 i, 2, 0⟩ 3 = some out ∧
      Uploaded ⟨fun i => BitVec.ofNat 32 i, 2, 0⟩ out := by
  have hreturns : ∃ out,
      zynqFwIoctlUpload (fullFrom 2) ⟨fun i => BitVec.ofNat 32 i, 2, 0⟩ 3 = some out :=
    zynqFwIoctlUpload_returns (fullFrom_late 2) (by decide)
  obtain ⟨out, hout⟩ := hreturns
  refine ⟨out, hout, (zynqFwIoctlUpload_uploaded_iff hout).mpr fun _ =>
    ⟨fun k htimes => ?_, fun _ => by decide⟩⟩
  have htwo : 2 ≤ k := of_decide_eq_true htimes.2.1
  exact absurd (Nat.lt_of_le_of_lt (room_mono (fullFrom 2) htwo) htimes.1) (by decide)

/-- The time is up before the first unit is sent, and `ioc_zynq_fw_done` stays at 7; and of
2 ^ 28 + 1 units one is copied and two are written before the time is up. -/
theorem zynqFwIoctlUpload_fails :
    (∃ arg out, zynqFwIoctlUpload (fullFrom 0) arg 2 = some out ∧ arg.fwNum = 1 ∧
      ¬ Uploaded arg out) ∧
    ∃ arg out, zynqFwIoctlUpload (fullFrom 2) arg 4 = some out ∧ arg.fwNum = 0x10000001 ∧
      ¬ Uploaded arg out := by
  constructor
  · refine ⟨⟨fun _ => 0, 1, 7⟩, ⟨-ENOSPC, true, [], 7⟩, by decide, rfl, ?_⟩
    rintro ⟨d, hwritten, hdone⟩
    have hlength := congrArg List.length hwritten
    unfold firstUnits at hlength
    rw [length_units] at hlength
    obtain rfl : d = 0 := by
      change 0 = 4 * d at hlength
      omega
    exact absurd (hdone rfl (Or.inr rfl)) (by decide)
  · refine ⟨⟨fun _ => 0, 0x10000001, 0⟩,
      ⟨-ENOSPC, true, unitWrites (fun _ => some 0) 0 ++ unitWrites (fun _ => none) 4, 0⟩,
      by decide, rfl, ?_⟩
    rintro ⟨d, hwritten, -⟩
    have hnone : (⟨.data1, none⟩ : FwWrite) ∈
        unitWrites (fun _ => some 0) 0 ++ unitWrites (fun _ => none) 4 := by decide
    change unitWrites _ 0 ++ unitWrites _ 4 = _ at hwritten
    rw [hwritten] at hnone
    exact word_ne_none hnone rfl

end ApolloContrib.Firmware
