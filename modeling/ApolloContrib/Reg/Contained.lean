import ApolloContrib.Library.Run
import ApolloContrib.Reg.Registers

namespace ApolloContrib.Reg

open ApolloContrib.Library ZynqDev

/-! Which requests keep to the registers of their card, and runs of requests to
several cards. -/

/-- The four bytes at `offset` are among the first `len`. -/
def Fits (offset : Nat) (len : Nat) : Prop := offset + 4 ≤ len

instance (offset len : Nat) : Decidable (Fits offset len) :=
  inferInstanceAs (Decidable (_ ≤ _))

/-- A channel has the offsets up to `ZYNQ_CHAN_REG_MAX` from its own base in BAR 0,
a CAN IP those below `ZCAN_IP_OFFSET` from its own in BAR 2. -/
def RegAccess.InBounds (zdev : ZynqDev) (a : RegAccess) : Prop :=
  match a.window with
  | .bar0 => Fits a.offset.toNat zdev.zdevBar0Len.toNat
  | .bar2 => Fits a.offset.toNat zdev.zdevBar2Len.toNat
  | .chan num =>
      num < zdev.zdevChanCnt ∧ Fits a.offset.toNat (ZYNQ_CHAN_REG_MAX.toNat + 1) ∧
        Fits (ZYNQ_CHAN_REG_OFFSET * num.toNat + a.offset.toNat) zdev.zdevBar0Len.toNat
  | .zcan ipNum =>
      ipNum ∈ zdev.zdevCans ∧ Fits a.offset.toNat ZCAN_IP_OFFSET.toNat ∧
        Fits (ZCAN_IP_OFFSET.toNat * ipNum.toNat + a.offset.toNat) zdev.zdevBar2Len.toNat

instance (zdev : ZynqDev) (a : RegAccess) : Decidable (a.InBounds zdev) := by
  unfold RegAccess.InBounds
  exact match a.window with
  | .bar0 | .bar2 | .chan _ | .zcan _ => inferInstance

/-- What a request does to a card stays inside the card, and a request that is
refused, or whose text does not parse, changes nothing. -/
structure Outcome.Contained (zdev : ZynqDev) (before : SysfsVars) (out : Outcome) :
    Prop where
  inBounds : ∀ a ∈ out.accesses, a.InBounds zdev
  noNull : out.nullDeref = false
  unchanged : out.refused = true ∨ out.parsed = false →
    (∀ a ∈ out.accesses, a.write = none) ∧ out.vars = before

/-- A text for a register file: its offset is over the limit, or it has the numbers it
should and a write fits, or no number at all and the variables hold the old offset. -/
def RegSetSafe (limit : BitVec 32) (inBounds : BitVec 32 → Prop) (remembered : BitVec 32)
    (text : List Char) (offset val : BitVec 32) : Prop :=
  if ' ' ∈ text then
    let scan := scanTwo (scanUnsigned 16) text offset val
    scan.first ≤ limit → scan.count = 2 ∧ inBounds scan.first
  else
    let scan := scanOne (scanUnsigned 16) text offset val
    scan.first ≤ limit → scan.count = 1 ∨ scan.first = remembered

/-- The request keeps to the card: its offset fits, its text parses, and a channel or a CAN
that was selected before is one of this card. -/
def Request.Safe (zdev : ZynqDev) (params : ModuleParams) (vars : SysfsVars) :
    Request → Prop
  | .regIoctl copyFrom _ regBar regOffset _ =>
      copyFrom = true → params.zynqBringupParam = false →
        (regBar = 0 → Fits regOffset.toNat zdev.zdevBar0Len.toNat) ∧
        (regBar = 2 → Fits regOffset.toNat zdev.zdevBar2Len.toNat)
  | .canIpSet text canIp =>
      let scan := scanOne (scanUnsigned 10) text canIp 0
      zdev.canIpToZcan scan.first ≠ none → scan.count = 1 ∨ scan.first = vars.canIp
  | .chanSet text chan =>
      let scan := scanOne (scanUnsigned 10) text chan 0
      scan.first < zdev.zdevChanCnt → scan.count = 1 ∨ scan.first = vars.chan
  | .gRegRead => (gRegAccess vars.gRegOffset none).InBounds zdev
  | .gRegSet text offset val =>
      RegSetSafe (zdev.zdevBar0Len - 4) (fun off => (gRegAccess off none).InBounds zdev)
        vars.gRegOffset text offset val
  | .chanRegRead => (chanRegAccess vars vars.chanRegOffset none).InBounds zdev
  | .chanRegSet text offset val =>
      RegSetSafe ZYNQ_CHAN_REG_MAX (fun off => (chanRegAccess vars off none).InBounds zdev)
        vars.chanRegOffset text offset val
  | .canIpRegRead => (zdev.canIpRegAccess vars vars.canIpRegOffset none).InBounds zdev
  | .canIpRegSet text offset val =>
      RegSetSafe (zdev.zdevBar2Len - 4)
        (fun off => (zdev.canIpRegAccess vars off none).InBounds zdev)
        vars.canIpRegOffset text offset val
  | .canIpTest text =>
      zdev.zcanTxDma = true ∨ scanMsgcnt text ≠ 0 ∨ params.traceCanPio = true →
        zdev.canIpToZcan vars.canIp ≠ none
  | .canTest => zdev.canIpToZcan vars.canIp ≠ none
  | .chanPioInfo => zdev.canIpToZcan vars.canIp ≠ none

section Requests

variable {zdev : ZynqDev} {params : ModuleParams} {vars : SysfsVars}

theorem contained_quiet {before after : SysfsVars} {parsed refused : Bool} :
    (⟨after, [], false, parsed, refused⟩ : Outcome).Contained zdev before ↔
      (refused = true ∨ parsed = false → after = before) := by
  constructor
  · intro hcontained hrefused
    exact (hcontained.unchanged hrefused).2
  · intro hunchanged
    refine ⟨by simp, rfl, fun hrefused => ⟨by simp, hunchanged hrefused⟩⟩

theorem contained_selected {before after : SysfsVars} {parsed : Prop} [Decidable parsed] :
    (⟨after, [], false, parsed, false⟩ : Outcome).Contained zdev before ↔
      parsed ∨ after = before := by
  rw [contained_quiet]
  by_cases hparsed : parsed <;> simp [hparsed]

theorem contained_null {parsed refused null : Bool} :
    (⟨vars, [], null, parsed, refused⟩ : Outcome).Contained zdev vars ↔ null = false := by
  constructor
  · exact fun hcontained => hcontained.noNull
  · rintro rfl
    exact contained_quiet.mpr fun _ => rfl

theorem contained_read {a : RegAccess} {refused : Bool} (hread : a.write = none) :
    (⟨vars, [a], false, true, refused⟩ : Outcome).Contained zdev vars ↔
      a.InBounds zdev := by
  constructor
  · intro hcontained
    exact hcontained.inBounds a (by simp)
  · intro hin
    refine ⟨by simpa using hin, rfl, fun _ => ⟨by simpa using hread, rfl⟩⟩

theorem contained_accepted {a : RegAccess} {after : SysfsVars} {parsed : Bool}
    (hwrite : a.write ≠ none) :
    (⟨after, [a], false, parsed, false⟩ : Outcome).Contained zdev vars ↔
      parsed = true ∧ a.InBounds zdev := by
  constructor
  · intro hcontained
    refine ⟨?_, hcontained.inBounds a (by simp)⟩
    cases parsed with
    | true => rfl
    | false => exact absurd ((hcontained.unchanged (.inr rfl)).1 a (by simp)) hwrite
  · rintro ⟨rfl, hin⟩
    refine ⟨by simpa using hin, rfl, ?_⟩
    rintro (hrefused | hparsed)
    · exact absurd hrefused (by simp)
    · exact absurd hparsed (by simp)

theorem regSet_contained_iff {limit remembered : BitVec 32}
    {access : BitVec 32 → Option (BitVec 32) → RegAccess}
    {remember : BitVec 32 → SysfsVars} {text : List Char} {offset val : BitVec 32}
    (haccess : ∀ off w, (access off w).InBounds zdev ↔ (access off none).InBounds zdev)
    (hwrite : ∀ off w, (access off w).write = w)
    (hremember : ∀ off, remember off = vars ↔ off = remembered) :
    (regSet limit access remember vars text offset val).Contained zdev vars ↔
      RegSetSafe limit (fun off => (access off none).InBounds zdev) remembered
        text offset val := by
  unfold regSet RegSetSafe
  dsimp only
  by_cases hblank : ' ' ∈ text
  · rw [if_pos hblank, if_pos hblank]
    split
    next hover =>
      rw [contained_quiet]
      exact iff_of_true (fun _ => rfl) fun hle => absurd hover (BitVec.not_lt.mpr hle)
    next hunder =>
      rw [contained_accepted (by simp [hwrite]), haccess]
      simp [BitVec.not_lt.mp hunder]
  · rw [if_neg hblank, if_neg hblank]
    split
    next hover =>
      rw [contained_quiet]
      exact iff_of_true (fun _ => rfl) fun hle => absurd hover (BitVec.not_lt.mpr hle)
    next hunder =>
      rw [contained_selected, hremember]
      simp [BitVec.not_lt.mp hunder]

theorem gRegAccess_inBounds (off : BitVec 32) (w : Option (BitVec 32)) :
    (gRegAccess off w).InBounds zdev ↔ (gRegAccess off none).InBounds zdev := Iff.rfl

theorem gRegAccess_write (off : BitVec 32) (w : Option (BitVec 32)) :
    (gRegAccess off w).write = w := rfl

theorem chanRegAccess_inBounds (off : BitVec 32) (w : Option (BitVec 32)) :
    (chanRegAccess vars off w).InBounds zdev ↔
      (chanRegAccess vars off none).InBounds zdev := Iff.rfl

theorem chanRegAccess_write (off : BitVec 32) (w : Option (BitVec 32)) :
    (chanRegAccess vars off w).write = w := rfl

theorem canIpRegAccess_inBounds (off : BitVec 32) (w : Option (BitVec 32)) :
    (zdev.canIpRegAccess vars off w).InBounds zdev ↔
      (zdev.canIpRegAccess vars off none).InBounds zdev := by
  unfold canIpRegAccess
  cases zdev.canIpToZcan vars.canIp with
  | none => rfl
  | some ipNum => dsimp only; split <;> rfl

theorem canIpRegAccess_write (off : BitVec 32) (w : Option (BitVec 32)) :
    (zdev.canIpRegAccess vars off w).write = w := by
  unfold canIpRegAccess
  cases zdev.canIpToZcan vars.canIp with
  | none => rfl
  | some ipNum => dsimp only; split <;> rfl

theorem barAccess_contained_iff {window : RegWindow} {reg : BitVec 32}
    {write : Option (BitVec 32)} {refused : Bool}
    (hrefused : refused = true → write = none) :
    (⟨vars, barAccess params window reg write, false, true, refused⟩ :
        Outcome).Contained zdev vars ↔
      (params.zynqBringupParam = false →
        (⟨window, reg, write⟩ : RegAccess).InBounds zdev) := by
  unfold barAccess
  cases params.zynqBringupParam with
  | true =>
      rw [if_pos rfl, contained_quiet]
      simp
  | false =>
      rw [if_neg (by simp)]
      cases write with
      | none => rw [contained_read rfl]; simp
      | some w =>
          cases refused with
          | true => exact absurd (hrefused rfl) (by simp)
          | false => rw [contained_accepted (by simp)]; simp

theorem zynqRegIoctl_contained_iff {copyFrom copyTo : Bool}
    {regBar regOffset : BitVec 32} {write : Option (BitVec 32)} :
    (zynqRegIoctl params vars copyFrom copyTo regBar regOffset write).2.Contained
        zdev vars ↔
      (Request.regIoctl copyFrom copyTo regBar regOffset write).Safe
        zdev params vars := by
  have hread : ∀ err : Int, err = (if write = none ∧ copyTo = false then -EFAULT else 0) →
      decide (err ≠ 0) = true → write = none := by
    rintro err rfl herr
    split at herr
    next hnone => exact hnone.1
    next => simp at herr
  unfold zynqRegIoctl Request.Safe
  cases copyFrom with
  | false =>
      rw [if_pos rfl, contained_quiet]
      simp
  | true =>
      rw [if_neg (by simp)]
      split
      next hbar =>
        rw [zynqGReg, barAccess_contained_iff (hread _ rfl)]
        simp [hbar, RegAccess.InBounds]
      next hbar0 =>
        split
        next hbar =>
          rw [zynqBar2Reg, barAccess_contained_iff (hread _ rfl)]
          simp [hbar, RegAccess.InBounds]
        next hbar2 =>
          rw [contained_quiet]
          exact iff_of_true (fun _ => rfl) fun _ _ =>
            ⟨fun hbar => absurd hbar hbar0, fun hbar => absurd hbar hbar2⟩

theorem canIpToZcan_none_of_le {canIp : BitVec 32}
    (hle : zdev.zdevCans.length ≤ canIp.toNat) : zdev.canIpToZcan canIp = none :=
  if_pos hle

theorem zynqSysfsCanIpSet_contained_iff {text : List Char} {canIp : BitVec 32} :
    (zdev.zynqSysfsCanIpSet vars text canIp).Contained zdev vars ↔
      (Request.canIpSet text canIp).Safe zdev params vars := by
  unfold zynqSysfsCanIpSet Request.Safe
  dsimp only
  split
  next hbad =>
    have hnone := hbad.elim canIpToZcan_none_of_le id
    rw [contained_quiet]
    exact iff_of_true (fun _ => rfl) fun hsome => absurd hnone hsome
  next hgood =>
    push Not at hgood
    rw [contained_selected]
    refine Iff.trans ?_ (imp_iff_right hgood.2).symm
    simp [SysfsVars.ext_iff]

theorem zynqSysfsChanSet_contained_iff {text : List Char} {chan : BitVec 32} :
    (zdev.zynqSysfsChanSet vars text chan).Contained zdev vars ↔
      (Request.chanSet text chan).Safe zdev params vars := by
  unfold zynqSysfsChanSet Request.Safe
  dsimp only
  split
  next hbad =>
    rw [contained_quiet]
    exact iff_of_true (fun _ => rfl) fun hlt => absurd hbad (BitVec.not_le.mpr hlt)
  next hgood =>
    rw [contained_selected]
    refine Iff.trans ?_ (imp_iff_right (BitVec.not_le.mp hgood)).symm
    simp [SysfsVars.ext_iff]

theorem zynqSysfsCanIpTest_contained_iff {text : List Char} :
    (zdev.zynqSysfsCanIpTest params vars text).Contained zdev vars ↔
      (Request.canIpTest text).Safe zdev params vars := by
  unfold zynqSysfsCanIpTest Request.Safe
  dsimp only
  split
  next hdma =>
    rw [contained_null]
    simp [hdma, Option.isNone_eq_false_iff, Option.isSome_iff_ne_none]
  next hpio =>
    rw [contained_null]
    cases zdev.canIpToZcan vars.canIp <;> simp [hpio]

theorem serve_contained_iff (request : Request) :
    (zdev.serve params vars request).Contained zdev vars ↔
      request.Safe zdev params vars := by
  cases request with
  | regIoctl copyFrom copyTo regBar regOffset write => exact zynqRegIoctl_contained_iff
  | canIpSet text canIp => exact zynqSysfsCanIpSet_contained_iff
  | chanSet text chan => exact zynqSysfsChanSet_contained_iff
  | gRegRead => exact contained_read rfl
  | gRegSet text offset val =>
      rw [ZynqDev.serve, Request.Safe, zynqSysfsGRegSet]
      apply regSet_contained_iff gRegAccess_inBounds gRegAccess_write
      simp [SysfsVars.ext_iff]
  | chanRegRead => exact contained_read rfl
  | chanRegSet text offset val =>
      rw [ZynqDev.serve, Request.Safe, zynqSysfsChanRegSet]
      apply regSet_contained_iff chanRegAccess_inBounds chanRegAccess_write
      simp [SysfsVars.ext_iff]
  | canIpRegRead => exact contained_read (canIpRegAccess_write _ _)
  | canIpRegSet text offset val =>
      rw [ZynqDev.serve, Request.Safe, zynqSysfsCanIpRegSet]
      apply regSet_contained_iff canIpRegAccess_inBounds canIpRegAccess_write
      simp [SysfsVars.ext_iff]
  | canIpTest text => exact zynqSysfsCanIpTest_contained_iff
  | canTest =>
      rw [ZynqDev.serve, zynqSysfsCanTest, contained_null]
      simp [Request.Safe, Option.isSome_iff_ne_none]
  | chanPioInfo =>
      rw [ZynqDev.serve, zynqSysfsChanPioInfoShow, contained_null]
      simp [Request.Safe, Option.isSome_iff_ne_none]

end Requests

structure Event (n : Nat) where
  zdev : Fin n
  params : ModuleParams
  request : Request

structure Entry (n : Nat) where
  zdev : Fin n
  before : SysfsVars
  outcome : Outcome

structure History (n : Nat) where
  vars : SysfsVars
  log : List (Entry n)

section Runs

variable {n : Nat} (zdevs : Fin n → ZynqDev)

def step (h : History n) (e : Event n) : Option (History n) :=
  let outcome := (zdevs e.zdev).serve e.params h.vars e.request
  some ⟨outcome.vars, h.log ++ [⟨e.zdev, h.vars, outcome⟩]⟩

def History.Contained (h : History n) : Prop :=
  ∀ entry ∈ h.log, entry.outcome.Contained (zdevs entry.zdev) entry.before

def Event.Safe (h : History n) (e : Event n) : Prop :=
  e.request.Safe (zdevs e.zdev) e.params h.vars

variable {zdevs}

theorem step_contained_iff {h next : History n} {e : Event n}
    (hstep : step zdevs h e = some next) :
    next.Contained zdevs ↔ h.Contained zdevs ∧ e.Safe zdevs h := by
  obtain rfl := Option.some.inj hstep
  unfold History.Contained Event.Safe
  rw [← serve_contained_iff]
  simp [or_imp, forall_and]

theorem registerAccess_iff (vars : SysfsVars) (events : List (Event n)) :
    Throughout (step zdevs) (History.Contained zdevs) ⟨vars, []⟩ events ↔
      StepsMeet (step zdevs) (Event.Safe zdevs) ⟨vars, []⟩ events := by
  have hinit : History.Contained zdevs ⟨vars, []⟩ := by
    intro entry hentry
    cases hentry
  have htotal : ∀ h e, ∃ next, step zdevs h e = some next := fun _ _ => ⟨_, rfl⟩
  rw [throughout_iff_stepsMeet htotal step_contained_iff]
  exact and_iff_right hinit

/-! ### One card

With a single card the remembered offsets stay in range, so that only the requests
themselves matter. -/

structure ZynqDev.Sized (zdev : ZynqDev) : Prop where
  bar0 : 4 ≤ zdev.zdevBar0Len.toNat
  bar2 : 4 ≤ zdev.zdevBar2Len.toNat
  chans : ∀ num < zdev.zdevChanCnt,
    ZYNQ_CHAN_REG_OFFSET * num.toNat + (ZYNQ_CHAN_REG_MAX.toNat + 1) ≤
      zdev.zdevBar0Len.toNat
  cans : ∀ ipNum ∈ zdev.zdevCans,
    ZCAN_IP_OFFSET.toNat * (ipNum.toNat + 1) ≤ zdev.zdevBar2Len.toNat

/-- The selected channel and CAN are there, and the remembered offsets in range. -/
structure SysfsVars.InRange (zdev : ZynqDev) (vars : SysfsVars) : Prop where
  chan : vars.chan < zdev.zdevChanCnt
  canIp : zdev.canIpToZcan vars.canIp ≠ none
  gRegOffset : Fits vars.gRegOffset.toNat zdev.zdevBar0Len.toNat
  chanRegOffset : Fits vars.chanRegOffset.toNat (ZYNQ_CHAN_REG_MAX.toNat + 1)
  canIpRegOffset : Fits vars.canIpRegOffset.toNat zdev.zdevBar2Len.toNat

def Parses (text : List Char) : Prop :=
  if ' ' ∈ text then ∀ offset val, (scanTwo (scanUnsigned 16) text offset val).count = 2
  else ∀ offset val, (scanOne (scanUnsigned 16) text offset val).count = 1

/-- What is left to the user: an ioctl keeps to its BAR, a channel register is a whole
word, and a text is a number or two. -/
def Request.Proper (zdev : ZynqDev) : Request → Prop
  | .regIoctl _ _ regBar regOffset _ =>
      (regBar = 0 → Fits regOffset.toNat zdev.zdevBar0Len.toNat) ∧
      (regBar = 2 → Fits regOffset.toNat zdev.zdevBar2Len.toNat)
  | .canIpSet text canIp => (scanOne (scanUnsigned 10) text canIp 0).count = 1
  | .chanSet text chan => (scanOne (scanUnsigned 10) text chan 0).count = 1
  | .gRegSet text _ _ => Parses text
  | .chanRegSet text offset val =>
      Parses text ∧
        ((scanOne (scanUnsigned 16) text offset val).first ≤ ZYNQ_CHAN_REG_MAX →
          Fits (scanOne (scanUnsigned 16) text offset val).first.toNat
            (ZYNQ_CHAN_REG_MAX.toNat + 1))
  | .canIpRegSet text _ _ => Parses text
  | _ => True

section OneCard

variable {zdev : ZynqDev} {vars : SysfsVars}

theorem scanTwo_first (conv : List Char → Option (BitVec 32 × List Char))
    (text : List Char) (offset val : BitVec 32) :
    (scanTwo conv text offset val).first = (scanOne conv text offset val).first := by
  unfold scanTwo scanOne
  cases conv text with
  | none => rfl
  | some found => dsimp only; cases conv (skipSpaces found.2) <;> rfl

theorem fits_of_le_sub_four {offset len : BitVec 32} (hlen : 4 ≤ len.toNat)
    (hle : offset ≤ len - 4) : Fits offset.toNat len.toNat := by
  have hsub : (len - 4).toNat = len.toNat - 4 := by
    rw [BitVec.toNat_sub_of_le]
    · rfl
    · exact hlen
  have hle' : offset.toNat ≤ len.toNat - 4 := hsub ▸ hle
  unfold Fits
  omega

theorem regSetSafe_of_parses {limit remembered offset val : BitVec 32}
    {inBounds : BitVec 32 → Prop} {text : List Char} (hparses : Parses text)
    (hin : (scanOne (scanUnsigned 16) text offset val).first ≤ limit →
      inBounds (scanOne (scanUnsigned 16) text offset val).first) :
    RegSetSafe limit inBounds remembered text offset val := by
  unfold Parses at hparses
  unfold RegSetSafe
  dsimp only
  split at hparses
  next hblank =>
    rw [if_pos hblank, scanTwo_first]
    exact fun hle => ⟨hparses offset val, hin hle⟩
  next hblank =>
    rw [if_neg hblank]
    exact fun _ => .inl (hparses offset val)

theorem regSet_vars {limit offset val : BitVec 32}
    {access : BitVec 32 → Option (BitVec 32) → RegAccess}
    {remember : BitVec 32 → SysfsVars} {text : List Char} :
    (regSet limit access remember vars text offset val).vars =
      if (scanOne (scanUnsigned 16) text offset val).first ≤ limit then
        remember (scanOne (scanUnsigned 16) text offset val).first
      else vars := by
  unfold regSet
  dsimp only
  rw [scanTwo_first]
  by_cases hle : (scanOne (scanUnsigned 16) text offset val).first ≤ limit
  · have hunder := BitVec.not_lt.mpr hle
    rw [if_pos hle, if_neg hunder, if_neg hunder]
    split <;> rfl
  · have hover := BitVec.not_le.mp hle
    rw [if_neg hle, if_pos hover, if_pos hover]
    split <;> rfl

theorem chanRegAccess_inBounds_of_fits (hsized : zdev.Sized)
    (hchan : vars.chan < zdev.zdevChanCnt) {offset : BitVec 32}
    (hfits : Fits offset.toNat (ZYNQ_CHAN_REG_MAX.toNat + 1)) :
    (chanRegAccess vars offset none).InBounds zdev := by
  have hwindow := hsized.chans _ hchan
  refine ⟨hchan, hfits, ?_⟩
  unfold Fits at *
  dsimp only [chanRegAccess]
  omega

theorem canIpRegAccess_inBounds_of_fits (hsized : zdev.Sized) {offset : BitVec 32}
    (hfits : Fits offset.toNat zdev.zdevBar2Len.toNat) :
    (zdev.canIpRegAccess vars offset none).InBounds zdev := by
  unfold canIpRegAccess
  split
  next ipNum hzcan =>
    have hmem : ipNum ∈ zdev.zdevCans := by
      unfold canIpToZcan at hzcan
      split at hzcan
      · cases hzcan
      · exact List.mem_of_find?_eq_some hzcan
    split
    next hle =>
      have hle' : offset.toNat ≤ (ZCAN_IP_OFFSET - 4).toNat := hle
      have hlimit : (ZCAN_IP_OFFSET - 4).toNat + 4 = ZCAN_IP_OFFSET.toNat := by decide
      have hwindow := hsized.cans ipNum hmem
      refine ⟨hmem, ?_, ?_⟩
      · unfold Fits
        dsimp only
        omega
      · unfold Fits
        dsimp only
        rw [Nat.mul_succ] at hwindow
        omega
    next => exact hfits
  next => exact hfits

theorem Request.safe_of_proper (params : ModuleParams) (hsized : zdev.Sized)
    (hrange : vars.InRange zdev) {request : Request} (hproper : request.Proper zdev) :
    request.Safe zdev params vars := by
  cases request with
  | regIoctl copyFrom copyTo regBar regOffset write => exact fun _ _ => hproper
  | canIpSet text canIp => exact fun _ => .inl hproper
  | chanSet text chan => exact fun _ => .inl hproper
  | gRegRead => exact hrange.gRegOffset
  | gRegSet text offset val =>
      rw [Request.Safe]
      apply regSetSafe_of_parses hproper
      exact fun hle => fits_of_le_sub_four hsized.bar0 hle
  | chanRegRead =>
      exact chanRegAccess_inBounds_of_fits hsized hrange.chan hrange.chanRegOffset
  | chanRegSet text offset val =>
      rw [Request.Safe]
      apply regSetSafe_of_parses hproper.1
      exact fun hle => chanRegAccess_inBounds_of_fits hsized hrange.chan (hproper.2 hle)
  | canIpRegRead => exact canIpRegAccess_inBounds_of_fits hsized hrange.canIpRegOffset
  | canIpRegSet text offset val =>
      rw [Request.Safe]
      apply regSetSafe_of_parses hproper
      intro hle
      exact canIpRegAccess_inBounds_of_fits hsized (fits_of_le_sub_four hsized.bar2 hle)
  | canIpTest text => exact fun _ => hrange.canIp
  | canTest => exact hrange.canIp
  | chanPioInfo => exact hrange.canIp

theorem serve_inRange {params : ModuleParams} (hsized : zdev.Sized)
    (hrange : vars.InRange zdev) {request : Request} (hproper : request.Proper zdev) :
    (zdev.serve params vars request).vars.InRange zdev := by
  cases request with
  | regIoctl copyFrom copyTo regBar regOffset write =>
      have hvars : (zynqRegIoctl params vars copyFrom copyTo regBar regOffset
          write).2.vars = vars := by
        unfold zynqRegIoctl
        split
        · rfl
        split
        · rfl
        split <;> rfl
      rw [ZynqDev.serve, hvars]
      exact hrange
  | canIpSet text canIp =>
      rw [ZynqDev.serve, zynqSysfsCanIpSet]
      split
      next => exact hrange
      next hgood =>
        push Not at hgood
        exact { hrange with canIp := hgood.2 }
  | chanSet text chan =>
      rw [ZynqDev.serve, zynqSysfsChanSet]
      split
      next => exact hrange
      next hgood => exact { hrange with chan := BitVec.not_le.mp hgood }
  | gRegSet text offset val =>
      rw [ZynqDev.serve, zynqSysfsGRegSet, regSet_vars]
      split
      next hle =>
        exact { hrange with gRegOffset := fits_of_le_sub_four hsized.bar0 hle }
      next => exact hrange
  | chanRegSet text offset val =>
      rw [ZynqDev.serve, zynqSysfsChanRegSet, regSet_vars]
      split
      next hle => exact { hrange with chanRegOffset := hproper.2 hle }
      next => exact hrange
  | canIpRegSet text offset val =>
      rw [ZynqDev.serve, zynqSysfsCanIpRegSet, regSet_vars]
      split
      next hle =>
        exact { hrange with canIpRegOffset := fits_of_le_sub_four hsized.bar2 hle }
      next => exact hrange
  | canIpTest text =>
      rw [ZynqDev.serve, zynqSysfsCanIpTest]
      split <;> exact hrange
  | gRegRead => exact hrange
  | chanRegRead => exact hrange
  | canIpRegRead => exact hrange
  | canTest => exact hrange
  | chanPioInfo => exact hrange

theorem oneCard_contained (hsized : zdev.Sized) (hboot : SysfsVars.boot.InRange zdev)
    {events : List (Event 1)} (hproper : ∀ e ∈ events, e.request.Proper zdev) :
    Throughout (step fun _ => zdev) (History.Contained fun _ => zdev)
      ⟨SysfsVars.boot, []⟩ events := by
  have hall : Throughout (step fun _ => zdev)
      (fun h => h.Contained (fun _ => zdev) ∧ h.vars.InRange zdev)
      ⟨SysfsVars.boot, []⟩ events := by
    refine throughout_of_stepsMeet ?_ ⟨?_, hboot⟩ (stepsMeet_of_forall hproper)
    · rintro h e next ⟨hcontained, hrange⟩ hproper hstep
      have hsafe := Request.safe_of_proper e.params hsized hrange hproper
      refine ⟨(step_contained_iff hstep).mpr ⟨hcontained, hsafe⟩, ?_⟩
      obtain rfl := Option.some.inj hstep
      exact serve_inRange hsized hrange hproper
    · intro entry hentry
      cases hentry
  exact hall.imp fun _ hboth => hboth.1

end OneCard

def smallCard : ZynqDev := ⟨0x10000, 0x1000, 2, [], false⟩

/-- One ioctl writes the word after the last one of BAR 0. -/
theorem registerAccess_fails :
    ¬ ∀ (zdevs : Fin 1 → ZynqDev) (events : List (Event 1)),
      Throughout (step zdevs) (History.Contained zdevs) ⟨SysfsVars.boot, []⟩ events := by
  intro hall
  have hthroughout := hall (fun _ => smallCard)
    [⟨0, ⟨false, false⟩, .regIoctl true true 0 0x10000 (some 0xdead)⟩]
  have hcontained := hthroughout.last rfl _ (List.mem_singleton_self _)
  exact absurd (hcontained.inBounds _ (List.mem_singleton_self _)) (by decide)

end Runs

end ApolloContrib.Reg
