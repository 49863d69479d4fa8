import Mathlib.Data.List.Nodup
import Mathlib.Data.List.Perm.Basic

namespace ApolloContrib.Device

/-! The probe of a device, `zynq_probe`, on what the kernel and the rest of the driver
answer it. -/

inductive ResourceEvent (R : Type) where
  | acquire (r : R)
  | release (r : R)
deriving DecidableEq, Repr

inductive ChanType where
  | can
  | video
  | other
deriving DecidableEq, Repr

/-- A channel; what `zchan_init_dma` answers for it, and `zcan_init` or `zvideo_init`. -/
structure ChanInit where
  zchanType : ChanType
  dma : Bool
  dev : Bool
deriving DecidableEq, Repr

inductive ChanPart where
  | dma
  | dev
  | watchdog
deriving DecidableEq, Repr

/-- Whether 0 is returned, and what happens to the parts of the channel. -/
def zchanInit (c : ChanInit) : Bool × List (ResourceEvent ChanPart) :=
  match c.zchanType with
  | .can =>
      if !c.dma then (false, [])
      else if !c.dev then (false, [.acquire .dma, .release .dma])
      else (true, [.acquire .dma, .acquire .dev, .acquire .watchdog])
  | .video =>
      if !c.dev then (false, [])
      else if !c.dma then (false, [.acquire .dev, .release .dev])
      else (true, [.acquire .dev, .acquire .dma, .acquire .watchdog])
  | .other => (true, [])

def zchanFini (zchanType : ChanType) : List (ResourceEvent ChanPart) :=
  match zchanType with
  | .can | .video => [.release .watchdog, .release .dev, .release .dma]
  | .other => []

/-- Each part is acquired at most once, and released as often. -/
def Balanced (events : List (ResourceEvent ChanPart)) : Prop :=
  ∀ part, events.count (.acquire part) ≤ 1 ∧
    events.count (.release part) = events.count (.acquire part)

theorem zchanInit_balanced (c : ChanInit) :
    Balanced (if (zchanInit c).1 then (zchanInit c).2 ++ zchanFini c.zchanType
      else (zchanInit c).2) := by
  obtain ⟨zchanType, dma, dev⟩ := c
  intro part
  cases zchanType <;> cases dma <;> cases dev <;> cases part <;> decide

def ENOMEM : Int := 12
def EFAULT : Int := 14
def EPERM : Int := 1

structure Errno where
  val : Int
  neg : val < 0

/-- What each step is answered; `version` is what the version register reads. -/
structure ProbeOracle where
  zdevAlloc : Bool
  pciEnableDevice : Option Errno
  ioremapBar0 : Bool
  version : BitVec 32
  ioremapBar2 : Bool
  chans : List ChanInit
  allocIrq : Bool
  sysfsInit : Bool
  createCdevAll : Bool
  setDmaMask64 : Bool
  setDmaMask32 : Bool
  setConsistentDmaMask : Bool

inductive Resource where
  | zdev
  | pciEnable
  | bar0
  | bar2
  | chan (i : Nat)
  | irq
  | sysfs
  | cdevs
  | busMaster
deriving DecidableEq, Repr

abbrev ProbeTrace := List (ResourceEvent Resource)

/-- What `zynq_probe` returns, and whether the device is in `zynq_dev_list`. -/
structure ProbeOut where
  ret : Int
  trace : ProbeTrace
  linked : Bool
deriving DecidableEq, Repr

def errEnablePci (err : Int) (trace : ProbeTrace) : ProbeOut :=
  ⟨err, trace ++ [.release .zdev], false⟩

def errIoremapBar0 (err : Int) (trace : ProbeTrace) : ProbeOut :=
  errEnablePci err (trace ++ [.release .pciEnable])

def errIoremapBar2 (err : Int) (trace : ProbeTrace) : ProbeOut :=
  errIoremapBar0 err (trace ++ [.release .bar0])

/-- `while (i--)`. -/
def finiChans : Nat → ProbeTrace → ProbeTrace
  | 0, trace => trace
  | i + 1, trace => finiChans i (trace ++ [.release (.chan i)])

def errChanInit (i : Nat) (err : Int) (trace : ProbeTrace) : ProbeOut :=
  errIoremapBar2 err (finiChans i trace ++ [.release .bar2])

def errSysfsInit (i : Nat) (err : Int) (trace : ProbeTrace) : ProbeOut :=
  errChanInit i err (trace ++ [.release .irq])

def errCreateCdev (i : Nat) (err : Int) (trace : ProbeTrace) : ProbeOut :=
  errSysfsInit i err (trace ++ [.release .sysfs])

def errDmaMask (i : Nat) (err : Int) (trace : ProbeTrace) : ProbeOut :=
  errCreateCdev i err (trace ++ [.release .busMaster] ++ [.release .cdevs])

/-- The counter where the loop ends, and whether it went through. -/
def initChans : List ChanInit → Nat → ProbeTrace → Nat × Bool × ProbeTrace
  | [], i, trace => (i, true, trace)
  | c :: chans, i, trace =>
      if (zchanInit c).1 then initChans chans (i + 1) (trace ++ [.acquire (.chan i)])
      else (i, false, trace)

/-- From the channels on; `err` is 0 when they are reached. -/
def probeChans (o : ProbeOracle) (err : Int) (trace : ProbeTrace) : ProbeOut :=
  let (i, ok, trace) := initChans o.chans 0 trace
  if !ok then errChanInit i err trace
  else if !o.allocIrq then errChanInit i err trace
  else
    let trace := trace ++ [.acquire .irq]
    if !o.sysfsInit then errSysfsInit i err trace
    else
      let trace := trace ++ [.acquire .sysfs]
      if !o.createCdevAll then errCreateCdev i err trace
      else
        let trace := trace ++ [.acquire .cdevs, .acquire .busMaster]
        if !o.setDmaMask64 && !o.setDmaMask32 then errDmaMask i (-EPERM) trace
        else if !o.setConsistentDmaMask then errDmaMask i (-EPERM) trace
        else ⟨0, trace, true⟩

def zynqProbe (o : ProbeOracle) : ProbeOut :=
  if !o.zdevAlloc then ⟨-ENOMEM, [], false⟩
  else
    let trace := [.acquire .zdev]
    match o.pciEnableDevice with
    | some err => errEnablePci err.val trace
    | none =>
        let trace := trace ++ [.acquire .pciEnable]
        if !o.ioremapBar0 then errIoremapBar0 (-EFAULT) trace
        else
          let trace := trace ++ [.acquire .bar0]
          if o.version = -1 then errIoremapBar2 (-EFAULT) trace
          else if !o.ioremapBar2 then errIoremapBar2 (-EFAULT) trace
          else probeChans o 0 (trace ++ [.acquire .bar2])

def ProbeOracle.Mapped (o : ProbeOracle) : Prop :=
  o.zdevAlloc = true ∧ o.pciEnableDevice = none ∧ o.ioremapBar0 = true ∧ o.version ≠ -1 ∧
    o.ioremapBar2 = true

/-- The channels, the interrupt, sysfs and the character devices are set up. -/
def ProbeOracle.SetUp (o : ProbeOracle) : Prop :=
  (∀ c ∈ o.chans, (zchanInit c).1 = true) ∧ o.allocIrq = true ∧ o.sysfsInit = true ∧
    o.createCdevAll = true

def ProbeOracle.Masked (o : ProbeOracle) : Prop :=
  (o.setDmaMask64 = true ∨ o.setDmaMask32 = true) ∧ o.setConsistentDmaMask = true

def ProbeOracle.Succeeds (o : ProbeOracle) : Prop :=
  o.Mapped ∧ o.SetUp ∧ o.Masked

/-- What has been acquired is released in reverse order, each once. -/
def Unwound (trace : ProbeTrace) : Prop :=
  ∃ acquired : List Resource, acquired.Nodup ∧
    trace = acquired.map .acquire ++ acquired.reverse.map .release

/-- What becomes of the parts of channel `i`. -/
def chanParts (c : ChanInit) (i : Nat) (trace : ProbeTrace) : List (ResourceEvent ChanPart) :=
  if (zchanInit c).1 then
    (if .acquire (.chan i) ∈ trace then (zchanInit c).2 else []) ++
      (if .release (.chan i) ∈ trace then zchanFini c.zchanType else [])
  else (zchanInit c).2

structure ProbesCleanly (o : ProbeOracle) (out : ProbeOut) : Prop where
  zero_iff : out.ret = 0 ↔ o.Succeeds ∧ out.linked = true
  failed : ¬ o.Succeeds → out.ret < 0 ∧ Unwound out.trace ∧
    ∀ i c, o.chans[i]? = some c → Balanced (chanParts c i out.trace)

def opened (acquired : List Resource) : ProbeTrace := acquired.map .acquire

def closing (acquired : List Resource) : ProbeTrace := acquired.reverse.map .release

/-- Everything that is acquired with `i` channels, in order. -/
def inOrder (i : Nat) : List Resource :=
  [.zdev, .pciEnable, .bar0, .bar2] ++ (List.range i).map .chan ++
    [.irq, .sysfs, .cdevs, .busMaster]

def mapped (i : Nat) : List Resource :=
  [.zdev, .pciEnable, .bar0, .bar2] ++ (List.range i).map .chan

def failWith (err : Int) (trace : ProbeTrace) (acquired : List Resource) : ProbeOut :=
  ⟨err, trace ++ closing acquired, false⟩

section Labels

variable (i : Nat) (err : Int) (trace : ProbeTrace)

theorem opened_concat (acquired : List Resource) (r : Resource) :
    opened (acquired ++ [r]) = opened acquired ++ [.acquire r] :=
  List.map_append

theorem mapped_succ : mapped (i + 1) = mapped i ++ [.chan i] := by
  unfold mapped
  rw [List.range_succ, List.map_append, ← List.append_assoc]
  rfl

theorem closing_append (first second : List Resource) :
    closing (first ++ second) = closing second ++ closing first := by
  unfold closing
  rw [List.reverse_append, List.map_append]

theorem failWith_release (acquired : List Resource) (r : Resource) :
    failWith err (trace ++ [.release r]) acquired = failWith err trace (acquired ++ [r]) := by
  unfold failWith
  rw [closing_append, List.append_assoc]
  rfl

theorem errEnablePci_eq : errEnablePci err trace = failWith err trace [.zdev] := rfl

theorem errIoremapBar0_eq : errIoremapBar0 err trace = failWith err trace [.zdev, .pciEnable] :=
  failWith_release err trace [.zdev] .pciEnable

theorem errIoremapBar2_eq :
    errIoremapBar2 err trace = failWith err trace [.zdev, .pciEnable, .bar0] := by
  rw [errIoremapBar2, errIoremapBar0_eq]
  exact failWith_release err trace [.zdev, .pciEnable] .bar0

theorem finiChans_eq : finiChans i trace = trace ++ closing ((List.range i).map .chan) := by
  induction i generalizing trace with
  | zero => exact (List.append_nil trace).symm
  | succ i ih =>
      rw [finiChans, ih, List.range_succ, List.map_append, closing_append, List.append_assoc]
      rfl

theorem errChanInit_eq : errChanInit i err trace = failWith err trace (mapped i) := by
  rw [errChanInit, errIoremapBar2_eq, failWith_release, finiChans_eq]
  unfold failWith mapped
  rw [closing_append, closing_append, List.append_assoc]
  rfl

theorem errSysfsInit_eq :
    errSysfsInit i err trace = failWith err trace (mapped i ++ [.irq]) := by
  rw [errSysfsInit, errChanInit_eq, failWith_release]

theorem errCreateCdev_eq :
    errCreateCdev i err trace = failWith err trace (mapped i ++ [.irq, .sysfs]) := by
  rw [errCreateCdev, errSysfsInit_eq, failWith_release, List.append_assoc]
  rfl

theorem errDmaMask_eq :
    errDmaMask i err trace =
      failWith err trace (mapped i ++ [.irq, .sysfs, .cdevs, .busMaster]) := by
  rw [errDmaMask, errCreateCdev_eq, failWith_release, failWith_release, List.append_assoc,
    List.append_assoc]
  rfl

theorem inOrder_nodup : (inOrder i).Nodup := by
  have hchans : ((List.range i).map Resource.chan).Nodup :=
    List.nodup_range.map fun _ _ => Resource.chan.inj
  unfold inOrder
  simp [List.nodup_append, hchans]

theorem failWith_unwound {acquired : List Resource} (hacquired : acquired <+: inOrder i) :
    Unwound (failWith err (opened acquired) acquired).trace :=
  ⟨acquired, (inOrder_nodup i).sublist hacquired.sublist, rfl⟩

theorem Unwound.released_iff {trace : ProbeTrace} (hunwound : Unwound trace) (r : Resource) :
    .release r ∈ trace ↔ .acquire r ∈ trace := by
  obtain ⟨acquired, -, rfl⟩ := hunwound
  simp

/-- A channel that was set up is taken down with all its parts, and one that was not holds
none. -/
theorem Unwound.chanParts_balanced {trace : ProbeTrace} (hunwound : Unwound trace)
    (c : ChanInit) (i : Nat) : Balanced (chanParts c i trace) := by
  have hchan := zchanInit_balanced c
  have hreleased := hunwound.released_iff (.chan i)
  unfold chanParts
  cases hinit : (zchanInit c).1 with
  | false =>
      rw [hinit] at hchan
      exact hchan
  | true =>
      rw [hinit] at hchan
      by_cases hacquired : .acquire (.chan i) ∈ trace
      · rw [if_pos rfl, if_pos hacquired, if_pos (hreleased.mpr hacquired)]
        exact hchan
      · rw [if_pos rfl, if_neg hacquired, if_neg (mt hreleased.mp hacquired)]
        exact fun part => ⟨Nat.zero_le 1, rfl⟩

theorem initChans_eq (chans : List ChanInit) :
    ∃ j, initChans chans i (opened (mapped i)) =
      (j, chans.all fun c => (zchanInit c).1, opened (mapped j)) := by
  induction chans generalizing i with
  | nil => exact ⟨i, rfl⟩
  | cons c chans ih =>
      rw [initChans, List.all_cons]
      cases hinit : (zchanInit c).1 with
      | false => exact ⟨i, rfl⟩
      | true =>
          rw [if_pos rfl, ← opened_concat, ← mapped_succ]
          exact ih (i + 1)

end Labels

section Outcomes

variable {o : ProbeOracle}

theorem inOrder_eq (i : Nat) : inOrder i = mapped i ++ [.irq, .sysfs, .cdevs, .busMaster] := rfl

theorem probeChans_of_setUp (hsetUp : o.SetUp) (err : Int) :
    ∃ j, probeChans o err (opened (mapped 0)) =
      if (o.setDmaMask64 || o.setDmaMask32) && o.setConsistentDmaMask then
        ⟨0, opened (inOrder j), true⟩
      else failWith (-EPERM) (opened (inOrder j)) (inOrder j) := by
  obtain ⟨hchans, hirq, hsysfs, hcdevs⟩ := hsetUp
  obtain ⟨j, hinit⟩ := initChans_eq 0 o.chans
  rw [List.all_eq_true.mpr hchans] at hinit
  have htrace : opened (mapped j) ++ [.acquire .irq] ++ [.acquire .sysfs] ++
      [.acquire .cdevs, .acquire .busMaster] = opened (inOrder j) := by
    unfold opened
    rw [inOrder_eq, List.map_append, List.append_assoc, List.append_assoc]
    rfl
  refine ⟨j, ?_⟩
  unfold probeChans
  rw [hinit, hirq, hsysfs, hcdevs]
  dsimp only
  simp only [Bool.not_true, Bool.false_eq_true, if_false, htrace, errDmaMask_eq, ← inOrder_eq]
  cases o.setDmaMask64 <;> cases o.setDmaMask32 <;> cases o.setConsistentDmaMask <;> rfl

theorem probeChans_of_not_setUp (hsetUp : ¬ o.SetUp) (err : Int) :
    ∃ j acquired, acquired <+: inOrder j ∧
      probeChans o err (opened (mapped 0)) = failWith err (opened acquired) acquired := by
  obtain ⟨j, hinit⟩ := initChans_eq 0 o.chans
  unfold probeChans
  rw [hinit]
  dsimp only
  cases hall : o.chans.all fun c => (zchanInit c).1 with
  | false => exact ⟨j, mapped j, List.prefix_append _ _, errChanInit_eq j err _⟩
  | true =>
      cases hirq : o.allocIrq with
      | false => exact ⟨j, mapped j, List.prefix_append _ _, errChanInit_eq j err _⟩
      | true =>
          cases hsysfs : o.sysfsInit with
          | false =>
              refine ⟨j, mapped j ++ [.irq],
                ⟨[.sysfs, .cdevs, .busMaster], List.append_assoc _ _ _⟩, ?_⟩
              rw [opened_concat]
              exact errSysfsInit_eq j err _
          | true =>
              cases hcdevs : o.createCdevAll with
              | false =>
                  refine ⟨j, mapped j ++ [.irq] ++ [.sysfs],
                    ⟨[.cdevs, .busMaster], by rw [List.append_assoc, List.append_assoc]; rfl⟩, ?_⟩
                  rw [opened_concat, opened_concat, List.append_assoc (mapped j)]
                  exact errCreateCdev_eq j err _
              | true =>
                  exact absurd ⟨List.all_eq_true.mp hall, hirq, hsysfs, hcdevs⟩ hsetUp

theorem zynqProbe_of_not_mapped (hmapped : ¬ o.Mapped) :
    ∃ err < 0, ∃ acquired, acquired <+: inOrder 0 ∧
      zynqProbe o = failWith err (opened acquired) acquired := by
  unfold zynqProbe
  cases halloc : o.zdevAlloc with
  | false => exact ⟨-ENOMEM, by decide, [], List.nil_prefix, rfl⟩
  | true =>
      cases hpci : o.pciEnableDevice with
      | some err => exact ⟨err.val, err.neg, [.zdev], ⟨_, rfl⟩, errEnablePci_eq _ _⟩
      | none =>
          cases hbar0 : o.ioremapBar0 with
          | false =>
              exact ⟨-EFAULT, by decide, [.zdev, .pciEnable], ⟨_, rfl⟩, errIoremapBar0_eq _ _⟩
          | true =>
              by_cases hversion : o.version = -1
              · refine ⟨-EFAULT, by decide, [.zdev, .pciEnable, .bar0], ⟨_, rfl⟩, ?_⟩
                dsimp only
                rw [if_pos hversion]
                exact errIoremapBar2_eq _ _
              · cases hbar2 : o.ioremapBar2 with
                | false =>
                    refine ⟨-EFAULT, by decide, [.zdev, .pciEnable, .bar0], ⟨_, rfl⟩, ?_⟩
                    dsimp only
                    rw [if_neg hversion]
                    exact errIoremapBar2_eq _ _
                | true => exact absurd ⟨halloc, hpci, hbar0, hversion, hbar2⟩ hmapped

theorem zynqProbe_of_mapped (hmapped : o.Mapped) :
    zynqProbe o = probeChans o 0 (opened (mapped 0)) := by
  obtain ⟨halloc, hpci, hbar0, hversion, hbar2⟩ := hmapped
  unfold zynqProbe
  rw [halloc, hpci, hbar0, hbar2]
  dsimp only
  rw [if_neg hversion]
  rfl

theorem masks_iff (o : ProbeOracle) :
    ((o.setDmaMask64 || o.setDmaMask32) && o.setConsistentDmaMask) = true ↔ o.Masked := by
  unfold ProbeOracle.Masked
  rw [Bool.and_eq_true, Bool.or_eq_true]

theorem zynqProbe_of_succeeds (hsucceeds : o.Succeeds) :
    (zynqProbe o).ret = 0 ∧ (zynqProbe o).linked = true := by
  obtain ⟨hmapped, hsetUp, hmasked⟩ := hsucceeds
  obtain ⟨j, hout⟩ := probeChans_of_setUp hsetUp 0
  rw [zynqProbe_of_mapped hmapped, hout, if_pos ((masks_iff o).mpr hmasked)]
  exact ⟨rfl, rfl⟩

/-- Whatever fails, what has been acquired is released in reverse order; only a failure of
the set-up is not told. -/
theorem zynqProbe_of_fails (hfails : ¬ o.Succeeds) :
    ∃ err j acquired, acquired <+: inOrder j ∧
      zynqProbe o = failWith err (opened acquired) acquired ∧
      (o.Mapped → ¬ o.SetUp → err = 0) ∧ ((o.Mapped → o.SetUp) → err < 0) := by
  by_cases hmapped : o.Mapped
  · rw [zynqProbe_of_mapped hmapped]
    by_cases hsetUp : o.SetUp
    · obtain ⟨j, hout⟩ := probeChans_of_setUp hsetUp 0
      have hmasked : ¬ o.Masked := fun hmasked => hfails ⟨hmapped, hsetUp, hmasked⟩
      rw [if_neg (mt (masks_iff o).mp hmasked)] at hout
      exact ⟨-EPERM, j, inOrder j, List.prefix_refl _, hout, fun _ hnot => absurd hsetUp hnot,
        fun _ => by decide⟩
    · obtain ⟨j, acquired, hacquired, hout⟩ := probeChans_of_not_setUp hsetUp 0
      exact ⟨0, j, acquired, hacquired, hout, fun _ _ => rfl, fun hcond =>
        absurd (hcond hmapped) hsetUp⟩
  · obtain ⟨err, hneg, acquired, hacquired, hout⟩ := zynqProbe_of_not_mapped hmapped
    exact ⟨err, 0, acquired, hacquired, hout, fun h => absurd h hmapped, fun _ => hneg⟩

/-- The error is 0 when `zchan_init`, `zynq_alloc_irq`, `zynq_sysfs_init` or
`zynq_create_cdev_all` is what fails. -/
theorem zynqProbe_cleanly_iff (o : ProbeOracle) :
    ProbesCleanly o (zynqProbe o) ↔ (o.Mapped → o.SetUp) := by
  by_cases hsucceeds : o.Succeeds
  · obtain ⟨hret, hlinked⟩ := zynqProbe_of_succeeds hsucceeds
    exact iff_of_true ⟨iff_of_true hret ⟨hsucceeds, hlinked⟩, fun h => absurd hsucceeds h⟩
      fun _ => hsucceeds.2.1
  · obtain ⟨err, j, acquired, hacquired, hout, herr⟩ := zynqProbe_of_fails hsucceeds
    constructor
    · intro hclean hmapped
      by_contra hsetUp
      have hzero := herr.1 hmapped hsetUp
      have hneg := (hclean.failed hsucceeds).1
      rw [hout] at hneg
      change err < 0 at hneg
      omega
    · intro hcond
      have hneg := herr.2 hcond
      have hunwound := failWith_unwound j err hacquired
      rw [hout]
      refine ⟨iff_of_false ?_ fun h => hsucceeds h.1, fun _ =>
        ⟨hneg, hunwound, fun i c _ => hunwound.chanParts_balanced c i⟩⟩
      change err ≠ 0
      omega

/-- The interrupt cannot be had: 0 is returned, and the device is gone. -/
theorem zynqProbe_allocIrq_fails :
    ∃ o : ProbeOracle, ¬ ProbesCleanly o (zynqProbe o) ∧ o.allocIrq = false ∧
      (zynqProbe o).ret = 0 ∧ (zynqProbe o).linked = false := by
  refine ⟨⟨true, none, true, 0, true, [⟨.can, true, true⟩], false, true, true, true, true, true⟩,
    fun hclean => ?_, rfl, by decide, by decide⟩
  exact absurd (hclean.zero_iff.mp (by decide)).2 (by decide)

end Outcomes

end ApolloContrib.Device
