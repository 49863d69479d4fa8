import ApolloContrib.Intr.Vectors
import Mathlib.Data.Multiset.Filter
import Mathlib.Data.Multiset.Range

namespace ApolloContrib.Intr

open ApolloContrib.Library ApolloContrib.Library.Holding

/-! The interrupt set-up ends, with a handler on each vector or with nothing left. -/

structure IrqDevice where
  zynqFwupdateParam : Bool
  zdevChanCnt : Nat
  chanCnt_pos : 1 ≤ zdevChanCnt

namespace IrqDevice

variable (dev : IrqDevice)

/-- As `kzalloc` and `zdev_alloc` leave it. -/
def start : ZdevIrq where
  zynqFwupdateParam := dev.zynqFwupdateParam
  zdevChanCnt := dev.zdevChanCnt
  zdevMsixp := none
  zdevMsixNum := 0
  zdevMsiNum := 0
  zdevTa := fun _ => none

def maxNvec : Nat := if dev.zynqFwupdateParam then 1 else dev.zdevChanCnt

theorem maxNvec_pos : 0 < dev.maxNvec := by
  unfold maxNvec
  split
  · exact Nat.one_pos
  · exact dev.chanCnt_pos

end IrqDevice

/-- A vector that can be raised: of a mode that is enabled, or the line when none is. -/
def Granted (own : Multiset IrqResource) : IrqVector → Prop
  | .unset => False
  | .legacy => ∀ nvec, .msi nvec ∉ own ∧ .msix nvec ∉ own
  | .msi i => ∃ nvec, .msi nvec ∈ own ∧ i < nvec
  | .msix i => ∃ nvec, .msix nvec ∈ own ∧ i < nvec

def IrqResource.isOn (vec : IrqVector) : IrqResource → Bool
  | .handler vec' _ => vec' = vec
  | _ => false

/-- The tasklet that a handler schedules; with firmware update it returns at once. -/
def IrqCookie.schedules (zynqFwupdateParam : Bool) : IrqCookie → Option (Nat × Tasklet)
  | .zdev => if zynqFwupdateParam then none else some (0, .dev)
  | .zchan ch => some (ch, .chan ch)

structure IrqReady (zdev : ZdevIrq) (own : Multiset IrqResource) : Prop where
  one : ∀ vec, Granted own vec → own.countP (fun r => r.isOn vec) = 1
  granted : ∀ vec cookie, .handler vec cookie ∈ own → Granted own vec
  cookies : (∀ vec cookie, .handler vec cookie ∈ own → cookie = .zdev) ∨
    (∀ ch, ch < zdev.zdevChanCnt → ∃ vec, .handler vec (.zchan ch) ∈ own) ∧
      ∀ vec cookie, .handler vec cookie ∈ own → ∃ ch < zdev.zdevChanCnt, cookie = .zchan ch
  tasklets : ∀ vec cookie, .handler vec cookie ∈ own →
    ∀ i t, cookie.schedules zdev.zynqFwupdateParam = some (i, t) → zdev.zdevTa i = some t

/-- Enough rounds end the set-up. What it owns after a success is what `zynq_free_irq` takes
down again, with every tasklet killed. -/
def IrqSetUp (o : IrqOracle) (dev : IrqDevice) : Prop :=
  ∃ fuel, Spec 0 (zynqAllocIrq fuel o dev.start) fun out own =>
    if out.1 = 0 then
      IrqReady out.2 own ∧
        Spec own (zynqFreeIrq out.2) fun zdev left => left = 0 ∧ ∀ i, zdev.zdevTa i = none
    else own = 0

/-- `pci_enable_msix_range`, whose positive result is a success, does not succeed; and a vector
for each channel is not granted when there are more channels than tasklets. -/
def IrqFits (o : IrqOracle) (dev : IrqDevice) : Prop :=
  o.kzalloc = true →
    if o.linuxVersionCode < KERNEL_VERSION 4 12 0 then
      o.pciEnableMsix 0 dev.maxNvec = 0 → dev.maxNvec ≤ ZYNQ_INT_PER_CARD
    else o.pciEnableMsixRange 0 dev.maxNvec < 0

/-! ### The tasklets -/

namespace ZdevIrq

variable (zdev : ZdevIrq)

theorem foldlM_setTa (t : Nat → Option Tasklet) (n : Nat) :
    (List.range n).foldlM (fun zdev i => setTa zdev i (t i)) zdev =
      if n ≤ ZYNQ_INT_PER_CARD then
        some { zdev with zdevTa := fun i => if i < n then t i else zdev.zdevTa i }
      else none := by
  induction n with
  | zero => rfl
  | succ n ih =>
      rw [List.range_succ, List.foldlM_append, ih]
      by_cases hn : n ≤ ZYNQ_INT_PER_CARD
      · rw [if_pos hn]
        change setTa _ n (t n) >>= pure = _
        rw [bind_pure]
        unfold setTa
        by_cases hlt : n < ZYNQ_INT_PER_CARD
        · rw [if_pos hlt, if_pos (Nat.succ_le_of_lt hlt)]
          congr 2
          funext i
          rw [Function.update_apply]
          dsimp only
          rcases Nat.lt_trichotomy i n with hi | rfl | hi
          · rw [if_neg hi.ne, if_pos hi, if_pos (Nat.lt_succ_of_lt hi)]
          · rw [if_pos rfl, if_pos (Nat.lt_succ_self i)]
          · rw [if_neg hi.ne', if_neg (by omega), if_neg (by omega)]
        · rw [if_neg hlt, if_neg (by omega)]
      · rw [if_neg hn, if_neg (by omega)]
        rfl

end ZdevIrq

/-! ### The handlers -/

section Handlers

/-- The handlers of a mode with `num` vectors. -/
def handlers (chanCnt num : Nat) (vec : Nat → IrqVector) : Multiset IrqResource :=
  if num = 1 then {.handler (vec 0) .zdev}
  else ((List.range chanCnt).map fun i => {.handler (vec i) (.zchan i)}).sum

variable (o : IrqOracle) (chanCnt num : Nat) (vec : Nat → IrqVector)

theorem spec_enabling {granted : Bool} {r : IrqResource} {rc : Int} :
    Spec 0 (IrqOracle.enabling granted r rc) fun out left =>
      out = rc ∧ left = if granted then {r} else 0 := by
  unfold IrqOracle.enabling Holding.attempt
  cases granted with
  | false => exact Spec.pure ⟨rfl, rfl⟩
  | true =>
      refine (spec_acquire r).bind ?_
      rintro _ _ rfl
      exact Spec.pure ⟨rfl, rfl⟩

theorem spec_request (vec : IrqVector) (cookie : IrqCookie) :
    Spec 0 (o.request vec cookie) fun rc left =>
      if rc = 0 then left = {.handler vec cookie} else left = 0 := by
  refine spec_enabling.mono ?_
  rintro rc left ⟨rfl, rfl⟩
  by_cases hrc : o.requestIrq vec = 0
  · rw [if_pos hrc, if_pos (decide_eq_true hrc)]
  · rw [if_neg hrc, if_neg (by simpa using hrc)]

theorem releases_freeIrqs {l : List Nat} {n : Nat} (hl : l.Perm (List.range n)) :
    Releases ((List.range n).map fun i => {.handler (vec i) (.zchan i)}).sum
      (l.forM fun i => IrqOracle.freeIrq (vec i) (.zchan i)) := by
  rw [← (hl.map _).sum_eq]
  exact releases_forM fun i _ => releases_release _

theorem spec_zdevSetup :
    Spec 0 (o.zdevSetup chanCnt num vec) fun rc left =>
      if rc = 0 then left = handlers chanCnt num vec else left = 0 := by
  unfold IrqOracle.zdevSetup handlers
  by_cases hnum : num = 1
  · rw [if_pos hnum, if_pos hnum]
    exact spec_request o (vec 0) .zdev
  · rw [if_neg hnum, if_neg hnum]
    refine Spec.bind (spec_forLoop (fun _ _ => True) (fun _ rc => rc ≠ 0)
      (fun i => {.handler (vec i) (.zchan i)}) ?_ 0 trivial) ?_
    · intro i rc _ _
      unfold IrqOracle.requestRound
      refine (spec_request o (vec i) (.zchan i)).bind ?_
      intro rc left hleft
      refine Spec.pure ?_
      by_cases hrc : rc = 0
      · rw [if_pos hrc] at hleft
        rw [if_pos (decide_eq_true hrc)]
        exact ⟨trivial, hleft⟩
      · rw [if_neg hrc] at hleft
        rw [if_neg (by simpa using hrc)]
        exact ⟨hrc, hleft⟩
    · rintro ⟨i, ok, rc⟩ left ⟨hend, rfl⟩
      cases ok with
      | true =>
          obtain ⟨hi, -⟩ := hend
          dsimp only at hi
          subst hi
          exact Spec.pure rfl
      | false =>
          refine (releases_freeIrqs vec (List.reverse_perm _)).done ?_
          rw [if_neg hend.2]

theorem releases_freeHandlers :
    Releases (handlers chanCnt num vec) (freeHandlers chanCnt num vec) := by
  unfold handlers freeHandlers
  split
  · exact releases_release _
  · exact releases_freeIrqs vec (.refl _)

end Handlers

inductive IrqMode where
  | legacy
  | msi
  | msix (nvec : Nat)

namespace IrqMode

/-- One vector for the device, or one for each channel that has a tasklet. -/
def Fits (dev : IrqDevice) : IrqMode → Prop
  | .msix nvec => nvec = 1 ∨ nvec = dev.zdevChanCnt ∧ nvec ≤ ZYNQ_INT_PER_CARD
  | _ => True

def entries (nvec i : Nat) : IrqVector := if i < nvec then .msix i else .unset

def zdevAt (dev : IrqDevice) (ta : Nat → Option Tasklet) : IrqMode → ZdevIrq
  | .legacy => { dev.start with zdevTa := ta }
  | .msi => { dev.start with zdevMsiNum := 1, zdevTa := ta }
  | .msix nvec =>
      { dev.start with zdevMsixp := some (entries nvec), zdevMsixNum := nvec, zdevTa := ta }

def devTa (i : Nat) : Option Tasklet := if i = 0 then some .dev else none

def chanTa (chanCnt i : Nat) : Option Tasklet := if i < chanCnt then some (.chan i) else none

def ta (dev : IrqDevice) : IrqMode → Nat → Option Tasklet
  | .msix nvec => if nvec = 1 then devTa else chanTa dev.zdevChanCnt
  | _ => devTa

def enabled : IrqMode → Multiset IrqResource
  | .legacy => 0
  | .msi => {.msi 1}
  | .msix nvec => {.msixp} + {.msix nvec}

def requested (chanCnt : Nat) : IrqMode → Multiset IrqResource
  | .legacy => {.handler .legacy .zdev}
  | .msi => handlers chanCnt 1 .msi
  | .msix nvec => handlers chanCnt nvec (entries nvec)

def held (chanCnt : Nat) (mode : IrqMode) : Multiset IrqResource :=
  mode.enabled + mode.requested chanCnt

section Modes

variable {dev : IrqDevice} {mode : IrqMode}

theorem setTa_zero (zdev : ZdevIrq) (hta : zdev.zdevTa = fun _ => none) :
    zdev.setTa 0 (some .dev) = some { zdev with zdevTa := devTa } := by
  unfold ZdevIrq.setTa
  rw [if_pos (by decide), hta]
  congr 2
  funext i
  exact Function.update_apply ..

theorem zdevInitTasklet_msix (nvec : Nat) :
    ((msix nvec).zdevAt dev fun _ => none).zdevInitTasklet =
      if nvec = 1 then ((msix nvec).zdevAt dev fun _ => none).setTa 0 (some .dev)
      else (List.range dev.zdevChanCnt).foldlM (fun zdev i => zdev.setTa i (some (.chan i)))
        ((msix nvec).zdevAt dev fun _ => none) := rfl

theorem zdevInitTasklet_zdevAt (hfits : mode.Fits dev) :
    (mode.zdevAt dev fun _ => none).zdevInitTasklet = some (mode.zdevAt dev (mode.ta dev)) := by
  cases mode with
  | legacy => exact setTa_zero _ rfl
  | msi => exact setTa_zero _ rfl
  | msix nvec =>
      rw [zdevInitTasklet_msix]
      by_cases hone : nvec = 1
      · subst hone
        exact setTa_zero _ rfl
      · obtain ⟨rfl, hle⟩ := hfits.resolve_left hone
        have hta : (msix dev.zdevChanCnt).ta dev = chanTa dev.zdevChanCnt := if_neg hone
        rw [if_neg hone, hta]
        exact (ZdevIrq.foldlM_setTa _ _ _).trans (if_pos hle)

theorem killAll (zdev : ZdevIrq) {n : Nat} (hle : n ≤ ZYNQ_INT_PER_CARD)
    (hta : ∀ i, n ≤ i → zdev.zdevTa i = none) :
    (List.range n).foldlM (fun zdev i => ZdevIrq.setTa zdev i none) zdev =
      some { zdev with zdevTa := fun _ => none } := by
  refine (zdev.foldlM_setTa (fun _ => none) n).trans ((if_pos hle).trans ?_)
  congr 2
  funext i
  split
  · rfl
  next hi => exact hta i (Nat.not_lt.mp hi)

theorem zdevFiniTasklet_zdevAt (hfits : mode.Fits dev) :
    (mode.zdevAt dev (mode.ta dev)).zdevFiniTasklet = some (mode.zdevAt dev fun _ => none) := by
  have hdev (i : Nat) (hi : 1 ≤ i) : devTa i = none := if_neg (by omega)
  have hone : 1 ≤ ZYNQ_INT_PER_CARD := by decide
  cases mode with
  | legacy => exact killAll (legacy.zdevAt dev devTa) hone hdev
  | msi => exact killAll (msi.zdevAt dev devTa) hone hdev
  | msix nvec =>
      by_cases hnvec : nvec = 1
      · subst hnvec
        exact killAll ((msix 1).zdevAt dev devTa) hone hdev
      · obtain ⟨rfl, hle⟩ := hfits.resolve_left hnvec
        have hta : (msix dev.zdevChanCnt).ta dev = chanTa dev.zdevChanCnt := if_neg hnvec
        rw [hta]
        exact killAll ((msix _).zdevAt dev (chanTa dev.zdevChanCnt)) hle fun i hi =>
          if_neg (Nat.not_lt.mpr hi)

theorem spec_requestIrqs (o : IrqOracle) (hfits : mode.Fits dev) :
    Spec mode.enabled (requestIrqs o (mode.zdevAt dev fun _ => none)) fun out own =>
      if out.1 = 0 then own = mode.held dev.zdevChanCnt ∧ out.2 = mode.zdevAt dev (mode.ta dev)
      else own = 0 := by
  unfold requestIrqs
  refine Spec.lift (zdevInitTasklet_zdevAt hfits) ?_
  cases mode with
  | legacy =>
      refine (spec_request o .legacy .zdev).bind ?_
      intro rc left hleft
      refine Spec.pure ?_
      by_cases hrc : rc = 0
      · rw [if_pos hrc] at hleft
        exact (if_pos hrc).mpr ⟨hleft.trans (zero_add _).symm, rfl⟩
      · rw [if_neg hrc] at hleft
        exact (if_neg hrc).mpr hleft
  | msi =>
      change Spec _ (o.zdevSetup dev.zdevChanCnt 1 .msi >>= _) _
      refine Spec.call (spec_zdevSetup o dev.zdevChanCnt 1 .msi) ?_
      intro rc left hleft
      by_cases hrc : rc = 0
      · rw [if_pos hrc] at hleft
        rw [if_neg (not_not.mpr hrc), hleft]
        exact Spec.pure ⟨rfl, rfl⟩
      · rw [if_neg hrc] at hleft
        rw [if_pos hrc, hleft, add_zero]
        exact (releases_release _).done (if_neg hrc ▸ rfl)
  | msix nvec =>
      change Spec _ (o.zdevSetup dev.zdevChanCnt nvec (entries nvec) >>= _) _
      refine Spec.call (spec_zdevSetup o dev.zdevChanCnt nvec (entries nvec)) ?_
      intro rc left hleft
      by_cases hrc : rc = 0
      · rw [if_pos hrc] at hleft
        rw [if_neg (not_not.mpr hrc), hleft]
        exact Spec.pure ⟨rfl, rfl⟩
      · rw [if_neg hrc] at hleft
        rw [if_pos hrc, hleft, add_zero]
        refine (releases_release _).then fun _ => ?_
        exact (releases_release _).done (if_neg hrc ▸ rfl)

theorem spec_zynqFreeIrq (hfits : mode.Fits dev) :
    Spec (mode.held dev.zdevChanCnt) (zynqFreeIrq (mode.zdevAt dev (mode.ta dev)))
      fun zdev left => left = 0 ∧ ∀ i, zdev.zdevTa i = none := by
  have hfini := zdevFiniTasklet_zdevAt hfits
  cases mode with
  | legacy =>
      refine Releases.then (releases_release _) fun _ => ?_
      exact Spec.lift hfini (Spec.pure ⟨rfl, fun _ => rfl⟩)
  | msi =>
      refine Releases.then (releases_freeHandlers dev.zdevChanCnt 1 .msi) fun _ => ?_
      refine Spec.of_eq (Releases.then (releases_release (IrqResource.msi 1)) fun _ => ?_)
        (zero_add _).symm
      exact Spec.lift hfini (Spec.pure ⟨rfl, fun _ => rfl⟩)
  | msix nvec =>
      refine Releases.then (releases_freeHandlers _ _ _) fun _ => ?_
      refine Releases.then (releases_release _) fun _ => ?_
      refine Spec.lift hfini ?_
      exact (releases_release _).done ⟨rfl, fun _ => rfl⟩

/-! ### The handlers that are held -/

theorem handlers_of_ne {chanCnt num : Nat} (hnum : num ≠ 1) (vec : Nat → IrqVector) :
    handlers chanCnt num vec =
      (Multiset.range chanCnt).map fun i => .handler (vec i) (.zchan i) := by
  unfold handlers
  rw [if_neg hnum]
  induction chanCnt with
  | zero => rfl
  | succ n ih =>
      rw [List.range_succ, List.map_append, List.sum_append, ih, Multiset.range_succ,
        Multiset.map_cons, ← Multiset.singleton_add, add_comm]
      rfl

/-- `n` handlers, each on a vector of its own, and these the vectors that are granted. -/
theorem ready_of_handlers {zdev : ZdevIrq} (own : Multiset IrqResource) (n : Nat)
    (vec : Nat → IrqVector) (cookie : Nat → IrqCookie)
    (hown : ∀ vec cookie, .handler vec cookie ∉ own)
    (hgranted : ∀ v, Granted
      (own + (Multiset.range n).map fun i => .handler (vec i) (cookie i)) v ↔ ∃ i < n, vec i = v)
    (hinj : ∀ i j, vec i = vec j → i < n → j < n → i = j)
    (hcookies : (∀ i, i < n → cookie i = .zdev) ∨
      n = zdev.zdevChanCnt ∧ ∀ i, i < n → cookie i = .zchan i)
    (hta : ∀ i, i < n → ∀ k t,
      (cookie i).schedules zdev.zynqFwupdateParam = some (k, t) → zdev.zdevTa k = some t) :
    IrqReady zdev (own + (Multiset.range n).map fun i => .handler (vec i) (cookie i)) := by
  have hmem (v : IrqVector) (c : IrqCookie) (hhandler : .handler v c ∈
      own + (Multiset.range n).map fun i => IrqResource.handler (vec i) (cookie i)) :
      ∃ i < n, vec i = v ∧ cookie i = c := by
    obtain ⟨i, hi, heq⟩ := Multiset.mem_map.mp
      ((Multiset.mem_add.mp hhandler).resolve_left (hown v c))
    exact ⟨i, Multiset.mem_range.mp hi, IrqResource.handler.inj heq⟩
  refine ⟨?_, ?_, ?_, ?_⟩
  · intro v hv
    obtain ⟨k, hk, rfl⟩ := (hgranted v).mp hv
    have hnone : own.countP (fun r => r.isOn (vec k)) = 0 := by
      refine Multiset.countP_eq_zero.mpr fun r hr hon => ?_
      cases r with
      | handler v c => exact hown v c hr
      | msixp => exact nomatch hon
      | msi _ => exact nomatch hon
      | msix _ => exact nomatch hon
    have hon : (Multiset.range n).filter (fun i => (IrqResource.handler (vec i) (cookie i)).isOn
        (vec k) = true) = (Multiset.range n).filter (· = k) := by
      refine Multiset.filter_congr fun i hi => ?_
      refine decide_eq_true_iff.trans ⟨fun heq => ?_, fun heq => congrArg vec heq⟩
      exact hinj i k heq (Multiset.mem_range.mp hi) hk
    rw [Multiset.countP_add, hnone, Multiset.countP_map, hon, Multiset.filter_eq',
      Multiset.card_replicate,
      Multiset.count_eq_one_of_mem (Multiset.nodup_range n) (Multiset.mem_range.mpr hk)]
  · intro v c hhandler
    obtain ⟨i, hi, hvec, -⟩ := hmem v c hhandler
    exact (hgranted v).mpr ⟨i, hi, hvec⟩
  · refine hcookies.imp (fun hdev v c hhandler => ?_) fun ⟨hn, hchan⟩ => ⟨fun ch hch => ?_, ?_⟩
    · obtain ⟨i, hi, -, rfl⟩ := hmem v c hhandler
      exact hdev i hi
    · refine ⟨vec ch, Multiset.mem_add.mpr (Or.inr (Multiset.mem_map.mpr ?_))⟩
      exact ⟨ch, Multiset.mem_range.mpr (hn ▸ hch), by rw [hchan ch (hn ▸ hch)]⟩
    · intro v c hhandler
      obtain ⟨i, hi, -, rfl⟩ := hmem v c hhandler
      exact ⟨i, hn ▸ hi, hchan i hi⟩
  · intro v c hhandler k t hsched
    obtain ⟨i, hi, -, rfl⟩ := hmem v c hhandler
    exact hta i hi k t hsched

theorem devTa_schedules {zynqFwupdateParam : Bool} {k : Nat} {t : Tasklet}
    (hsched : IrqCookie.zdev.schedules zynqFwupdateParam = some (k, t)) : devTa k = some t := by
  cases zynqFwupdateParam with
  | true => exact nomatch hsched
  | false =>
      cases hsched
      rfl

theorem granted_legacy (v : IrqVector) :
    Granted (0 + (Multiset.range 1).map fun _ => .handler .legacy .zdev) v ↔
      ∃ i < 1, IrqVector.legacy = v := by
  cases v <;> simp [Granted]

theorem granted_msi (v : IrqVector) :
    Granted (msi.enabled + (Multiset.range 1).map fun i => .handler (.msi i) .zdev) v ↔
      ∃ i < 1, IrqVector.msi i = v := by
  cases v <;> simp [Granted, enabled, eq_comm]

theorem granted_msix (nvec : Nat) (cookie : Nat → IrqCookie) (v : IrqVector) :
    Granted ((msix nvec).enabled +
        (Multiset.range nvec).map fun i => .handler (entries nvec i) (cookie i)) v ↔
      ∃ i < nvec, entries nvec i = v := by
  cases v with
  | unset => simp +contextual [Granted, entries]
  | legacy => simp +contextual [Granted, enabled, entries]
  | msi i => simp +contextual [Granted, enabled, entries]
  | msix i =>
      have hgranted : Granted ((msix nvec).enabled + (Multiset.range nvec).map fun i =>
          .handler (entries nvec i) (cookie i)) (.msix i) ↔ i < nvec := by
        simp [Granted, enabled]
      refine hgranted.trans ⟨fun hi => ⟨i, hi, if_pos hi⟩, ?_⟩
      rintro ⟨j, hj, heq⟩
      unfold entries at heq
      rw [if_pos hj] at heq
      exact IrqVector.msix.inj heq ▸ hj

theorem entries_inj {nvec i j : Nat} (heq : entries nvec i = entries nvec j) (hi : i < nvec)
    (hj : j < nvec) : i = j := by
  unfold entries at heq
  rw [if_pos hi, if_pos hj] at heq
  exact IrqVector.msix.inj heq

theorem ready_held (hfits : mode.Fits dev) :
    IrqReady (mode.zdevAt dev (mode.ta dev)) (mode.held dev.zdevChanCnt) := by
  cases mode with
  | legacy =>
      exact ready_of_handlers 0 1 _ _ nofun granted_legacy (fun i j _ hi hj => by omega)
        (Or.inl fun _ _ => rfl) fun _ _ _ _ => devTa_schedules
  | msi =>
      refine ready_of_handlers msi.enabled 1 _ _ ?_ granted_msi (fun i j _ hi hj => by omega)
        (Or.inl fun _ _ => rfl) fun _ _ _ _ => devTa_schedules
      simp [enabled]
  | msix nvec =>
      have hown (vec : IrqVector) (cookie : IrqCookie) :
          .handler vec cookie ∉ (msix nvec).enabled := by
        simp [enabled]
      by_cases hnvec : nvec = 1
      · subst hnvec
        exact ready_of_handlers (msix 1).enabled 1 (entries 1) _ hown
          (granted_msix 1 fun _ => .zdev) (fun i j => entries_inj) (Or.inl fun _ _ => rfl)
          fun _ _ _ _ => devTa_schedules
      · obtain ⟨rfl, hle⟩ := hfits.resolve_left hnvec
        unfold held
        change IrqReady _ (_ + handlers dev.zdevChanCnt dev.zdevChanCnt (entries _))
        rw [handlers_of_ne hnvec]
        refine ready_of_handlers _ _ (entries dev.zdevChanCnt) .zchan hown (granted_msix _ .zchan)
          (fun i j => entries_inj) (Or.inr ⟨rfl, fun _ _ => rfl⟩) ?_
        intro i hi k t hsched
        cases hsched
        have hta : (msix dev.zdevChanCnt).ta dev = chanTa dev.zdevChanCnt := if_neg hnvec
        rw [hta]
        exact if_pos hi

end Modes

end IrqMode

/-! ### Enabling -/

section Enabling

open IrqMode

variable {o : IrqOracle} {dev : IrqDevice}

theorem spec_enableMsi (call : Nat) {nvec : Nat} (hnvec : 0 < nvec) :
    Spec 0 (o.enableMsi call nvec) fun rc own => if rc < 0 then own = 0 else own = {.msi nvec} := by
  have hexact := o.msiExact call nvec
  have hvectors := o.irqVectors call nvec
  unfold IrqOracle.enableMsi
  split
  · refine spec_enabling.mono ?_
    rintro rc own ⟨rfl, rfl⟩
    rcases hexact with hrc | hrc
    · rw [hrc]
      rfl
    · rw [if_pos hrc, if_neg (by simpa using hrc.ne)]
  · refine spec_enabling.mono ?_
    rintro rc own ⟨rfl, rfl⟩
    rcases hvectors with hrc | hrc
    · rw [if_neg (by omega), if_pos (decide_eq_true (by omega))]
    · rw [if_pos hrc, if_neg (by simpa using hrc.le)]

theorem spec_zdevEnableMsi (fuel : Nat) :
    Spec 0 (o.zdevEnableMsi (fuel + 1) dev.start) fun out own =>
      ∃ mode : IrqMode, mode.Fits dev ∧ (∀ nvec, mode ≠ .msix nvec) ∧
        out.2 = (mode.zdevAt dev fun _ => none) ∧ own = mode.enabled := by
  unfold IrqOracle.zdevEnableMsi IrqOracle.msiRetry
  rw [bind_assoc]
  refine (spec_enableMsi 0 Nat.one_pos).bind ?_
  intro rc own hown
  by_cases hrc : rc < 0
  · rw [if_pos hrc] at hown
    rw [if_pos hrc, if_pos rfl, pure_bind]
    dsimp only
    rw [if_pos hrc]
    exact Spec.pure ⟨.legacy, trivial, nofun, rfl, hown⟩
  · rw [if_neg hrc] at hown
    rw [if_neg hrc, pure_bind]
    exact Spec.pure ⟨.msi, trivial, nofun, rfl, hown⟩

theorem spec_enableMsix (hversion : o.linuxVersionCode < KERNEL_VERSION 4 12 0) (call nvec : Nat) :
    Spec 0 (o.enableMsix call nvec) fun rc own => rc = o.pciEnableMsix call nvec ∧
      own = if rc = 0 then {.msix nvec} else 0 := by
  unfold IrqOracle.enableMsix
  rw [if_pos hversion]
  refine spec_enabling.mono ?_
  rintro rc own ⟨rfl, rfl⟩
  simp

theorem spec_enableMsixRange (hversion : ¬ o.linuxVersionCode < KERNEL_VERSION 4 12 0)
    (call nvec : Nat) :
    Spec 0 (o.enableMsix call nvec) fun rc own => rc = o.pciEnableMsixRange call nvec ∧
      own = if 0 < rc then {.msix nvec} else 0 := by
  unfold IrqOracle.enableMsix
  rw [if_neg hversion]
  refine spec_enabling.mono ?_
  rintro rc own ⟨rfl, rfl⟩
  simp

theorem spec_msixRetry_one (hversion : o.linuxVersionCode < KERNEL_VERSION 4 12 0)
    (fuel call : Nat) :
    Spec 0 (o.msixRetry (fuel + 1) call 1) fun out own =>
      if out.1 < 0 then own = 0 else own = {.msix 1} ∧ out.2 = 1 := by
  have hlt := o.msix_lt call 1
  unfold IrqOracle.msixRetry
  refine (spec_enableMsix hversion call 1).bind ?_
  rintro rc own ⟨rfl, rfl⟩
  by_cases hrc : o.pciEnableMsix call 1 < 0
  · rw [if_pos hrc]
    exact Spec.pure ((if_pos hrc).mpr (if_neg hrc.ne))
  · have hzero : o.pciEnableMsix call 1 = 0 := by omega
    rw [hzero]
    exact Spec.pure ⟨rfl, rfl⟩

theorem spec_msixRetry (hversion : o.linuxVersionCode < KERNEL_VERSION 4 12 0)
    (fuel nvec : Nat) :
    Spec 0 (o.msixRetry (fuel + 2) 0 nvec) fun out own =>
      if out.1 < 0 then own = 0
      else own = {.msix out.2} ∧ (out.2 = 1 ∨ out.2 = nvec ∧ o.pciEnableMsix 0 nvec = 0) := by
  unfold IrqOracle.msixRetry
  refine (spec_enableMsix hversion 0 nvec).bind ?_
  rintro rc own ⟨rfl, rfl⟩
  rcases Int.lt_trichotomy (o.pciEnableMsix 0 nvec) 0 with hrc | hrc | hrc
  · rw [if_pos hrc]
    exact Spec.pure ((if_pos hrc).mpr (if_neg hrc.ne))
  · rw [hrc]
    exact Spec.pure ⟨rfl, Or.inr ⟨rfl, rfl⟩⟩
  · rw [if_neg hrc.not_gt, if_pos hrc, if_neg hrc.ne']
    refine (spec_msixRetry_one hversion fuel 1).mono ?_
    rintro ⟨rc, m⟩ own hown
    split at hown
    next hneg => exact (if_pos hneg).mpr hown
    next hpos => exact (if_neg hpos).mpr ⟨hown.2 ▸ hown.1, Or.inl hown.2⟩

/-- With a retry that leaves nothing when it fails, either MSI-X is enabled or there is nothing
left of the attempt. -/
theorem spec_zdevEnableMsix {fuel : Nat} (Grants : Nat → Prop) (Refuses : Prop)
    (hkzalloc : o.kzalloc = false → Refuses)
    (hretry : o.kzalloc = true → Spec 0 (o.msixRetry fuel 0 dev.maxNvec) fun out own =>
      if out.1 < 0 then own = 0 ∧ Refuses else own = {.msix out.2} ∧ Grants out.2) :
    Spec 0 (o.zdevEnableMsix fuel dev.start) fun out own =>
      (∃ nvec, out = (0, (msix nvec).zdevAt dev fun _ => none) ∧ own = (msix nvec).enabled ∧
        Grants nvec) ∨ (out.1 ≠ 0 ∧ out.2 = dev.start) ∧ own = 0 ∧ Refuses := by
  have hnomem : -ENOMEM ≠ 0 := by decide
  unfold IrqOracle.zdevEnableMsix
  cases halloc : o.kzalloc with
  | false => exact Spec.pure (Or.inr ⟨⟨hnomem, rfl⟩, rfl, hkzalloc halloc⟩)
  | true =>
      refine (spec_acquire _).bind ?_
      rintro _ _ rfl
      refine Spec.call (hretry halloc) ?_
      rintro ⟨rc, nvec⟩ left hleft
      by_cases hrc : rc < 0
      · rw [if_pos hrc] at hleft
        obtain ⟨rfl, hrefuses⟩ := hleft
        dsimp only
        rw [if_pos hrc, add_zero]
        exact (releases_release _).done (Or.inr ⟨⟨hrc.ne, rfl⟩, rfl, hrefuses⟩)
      · rw [if_neg hrc] at hleft
        obtain ⟨rfl, hgrants⟩ := hleft
        dsimp only
        rw [if_neg hrc]
        exact Spec.pure (Or.inl ⟨nvec, rfl, rfl, hgrants⟩)

theorem spec_msixRetry_range (hversion : ¬ o.linuxVersionCode < KERNEL_VERSION 4 12 0)
    (fuel : Nat) {nvec : Nat} (hrefused : o.pciEnableMsixRange 0 nvec < 0) :
    Spec 0 (o.msixRetry (fuel + 1) 0 nvec) fun out own => out.1 < 0 ∧ own = 0 := by
  unfold IrqOracle.msixRetry
  refine (spec_enableMsixRange hversion 0 nvec).bind ?_
  rintro rc own ⟨rfl, rfl⟩
  rw [if_pos hrefused, if_neg hrefused.not_gt]
  exact Spec.pure ⟨hrefused, rfl⟩

/-! ### The set-up of a mode -/

def SetUpOk (out : Int × ZdevIrq) (own : Multiset IrqResource) : Prop :=
  if out.1 = 0 then
    IrqReady out.2 own ∧
      Spec own (zynqFreeIrq out.2) fun zdev left => left = 0 ∧ ∀ i, zdev.zdevTa i = none
  else own = 0

theorem setUpOk_requestIrqs {mode : IrqMode} (hfits : mode.Fits dev) :
    Spec mode.enabled (requestIrqs o (mode.zdevAt dev fun _ => none)) SetUpOk := by
  refine (spec_requestIrqs o hfits).mono ?_
  rintro ⟨rc, zdev⟩ own hout
  unfold SetUpOk
  by_cases hrc : rc = 0
  · rw [if_pos hrc] at hout
    obtain ⟨rfl, rfl⟩ := hout
    exact (if_pos hrc).mpr ⟨ready_held hfits, spec_zynqFreeIrq hfits⟩
  · rw [if_neg hrc] at hout
    exact (if_neg hrc).mpr hout

theorem fits_maxNvec (hcard : dev.maxNvec ≤ ZYNQ_INT_PER_CARD) : (msix dev.maxNvec).Fits dev := by
  unfold IrqDevice.maxNvec at *
  split
  · exact Or.inl rfl
  next hupdate =>
    rw [if_neg hupdate] at hcard
    exact Or.inr ⟨rfl, hcard⟩

theorem irqSetUp_of_fits (hfits : IrqFits o dev) : IrqSetUp o dev := by
  have hretry (halloc : o.kzalloc = true) :
      Spec 0 (o.msixRetry 2 0 dev.maxNvec) fun out own =>
        if out.1 < 0 then own = 0 ∧ True else own = {.msix out.2} ∧ (msix out.2).Fits dev := by
    have hfits := hfits halloc
    split at hfits
    next hversion =>
      refine (spec_msixRetry hversion 0 dev.maxNvec).mono ?_
      rintro ⟨rc, nvec⟩ own hown
      by_cases hrc : rc < 0
      · rw [if_pos hrc] at hown
        exact (if_pos hrc).mpr ⟨hown, trivial⟩
      · rw [if_neg hrc] at hown
        refine (if_neg hrc).mpr ⟨hown.1, ?_⟩
        rcases hown.2 with hone | ⟨hmax, hgranted⟩
        · exact Or.inl hone
        · dsimp only at hmax
          subst hmax
          exact fits_maxNvec (hfits hgranted)
    next hversion =>
      refine (spec_msixRetry_range hversion 1 hfits).mono ?_
      rintro out own ⟨hrc, rfl⟩
      exact (if_pos hrc).mpr ⟨rfl, trivial⟩
  refine ⟨2, ?_⟩
  unfold zynqAllocIrq
  refine (spec_zdevEnableMsix (fun nvec => (msix nvec).Fits dev) True (fun _ => trivial)
    hretry).bind ?_
  rintro ⟨rc, zdev⟩ own (⟨nvec, heq, rfl, hmode⟩ | ⟨⟨hrc, rfl⟩, rfl, -⟩)
  · cases heq
    exact setUpOk_requestIrqs hmode
  · dsimp only
    rw [if_pos hrc]
    refine (spec_zdevEnableMsi 1).bind ?_
    rintro ⟨_, zdev⟩ own ⟨mode, hmode, -, rfl, rfl⟩
    exact setUpOk_requestIrqs hmode

/-! ### Where it is not -/

/-- With the version's first call granted for more channels than there are tasklets, the
tasklets do not fit. -/
theorem not_setUp_of_many (hversion : o.linuxVersionCode < KERNEL_VERSION 4 12 0)
    (halloc : o.kzalloc = true) (hgranted : o.pciEnableMsix 0 dev.maxNvec = 0)
    (hmany : ZYNQ_INT_PER_CARD < dev.maxNvec) (fuel : Nat) :
    ¬ Spec 0 (zynqAllocIrq fuel o dev.start) SetUpOk := by
  intro hspec
  have hchanCnt : dev.maxNvec = dev.zdevChanCnt := by
    unfold IrqDevice.maxNvec ZYNQ_INT_PER_CARD at *
    split at hmany
    · omega
    next hupdate => exact if_neg hupdate
  unfold zynqAllocIrq at hspec
  cases fuel with
  | zero =>
      refine Fails.not_spec (Fails.bind ?_) hspec
      unfold IrqOracle.zdevEnableMsix
      rw [halloc]
      exact fails_bind fun _ => fails_failure.bind
  | succ fuel =>
      have hretry : Spec 0 (o.msixRetry (fuel + 1) 0 dev.maxNvec) fun out own =>
          if out.1 < 0 then own = 0 ∧ False
          else own = {.msix out.2} ∧ out.2 = dev.maxNvec := by
        unfold IrqOracle.msixRetry
        refine (spec_enableMsix hversion 0 dev.maxNvec).bind ?_
        rintro rc own ⟨rfl, rfl⟩
        rw [hgranted]
        exact Spec.pure ⟨rfl, rfl⟩
      obtain ⟨⟨rc, zdev⟩, own, hout, b, left, hrun, -⟩ :=
        (spec_zdevEnableMsix (fun nvec => nvec = dev.maxNvec) False
          (fun hnone => nomatch halloc.symm.trans hnone) fun _ => hretry).bind_inv hspec
      obtain ⟨nvec, heq, -, rfl⟩ := hout.resolve_right fun hnot => hnot.2.2
      cases heq
      have hnone : ((msix dev.maxNvec).zdevAt dev fun _ => none).zdevInitTasklet = none := by
        have hone : dev.maxNvec ≠ 1 := by
          unfold ZYNQ_INT_PER_CARD at hmany
          omega
        rw [zdevInitTasklet_msix, if_neg hone]
        refine (ZdevIrq.foldlM_setTa _ _ _).trans (if_neg ?_)
        omega
      have hfails : Fails (requestIrqs o ((msix dev.maxNvec).zdevAt dev fun _ => none)) := by
        unfold requestIrqs
        rw [hnone]
        exact Fails.bind fun _ => rfl
      exact nomatch (hfails _).symm.trans hrun

structure Leaked (nvec : Nat) (own : Multiset IrqResource) : Prop where
  granted : .msix nvec ∈ own
  noHandler : ∀ vec cookie, .handler vec cookie ∉ own

/-- Retrying where the range is granted, the label is left with an error only. -/
theorem retry_keeps (hversion : ¬ o.linuxVersionCode < KERNEL_VERSION 4 12 0) (fuel call : Nat) :
    Fails (o.msixRetry fuel call 1) ∨
      Spec 0 (o.msixRetry fuel call 1) fun out own =>
        out.1 < 0 ∧ ∀ vec cookie, .handler vec cookie ∉ own := by
  induction fuel generalizing call with
  | zero => exact Or.inl fails_failure
  | succ fuel ih =>
      have henable := spec_enableMsixRange hversion call 1
      unfold IrqOracle.msixRetry
      rcases o.msixRange call 1 with hrc | hrc
      · rw [hrc] at henable
        refine (ih (call + 1)).imp (fun hfails => ?_) fun hspec => ?_
        · refine henable.fails ?_
          rintro rc own ⟨rfl, -⟩
          exact hfails
        · refine henable.bind ?_
          rintro rc own ⟨rfl, rfl⟩
          refine Spec.mono (hspec.frame {.msix 1} |>.of_eq (zero_add _).symm) ?_
          rintro out left ⟨own, ⟨hneg, hnone⟩, rfl⟩
          refine ⟨hneg, fun vec cookie hmem => ?_⟩
          rcases Multiset.mem_add.mp hmem with hmem | hmem
          · exact hnone vec cookie hmem
          · exact nomatch Multiset.mem_singleton.mp hmem
      · refine Or.inr (henable.bind ?_)
        rintro rc own ⟨rfl, rfl⟩
        rw [if_pos hrc, if_neg hrc.not_gt]
        exact Spec.pure ⟨hrc, nofun⟩

theorem retry_leaks (hversion : ¬ o.linuxVersionCode < KERNEL_VERSION 4 12 0) {nvec : Nat}
    (hgranted : 0 < o.pciEnableMsixRange 0 nvec) (fuel : Nat) :
    Fails (o.msixRetry fuel 0 nvec) ∨
      Spec 0 (o.msixRetry fuel 0 nvec) fun out own => out.1 < 0 ∧ Leaked nvec own := by
  cases fuel with
  | zero => exact Or.inl fails_failure
  | succ fuel =>
      have henable := spec_enableMsixRange hversion 0 nvec
      unfold IrqOracle.msixRetry
      refine (retry_keeps hversion fuel 1).imp (fun hfails => ?_) fun hspec => ?_
      · refine henable.fails ?_
        rintro rc own ⟨rfl, -⟩
        rw [if_neg hgranted.not_gt, if_pos hgranted]
        exact hfails
      · refine henable.bind ?_
        rintro rc own ⟨rfl, rfl⟩
        rw [if_neg hgranted.not_gt, if_pos hgranted, if_pos hgranted]
        refine Spec.mono (hspec.frame {.msix nvec} |>.of_eq (zero_add _).symm) ?_
        rintro out left ⟨own, ⟨hneg, hnone⟩, rfl⟩
        refine ⟨hneg, Multiset.mem_add.mpr (Or.inr (Multiset.mem_singleton_self _)), ?_⟩
        intro vec cookie hmem
        rcases Multiset.mem_add.mp hmem with hmem | hmem
        · exact hnone vec cookie hmem
        · exact nomatch Multiset.mem_singleton.mp hmem

theorem enableMsix_leaks (hversion : ¬ o.linuxVersionCode < KERNEL_VERSION 4 12 0)
    (halloc : o.kzalloc = true) (hgranted : 0 < o.pciEnableMsixRange 0 dev.maxNvec)
    (fuel : Nat) :
    Fails (o.zdevEnableMsix fuel dev.start) ∨
      Spec 0 (o.zdevEnableMsix fuel dev.start) fun out own =>
        (out.1 ≠ 0 ∧ out.2 = dev.start) ∧ Leaked dev.maxNvec own := by
  unfold IrqOracle.zdevEnableMsix
  rw [halloc]
  refine (retry_leaks hversion hgranted fuel).imp (fun hfails => ?_) fun hspec => ?_
  · exact fails_bind fun _ => hfails.bind
  · refine (spec_acquire _).bind ?_
    rintro _ _ rfl
    refine (hspec.frame {.msixp} |>.of_eq (zero_add _).symm).bind ?_
    rintro ⟨rc, nvec⟩ left ⟨own, ⟨hneg, hleaked⟩, rfl⟩
    dsimp only at hneg ⊢
    rw [if_pos hneg]
    refine (releases_release _).then fun _ => ?_
    exact Spec.pure ⟨⟨hneg.ne, rfl⟩, hleaked⟩

theorem allocIrq_leaks (hversion : ¬ o.linuxVersionCode < KERNEL_VERSION 4 12 0)
    (halloc : o.kzalloc = true) (hgranted : 0 < o.pciEnableMsixRange 0 dev.maxNvec)
    (fuel : Nat) :
    Fails (zynqAllocIrq fuel o dev.start) ∨
      Spec 0 (zynqAllocIrq fuel o dev.start) fun _ own =>
        .msix dev.maxNvec ∈ own ∧ ∀ i cookie, .handler (.msix i) cookie ∉ own := by
  unfold zynqAllocIrq
  refine (enableMsix_leaks hversion halloc hgranted fuel).elim (fun hfails => ?_) fun hspec => ?_
  · exact Or.inl hfails.bind
  · cases fuel with
    | zero =>
        refine Or.inl (hspec.fails ?_)
        rintro ⟨rc, zdev⟩ own ⟨⟨hrc, -⟩, -⟩
        dsimp only
        rw [if_pos hrc]
        exact fails_failure.bind.bind
    | succ fuel =>
        refine Or.inr (hspec.bind ?_)
        rintro ⟨rc, zdev⟩ leaked ⟨⟨hrc, rfl⟩, hleaked⟩
        dsimp only
        rw [if_pos hrc]
        refine Spec.call (spec_zdevEnableMsi fuel) ?_
        rintro ⟨_, zdev⟩ own ⟨mode, hmode, hnot, rfl, rfl⟩
        refine Spec.mono ((spec_requestIrqs o hmode).frame leaked |>.of_eq (add_comm _ _)) ?_
        rintro ⟨rc, zdev⟩ left ⟨own, hout, rfl⟩
        refine ⟨Multiset.mem_add.mpr (Or.inr hleaked.granted), fun i cookie hmem => ?_⟩
        have hown := (Multiset.mem_add.mp hmem).resolve_right (hleaked.noHandler _ _)
        split at hout
        next =>
          rw [hout.1] at hown
          cases mode with
          | legacy => simp [held, enabled, requested] at hown
          | msi => simp [held, enabled, requested, handlers] at hown
          | msix nvec => exact hnot nvec rfl
        next =>
          rw [hout] at hown
          exact nomatch hown

/-- What has been granted is raised without a handler, and nothing disables it. -/
theorem not_setUp_of_granted (hversion : ¬ o.linuxVersionCode < KERNEL_VERSION 4 12 0)
    (halloc : o.kzalloc = true) (hgranted : 0 < o.pciEnableMsixRange 0 dev.maxNvec)
    (fuel : Nat) :
    ¬ Spec 0 (zynqAllocIrq fuel o dev.start) SetUpOk := by
  intro hok
  rcases allocIrq_leaks hversion halloc hgranted fuel with hfails | hleaks
  · exact hfails.not_spec hok
  · obtain ⟨⟨rc, zdev⟩, own, -, hout, hmsix, hnone⟩ := hok.and hleaks 0
    unfold SetUpOk at hout
    by_cases hrc : rc = 0
    · rw [if_pos hrc] at hout
      have hone := hout.1.one (.msix 0) ⟨dev.maxNvec, hmsix, dev.maxNvec_pos⟩
      obtain ⟨r, hr, hon⟩ := Multiset.countP_pos.mp (hone ▸ Nat.one_pos)
      cases r with
      | handler vec cookie =>
          obtain rfl := of_decide_eq_true hon
          exact hnone 0 cookie hr
      | msixp => exact nomatch hon
      | msi _ => exact nomatch hon
      | msix _ => exact nomatch hon
    · rw [if_neg hrc] at hout
      rw [hout] at hmsix
      exact nomatch hmsix

theorem fits_of_irqSetUp (hsetUp : IrqSetUp o dev) : IrqFits o dev := by
  intro halloc
  obtain ⟨fuel, hok⟩ := hsetUp
  split
  next hversion =>
    intro hgranted
    by_contra hmany
    exact not_setUp_of_many hversion halloc hgranted (Nat.not_le.mp hmany) fuel hok
  next hversion =>
    refine (o.msixRange 0 dev.maxNvec).resolve_left fun hrange => ?_
    have hpos : (0 : Int) < dev.maxNvec := by exact_mod_cast dev.maxNvec_pos
    exact not_setUp_of_granted hversion halloc (hrange ▸ hpos) fuel hok

end Enabling

theorem irqSetUp_iff (o : IrqOracle) (dev : IrqDevice) : IrqSetUp o dev ↔ IrqFits o dev :=
  ⟨fits_of_irqSetUp, irqSetUp_of_fits⟩

/-- The vectors are granted at once, and a second request finds them enabled. -/
def grantedOnce : IrqOracle where
  linuxVersionCode := KERNEL_VERSION 4 15 0
  kzalloc := true
  pciEnableMsix := fun _ _ => -22
  pciEnableMsixRange := fun call nvec => if call = 0 then nvec else -22
  pciEnableMsiExact := fun _ _ => -22
  pciAllocIrqVectors := fun _ _ => -22
  requestIrq := fun _ => 0
  msix_lt := fun _ nvec => by omega
  msixRange := fun call nvec => by
    by_cases hcall : call = 0
    · exact Or.inl (if_pos hcall)
    · exact Or.inr (by rw [if_neg hcall]; decide)
  msiExact := fun _ _ => Or.inr (by decide)
  irqVectors := fun _ _ => Or.inr (by decide)

def fourChannels : IrqDevice where
  zynqFwupdateParam := false
  zdevChanCnt := 4
  chanCnt_pos := by decide

/-- The handler is requested on the line, while the four vectors stay enabled. -/
theorem irqSetUp_fails : ¬ IrqSetUp grantedOnce fourChannels := by
  rintro ⟨fuel, hok⟩
  have hgranted : 0 < grantedOnce.pciEnableMsixRange 0 fourChannels.maxNvec := by decide
  exact not_setUp_of_granted (by decide) rfl hgranted fuel hok

end ApolloContrib.Intr
