import ApolloContrib.Cam.Camera
import ApolloContrib.Library.Bits
import ApolloContrib.Library.Run

namespace ApolloContrib.Cam

open ApolloContrib.Library

/-! `zcam_probe`: the pin-swap of a camera is found by trying, in at most two rounds. -/

def ZYNQ_CAM_PIN_SWAP : BitVec 32 := 1 <<< 20
def ZYNQ_I2C_RESET : BitVec 32 := 1 <<< 4
def REG_MON_MINOR_VERSION : BitVec 16 := 0x8002
def CAM_CAP_CODENAME_SHARPVISION : BitVec 16 := 1

structure ProbeState where
  camConfig : BitVec 32
  gReset : BitVec 32
  pinSwap : Bool
  minorVersion : BitVec 16
  trace : Trace
deriving DecidableEq, Repr

def pinSwapOf (config : BitVec 32) : Bool := config &&& ZYNQ_CAM_PIN_SWAP ≠ 0

def setPinSwap (pinSwap : Bool) (val : BitVec 32) : BitVec 32 :=
  if pinSwap then val ||| ZYNQ_CAM_PIN_SWAP else val &&& ~~~ZYNQ_CAM_PIN_SWAP

section Driver

variable (bus : I2cBus) (index : BitVec 8)

/-- The readings of the version, with `left` of them left. -/
def readVersion : Nat → Int → ProbeState → Int × ProbeState
  | 0, ret, s => (ret, s)
  | left + 1, _, s =>
      match zcamI2cRead16 bus REG_MON_MINOR_VERSION s.trace with
      | .ok data trace =>
          if data >>> 13 = CAM_CAP_CODENAME_SHARPVISION ∧ s.pinSwap = false then
            (0xFF, { s with trace })
          else (0, { s with minorVersion := data, trace })
      | .error ret trace => readVersion left ret { s with trace }

/-- From the reset of the I2C core to the jump back to `probe`. -/
def prepareReprobe (s : ProbeState) : ProbeState :=
  let pinSwap := !s.pinSwap
  { s with
    gReset := (s.gReset ||| ZYNQ_I2C_RESET) &&& ~~~ZYNQ_I2C_RESET
    pinSwap
    camConfig := setPinSwap pinSwap s.camConfig
    trace := zcamI2cFini bus index s.trace ++ [.unlock, .lock] ++ [.unlock, .lock] }

/-- What follows the label `end`. -/
def probeEnd (orig : BitVec 32) (reprobe : Bool) (ret : Int) (s : ProbeState) :
    Int × ProbeState :=
  let s :=
    if ret ≠ 0 ∧ reprobe then { s with camConfig := orig, pinSwap := pinSwapOf orig } else s
  (ret, { s with trace := zcamI2cFini bus index s.trace ++ [.unlock] })

/-- What follows the label `probe`, `none` when there are more rounds than `rounds`. -/
def probeLoop (orig : BitVec 32) : Nat → Bool → ProbeState → Option (Int × ProbeState)
  | 0, _, _ => none
  | rounds + 1, reprobe, s =>
      match zcamI2cInit bus index s.trace with
      | .error ret trace => some (probeEnd bus index orig reprobe ret { s with trace })
      | .ok _ trace =>
          let (ret, s) := readVersion bus 10 0 { s with trace }
          if ret ≠ 0 ∧ reprobe = false then
            probeLoop orig rounds true (prepareReprobe bus index s)
          else some (probeEnd bus index orig reprobe ret s)

def zcamProbe (rounds : Nat) (s : ProbeState) : Option (Int × ProbeState) :=
  let s := { s with trace := s.trace ++ [.lock], pinSwap := pinSwapOf s.camConfig }
  probeLoop bus index s.camConfig rounds false s

end Driver

def lockStep : Bool → CamEvent → Option Bool
  | false, .lock => some true
  | true, .unlock => some false
  | true, .i2c .. => some true
  | _, _ => none

def Held (trace next : Trace) : Prop :=
  ∃ events, next = trace ++ events ∧ run lockStep true events = some true

section Lock

variable {trace middle next : Trace}

theorem held_refl (trace : Trace) : Held trace trace :=
  ⟨[], (List.append_nil _).symm, rfl⟩

theorem Held.trans (hfirst : Held trace middle) (hsecond : Held middle next) :
    Held trace next := by
  obtain ⟨events, rfl, hrun⟩ := hfirst
  obtain ⟨more, rfl, hrun'⟩ := hsecond
  exact ⟨events ++ more, List.append_assoc _ _ _,
    (run_append_of_eq lockStep hrun more).trans hrun'⟩

theorem Moves.held {respond : Response} {R : Camera → Camera → Prop}
    (hmoves : Moves respond R trace next) : Held trace next := by
  obtain ⟨events, rfl, hi2c, -⟩ := hmoves
  refine ⟨events, rfl, ?_⟩
  induction events with
  | nil => rfl
  | cons event events ih =>
      rw [run_cons]
      cases event with
      | i2c => exact ih fun event hevent => hi2c event (List.mem_cons_of_mem _ hevent)
      | lock | unlock | store => exact (hi2c _ List.mem_cons_self).elim

theorem held_fini (bus : I2cBus) (index : BitVec 8) (trace : Trace) :
    Held trace (zcamI2cFini bus index trace) :=
  ⟨_, List.append_assoc _ _ _, rfl⟩

theorem prefix_fini (bus : I2cBus) (index : BitVec 8) (trace : Trace) :
    trace <+: zcamI2cFini bus index trace :=
  ⟨_, (List.append_assoc _ _ _).symm⟩

theorem held_sleep (trace : Trace) : Held trace (trace ++ [.unlock, .lock]) :=
  ⟨_, rfl, rfl⟩

end Lock

/-- The version that is kept was read from the camera; where it is a SharpVision one, the
pins are swapped. -/
def Accepted (bus : I2cBus) (s : ProbeState) : Prop :=
  (∃ before next, zcamI2cRead16 bus REG_MON_MINOR_VERSION before = .ok s.minorVersion next ∧
    next <+: s.trace) ∧
  (s.minorVersion >>> 13 = CAM_CAP_CODENAME_SHARPVISION → s.pinSwap = true)

section Round

variable (bus : I2cBus) (index : BitVec 8)

theorem zcamI2cRead16_held (addr : BitVec 16) (trace : Trace) :
    Ends (zcamI2cRead16 bus addr) trace (fun _ => Held trace)
      (fun ret next => ret ≠ 0 ∧ Held trace next) :=
  (zcamI2cRead16_unseen (fun _ => id) addr trace).imp (fun _ _ hmoves => hmoves.held)
    fun _ _ ⟨hret, hmoves⟩ => ⟨hret, hmoves.held⟩

theorem zcamI2cInit_held (trace : Trace) :
    Ends (zcamI2cInit bus index) trace (fun _ => Held trace)
      (fun ret next => ret ≠ 0 ∧ Held trace next) :=
  (zcamI2cInit_unseen (fun _ => id) index trace).imp (fun _ _ hmoves => hmoves.held)
    fun _ _ ⟨hret, hmoves⟩ => ⟨hret, hmoves.held⟩

/-- The readings leave the registers and the pin-swap alone; 0 is returned for a version
that has been read. -/
structure VersionRead (s : ProbeState) (ret : Int) (s' : ProbeState) : Prop where
  camConfig_eq : s'.camConfig = s.camConfig
  gReset_eq : s'.gReset = s.gReset
  pinSwap_eq : s'.pinSwap = s.pinSwap
  held : Held s.trace s'.trace
  accepted : ret = 0 → Accepted bus s'

theorem readVersion_reads (left : Nat) (ret : Int) (s : ProbeState)
    (hleft : left = 0 → ret ≠ 0) :
    VersionRead bus s (readVersion bus left ret s).1 (readVersion bus left ret s).2 := by
  induction left generalizing ret s with
  | zero => exact ⟨rfl, rfl, rfl, held_refl _, fun hret => absurd hret (hleft rfl)⟩
  | succ left ih =>
      have hread := zcamI2cRead16_held bus REG_MON_MINOR_VERSION s.trace
      unfold Ends at hread
      rw [readVersion]
      cases hresult : zcamI2cRead16 bus REG_MON_MINOR_VERSION s.trace with
      | ok data trace =>
          rw [hresult] at hread
          dsimp only
          split_ifs with hrefused
          · exact ⟨rfl, rfl, rfl, hread, fun hret =>
              absurd hret (show (0xFF : Int) ≠ 0 by decide)⟩
          · refine ⟨rfl, rfl, rfl, hread, fun _ => ⟨⟨_, _, hresult, List.prefix_refl _⟩, ?_⟩⟩
            intro hsharp
            exact Bool.eq_true_of_not_eq_false fun hoff => hrefused ⟨hsharp, hoff⟩
      | error error trace =>
          rw [hresult] at hread
          obtain ⟨hconfig, hreset, hswap, hheld, haccepted⟩ :=
            ih error { s with trace } fun _ => hread.1
          exact ⟨hconfig, hreset, hswap, hread.2.trans hheld, haccepted⟩

end Round

structure RoundInv (orig : BitVec 32) (reprobe : Bool) (s : ProbeState) : Prop where
  pinSwap_eq : s.pinSwap = pinSwapOf s.camConfig
  bits_eq : s.camConfig &&& ~~~ZYNQ_CAM_PIN_SWAP = orig &&& ~~~ZYNQ_CAM_PIN_SWAP
  fresh : reprobe = false → s.camConfig = orig

/-- What a probe that returns `ret` leaves. -/
structure ProbeLeaves (bus : I2cBus) (orig : BitVec 32) (ret : Int) (s : ProbeState) :
    Prop where
  failed : ret ≠ 0 → s.camConfig = orig ∧ s.pinSwap = pinSwapOf orig
  bits_eq : s.camConfig &&& ~~~ZYNQ_CAM_PIN_SWAP = orig &&& ~~~ZYNQ_CAM_PIN_SWAP
  pinSwap_eq : s.pinSwap = pinSwapOf s.camConfig
  accepted : ret = 0 → Accepted bus s

section Rounds

variable {bus : I2cBus} {index : BitVec 8} {orig : BitVec 32}

theorem pinSwapOf_setPinSwap (pinSwap : Bool) (val : BitVec 32) :
    pinSwapOf (setPinSwap pinSwap val) = pinSwap := by
  unfold pinSwapOf setPinSwap
  cases pinSwap with
  | false =>
      rw [if_neg Bool.false_ne_true, and_not_and_self]
      rfl
  | true =>
      rw [if_pos rfl, or_and_self]
      rfl

theorem setPinSwap_bits (pinSwap : Bool) (val : BitVec 32) :
    setPinSwap pinSwap val &&& ~~~ZYNQ_CAM_PIN_SWAP = val &&& ~~~ZYNQ_CAM_PIN_SWAP := by
  unfold setPinSwap
  split
  · ext i hi
    simp only [BitVec.getElem_and, BitVec.getElem_or, BitVec.getElem_not]
    cases val[i] <;> cases ZYNQ_CAM_PIN_SWAP[i] <;> rfl
  · rw [BitVec.and_assoc, BitVec.and_self]

theorem RoundInv.prepareReprobe {s : ProbeState} (hinv : RoundInv orig false s) :
    RoundInv orig true (prepareReprobe bus index s) :=
  ⟨(pinSwapOf_setPinSwap _ _).symm, (setPinSwap_bits _ _).trans hinv.bits_eq, nofun⟩

theorem Accepted.later {s s' : ProbeState} (haccepted : Accepted bus s)
    (hversion : s'.minorVersion = s.minorVersion) (hswap : s'.pinSwap = s.pinSwap)
    (htrace : s.trace <+: s'.trace) : Accepted bus s' := by
  obtain ⟨⟨before, next, hread, hbefore⟩, hsharp⟩ := haccepted
  unfold Accepted
  rw [hversion, hswap]
  exact ⟨⟨before, next, hread, hbefore.trans htrace⟩, hsharp⟩

theorem probeEnd_leaves {reprobe : Bool} {ret : Int} {s : ProbeState}
    (hinv : RoundInv orig reprobe s) (haccepted : ret = 0 → Accepted bus s) :
    ProbeLeaves bus orig ret (probeEnd bus index orig reprobe ret s).2 := by
  unfold probeEnd
  split
  next hrestore =>
    exact ⟨fun _ => ⟨rfl, rfl⟩, rfl, rfl, fun hret => absurd hret hrestore.1⟩
  next hkept =>
    refine ⟨fun hret => ?_, hinv.bits_eq, hinv.pinSwap_eq, fun hret => ?_⟩
    · have hfresh : reprobe = false := Bool.eq_false_of_not_eq_true fun htrue =>
        hkept ⟨hret, htrue⟩
      exact ⟨hinv.fresh hfresh, hinv.pinSwap_eq.trans (congrArg _ (hinv.fresh hfresh))⟩
    · refine (haccepted hret).later rfl rfl ?_
      exact (prefix_fini bus index s.trace).trans (List.prefix_append _ _)

theorem probeEnd_trace (reprobe : Bool) (ret : Int) (s : ProbeState) :
    (probeEnd bus index orig reprobe ret s).2.trace =
      zcamI2cFini bus index s.trace ++ [.unlock] := by
  unfold probeEnd
  split <;> rfl

theorem prepareReprobe_held (s : ProbeState) :
    Held s.trace (prepareReprobe bus index s).trace :=
  (held_fini bus index s.trace).trans ((held_sleep _).trans (held_sleep _))

/-- The end of a probe that was begun with the lock held at `trace`. -/
def ProbeEnds (bus : I2cBus) (index : BitVec 8) (orig : BitVec 32) (trace : Trace)
    (result : Option (Int × ProbeState)) : Prop :=
  ∃ ret s' last, result = some (ret, s') ∧ ProbeLeaves bus orig ret s' ∧ Held trace last ∧
    s'.trace = zcamI2cFini bus index last ++ [.unlock]

theorem probeEnds_of_inv {reprobe : Bool} {ret : Int} {s : ProbeState} {trace : Trace}
    (hinv : RoundInv orig reprobe s) (haccepted : ret = 0 → Accepted bus s)
    (hheld : Held trace s.trace) :
    ProbeEnds bus index orig trace (some (probeEnd bus index orig reprobe ret s)) :=
  ⟨_, _, s.trace, rfl, probeEnd_leaves hinv haccepted, hheld, probeEnd_trace reprobe ret s⟩

theorem probeLoop_round {reprobe : Bool} {s : ProbeState} (hinv : RoundInv orig reprobe s)
    (rounds : Nat) :
    ProbeEnds bus index orig s.trace (probeLoop bus index orig (rounds + 1) reprobe s) ∨
      reprobe = false ∧ ∃ s', RoundInv orig true s' ∧ Held s.trace s'.trace ∧
        probeLoop bus index orig (rounds + 1) reprobe s =
          probeLoop bus index orig rounds true s' := by
  have hinit := zcamI2cInit_held bus index s.trace
  unfold Ends at hinit
  rw [probeLoop]
  cases hresult : zcamI2cInit bus index s.trace with
  | error ret trace =>
      rw [hresult] at hinit
      exact Or.inl (probeEnds_of_inv ⟨hinv.pinSwap_eq, hinv.bits_eq, hinv.fresh⟩
        (fun hret => absurd hret hinit.1) hinit.2)
  | ok _ trace =>
      rw [hresult] at hinit
      have hread := readVersion_reads bus 10 0 { s with trace } (by decide)
      dsimp only
      generalize readVersion bus 10 0 { s with trace } = out at *
      obtain ⟨ret, s'⟩ := out
      obtain ⟨hconfig, -, hswap, hheld, haccepted⟩ := hread
      have hinv' : RoundInv orig reprobe s' := by
        refine ⟨?_, ?_, ?_⟩
        · rw [hconfig, hswap]
          exact hinv.pinSwap_eq
        · rw [hconfig]
          exact hinv.bits_eq
        · rw [hconfig]
          exact hinv.fresh
      dsimp only
      split_ifs with hagain
      · obtain ⟨-, rfl⟩ := hagain
        exact Or.inr ⟨rfl, _, hinv'.prepareReprobe,
          (hinit.trans hheld).trans (prepareReprobe_held s'), rfl⟩
      · exact Or.inl (probeEnds_of_inv hinv' haccepted (hinit.trans hheld))

theorem probeLoop_ends (bus : I2cBus) (index : BitVec 8) {s : ProbeState}
    (hinv : RoundInv orig false s) (rounds : Nat) :
    ProbeEnds bus index orig s.trace (probeLoop bus index orig (rounds + 2) false s) := by
  rcases probeLoop_round hinv (rounds + 1) with hends | ⟨-, s', hinv', hheld, hagain⟩
  · exact hends
  · rw [hagain]
    rcases probeLoop_round hinv' rounds with hends | ⟨hfirst, -⟩
    · obtain ⟨ret, last, trace, hresult, hleaves, hmore, htrace⟩ := hends
      exact ⟨ret, last, trace, hresult, hleaves, hheld.trans hmore, htrace⟩
    · cases hfirst

end Rounds

/-- The lock is taken and released in alternation, with every access under it, and the
aliases are cleared last. -/
def ProbeTraced (index : BitVec 8) (events : Trace) : Prop :=
  run lockStep false events = some false ∧
    ∃ before reply reply', events = before ++ [.i2c (aliasAcc index 0x10 0) reply,
      .i2c (aliasAcc index 0x08 0) reply', .unlock]

theorem probeTraced_of_held {bus : I2cBus} {index : BitVec 8} {trace last : Trace}
    (hheld : Held (trace ++ [.lock]) last) :
    ∃ events, zcamI2cFini bus index last ++ [.unlock] = trace ++ events ∧
      ProbeTraced index events := by
  obtain ⟨middle, rfl, hrun⟩ := hheld
  unfold zcamI2cFini
  dsimp only
  generalize bus _ (aliasAcc index 0x10 0) = reply
  generalize bus _ (aliasAcc index 0x08 0) = reply'
  refine ⟨.lock :: middle ++ [.i2c (aliasAcc index 0x10 0) reply,
    .i2c (aliasAcc index 0x08 0) reply', .unlock], by simp, ?_, _, reply, reply', rfl⟩
  rw [List.cons_append, run_cons]
  change run lockStep true _ = _
  rw [run_append_of_eq lockStep hrun]
  rfl

/-- Whatever the bus replies, two rounds are enough. -/
theorem zcamProbe_leaves (bus : I2cBus) (index : BitVec 8) (rounds : Nat) (s : ProbeState) :
    ∃ ret s' events, zcamProbe bus index (rounds + 2) s = some (ret, s') ∧
      s'.trace = s.trace ++ events ∧ ProbeTraced index events ∧
      ProbeLeaves bus s.camConfig ret s' := by
  have hinv : RoundInv s.camConfig false
      { s with trace := s.trace ++ [.lock], pinSwap := pinSwapOf s.camConfig } :=
    ⟨rfl, rfl, fun _ => rfl⟩
  obtain ⟨ret, s', last, hresult, hleaves, hheld, htrace⟩ :=
    probeLoop_ends bus index hinv rounds
  obtain ⟨events, hevents, htraced⟩ := probeTraced_of_held hheld
  exact ⟨ret, s', events, hresult, htrace.trans hevents, htraced, hleaves⟩

/-- No access succeeds, and the pin-swap of the register replaces the one at entry. -/
theorem zcamProbe_pinSwap :
    ∃ (entry : ProbeState) (ret : Int) (s' : ProbeState),
      zcamProbe (fun _ _ => ⟨-EAGAIN, 0, false⟩) 0 2 entry = some (ret, s') ∧ ret ≠ 0 ∧
        entry.pinSwap = false ∧ s'.pinSwap = true :=
  ⟨⟨ZYNQ_CAM_PIN_SWAP, 0, false, 0, []⟩, _, _, rfl, by decide, rfl, by decide⟩

end ApolloContrib.Cam
