import ApolloContrib.Bcan.Lib
import ApolloContrib.Can.PioShadow
import ApolloContrib.Library.Bits

namespace ApolloContrib.Bcan

open ApolloContrib.Can ApolloContrib.Library

/-! The state of the channel as the handle, the driver and the CAN IP record it,
over every sequence of library calls. -/

inductive BcanCall where
  | bcanOpen (txTo rxTo : BitVec 64) (malloc : Option BcanIhdl) (devErr : Bool)
  | bcanSetBaudrate (rate : BitVec 32)
  | bcanSetLoopback
  | bcanUnsetLoopback
  | bcanStart
  | bcanStop
  | bcanClose
deriving DecidableEq, Repr

/-- The answer of a call and the system after it; `none` when the driver reads
outside `brpr_reg_val`. -/
def bcanCall (sys : BcanSystem) : BcanCall → Option (BcanErrCode × BcanSystem)
  | .bcanOpen txTo rxTo malloc devErr => sys.bcanOpen txTo rxTo malloc devErr
  | .bcanSetBaudrate rate => sys.bcanSetBaudrate rate
  | .bcanSetLoopback => sys.bcanSetLoopback
  | .bcanUnsetLoopback => sys.bcanUnsetLoopback
  | .bcanStart => sys.bcanStart
  | .bcanStop => sys.bcanStop
  | .bcanClose => some sys.bcanClose

def bcanStep (sys : BcanSystem) (call : BcanCall) : Option BcanSystem :=
  (bcanCall sys call).map Prod.snd

/-- A baudrate is below `BCAN_BAUDRATE_NUM` or rejected. -/
def RateOk (sys : BcanSystem) : BcanCall → Prop
  | .bcanSetBaudrate rate =>
      rate.toNat < BCAN_BAUDRATE_NUM ∨
        ∃ err next, sys.bcanSetBaudrate rate = some (err, next) ∧ err ≠ .BCAN_OK
  | _ => True

/-- The CEN bit of `ZCAN_IP_SRR` is 1. -/
def IsEnabled (pio : ZynqCanPio) : Prop :=
  hasBit pio.zcanIpReg.srr ZCAN_IP_SRR_CEN

def InStart (pio : ZynqCanPio) : Prop :=
  pio.zcanPioState = .ZYNQ_STATE_START

structure StatesAgree (sys : BcanSystem) : Prop where
  started : IsStarted sys.hdl ↔ InStart sys.zcan.pio
  enabled : InStart sys.zcan.pio ↔ IsEnabled sys.zcan.pio
  active : bcanCheckState sys.hdl BCAN_DEV_ACTIVE = .BCAN_OK ↔ InStart sys.zcan.pio
  txAccepted : ∀ full, bcanCheckState sys.hdl BCAN_DEV_ACTIVE = .BCAN_OK ↔
    zcanPioTxOne sys.zcan.pio full ≠ .BCAN_FAIL
  txHiAccepted : ∀ full, bcanCheckState sys.hdl BCAN_DEV_ACTIVE = .BCAN_OK ↔
    zcanPioTxHiOne sys.zcan.pio full ≠ .BCAN_FAIL

structure ChannelInv (sys : BcanSystem) : Prop where
  baudrate : BaudrateMirrored sys.zcan.pio
  opened : sys.hdl ≠ none → sys.zcan.pio.zcanPioOpened ≠ 0
  started : IsStarted sys.hdl ↔ InStart sys.zcan.pio
  enabled : InStart sys.zcan.pio ↔ IsEnabled sys.zcan.pio

theorem ChannelInv.statesAgree {sys : BcanSystem} (hinv : ChannelInv sys) :
    StatesAgree sys := by
  have hactive := (bcanCheckState_active_iff sys.hdl).trans hinv.started
  have htx (full : Bool) : bcanCheckState sys.hdl BCAN_DEV_ACTIVE = .BCAN_OK ↔
      pioTxOne sys.zcan.pio full ≠ .BCAN_FAIL := by
    rw [hactive, ne_eq, pioTxOne_refused_iff, not_not]
    rfl
  exact ⟨hinv.started, hinv.enabled, hactive, htx, htx⟩

/-- What an ioctl keeps: the device stays open, and the CAN IP is enabled exactly
in `ZYNQ_STATE_START`. -/
structure PioKept (before after : ZynqCanPio) : Prop where
  baudrate : BaudrateMirrored after
  opened : after.zcanPioOpened = before.zcanPioOpened
  enabled : InStart after ↔ IsEnabled after

theorem isEnabled_zcanPioStart (zcan : ZynqCanPio) : IsEnabled zcan.zcanPioStart := by
  unfold IsEnabled
  rw [ZynqCanPio.zcanPioStart_srr]
  decide

theorem not_isEnabled_of_srr {zcan : ZynqCanPio} (hsrr : zcan.zcanIpReg.srr = 0) :
    ¬ IsEnabled zcan := by
  unfold IsEnabled
  rw [hsrr]
  decide

theorem enabled_of_stopped {zcan : ZynqCanPio} (hstate : ¬ InStart zcan)
    (hsrr : zcan.zcanIpReg.srr = 0) : InStart zcan ↔ IsEnabled zcan :=
  iff_of_false hstate (not_isEnabled_of_srr hsrr)

theorem pioKept_zcanPioStart {zcan : ZynqCanPio} (hmirrored : BaudrateMirrored zcan) :
    PioKept zcan zcan.zcanPioStart where
  baudrate := hmirrored.of_eq rfl rfl
  opened := rfl
  enabled := iff_of_true rfl (isEnabled_zcanPioStart zcan)

theorem pioKept_zcanPioStop {zcan : ZynqCanPio} (hmirrored : BaudrateMirrored zcan) :
    PioKept zcan zcan.zcanPioStop where
  baudrate := hmirrored.of_eq rfl rfl
  opened := rfl
  enabled := enabled_of_stopped nofun rfl

theorem pioKept_restart {zcan : ZynqCanPio} (hmirrored : BaudrateMirrored zcan)
    (msr : BitVec 32) (loopback : Nat) :
    PioKept zcan (((zcan.programmed msr zcan.zcanIpReg.brpr).setLoopback
        loopback).restart zcan.zcanPioState) ∧
      (InStart (((zcan.programmed msr zcan.zcanIpReg.brpr).setLoopback
        loopback).restart zcan.zcanPioState) ↔ InStart zcan) := by
  have hinit : BaudrateMirrored
      ((zcan.programmed msr zcan.zcanIpReg.brpr).setLoopback loopback) :=
    hmirrored.of_eq rfl rfl
  unfold ZynqCanPio.restart
  split
  next hstart =>
    have hkept := pioKept_zcanPioStart hinit
    exact ⟨⟨hkept.baudrate, rfl, hkept.enabled⟩, iff_of_true rfl hstart⟩
  next hstart =>
    exact ⟨⟨hinit, rfl, enabled_of_stopped nofun rfl⟩, iff_of_false nofun hstart⟩

theorem zcanPioSetBaudrate_state {zcan next : ZynqCanPio} {baudrate : BitVec 32}
    {err : Int} (hset : zcan.zcanPioSetBaudrate baudrate = some (err, next)) :
    next.zcanPioOpened = zcan.zcanPioOpened ∧
      next.zcanPioState = zcan.zcanPioState ∧
      next.zcanIpReg.srr = zcan.zcanIpReg.srr := by
  unfold ZynqCanPio.zcanPioSetBaudrate at hset
  split at hset
  next => cases hset; exact ⟨rfl, rfl, rfl⟩
  next =>
    obtain ⟨brpr, _, heq⟩ := Option.map_eq_some_iff.mp hset
    cases heq
    exact ⟨rfl, rfl, rfl⟩

theorem hasBit_or {state bits mask : BitVec 32} (hdisjoint : bits &&& mask = 0#32) :
    hasBit (state ||| bits) mask ↔ hasBit state mask := by
  rw [hasBit, or_and_of_disjoint hdisjoint, hasBit]

theorem hasBit_and_not {state bits mask : BitVec 32} (hdisjoint : bits &&& mask = 0#32) :
    hasBit (state &&& ~~~bits) mask ↔ hasBit state mask := by
  rw [hasBit, and_not_and_of_disjoint hdisjoint, hasBit]

theorem isStarted_some_iff (hdl : BcanIhdl) :
    IsStarted (some hdl) ↔ hasBit hdl.devState BCAN_DEV_START := by
  constructor
  · rintro ⟨other, heq, hbit⟩
    cases heq
    exact hbit
  · intro hbit
    exact ⟨hdl, rfl, hbit⟩

theorem not_isStarted_none : ¬ IsStarted none := by
  rintro ⟨hdl, hnone, _⟩
  cases hnone

theorem started_set_bit (hdl : BcanIhdl) :
    hasBit (hdl.devState ||| BCAN_DEV_START) BCAN_DEV_START := by
  rw [hasBit, or_and_self]
  decide

theorem not_started_cleared (state : BitVec 32) :
    ¬ hasBit (state &&& ~~~BCAN_DEV_START) BCAN_DEV_START := by
  rw [hasBit, and_not_and_self]
  exact fun hne => hne rfl

theorem channelInv_of_stopped {sys : BcanSystem}
    (hmirrored : BaudrateMirrored sys.zcan.pio)
    (hopened : sys.hdl ≠ none → sys.zcan.pio.zcanPioOpened ≠ 0)
    (hhdl : ¬ IsStarted sys.hdl) (hstate : ¬ InStart sys.zcan.pio)
    (hsrr : sys.zcan.pio.zcanIpReg.srr = 0) : ChannelInv sys where
  baudrate := hmirrored
  opened := hopened
  started := iff_of_false hhdl hstate
  enabled := enabled_of_stopped hstate hsrr

theorem channelInv_released (sys : BcanSystem)
    (hmirrored : BaudrateMirrored sys.zcan.pio) :
    ChannelInv (sys.close.setHdl none) := by
  refine channelInv_of_stopped (hmirrored.of_eq rfl rfl) (fun hsome => absurd rfl hsome)
    not_isStarted_none nofun rfl

/-- A configuration call keeps the invariant when its ioctl succeeds and leaves
the driver started exactly as the handle then records, or fails without effect. -/
theorem ChannelInv.configure {sys : BcanSystem} (hinv : ChannelInv sys)
    {pstate : BitVec 32} {cmd : ZynqIocCan} {failedErr : BcanErrCode}
    {record : BcanIhdl → BcanIhdl} {arg : BitVec 64}
    (hioctl : bcanCheckState sys.hdl pstate = .BCAN_OK → ∃ err pio,
      sys.zcan.pio.zcanIoctl cmd arg false = some (err, pio) ∧
        (err < 0 ∧ pio = sys.zcan.pio ∨
          ¬ err < 0 ∧ PioKept sys.zcan.pio pio ∧ ∀ hdl, sys.hdl = some hdl →
            (hasBit (record hdl).devState BCAN_DEV_START ↔ InStart pio))) :
    ∃ result, sys.configure pstate cmd arg failedErr record = some result ∧
      ChannelInv result.2 := by
  unfold BcanSystem.configure
  split
  next hcheck =>
    obtain ⟨err, pio, hpio, heffect⟩ := hioctl hcheck
    rw [BcanSystem.ioctl, hpio]
    rcases heffect with ⟨hneg, rfl⟩ | ⟨hok, hkept, hrecord⟩
    · refine ⟨(failedErr, sys), ?_, hinv⟩
      simp only [Option.map_some, hneg, decide_true, if_true]
      rfl
    · refine ⟨(.BCAN_OK, (sys.setPio pio).setHdl (sys.hdl.map record)), ?_, ?_⟩
      · simp only [Option.map_some, hok, decide_false, Bool.false_eq_true, if_false]
        rfl
      · cases hhdl : sys.hdl with
        | none =>
            rw [hhdl] at hcheck
            cases hcheck
        | some hdl =>
            have hopened := hinv.opened (by rw [hhdl]; exact nofun)
            rw [← hkept.opened] at hopened
            exact ⟨hkept.baudrate, fun _ => hopened,
              (isStarted_some_iff _).trans (hrecord hdl hhdl), hkept.enabled⟩
  next err hrefused => exact ⟨(bcanCheckState sys.hdl pstate, sys), rfl, hinv⟩

theorem ChannelInv.started_hdl {sys : BcanSystem} (hinv : ChannelInv sys)
    {hdl : BcanIhdl} (hhdl : sys.hdl = some hdl) :
    hasBit hdl.devState BCAN_DEV_START ↔ InStart sys.zcan.pio := by
  rw [← isStarted_some_iff, ← hhdl]
  exact hinv.started

theorem ChannelInv.bcanStart {sys : BcanSystem} (hinv : ChannelInv sys) :
    ∃ result, sys.bcanStart = some result ∧ ChannelInv result.2 := by
  apply hinv.configure
  intro _
  refine ⟨0, _, rfl, Or.inr ⟨by decide, pioKept_zcanPioStart hinv.baudrate, ?_⟩⟩
  intro hdl _
  exact iff_of_true (started_set_bit hdl) rfl

theorem ChannelInv.bcanStop {sys : BcanSystem} (hinv : ChannelInv sys) :
    ∃ result, sys.bcanStop = some result ∧ ChannelInv result.2 := by
  apply hinv.configure
  intro _
  refine ⟨0, _, rfl, Or.inr ⟨by decide, pioKept_zcanPioStop hinv.baudrate, ?_⟩⟩
  intro hdl _
  exact iff_of_false (not_started_cleared _) nofun

theorem ChannelInv.bcanSetLoopback {sys : BcanSystem} (hinv : ChannelInv sys) :
    ∃ result, sys.bcanSetLoopback = some result ∧ ChannelInv result.2 := by
  apply hinv.configure
  intro _
  obtain ⟨hkept, hstart⟩ := pioKept_restart hinv.baudrate ZCAN_IP_MSR_LOOPBACK 1
  refine ⟨0, _, ?_, Or.inr ⟨by decide, hkept, ?_⟩⟩
  · rw [ZynqCanPio.zcanIoctl, hinv.baudrate.zcanPioLoopbackSet_eq, Option.map_some]
  · intro hdl hhdl
    rw [hstart, ← hinv.started_hdl hhdl, hasBit_or (by decide), hasBit_and_not (by decide)]

theorem ChannelInv.bcanUnsetLoopback {sys : BcanSystem} (hinv : ChannelInv sys) :
    ∃ result, sys.bcanUnsetLoopback = some result ∧ ChannelInv result.2 := by
  apply hinv.configure
  intro _
  obtain ⟨hkept, hstart⟩ := pioKept_restart hinv.baudrate ZCAN_IP_MSR_NORMAL 0
  refine ⟨0, _, ?_, Or.inr ⟨by decide, hkept, ?_⟩⟩
  · rw [ZynqCanPio.zcanIoctl, hinv.baudrate.zcanPioLoopbackUnset_eq, Option.map_some]
  · intro hdl hhdl
    rw [hstart, ← hinv.started_hdl hhdl, hasBit_or (by decide), hasBit_and_not (by decide)]

theorem zcanPioSetBaudrate_effect {zcan next : ZynqCanPio} {baudrate : BitVec 32}
    {err : Int} (hmirrored : BaudrateMirrored zcan)
    (henabled : InStart zcan ↔ IsEnabled zcan)
    (hset : zcan.zcanPioSetBaudrate baudrate = some (err, next)) :
    err < 0 ∧ next = zcan ∨
      ¬ err < 0 ∧ PioKept zcan next ∧ (InStart next ↔ InStart zcan) := by
  have hnext := hmirrored.zcanPioSetBaudrate hset
  obtain ⟨hopened, hstate, hsrr⟩ := zcanPioSetBaudrate_state hset
  have hkept : PioKept zcan next := by
    refine ⟨hnext, hopened, ?_⟩
    unfold InStart IsEnabled
    rw [hstate, hsrr]
    exact henabled
  have hstart : InStart next ↔ InStart zcan := by
    unfold InStart
    rw [hstate]
  unfold ZynqCanPio.zcanPioSetBaudrate at hset
  split at hset
  next => cases hset; exact Or.inl ⟨by decide, rfl⟩
  next =>
    obtain ⟨brpr, _, heq⟩ := Option.map_eq_some_iff.mp hset
    cases heq
    exact Or.inr ⟨by decide, hkept, hstart⟩

theorem zcanIoctl_setBaudrate (pio : ZynqCanPio) (rate : BitVec 32) :
    pio.zcanIoctl .ZYNQ_IOC_CAN_BAUDRATE_SET (rate.setWidth 64) false =
      pio.zcanPioSetBaudrate rate := by
  rw [ZynqCanPio.zcanIoctl, BitVec.setWidth_setWidth_of_le _ (by decide),
    BitVec.setWidth_eq]

/-- The driver never reads outside `brpr_reg_val` for a rate that is in range or
rejected. -/
theorem zcanPioSetBaudrate_defined {sys : BcanSystem} {rate : BitVec 32}
    (hrate : RateOk sys (.bcanSetBaudrate rate))
    (hcheck : bcanCheckState sys.hdl BCAN_DEV_BAUD_SET = .BCAN_OK) :
    ∃ err pio, sys.zcan.pio.zcanPioSetBaudrate rate = some (err, pio) := by
  rcases hrate with hsmall | ⟨err, next, hset, _⟩
  · have hpos : 0 ≤ rate.toInt := by
      unfold BCAN_BAUDRATE_NUM at hsmall
      rw [BitVec.toInt_eq_toNat_of_lt (by omega)]
      exact Int.natCast_nonneg _
    obtain ⟨result, hresult⟩ := Option.isSome_iff_exists.mp
      ((zcanPioSetBaudrate_isSome_iff sys.zcan.pio rate).mpr hpos)
    exact ⟨result.1, result.2, hresult⟩
  · simp only [BcanSystem.bcanSetBaudrate, BcanSystem.configure, hcheck,
      BcanSystem.ioctl, zcanIoctl_setBaudrate, Option.map_map] at hset
    obtain ⟨result, hresult, _⟩ := Option.map_eq_some_iff.mp hset
    exact ⟨result.1, result.2, hresult⟩

theorem ChannelInv.bcanSetBaudrate {sys : BcanSystem} (hinv : ChannelInv sys)
    {rate : BitVec 32} (hrate : RateOk sys (.bcanSetBaudrate rate)) :
    ∃ result, sys.bcanSetBaudrate rate = some result ∧ ChannelInv result.2 := by
  apply hinv.configure
  intro hcheck
  obtain ⟨err, pio, hset⟩ := zcanPioSetBaudrate_defined hrate hcheck
  refine ⟨err, pio, (zcanIoctl_setBaudrate _ _).trans hset, ?_⟩
  rcases zcanPioSetBaudrate_effect hinv.baudrate hinv.enabled hset with
    hrefused | ⟨hok, hkept, hstart⟩
  · exact Or.inl hrefused
  · refine Or.inr ⟨hok, hkept, fun hdl hhdl => ?_⟩
    rw [hstart, ← hinv.started_hdl hhdl, hasBit_or (by decide)]

theorem ChannelInv.bcanClose {sys : BcanSystem} (hinv : ChannelInv sys) :
    ChannelInv sys.bcanClose.2 := by
  unfold BcanSystem.bcanClose
  split
  next => exact channelInv_released sys hinv.baudrate
  next => exact hinv

theorem ChannelInv.bcanOpen {sys : BcanSystem} (hinv : ChannelInv sys)
    (txTo rxTo : BitVec 64) (malloc : Option BcanIhdl) (devErr : Bool) :
    ∃ result, sys.bcanOpen txTo rxTo malloc devErr = some result ∧
      ChannelInv result.2 := by
  by_cases hopened : sys.zcan.pio.zcanPioOpened = 0
  · have hhdl : sys.hdl = none := by
      by_contra hsome
      exact hinv.opened hsome hopened
    have hreset (opened : Nat) : BaudrateMirrored
        ((((sys.zcan.pio.setOpened 1).setState .ZYNQ_STATE_RESET).programmed
          ZCAN_IP_MSR_NORMAL sys.zcan.pio.zcanIpReg.brpr).setOpened opened) :=
      hinv.baudrate.of_eq rfl rfl
    have hidle : ¬ IsStarted sys.hdl := by
      rw [hhdl]
      exact not_isStarted_none
    unfold BcanSystem.bcanOpen
    rw [hinv.baudrate.zcanOpen_eq devErr hopened]
    cases devErr with
    | true =>
        refine ⟨_, rfl, channelInv_of_stopped (hreset 0) (fun hsome => ?_) hidle nofun rfl⟩
        exact absurd hhdl hsome
    | false =>
        cases malloc with
        | none =>
            have hclosed := channelInv_released (sys.setPio _) (hreset 1)
            refine ⟨_, rfl, ?_⟩
            rw [← hhdl] at hclosed
            exact hclosed
        | some hdl =>
            refine ⟨_, rfl, channelInv_of_stopped (hreset 1) (fun _ => nofun) ?_ nofun rfl⟩
            rintro ⟨other, heq, hbit⟩
            cases heq
            exact absurd hbit (by decide : ¬ hasBit BCAN_DEV_OPEN BCAN_DEV_START)
  · refine ⟨(.BCAN_PARAM_INVALID, sys), ?_, hinv⟩
    unfold BcanSystem.bcanOpen
    rw [zcanOpen_busy devErr hopened]
    rfl

theorem channelInv_step {sys : BcanSystem} {call : BcanCall} (hinv : ChannelInv sys)
    (hrate : RateOk sys call) :
    ∃ next, bcanStep sys call = some next ∧ ChannelInv next := by
  have hresult : ∃ result, bcanCall sys call = some result ∧ ChannelInv result.2 := by
    cases call with
    | bcanOpen txTo rxTo malloc devErr => exact hinv.bcanOpen txTo rxTo malloc devErr
    | bcanSetBaudrate rate => exact hinv.bcanSetBaudrate hrate
    | bcanSetLoopback => exact hinv.bcanSetLoopback
    | bcanUnsetLoopback => exact hinv.bcanUnsetLoopback
    | bcanStart => exact hinv.bcanStart
    | bcanStop => exact hinv.bcanStop
    | bcanClose => exact ⟨_, rfl, hinv.bcanClose⟩
  obtain ⟨result, hcall, hnext⟩ := hresult
  exact ⟨result.2, by rw [bcanStep, hcall]; rfl, hnext⟩

/-- A driver after `zcan_pio_init` that no user has opened yet. -/
def BcanSystem.atInit (zcan : ZynqCan) (mode : ZcanIpMode) (zynqCanRxBufNum : Nat) :
    BcanSystem where
  zcan := { zcan with pio := ZynqCanPio.initialised mode zynqCanRxBufNum }
  hdl := none

theorem channelInv_atInit (zcan : ZynqCan) (mode : ZcanIpMode) (zynqCanRxBufNum : Nat) :
    ChannelInv (BcanSystem.atInit zcan mode zynqCanRxBufNum) := by
  have hmirrored : BaudrateMirrored (ZynqCanPio.initialised mode zynqCanRxBufNum) :=
    ⟨(by decide : ZYNQ_BAUDRATE_500K.toNat < ZYNQ_BAUDRATE_NUM), rfl⟩
  exact channelInv_of_stopped hmirrored (fun hsome => absurd rfl hsome)
    not_isStarted_none nofun rfl

/-- Over every sequence of library calls, the handle, the driver and the CAN IP
agree on whether the channel is started, and the check that `bcan_send` and
`bcan_recv` make agrees with them and with what the PIO transmit functions
accept. -/
theorem bcan_states_agree (zcan : ZynqCan) (mode : ZcanIpMode) (zynqCanRxBufNum : Nat)
    (calls : List BcanCall)
    (hrates : StepsMeet bcanStep RateOk
      (BcanSystem.atInit zcan mode zynqCanRxBufNum) calls) :
    Throughout bcanStep StatesAgree (BcanSystem.atInit zcan mode zynqCanRxBufNum)
        calls ∧
      ∃ final, run bcanStep (BcanSystem.atInit zcan mode zynqCanRxBufNum) calls =
        some final := by
  obtain ⟨hall, hrun⟩ := throughout_and_total channelInv_step
    (channelInv_atInit zcan mode zynqCanRxBufNum) hrates
  exact ⟨hall.imp fun _ hinv => hinv.statesAgree, hrun⟩

def pendingDriver : ZynqCan where
  pio := ZynqCanPio.zeroed
  rx := smallestRing.rxPush sampleFrame
  zcanTxDma := false
  txMsgs := []
  usrRxNum_idle := fun _ => rfl

/-- A channel is opened, given a baudrate, started, looped back and stopped. -/
theorem bcan_states_agree_loopback :
    Throughout bcanStep StatesAgree
        (BcanSystem.atInit pendingDriver .ZCAN_IP_NORMAL 256)
        [.bcanOpen 0 0 (some ⟨0, 0⟩) false, .bcanSetBaudrate 2, .bcanStart,
          .bcanSetLoopback, .bcanStop] ∧
      ∃ final, run bcanStep (BcanSystem.atInit pendingDriver .ZCAN_IP_NORMAL 256)
        [.bcanOpen 0 0 (some ⟨0, 0⟩) false, .bcanSetBaudrate 2, .bcanStart,
          .bcanSetLoopback, .bcanStop] = some final := by
  apply bcan_states_agree
  simp only [stepsMeet_cons, RateOk, true_and]
  refine fun _ _ => ⟨Or.inl (by decide), fun _ _ _ _ _ _ _ _ => stepsMeet_nil⟩

/-- On an opened channel that is not started, `bcan_recv` refuses what the driver
accepts: the check fails, and RECV serves a message. -/
theorem recv_accepted_unstarted :
    (run bcanStep (BcanSystem.atInit pendingDriver .ZCAN_IP_NORMAL 256)
        [.bcanOpen 0 0 (some ⟨0, 0⟩) false]).map (fun sys =>
      (bcanCheckState sys.hdl BCAN_DEV_ACTIVE,
        (sys.zcan.zcanIoctlRecv ⟨1, 1, 0, 0, 0⟩ ⟨none, false, true⟩
          ⟨1, 1, fun _ => false, [], .timedOut, fun _ => false⟩).answer)) =
      some (.BCAN_DEV_INVALID, some .BCAN_OK) := by
  decide +kernel

end ApolloContrib.Bcan
