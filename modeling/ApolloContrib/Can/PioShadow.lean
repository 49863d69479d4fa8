import ApolloContrib.Can.Pio
import ApolloContrib.Library.Run

namespace ApolloContrib.Can

open ApolloContrib.Library

/-! The shadows `zcan_pio_baudrate` and `zcan_pio_loopback` against the registers
they stand for, over every order of ioctls, opens and releases. -/

inductive PioCall where
  | zcanIoctl (cmd : ZynqIocCan) (arg : BitVec 64) (fault : Bool)
  | zcanOpen (devErr : Bool)
  | zcanRelease
deriving DecidableEq, Repr

/-- One call of the driver; `none` when it reads outside `brpr_reg_val`. -/
def pioStep (zcan : ZynqCanPio) : PioCall → Option ZynqCanPio
  | .zcanIoctl cmd arg fault => (zcan.zcanIoctl cmd arg fault).map Prod.snd
  | .zcanOpen devErr => (zcan.zcanOpen devErr).map Prod.snd
  | .zcanRelease => some zcan.zcanRelease

structure BaudrateMirrored (zcan : ZynqCanPio) : Prop where
  valid : zcan.zcanPioBaudrate.toNat < ZYNQ_BAUDRATE_NUM
  brpr : brprRegVal zcan.zcanPioBaudrate.toNat = some zcan.zcanIpReg.brpr

def LoopbackMirrored (zcan : ZynqCanPio) : Prop :=
  zcan.zcanPioLoopback = 1 ↔ zcan.zcanIpReg.msr = ZCAN_IP_MSR_LOOPBACK

structure ShadowsMirror (zcan : ZynqCanPio) : Prop where
  baudrate : BaudrateMirrored zcan
  loopback : LoopbackMirrored zcan

/-- The call does not set a baudrate that is negative as an int, and does not
reset the chip to normal mode while the loopback shadow is 1. -/
def PioCallOk (zcan : ZynqCanPio) : PioCall → Prop
  | .zcanIoctl .ZYNQ_IOC_CAN_BAUDRATE_SET arg _ => 0 ≤ (arg.setWidth 32).toInt
  | .zcanIoctl .ZYNQ_IOC_CAN_DEV_RESET _ _ => zcan.zcanPioLoopback ≠ 1
  | .zcanOpen _ => zcan.zcanPioOpened ≠ 0 ∨ zcan.zcanPioLoopback ≠ 1
  | _ => True

theorem BaudrateMirrored.of_eq {zcan next : ZynqCanPio}
    (hmirrored : BaudrateMirrored zcan)
    (hbaudrate : next.zcanPioBaudrate = zcan.zcanPioBaudrate)
    (hbrpr : next.zcanIpReg.brpr = zcan.zcanIpReg.brpr) : BaudrateMirrored next := by
  constructor
  · rw [hbaudrate]
    exact hmirrored.valid
  · rw [hbaudrate, hbrpr]
    exact hmirrored.brpr

/-- While the baudrate is mirrored, `zcan_pio_chip_init` programs BRPR with the
value it already holds. -/
theorem BaudrateMirrored.zcanPioChipInit_eq {zcan : ZynqCanPio}
    (hmirrored : BaudrateMirrored zcan) (ipMode : BitVec 32) :
    zcan.zcanPioChipInit ipMode =
      some (zcan.programmed ipMode zcan.zcanIpReg.brpr) := by
  rw [ZynqCanPio.zcanPioChipInit, hmirrored.brpr, Option.map_some]

theorem toInt_nonneg_toNat {w : Nat} {x : BitVec w} (hpos : 0 ≤ x.toInt) :
    x.toInt = x.toNat := by
  have hmsb : x.msb = false := by
    rw [BitVec.msb_eq_toInt]
    simpa using hpos
  exact BitVec.toInt_eq_toNat_of_msb hmsb

theorem signExtend_toNat_of_nonneg {baudrate : BitVec 32}
    (hpos : 0 ≤ baudrate.toInt) :
    ((baudrate.signExtend 64).toNat : Int) = baudrate.toInt := by
  have hmsb : baudrate.msb = false := by
    rw [BitVec.msb_eq_toInt]
    simpa using hpos
  rw [BitVec.signExtend_eq_setWidth_of_msb_false hmsb, BitVec.toNat_setWidth,
    toInt_nonneg_toNat hpos]
  have hbound := baudrate.isLt
  omega

theorem zcanPioSetBaudrate_isSome_iff (zcan : ZynqCanPio) (baudrate : BitVec 32) :
    (zcan.zcanPioSetBaudrate baudrate).isSome ↔ 0 ≤ baudrate.toInt := by
  unfold ZynqCanPio.zcanPioSetBaudrate
  split
  next hbig =>
    simp only [Option.isSome_some, true_iff]
    exact le_trans (by decide) hbig
  next hsmall =>
    rw [Option.isSome_map, brprRegVal_isSome_iff]
    omega

theorem BaudrateMirrored.zcanPioSetBaudrate {zcan next : ZynqCanPio}
    {baudrate : BitVec 32} {err : Int} (hmirrored : BaudrateMirrored zcan)
    (hset : zcan.zcanPioSetBaudrate baudrate = some (err, next)) :
    BaudrateMirrored next := by
  unfold ZynqCanPio.zcanPioSetBaudrate at hset
  split at hset
  next => cases hset; exact hmirrored
  next hsmall =>
    obtain ⟨brpr, hbrpr, heq⟩ := Option.map_eq_some_iff.mp hset
    cases heq
    have hrange := (brprRegVal_isSome_iff _).mp (Option.isSome_of_mem hbrpr)
    have hstored := signExtend_toNat_of_nonneg hrange.1
    constructor
    · have hlt := hrange.2
      rw [← hstored] at hlt
      exact Int.ofNat_lt.mp hlt
    · rw [← hstored] at hbrpr
      exact hbrpr

theorem ZynqCanPio.restart_zcanPioBaudrate (zcan : ZynqCanPio) (pioState : ZynqState) :
    (zcan.restart pioState).zcanPioBaudrate = zcan.zcanPioBaudrate := by
  unfold ZynqCanPio.restart
  split <;> rfl

theorem ZynqCanPio.restart_zcanPioLoopback (zcan : ZynqCanPio) (pioState : ZynqState) :
    (zcan.restart pioState).zcanPioLoopback = zcan.zcanPioLoopback := by
  unfold ZynqCanPio.restart
  split <;> rfl

theorem ZynqCanPio.restart_brpr (zcan : ZynqCanPio) (pioState : ZynqState) :
    (zcan.restart pioState).zcanIpReg.brpr = zcan.zcanIpReg.brpr := by
  unfold ZynqCanPio.restart
  split <;> rfl

theorem ZynqCanPio.restart_msr (zcan : ZynqCanPio) (pioState : ZynqState) :
    (zcan.restart pioState).zcanIpReg.msr = zcan.zcanIpReg.msr := by
  unfold ZynqCanPio.restart
  split <;> rfl

theorem BaudrateMirrored.zcanPioReset_eq {zcan : ZynqCanPio}
    (hmirrored : BaudrateMirrored zcan) :
    zcan.zcanPioReset =
      some ((zcan.setState .ZYNQ_STATE_RESET).programmed ZCAN_IP_MSR_NORMAL
        zcan.zcanIpReg.brpr) := by
  have hreset : BaudrateMirrored (zcan.setState .ZYNQ_STATE_RESET) :=
    hmirrored.of_eq rfl rfl
  exact hreset.zcanPioChipInit_eq _

theorem BaudrateMirrored.zcanPioLoopbackSet_eq {zcan : ZynqCanPio}
    (hmirrored : BaudrateMirrored zcan) :
    zcan.zcanPioLoopbackSet =
      some (((zcan.programmed ZCAN_IP_MSR_LOOPBACK zcan.zcanIpReg.brpr).setLoopback
        1).restart zcan.zcanPioState) := by
  rw [ZynqCanPio.zcanPioLoopbackSet, hmirrored.zcanPioChipInit_eq, Option.map_some]

theorem BaudrateMirrored.zcanPioLoopbackUnset_eq {zcan : ZynqCanPio}
    (hmirrored : BaudrateMirrored zcan) :
    zcan.zcanPioLoopbackUnset =
      some (((zcan.programmed ZCAN_IP_MSR_NORMAL zcan.zcanIpReg.brpr).setLoopback
        0).restart zcan.zcanPioState) := by
  rw [ZynqCanPio.zcanPioLoopbackUnset, hmirrored.zcanPioChipInit_eq, Option.map_some]

theorem BaudrateMirrored.zcanOpen_eq {zcan : ZynqCanPio}
    (hmirrored : BaudrateMirrored zcan) (devErr : Bool)
    (hclosed : zcan.zcanPioOpened = 0) :
    zcan.zcanOpen devErr =
      some (if devErr then .BCAN_DEV_ERR else .BCAN_OK,
        (((zcan.setOpened 1).setState .ZYNQ_STATE_RESET).programmed
          ZCAN_IP_MSR_NORMAL zcan.zcanIpReg.brpr).setOpened
            (if devErr then 0 else 1)) := by
  have hopened : BaudrateMirrored (zcan.setOpened 1) := hmirrored.of_eq rfl rfl
  rw [ZynqCanPio.zcanOpen, if_neg (not_not_intro hclosed), hopened.zcanPioReset_eq,
    Option.map_some]
  cases devErr with
  | false => rfl
  | true => rfl

theorem zcanOpen_busy {zcan : ZynqCanPio} (devErr : Bool)
    (hopened : zcan.zcanPioOpened ≠ 0) :
    zcan.zcanOpen devErr = some (.BCAN_DEV_BUSY, zcan) :=
  if_pos hopened

theorem normal_ne_loopback : ZCAN_IP_MSR_NORMAL ≠ ZCAN_IP_MSR_LOOPBACK := by
  decide

theorem ipModeMsr_eq_loopback_iff (mode : ZcanIpMode) :
    ZynqCanPio.ipModeMsr mode = ZCAN_IP_MSR_LOOPBACK ↔ mode = .ZCAN_IP_LOOPBACK := by
  cases mode <;> decide

/-- What a call can do to the configuration while the baudrate is mirrored: leave
both shadows and their registers alone, reset the chip to normal mode, set or
unset loopback, or set the baudrate. -/
inductive PioEffect (zcan : ZynqCanPio) : PioCall → ZynqCanPio → Prop
  | same {call next} (hok : PioCallOk zcan call)
      (hbaudrate : next.zcanPioBaudrate = zcan.zcanPioBaudrate)
      (hbrpr : next.zcanIpReg.brpr = zcan.zcanIpReg.brpr)
      (hloopback : next.zcanPioLoopback = zcan.zcanPioLoopback)
      (hmsr : next.zcanIpReg.msr = zcan.zcanIpReg.msr) : PioEffect zcan call next
  | normal {call next} (hok : PioCallOk zcan call ↔ zcan.zcanPioLoopback ≠ 1)
      (hbaudrate : next.zcanPioBaudrate = zcan.zcanPioBaudrate)
      (hbrpr : next.zcanIpReg.brpr = zcan.zcanIpReg.brpr)
      (hloopback : next.zcanPioLoopback = zcan.zcanPioLoopback)
      (hmsr : next.zcanIpReg.msr = ZCAN_IP_MSR_NORMAL) : PioEffect zcan call next
  | loopback {call next} (hok : PioCallOk zcan call)
      (hbaudrate : next.zcanPioBaudrate = zcan.zcanPioBaudrate)
      (hbrpr : next.zcanIpReg.brpr = zcan.zcanIpReg.brpr)
      (hloopback : LoopbackMirrored next) : PioEffect zcan call next
  | baudrate {call next} (hok : PioCallOk zcan call)
      (hmirrored : BaudrateMirrored next)
      (hloopback : next.zcanPioLoopback = zcan.zcanPioLoopback)
      (hmsr : next.zcanIpReg.msr = zcan.zcanIpReg.msr) : PioEffect zcan call next

theorem zcanPioSetBaudrate_loopback {zcan next : ZynqCanPio} {baudrate : BitVec 32}
    {err : Int} (hset : zcan.zcanPioSetBaudrate baudrate = some (err, next)) :
    next.zcanPioLoopback = zcan.zcanPioLoopback ∧
      next.zcanIpReg.msr = zcan.zcanIpReg.msr := by
  unfold ZynqCanPio.zcanPioSetBaudrate at hset
  split at hset
  next => cases hset; exact ⟨rfl, rfl⟩
  next =>
    obtain ⟨brpr, _, heq⟩ := Option.map_eq_some_iff.mp hset
    cases heq
    exact ⟨rfl, rfl⟩

theorem loopbackMirrored_restart {zcan : ZynqCanPio} {pioState : ZynqState} :
    LoopbackMirrored (zcan.restart pioState) ↔ LoopbackMirrored zcan := by
  rw [LoopbackMirrored, ZynqCanPio.restart_zcanPioLoopback, ZynqCanPio.restart_msr,
    LoopbackMirrored]

theorem pioEffect_of_step {zcan next : ZynqCanPio} {call : PioCall}
    (hmirrored : BaudrateMirrored zcan) (hstep : pioStep zcan call = some next) :
    PioEffect zcan call next := by
  cases call with
  | zcanIoctl cmd arg fault =>
      cases cmd with
      | ZYNQ_IOC_CAN_DEV_RESET =>
          simp only [pioStep, ZynqCanPio.zcanIoctl, hmirrored.zcanPioReset_eq,
            Option.map_some, Option.some.injEq] at hstep
          subst hstep
          exact .normal Iff.rfl rfl rfl rfl rfl
      | ZYNQ_IOC_CAN_LOOPBACK_SET =>
          simp only [pioStep, ZynqCanPio.zcanIoctl, hmirrored.zcanPioLoopbackSet_eq,
            Option.map_some, Option.some.injEq] at hstep
          subst hstep
          refine .loopback trivial ?_ ?_ ?_
          · exact ZynqCanPio.restart_zcanPioBaudrate _ _
          · exact ZynqCanPio.restart_brpr _ _
          · exact loopbackMirrored_restart.mpr (iff_of_true rfl rfl)
      | ZYNQ_IOC_CAN_LOOPBACK_UNSET =>
          simp only [pioStep, ZynqCanPio.zcanIoctl, hmirrored.zcanPioLoopbackUnset_eq,
            Option.map_some, Option.some.injEq] at hstep
          subst hstep
          refine .loopback trivial ?_ ?_ ?_
          · exact ZynqCanPio.restart_zcanPioBaudrate _ _
          · exact ZynqCanPio.restart_brpr _ _
          · exact loopbackMirrored_restart.mpr
              (iff_of_false Nat.zero_ne_one normal_ne_loopback)
      | ZYNQ_IOC_CAN_BAUDRATE_SET =>
          obtain ⟨⟨err, set⟩, hset, rfl⟩ := Option.map_eq_some_iff.mp hstep
          have hok := (zcanPioSetBaudrate_isSome_iff _ _).mp
            (Option.isSome_of_mem hset)
          have hkept := zcanPioSetBaudrate_loopback hset
          exact .baudrate hok (hmirrored.zcanPioSetBaudrate hset) hkept.1 hkept.2
      | _ =>
          cases hstep
          exact .same trivial rfl rfl rfl rfl
  | zcanOpen devErr =>
      by_cases hopened : zcan.zcanPioOpened = 0
      · have hopen := hmirrored.zcanOpen_eq devErr hopened
        simp only [pioStep, hopen, Option.map_some, Option.some.injEq] at hstep
        subst hstep
        refine .normal ?_ rfl rfl rfl rfl
        simp only [PioCallOk, hopened, ne_eq, not_true_eq_false, false_or]
      · simp only [pioStep, zcanOpen_busy devErr hopened, Option.map_some,
          Option.some.injEq] at hstep
        subst hstep
        exact .same (Or.inl hopened) rfl rfl rfl rfl
  | zcanRelease =>
      cases hstep
      exact .same trivial rfl rfl rfl rfl

theorem baudrateMirrored_step {zcan next : ZynqCanPio} {call : PioCall}
    (hmirrored : BaudrateMirrored zcan) (hstep : pioStep zcan call = some next) :
    BaudrateMirrored next := by
  cases pioEffect_of_step hmirrored hstep with
  | same _ hbaudrate hbrpr => exact hmirrored.of_eq hbaudrate hbrpr
  | normal _ hbaudrate hbrpr => exact hmirrored.of_eq hbaudrate hbrpr
  | loopback _ hbaudrate hbrpr => exact hmirrored.of_eq hbaudrate hbrpr
  | baudrate _ hnext => exact hnext

theorem loopbackMirrored_step {zcan next : ZynqCanPio} {call : PioCall}
    (hmirror : ShadowsMirror zcan) (hstep : pioStep zcan call = some next) :
    LoopbackMirrored next ↔ PioCallOk zcan call := by
  have hbefore := hmirror.loopback
  cases pioEffect_of_step hmirror.baudrate hstep with
  | same hok _ _ hloopback hmsr =>
      rw [LoopbackMirrored, hloopback, hmsr]
      exact iff_of_true hbefore hok
  | normal hok _ _ hloopback hmsr =>
      rw [LoopbackMirrored, hloopback, hmsr, hok]
      simp only [normal_ne_loopback, iff_false, ne_eq]
  | loopback hok _ _ hnext => exact iff_of_true hnext hok
  | baudrate hok _ hloopback hmsr =>
      rw [LoopbackMirrored, hloopback, hmsr]
      exact iff_of_true hbefore hok

theorem pioStep_taken {zcan : ZynqCanPio} {call : PioCall}
    (hmirrored : BaudrateMirrored zcan) (hok : PioCallOk zcan call) :
    ∃ next, pioStep zcan call = some next := by
  cases call with
  | zcanIoctl cmd arg fault =>
      cases cmd with
      | ZYNQ_IOC_CAN_DEV_RESET =>
          exact ⟨_, by rw [pioStep, ZynqCanPio.zcanIoctl, hmirrored.zcanPioReset_eq]; rfl⟩
      | ZYNQ_IOC_CAN_LOOPBACK_SET =>
          exact ⟨_, by
            rw [pioStep, ZynqCanPio.zcanIoctl, hmirrored.zcanPioLoopbackSet_eq]; rfl⟩
      | ZYNQ_IOC_CAN_LOOPBACK_UNSET =>
          exact ⟨_, by
            rw [pioStep, ZynqCanPio.zcanIoctl, hmirrored.zcanPioLoopbackUnset_eq]; rfl⟩
      | ZYNQ_IOC_CAN_BAUDRATE_SET =>
          have hset := (zcanPioSetBaudrate_isSome_iff zcan _).mpr hok
          obtain ⟨result, hresult⟩ := Option.isSome_iff_exists.mp hset
          exact ⟨result.2, by rw [pioStep, ZynqCanPio.zcanIoctl, hresult]; rfl⟩
      | _ => exact ⟨_, rfl⟩
  | zcanOpen devErr =>
      by_cases hopened : zcan.zcanPioOpened = 0
      · have hopen := hmirrored.zcanOpen_eq devErr hopened
        exact ⟨_, by rw [pioStep, hopen]; rfl⟩
      · exact ⟨_, by rw [pioStep, zcanOpen_busy devErr hopened]; rfl⟩
  | zcanRelease => exact ⟨_, rfl⟩

theorem shadowsMirror_step {zcan : ZynqCanPio} {call : PioCall}
    (hmirror : ShadowsMirror zcan) (hok : PioCallOk zcan call) :
    ∃ next, pioStep zcan call = some next ∧ ShadowsMirror next := by
  obtain ⟨next, hstep⟩ := pioStep_taken hmirror.baudrate hok
  exact ⟨next, hstep, baudrateMirrored_step hmirror.baudrate hstep,
    (loopbackMirrored_step hmirror hstep).mpr hok⟩

theorem not_shadowsMirror_step {zcan next : ZynqCanPio} {call : PioCall}
    (hmirror : ShadowsMirror zcan) (hfail : ¬ PioCallOk zcan call)
    (hstep : pioStep zcan call = some next) : ¬ ShadowsMirror next := by
  intro hnext
  exact hfail ((loopbackMirrored_step hmirror hstep).mp hnext.loopback)

theorem shadowsMirror_initialised (mode : ZcanIpMode) (zynqCanRxBufNum : Nat) :
    ShadowsMirror (ZynqCanPio.initialised mode zynqCanRxBufNum) ↔
      mode ≠ .ZCAN_IP_LOOPBACK := by
  have hloopback : LoopbackMirrored (ZynqCanPio.initialised mode zynqCanRxBufNum) ↔
      mode ≠ .ZCAN_IP_LOOPBACK := by
    rw [LoopbackMirrored, ne_eq, ← ipModeMsr_eq_loopback_iff]
    exact ⟨fun hmirror hmsr => Nat.zero_ne_one (hmirror.mpr hmsr),
      iff_of_false Nat.zero_ne_one⟩
  rw [← hloopback]
  refine ⟨ShadowsMirror.loopback, fun hmirror => ⟨⟨?_, rfl⟩, hmirror⟩⟩
  exact (by decide : ZYNQ_BAUDRATE_500K.toNat < ZYNQ_BAUDRATE_NUM)

/-- After `zcan_pio_init` and every sequence of calls, the shadows mirror the
registers and no access is out of range, exactly when the chip is not initialised
in loopback mode and every call meets the condition. -/
theorem pioShadows_iff (mode : ZcanIpMode) (zynqCanRxBufNum : Nat)
    (calls : List PioCall) :
    ∃ zcan, ZynqCanPio.zeroed.zcanPioInit mode zynqCanRxBufNum true true =
        some (0, zcan) ∧
      ((Throughout pioStep ShadowsMirror zcan calls ∧
          ∃ final, run pioStep zcan calls = some final) ↔
        mode ≠ .ZCAN_IP_LOOPBACK ∧ StepsMeet pioStep PioCallOk zcan calls) := by
  refine ⟨_, ZynqCanPio.zcanPioInit_eq mode zynqCanRxBufNum, ?_⟩
  rw [← shadowsMirror_initialised mode zynqCanRxBufNum]
  have hruns (hmirror : ShadowsMirror (ZynqCanPio.initialised mode zynqCanRxBufNum)) :
      (Throughout pioStep ShadowsMirror _ calls ∧
        ∃ final, run pioStep _ calls = some final) ↔
          StepsMeet pioStep PioCallOk _ calls :=
    stepsMeet_iff_throughout (fun _ hmirror => hmirror) shadowsMirror_step
      not_shadowsMirror_step hmirror
  constructor
  · rintro ⟨hall, hrun⟩
    have hmirror := hall [] List.nil_prefix _ rfl
    exact ⟨hmirror, (hruns hmirror).mp ⟨hall, hrun⟩⟩
  · rintro ⟨hmirror, hmeet⟩
    exact (hruns hmirror).mpr hmeet

/-- The ioctl argument `0xffffffff` is the baudrate -1, and a reset after
`LOOPBACK_SET` leaves the chip in normal mode with the loopback shadow at 1. -/
theorem pioShadows_fail :
    run pioStep (ZynqCanPio.initialised .ZCAN_IP_NORMAL 2048)
        [.zcanIoctl .ZYNQ_IOC_CAN_BAUDRATE_SET 0xffffffff false] = none ∧
      ¬ Throughout pioStep ShadowsMirror
        (ZynqCanPio.initialised .ZCAN_IP_NORMAL 2048)
        [.zcanIoctl .ZYNQ_IOC_CAN_LOOPBACK_SET 0 false,
          .zcanIoctl .ZYNQ_IOC_CAN_DEV_RESET 0 false] := by
  refine ⟨by decide, fun hall => ?_⟩
  have hmirror := (hall.last rfl).loopback
  exact absurd (hmirror.mp rfl) (by decide)

end ApolloContrib.Can
