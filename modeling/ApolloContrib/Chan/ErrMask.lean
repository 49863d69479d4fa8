import ApolloContrib.Library.Bits
import ApolloContrib.Library.Run

namespace ApolloContrib.Chan

open ApolloContrib.Library

/-! Throttling of the error interrupts of a channel, `zchan_err_mask` and
`zchan_err_unmask`; `w` is the width of `jiffies`. -/

def ZYNQ_CH_ERR_CAM_LINK_CHANGE : BitVec 32 := 0x4000
def ZYNQ_CH_ERR_MASK_TX_DEFAULT : BitVec 32 := 0xFF0001EC
def ZYNQ_CH_ERR_MASK_RX_DEFAULT : BitVec 32 := 0xFE0010B0

variable {w : Nat}

structure ErrChan (w : Nat) where
  maskRx : BitVec 32
  maskTx : BitVec 32
  tsErr : Fin 32 → BitVec w
  watchdogInterval : Nat

def ErrChan.start : ErrChan w where
  maskRx := ZYNQ_CH_ERR_MASK_RX_DEFAULT
  maskTx := ZYNQ_CH_ERR_MASK_TX_DEFAULT
  tsErr := fun _ => 0
  watchdogInterval := 1000

/-- `jiffies i` is what the counter reads when bit `i` is looked at. -/
def zchanErrMask (zchan : ErrChan w) (chErr : BitVec 32) (jiffies : Fin 32 → BitVec w) :
    ErrChan w :=
  -- camera link change is never masked
  let chErr := chErr &&& ~~~ZYNQ_CH_ERR_CAM_LINK_CHANGE
  if chErr = 0#32 then zchan
  else
    { tsErr := fun i => if chErr.getLsbD i ∧ zchan.tsErr i = 0 then jiffies i else zchan.tsErr i
      maskRx := zchan.maskRx ||| (chErr ||| ZYNQ_CH_ERR_MASK_RX_DEFAULT)
      maskTx := zchan.maskTx ||| (chErr ||| ZYNQ_CH_ERR_MASK_TX_DEFAULT)
      watchdogInterval := 100 }

/-- `throttle` is `msecs_to_jiffies(ZCHAN_ERR_THROTTLE)`. -/
def expired (throttle : BitVec w) (zchan : ErrChan w) (jiffies : Fin 32 → BitVec w)
    (i : Fin 32) : Bool :=
  zchan.tsErr i ≠ 0 ∧ jiffies i ≥ zchan.tsErr i + throttle

def collectBits (chosen : Fin 32 → Bool) : BitVec 32 :=
  (List.finRange 32).foldl (fun chErr i => if chosen i then chErr ||| 1#32 <<< i.val else chErr) 0

def zchanErrUnmask (throttle : BitVec w) (zchan : ErrChan w) (jiffies : Fin 32 → BitVec w) :
    ErrChan w :=
  let tsErr i := if expired throttle zchan jiffies i then 0 else zchan.tsErr i
  let chErr := collectBits (expired throttle zchan jiffies)
  if chErr = 0#32 then { zchan with tsErr }
  else
    let maskRx := zchan.maskRx &&& ~~~chErr ||| ZYNQ_CH_ERR_MASK_RX_DEFAULT
    let maskTx := zchan.maskTx &&& ~~~chErr ||| ZYNQ_CH_ERR_MASK_TX_DEFAULT
    { maskRx
      maskTx
      tsErr
      watchdogInterval :=
        if maskRx = ZYNQ_CH_ERR_MASK_RX_DEFAULT ∧ maskTx = ZYNQ_CH_ERR_MASK_TX_DEFAULT then 1000
        else zchan.watchdogInterval }

inductive ErrCall (w : Nat) where
  | mask (chErr : BitVec 32) (jiffies : Fin 32 → BitVec w)
  | unmask (jiffies : Fin 32 → BitVec w)

namespace ErrCall

def jiffies : ErrCall w → Fin 32 → BitVec w
  | mask _ jiffies => jiffies
  | unmask jiffies => jiffies

def apply (throttle : BitVec w) (zchan : ErrChan w) : ErrCall w → ErrChan w
  | mask chErr jiffies => zchanErrMask zchan chErr jiffies
  | unmask jiffies => zchanErrUnmask throttle zchan jiffies

end ErrCall

/-- A channel, with when each of its masked bits was first masked. -/
structure ErrSystem (w : Nat) where
  zchan : ErrChan w
  since : Fin 32 → Option (BitVec w)

def ErrSystem.start : ErrSystem w := ⟨ErrChan.start, fun _ => none⟩

/-- Outside the default masks, and not the camera link change. -/
def Throttled (i : Fin 32) : Prop :=
  ZYNQ_CH_ERR_MASK_RX_DEFAULT.getLsbD i = false ∧
    ZYNQ_CH_ERR_MASK_TX_DEFAULT.getLsbD i = false ∧
    ZYNQ_CH_ERR_CAM_LINK_CHANGE.getLsbD i = false

instance (i : Fin 32) : Decidable (Throttled i) :=
  inferInstanceAs (Decidable (_ ∧ _ ∧ _))

namespace ErrSystem

/-- The default bits are set, and another bit just while its timestamp is not 0. -/
structure Coherent (s : ErrSystem w) : Prop where
  defaultRx : s.zchan.maskRx &&& ZYNQ_CH_ERR_MASK_RX_DEFAULT = ZYNQ_CH_ERR_MASK_RX_DEFAULT
  defaultTx : s.zchan.maskTx &&& ZYNQ_CH_ERR_MASK_TX_DEFAULT = ZYNQ_CH_ERR_MASK_TX_DEFAULT
  maskRx : ∀ i, Throttled i → (s.zchan.maskRx.getLsbD i = true ↔ s.zchan.tsErr i ≠ 0)
  maskTx : ∀ i, Throttled i → (s.zchan.maskTx.getLsbD i = true ↔ s.zchan.tsErr i ≠ 0)

/-- No bit is masked when the counter reads 0, and the counter wraps between the masking
of a bit and a call of `zchan_err_unmask` just where it wraps within the throttle time. -/
def Safe (throttle : BitVec w) (s : ErrSystem w) : ErrCall w → Prop
  | .mask chErr jiffies => ∀ i, Throttled i → chErr.getLsbD i = true → s.since i = none →
      jiffies i ≠ 0
  | .unmask jiffies => ∀ i, Throttled i → ∀ first, s.since i = some first →
      (jiffies i < first ↔ 2 ^ w ≤ first.toNat + throttle.toNat)

end ErrSystem

section Bits

variable {throttle : BitVec w} {zchan : ErrChan w} {chErr : BitVec 32}
  {jiffies : Fin 32 → BitVec w} {i : Fin 32}

end Bits

namespace ErrSystem

/-- Where the bits have been masked since their timestamps. -/
structure Kept (s : ErrSystem w) : Prop extends Coherent s where
  since_eq : ∀ i, Throttled i →
    s.since i = if s.zchan.tsErr i = 0 then none else some (s.zchan.tsErr i)

variable {throttle : BitVec w} {s : ErrSystem w} {i : Fin 32}

section Mask

variable {chErr : BitVec 32} {jiffies : Fin 32 → BitVec w}

end Mask

section Unmask

variable {jiffies : Fin 32 → BitVec w}

end Unmask

end ErrSystem

end ApolloContrib.Chan
