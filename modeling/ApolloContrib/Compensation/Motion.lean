import ApolloContrib.Compensation.Message
import ApolloContrib.Library.Run

namespace ApolloContrib.Compensation

open ApolloContrib.Library

/-! What the callback does with the bytes of a message that was accepted. -/

inductive Fault where
  /-- A byte range is not within its point. -/
  | outside
  /-- More is copied than a `double` has bytes. -/
  | overflow
deriving DecidableEq

/-- What the two poses amount to: whether the rotation is significant, and where a point with
its timestamp is moved to. -/
structure Motion where
  significant : Bool
  move : Nat → Nat × Nat × Nat → BitVec 32 × BitVec 32 × BitVec 32

/-- The data of the copy that is published, where both poses are known; its stamp is
`timestampMax`. -/
structure Compensated where
  timestampMin : Nat
  timestampMax : Nat
  published : Option Memory

section Model

variable (msg : PointCloud2)

/-- The rounds of the loops; `total` is an `int`. -/
def points : List Nat := List.range (msg.width * msg.height).toInt.toNat

def InPoint (i address length : Nat) : Prop :=
  i * msg.pointStep.toNat ≤ address ∧ address + length ≤ (i + 1) * msg.pointStep.toNat

instance decidableInPoint (i address length : Nat) : Decidable (InPoint msg i address length) :=
  inferInstanceAs (Decidable (_ ∧ _))

/-- Where a field of a point stands. With a significant rotation `i * point_step` is a `size_t`
before the offset, an `int`, is added; otherwise the sum is one of 32 bits. -/
def address (significant : Bool) (i : Nat) (offset : BitVec 32) : Nat :=
  if significant then
    ((BitVec.ofNat 32 i * msg.pointStep).setWidth 64 + offset.signExtend 64).toNat
  else (BitVec.ofNat 32 i * msg.pointStep + offset).toNat

def readPoint (data : Memory) (i address length : Nat) : Except Fault Nat :=
  if InPoint msg i address length then .ok (littleEndian (readBytes data address length))
  else .error .outside

variable (c : Compensator)

/-- The bytes that are not copied are those of `0.0`. -/
def readTimestamp (data : Memory) (i : Nat) : Except Fault Nat :=
  if c.timestampDataSize.toNat ≤ 8 then
    readPoint msg data i (address msg false i c.timestampOffset) c.timestampDataSize.toNat
  else .error .overflow

def getTimestampInterval : Except Fault (Nat × Nat) :=
  (points msg).foldlM (fun extremes i => do
    let timestamp ← readTimestamp msg c msg.data i
    return Ieee.widen Ieee.double extremes timestamp) (Ieee.greatest Ieee.double, 0)

def compensatePoint (motion : Motion) (data : Memory) (i : Nat) : Except Fault Memory := do
  let address := address msg motion.significant i
  let x ← readPoint msg data i (address c.xOffset) 4
  if Ieee.IsNan Ieee.single x then return data
  else
    let y ← readPoint msg data i (address c.yOffset) 4
    let z ← readPoint msg data i (address c.zOffset) 4
    let tp ← readTimestamp msg c data i
    let (px, py, pz) := motion.move tp (x, y, z)
    let data := writeBytes data (address c.xOffset) (bytesOf px)
    let data := writeBytes data (address c.yOffset) (bytesOf py)
    return writeBytes data (address c.zOffset) (bytesOf pz)

def motionCompensation (motion : Motion) : Except Fault Memory :=
  (points msg).foldlM (compensatePoint msg c motion) msg.data

/-- `transform` is what `tf2` knows of the poses at two times. -/
def pointcloudCallback (transform : Nat → Nat → Option Motion) :
    Compensator × Except Fault (Option Compensated) :=
  let (c, accepted) := checkMessage c msg
  (c,
    if accepted then do
      let (timestampMin, timestampMax) ← getTimestampInterval msg c
      match transform timestampMin timestampMax with
      | none => return some ⟨timestampMin, timestampMax, none⟩
      | some motion =>
          let data ← motionCompensation msg c motion
          return some ⟨timestampMin, timestampMax, some data⟩
    else return none)

def compensatorStep (c : Compensator) (msg : PointCloud2) : Option Compensator :=
  some (checkMessage c msg).1

end Model

def OutsideFields (msg : PointCloud2) (k : Nat) : Prop :=
  ∀ name ∈ ["x", "y", "z"], ∀ f ∈ latest name msg.fields,
    k % msg.pointStep.toNat < f.offset.toNat ∨ f.offset.toNat + 4 ≤ k % msg.pointStep.toNat

structure Typed (msg : PointCloud2) : Prop where
  floats : ∀ name ∈ ["x", "y", "z"], ∃ f ∈ latest name msg.fields,
    f.datatype = FLOAT32 ∧ f.count = 1
  timestamp : ∃ f, f ∈ latest "timestamp" msg.fields

structure Meets (c : Compensator) (msg : PointCloud2) : Prop where
  same : (checkMessage c msg).2 = (checkMessage Compensator.new msg).2
  typed : (checkMessage c msg).2 = true → Typed msg
  contained : ∀ transform, Stays (pointcloudCallback msg c transform).2
  divisor : ∀ transform out, (pointcloudCallback msg c transform).2 = .ok (some out) →
    ¬ Ieee.Same Ieee.double out.timestampMin out.timestampMax
  kept : ∀ transform out, (pointcloudCallback msg c transform).2 = .ok (some out) →
    ∀ data ∈ out.published, ∀ k, OutsideFields msg k → data[k]? = msg.data[k]?

section Condition

variable (msg : PointCloud2)

def Lacks (c : Compensator) : Prop :=
  latest "x" msg.fields = none ∧ c.xOffset = -1 ∨
    latest "y" msg.fields = none ∧ c.yOffset = -1 ∨
    latest "z" msg.fields = none ∧ c.zOffset = -1 ∨
    latest "timestamp" msg.fields = none ∧ (c.timestampOffset = -1 ∨ c.timestampDataSize = -1)

structure InStep (i : Nat) (offset : BitVec 32) (size : Nat) : Prop where
  within : offset.toNat + size ≤ msg.pointStep.toNat
  narrow : i * msg.pointStep.toNat + offset.toNat < 2 ^ 32

structure ScalarIn (i : Nat) (offset : BitVec 32) : Prop extends InStep msg i offset 4 where
  nonneg : offset.toNat < 2 ^ 31

def fieldAt (i : Nat) (offset : BitVec 32) (size : Nat) : Nat :=
  littleEndian (readBytes msg.data (i * msg.pointStep.toNat + offset.toNat) size)

structure Processable (x y z t : PointField) : Prop where
  float : x.datatype = FLOAT32
  copied : ∀ i ∈ points msg, t.dataSize.toNat ≤ 8
  timestamps : ∀ i ∈ points msg, InStep msg i t.offset t.dataSize.toNat
  first : ∀ i ∈ points msg, ScalarIn msg i x.offset
  others : ∀ i ∈ points msg, ¬ Ieee.IsNan Ieee.single (fieldAt msg i x.offset 4) →
    ScalarIn msg i y.offset ∧ ScalarIn msg i z.offset
  spread : ¬ Ieee.AllOne Ieee.double 0 (Ieee.greatest Ieee.double)
    ((points msg).map fun i => fieldAt msg i t.offset t.dataSize.toNat)

end Condition

/-- What passes the checks of the message alone lacks a field, or can be processed. -/
def Sound (c : Compensator) (msg : PointCloud2) : Prop :=
  Passes msg → Lacks msg c ∨
    ∃ x ∈ latest "x" msg.fields, ∃ y ∈ latest "y" msg.fields, ∃ z ∈ latest "z" msg.fields,
      ∃ t ∈ latest "timestamp" msg.fields, Processable msg x y z t

end ApolloContrib.Compensation
