import ApolloContrib.Library.Ieee
import ApolloContrib.Library.Memory

namespace ApolloContrib.Compensation

open ApolloContrib.Library

/-! The motion compensators of the lidars, which have one text: what `check_message` reads of a
message, and what it keeps. -/

structure PointField where
  name : String
  offset : BitVec 32
  datatype : BitVec 8
  count : BitVec 32

structure PointCloud2 where
  height : BitVec 32
  width : BitVec 32
  fields : List PointField
  pointStep : BitVec 32
  data : Memory
  complete : data.length = width.toNat * height.toNat * pointStep.toNat

def FLOAT32 : BitVec 8 := 7

def FLOAT64 : BitVec 8 := 8

structure Compensator where
  xOffset : BitVec 32
  yOffset : BitVec 32
  zOffset : BitVec 32
  timestampOffset : BitVec 32
  timestampDataSize : BitVec 32
deriving DecidableEq

def Compensator.new : Compensator := ⟨-1, -1, -1, -1, 0⟩

def getFieldSize (datatype : BitVec 8) : BitVec 32 :=
  match datatype.toNat with
  | 1 | 2 => 1
  | 3 | 4 => 2
  | 5 | 6 | 7 => 4
  | 8 => 8
  | _ => 0

def PointField.dataSize (f : PointField) : BitVec 32 := f.count * getFieldSize f.datatype

/-- The local `x_data_type`, `y_data_type` and `z_data_type`. -/
structure DataTypes where
  x : BitVec 8
  y : BitVec 8
  z : BitVec 8
deriving DecidableEq

def checkField (c : Compensator) (types : DataTypes) (f : PointField) :
    Compensator × DataTypes × Bool :=
  if f.name = "x" then
    ({ c with xOffset := f.offset }, { types with x := f.datatype },
      !(f.datatype ≠ FLOAT32 && f.datatype ≠ FLOAT64 || f.count ≠ 1 || f.offset = -1))
  else if f.name = "y" then
    ({ c with yOffset := f.offset }, { types with y := f.datatype },
      !(f.count ≠ 1 || f.offset = -1))
  else if f.name = "z" then
    ({ c with zOffset := f.offset }, { types with z := f.datatype },
      !(f.count ≠ 1 || f.offset = -1))
  else if f.name = "timestamp" then
    ({ c with timestampOffset := f.offset, timestampDataSize := f.dataSize }, types,
      !(f.offset = -1 || f.dataSize = -1))
  else (c, types, true)

/-- `none` for the types when a field is refused, which ends the loop. -/
def checkFields (c : Compensator) (types : DataTypes) :
    List PointField → Compensator × Option DataTypes
  | [] => (c, some types)
  | f :: fields =>
      let (c, types, ok) := checkField c types f
      if ok then checkFields c types fields else (c, none)

def checkMessage (c : Compensator) (msg : PointCloud2) : Compensator × Bool :=
  if msg.width = 0 || msg.height = 0 then (c, false)
  else
    match checkFields c ⟨0, 0, 0⟩ msg.fields with
    | (c, none) => (c, false)
    | (c, some types) =>
        if c.xOffset = -1 || c.yOffset = -1 || c.zOffset = -1 || c.timestampOffset = -1 ||
            c.timestampDataSize = -1 then (c, false)
        else if !(types.x = types.y && types.y = types.z) then (c, false)
        else (c, true)

def latest (name : String) (fields : List PointField) : Option PointField :=
  (fields.filter (·.name = name)).getLast?

theorem latest_cons (name : String) (f : PointField) (fields : List PointField) :
    latest name (f :: fields) =
      (latest name fields).or (if f.name = name then some f else none) := by
  unfold latest
  rw [List.filter_cons]
  split
  next hname =>
    rw [if_pos (of_decide_eq_true hname), List.getLast?_cons]
    cases (fields.filter (·.name = name)).getLast? <;> rfl
  next hname =>
    rw [if_neg (of_decide_eq_false (Bool.not_eq_true _ ▸ hname)), Option.or_none]

theorem latest_singleton (name : String) (f : PointField) :
    latest name [f] = if f.name = name then some f else none := latest_cons name f []

@[mk_iff] structure FieldOk (f : PointField) : Prop where
  x : f.name = "x" → f.datatype = FLOAT32 ∨ f.datatype = FLOAT64
  single : f.name = "x" ∨ f.name = "y" ∨ f.name = "z" → f.count = 1 ∧ f.offset ≠ -1
  timestamp : f.name = "timestamp" → f.offset ≠ -1 ∧ f.dataSize ≠ -1

def updated (c : Compensator) (fields : List PointField) : Compensator where
  xOffset := ((latest "x" fields).map (·.offset)).getD c.xOffset
  yOffset := ((latest "y" fields).map (·.offset)).getD c.yOffset
  zOffset := ((latest "z" fields).map (·.offset)).getD c.zOffset
  timestampOffset := ((latest "timestamp" fields).map (·.offset)).getD c.timestampOffset
  timestampDataSize :=
    ((latest "timestamp" fields).map (·.dataSize)).getD c.timestampDataSize

def typesOf (types : DataTypes) (fields : List PointField) : DataTypes where
  x := ((latest "x" fields).map (·.datatype)).getD types.x
  y := ((latest "y" fields).map (·.datatype)).getD types.y
  z := ((latest "z" fields).map (·.datatype)).getD types.z

theorem updated_cons (c : Compensator) (f : PointField) (fields : List PointField) :
    updated c (f :: fields) = updated (updated c [f]) fields := by
  unfold updated
  simp only [latest_cons _ f fields, latest_singleton]
  congr 1
  all_goals
    split
    all_goals cases latest _ fields <;> rfl

theorem typesOf_cons (types : DataTypes) (f : PointField) (fields : List PointField) :
    typesOf types (f :: fields) = typesOf (typesOf types [f]) fields := by
  unfold typesOf
  simp only [latest_cons _ f fields, latest_singleton]
  congr 1
  all_goals
    split
    all_goals cases latest _ fields <;> rfl

theorem checkField_spec (c : Compensator) (types : DataTypes) (f : PointField) :
    (checkField c types f).1 = updated c [f] ∧ (checkField c types f).2.1 = typesOf types [f] ∧
      ((checkField c types f).2.2 = true ↔ FieldOk f) := by
  unfold checkField updated typesOf
  simp only [latest_singleton, fieldOk_iff]
  by_cases hx : f.name = "x"
  · simp [hx]
    tauto
  · by_cases hy : f.name = "y"
    · simp [hy]
    · by_cases hz : f.name = "z"
      · simp [hz]
      · by_cases ht : f.name = "timestamp"
        · simp [ht]
        · simp [hx, hy, hz, ht]

theorem checkFields_of_forall {c : Compensator} {types : DataTypes} {fields : List PointField}
    (h : ∀ f ∈ fields, FieldOk f) :
    checkFields c types fields = (updated c fields, some (typesOf types fields)) := by
  induction fields generalizing c types with
  | nil => rfl
  | cons f fields ih =>
      obtain ⟨hf, hfields⟩ := List.forall_mem_cons.mp h
      obtain ⟨hkept, htypes, hok⟩ := checkField_spec c types f
      rw [checkFields]
      dsimp only
      rw [if_pos (hok.mpr hf), ih hfields, hkept, htypes, ← updated_cons, ← typesOf_cons]

theorem checkFields_of_not_forall {c : Compensator} {types : DataTypes}
    {fields : List PointField} (h : ¬ ∀ f ∈ fields, FieldOk f) :
    (checkFields c types fields).2 = none := by
  induction fields generalizing c types with
  | nil => exact absurd (fun _ => nofun) h
  | cons f fields ih =>
      obtain ⟨-, -, hok⟩ := checkField_spec c types f
      rw [checkFields]
      dsimp only
      split
      next hf => exact ih fun hfields => h (List.forall_mem_cons.mpr ⟨hok.mp hf, hfields⟩)
      next => rfl

/-- What `check_message` asks of the message alone. -/
@[mk_iff] structure Passes (msg : PointCloud2) : Prop where
  width : msg.width ≠ 0
  height : msg.height ≠ 0
  fields : ∀ f ∈ msg.fields, FieldOk f
  sameXY : (typesOf ⟨0, 0, 0⟩ msg.fields).x = (typesOf ⟨0, 0, 0⟩ msg.fields).y
  sameYZ : (typesOf ⟨0, 0, 0⟩ msg.fields).y = (typesOf ⟨0, 0, 0⟩ msg.fields).z

@[mk_iff] structure Known (c : Compensator) : Prop where
  x : c.xOffset ≠ -1
  y : c.yOffset ≠ -1
  z : c.zOffset ≠ -1
  timestamp : c.timestampOffset ≠ -1
  timestampSize : c.timestampDataSize ≠ -1

instance decidableKnown (c : Compensator) : Decidable (Known c) :=
  decidable_of_iff _ (known_iff c).symm

theorem checkMessage_spec (c : Compensator) (msg : PointCloud2) :
    ((checkMessage c msg).2 = true ↔ Passes msg ∧ Known (updated c msg.fields)) ∧
      ((checkMessage c msg).2 = true → (checkMessage c msg).1 = updated c msg.fields) := by
  unfold checkMessage
  rw [passes_iff]
  split
  next hsize =>
    simp only [Bool.or_eq_true, decide_eq_true_eq] at hsize
    exact ⟨iff_of_false Bool.false_ne_true (by tauto), nofun⟩
  next hsize =>
    simp only [Bool.or_eq_true, decide_eq_true_eq, not_or] at hsize
    by_cases hfields : ∀ f ∈ msg.fields, FieldOk f
    · rw [checkFields_of_forall hfields, known_iff]
      dsimp only
      split
      next hlacks =>
        simp only [Bool.or_eq_true, decide_eq_true_eq] at hlacks
        exact ⟨iff_of_false Bool.false_ne_true (by tauto), nofun⟩
      next hknown =>
        simp only [Bool.or_eq_true, decide_eq_true_eq, not_or] at hknown
        split
        next htypes =>
          simp only [Bool.not_eq_true', Bool.and_eq_false_imp, decide_eq_true_eq,
            decide_eq_false_iff_not] at htypes
          exact ⟨iff_of_false Bool.false_ne_true (by tauto), nofun⟩
        next htypes =>
          simp only [Bool.not_eq_true', Bool.and_eq_false_imp, decide_eq_true_eq,
            decide_eq_false_iff_not, Classical.not_imp, not_not] at htypes
          exact ⟨iff_of_true rfl (by tauto), fun _ => rfl⟩
    · have hrefused : (checkFields c ⟨0, 0, 0⟩ msg.fields).2 = none :=
        checkFields_of_not_forall hfields
      split
      next => exact ⟨iff_of_false Bool.false_ne_true (by tauto), nofun⟩
      next heq =>
        rw [heq] at hrefused
        cases hrefused

end ApolloContrib.Compensation
