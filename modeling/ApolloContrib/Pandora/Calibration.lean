import Mathlib.Algebra.Ring.Int.Defs
import Mathlib.Data.List.FinRange
import Mathlib.Logic.Function.Basic
import ApolloContrib.Library.Access
import ApolloContrib.Library.Run

namespace ApolloContrib.Pandora

open ApolloContrib.Library

/-! How `pandora.cc` gets the calibration from the device. The numbers are those of YAML. -/

abbrev CAMERA_NUM : Nat := 5

inductive Key where
  | name (key : String)
  | index (i : Nat)
deriving DecidableEq, Repr

/-- What yaml-cpp tells of a document. There is no answer where it throws. -/
structure Document (Num : Type*) where
  isDefined : List Key → Option Bool
  size : List Key → Nat
  asDouble : List Key → Option Num

inductive Contents (Num : Type*) where
  | empty
  /-- `YAML::Load`, unless it throws. -/
  | yaml (loaded : Option (Document Num))

structure CameraCalibration (Num : Type*) where
  cameraK : List Num
  cameraD : List Num
  cameraT : List Num
  cameraR : List Num
deriving DecidableEq, Repr

abbrev Calibs (Num : Type*) := Fin CAMERA_NUM → CameraCalibration Num

/-- An exception that nobody catches, or a write behind a matrix. -/
inductive Stop where
  | thrown
  | fault
deriving DecidableEq, Repr

inductive Field where
  | k
  | d
  | rotation
  | translation
deriving DecidableEq, Repr

def cameraPath (id : Fin CAMERA_NUM) (keys : List String) : List Key :=
  .name (toString id.val) :: keys.map .name

def Field.required (id : Fin CAMERA_NUM) : Field → List (List Key)
  | k => [cameraPath id ["K"]]
  | d => [cameraPath id ["D"]]
  | rotation => ["x", "y", "z", "w"].map fun axis => cameraPath id ["Extrinsic", "rotation", axis]
  | translation => ["x", "y", "z"].map fun axis => cameraPath id ["Extrinsic", "translation", axis]

section Parse

variable {Num : Type*} (doc : Document Num)

def allDefined : List (List Key) → Option Bool
  | [] => some true
  | path :: paths =>
      match doc.isDefined path with
      | none => none
      | some false => some false
      | some true => allDefined paths

def Field.entries (id : Fin CAMERA_NUM) : Field → List (List Key)
  | k => (List.range (doc.size (cameraPath id ["K"]))).map (cameraPath id ["K"] ++ [.index ·])
  | d => (List.range (doc.size (cameraPath id ["D"]))).map (cameraPath id ["D"] ++ [.index ·])
  | rotation => ["w", "x", "y", "z"].map fun axis => cameraPath id ["Extrinsic", "rotation", axis]
  | translation => ["x", "y", "z"].map fun axis => cameraPath id ["Extrinsic", "translation", axis]

def storeEntries : List (List Key) → Nat → List Num → Except Stop (List Num)
  | [], _, matrix => .ok matrix
  | path :: paths, i, matrix =>
      match doc.asDouble path with
      | none => .error .thrown
      | some value =>
          if i < matrix.length then storeEntries paths (i + 1) (matrix.set i value)
          else .error .fault

def pushEntries : List (List Key) → List Num → Except Stop (List Num)
  | [], vector => .ok vector
  | path :: paths, vector =>
      match doc.asDouble path with
      | none => .error .thrown
      | some value => pushEntries paths (vector ++ [value])

variable [Zero Num]

def storeField (id : Fin CAMERA_NUM) (calib : CameraCalibration Num) :
    Field → Except Stop (CameraCalibration Num)
  | .k => do
      let intrinsicK ← storeEntries doc (Field.k.entries doc id) 0 (List.replicate 9 0)
      return { calib with cameraK := intrinsicK }
  | .d => do
      let zeros := List.replicate (doc.size (cameraPath id ["D"])) 0
      let intrinsicD ← storeEntries doc (Field.d.entries doc id) 0 zeros
      return { calib with cameraD := intrinsicD }
  | .rotation => do
      let cameraR ← pushEntries doc (Field.rotation.entries doc id) calib.cameraR
      return { calib with cameraR := cameraR }
  | .translation => do
      let cameraT ← pushEntries doc (Field.translation.entries doc id) calib.cameraT
      return { calib with cameraT := cameraT }

def parseFields : List (Fin CAMERA_NUM × Field) → Calibs Num → Except Stop (Int × Calibs Num)
  | [], calibs => .ok (0, calibs)
  | (id, field) :: fields, calibs =>
      match allDefined doc (field.required id) with
      | none => .error .thrown
      | some false => .ok (-1, calibs)
      | some true => do
          let calib ← storeField doc id (calibs id) field
          parseFields fields (Function.update calibs id calib)

def cameraFields : List (Fin CAMERA_NUM × Field) :=
  (List.finRange CAMERA_NUM).flatMap fun id =>
    [(id, .k), (id, .d), (id, .rotation), (id, .translation)]

def parseCameraCalibration (contents : Contents Num) (calibs : Calibs Num) :
    Except Stop (Int × Calibs Num) :=
  match contents with
  | .empty => .ok (-1, calibs)
  | .yaml none => .error .thrown
  | .yaml (some doc) => parseFields doc cameraFields calibs

end Parse

/-- `broken` when the loop was left by its `break`. -/
structure Internal (Num : Type*) where
  enableCamera : Bool
  enableGetCalibrationThr : Bool
  gotLidarCalibration : Bool
  gotCameraCalibration : Bool
  cameraCalibs : Calibs Num
  broken : Bool

structure Query (Num : Type*) where
  lidar : Option Bool
  camera : Option (Contents Num)
  stopped : Bool

namespace Internal

variable {Num : Type*}

def start (enableCamera : Bool) : Internal Num :=
  ⟨enableCamera, true, false, false, fun _ => ⟨[], [], [], []⟩, false⟩

def InLoop (state : Internal Num) : Prop :=
  state.broken = false ∧ state.enableGetCalibrationThr = true ∧
    state.gotLidarCalibration = false ∧ state.gotCameraCalibration = false

instance (state : Internal Num) : Decidable state.InLoop :=
  inferInstanceAs (Decidable (_ ∧ _))

/-- What it returns, nothing when it ends without a `return`; and what `calibs` is set to. -/
def getCameraCalibration (state : Internal Num) : Option Int × Option (Calibs Num) :=
  if state.gotCameraCalibration = false then (some (-1), none)
  else (none, some state.cameraCalibs)

variable [Zero Num] (state : Internal Num) (query : Query Num)

def getCalibration : Except Stop (Internal Num) :=
  let state := { state with
    gotLidarCalibration := query.lidar = some true
    enableGetCalibrationThr := state.enableGetCalibrationThr && !query.stopped }
  if state.enableCamera = false ∧ state.gotLidarCalibration = true then
    .ok { state with broken := true }
  else
    match query.camera with
    | none => .ok state
    | some contents => do
        let (ret, calibs) ← parseCameraCalibration contents state.cameraCalibs
        return { state with cameraCalibs := calibs, gotCameraCalibration := ret = 0 }

def getCalibrationFromDevice : Option (Internal Num) :=
  if state.InLoop then (state.getCalibration query).toOption else none

end Internal

end ApolloContrib.Pandora
