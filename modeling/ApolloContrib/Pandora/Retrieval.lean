import ApolloContrib.Pandora.Calibration

namespace ApolloContrib.Pandora

open ApolloContrib.Library

/-! What the loop has got of the device when it is left. -/

variable {Num : Type*} [Zero Num]

section CameraFields

variable (doc : Document Num)

/-- The numbers of a field: no answer where yaml-cpp throws, none where it is not there. -/
def Field.read (id : Fin CAMERA_NUM) (field : Field) : Option (Option (List Num)) :=
  match allDefined doc (field.required id) with
  | none => none
  | some false => some none
  | some true => ((field.entries doc id).mapM doc.asDouble).map some

/-- It is there, and `K` has no more than nine entries. -/
def Present (place : Fin CAMERA_NUM × Field) : Prop :=
  ∃ values, place.2.read doc place.1 = some (some values) ∧
    (place.2 = .k → values.length ≤ 9)

def Missing (place : Fin CAMERA_NUM × Field) : Prop := place.2.read doc place.1 = some none

def Complete : Prop := ∀ place ∈ cameraFields, Present doc place

/-- The first field that is not as it has to be is missing, where there is one. -/
def EndsWell : Prop := ¬ FirstWrong (Present doc) (fun place => ¬ Missing doc place) cameraFields

/-- The calibration is that of the document, and of nothing else. -/
structure Holds (id : Fin CAMERA_NUM) (calib : CameraCalibration Num) : Prop where
  k : ∃ values, Field.k.read doc id = some (some values) ∧
    calib.cameraK = values ++ List.replicate (9 - values.length) 0
  d : Field.d.read doc id = some (some calib.cameraD)
  rotation : Field.rotation.read doc id = some (some calib.cameraR)
  translation : Field.translation.read doc id = some (some calib.cameraT)

end CameraFields

/-- The round comes to its end; the loop goes on until both calibrations were got, unless `Stop`
is called or there are no cameras; and those of the cameras are what was parsed. -/
def Meets (state : Internal Num) (query : Query Num) : Prop :=
  state.InLoop → ∃ next, state.getCalibration query = .ok next ∧
    (¬ next.InLoop → next.enableGetCalibrationThr = true → query.lidar = some true ∧
      (state.enableCamera = true → next.gotCameraCalibration = true)) ∧
    (next.gotCameraCalibration = true → ∃ doc, query.camera = some (.yaml (some doc)) ∧
      ∀ id, Holds doc id (next.cameraCalibs id))

def Fresh (state : Internal Num) : Prop :=
  ∀ id, (state.cameraCalibs id).cameraR = [] ∧ (state.cameraCalibs id).cameraT = []

/-- The two queries of a round succeed together, the document ends well, and it is the first
that got as far as a rotation. -/
def Sound (state : Internal Num) (query : Query Num) : Prop :=
  state.InLoop → (state.enableCamera = true ∨ query.lidar ≠ some true) →
    match query.camera with
    | none | some .empty => query.lidar = some true → query.stopped = true
    | some (.yaml none) => False
    | some (.yaml (some doc)) =>
        EndsWell doc ∧
          (Complete doc → (query.lidar = some true ∨ query.stopped = true) ∧ Fresh state) ∧
          (¬ Complete doc → query.lidar = some true → query.stopped = true)

section Field

variable {doc : Document Num}

omit [Zero Num]

theorem pushEntries_eq (paths : List (List Key)) (vector : List Num) :
    pushEntries doc paths vector = match paths.mapM doc.asDouble with
      | none => .error .thrown
      | some values => .ok (vector ++ values) := by
  induction paths generalizing vector with
  | nil => exact congrArg Except.ok (List.append_nil vector).symm
  | cons path paths ih =>
      rw [pushEntries, List.mapM_cons]
      cases doc.asDouble path with
      | none => rfl
      | some value =>
          dsimp only
          rw [ih]
          cases paths.mapM doc.asDouble with
          | none => rfl
          | some values => exact congrArg Except.ok (List.append_assoc vector [value] values)

theorem storeEntries_eq_ok {paths : List (List Key)} {i : Nat} {matrix out : List Num} :
    storeEntries doc paths i matrix = .ok out ↔
      ∃ values, paths.mapM doc.asDouble = some values ∧
        (values = [] ∨ i + values.length ≤ matrix.length) ∧
        matrix.take i ++ values ++ matrix.drop (i + values.length) = out := by
  induction paths generalizing i matrix with
  | nil =>
      have hkept : matrix.take i ++ [] ++ matrix.drop (i + 0) = matrix := by
        rw [List.append_nil, Nat.add_zero, List.take_append_drop]
      constructor
      · intro h
        exact ⟨[], rfl, Or.inl rfl, hkept.trans (Except.ok.inj h)⟩
      · rintro ⟨values, hvalues, -, hout⟩
        obtain rfl : [] = values := Option.some.inj hvalues
        exact congrArg Except.ok (hkept.symm.trans hout)
  | cons path paths ih =>
      rw [storeEntries, List.mapM_cons]
      cases doc.asDouble path with
      | none => exact iff_of_false nofun fun ⟨_, h, _⟩ => nomatch h
      | some value =>
          dsimp only
          split
          next hi =>
            rw [ih, List.length_set]
            cases paths.mapM doc.asDouble with
            | none => exact iff_of_false (fun ⟨_, h, _⟩ => nomatch h) fun ⟨_, h, _⟩ => nomatch h
            | some values =>
                have htake : (matrix.set i value).take (i + 1) = matrix.take i ++ [value] := by
                  rw [List.take_set, List.take_succ_eq_append_getElem hi,
                    List.set_append_right _ _ (List.length_take_le i matrix),
                    List.length_take_of_le (Nat.le_of_lt hi), Nat.sub_self]
                  rfl
                have hdrop : (matrix.set i value).drop (i + 1 + values.length) =
                    matrix.drop (i + 1 + values.length) := List.drop_set_of_lt (by omega)
                have hlength : i + (value :: values).length = i + 1 + values.length := by
                  rw [List.length_cons]
                  omega
                have hout : matrix.take i ++ value :: values ++
                    matrix.drop (i + (value :: values).length) =
                    (matrix.set i value).take (i + 1) ++ values ++
                      (matrix.set i value).drop (i + 1 + values.length) := by
                  rw [htake, hdrop, hlength]
                  simp only [List.append_assoc, List.cons_append, List.nil_append]
                constructor
                · rintro ⟨_, hvalues, hfits, rfl⟩
                  obtain rfl := Option.some.inj hvalues
                  refine ⟨value :: values, rfl, Or.inr ?_, hout⟩
                  rcases hfits with rfl | hfits
                  · exact hi
                  · exact hlength.symm ▸ hfits
                · rintro ⟨_, hvalues, hfits, rfl⟩
                  obtain rfl : value :: values = _ := Option.some.inj hvalues
                  refine ⟨values, rfl, Or.inr ?_, hout.symm⟩
                  exact hlength ▸ hfits.resolve_left (List.cons_ne_nil value values)
          next hi =>
            refine iff_of_false nofun ?_
            rintro ⟨values, hvalues, hfits, -⟩
            cases hrest : paths.mapM doc.asDouble with
            | none =>
                rw [hrest] at hvalues
                cases hvalues
            | some rest =>
                rw [hrest] at hvalues
                obtain rfl : value :: rest = values := Option.some.inj hvalues
                have hlong := hfits.resolve_left (List.cons_ne_nil value rest)
                rw [List.length_cons] at hlong
                omega

theorem length_of_mapM {paths : List (List Key)} {values : List Num}
    (hvalues : paths.mapM doc.asDouble = some values) : values.length = paths.length := by
  induction paths generalizing values with
  | nil =>
      obtain rfl : [] = values := Option.some.inj hvalues
      rfl
  | cons path paths ih =>
      rw [List.mapM_cons] at hvalues
      obtain ⟨value, -, hrest⟩ := Option.bind_eq_some_iff.mp hvalues
      obtain ⟨rest, hmapM, hvalue⟩ := Option.bind_eq_some_iff.mp hrest
      obtain rfl : value :: rest = values := Option.some.inj hvalue
      rw [List.length_cons, List.length_cons, ih hmapM]

end Field

section Store

variable {doc : Document Num}

def CameraCalibration.stored (calib : CameraCalibration Num) (values : List Num) :
    Field → CameraCalibration Num
  | .k => { calib with cameraK := values ++ List.replicate (9 - values.length) 0 }
  | .d => { calib with cameraD := values }
  | .rotation => { calib with cameraR := calib.cameraR ++ values }
  | .translation => { calib with cameraT := calib.cameraT ++ values }

theorem storeEntries_zeros {paths : List (List Key)} {n : Nat} {out : List Num} :
    storeEntries doc paths 0 (List.replicate n 0) = .ok out ↔
      ∃ values, paths.mapM doc.asDouble = some values ∧ values.length ≤ n ∧
        values ++ List.replicate (n - values.length) 0 = out := by
  rw [storeEntries_eq_ok]
  refine exists_congr fun values => and_congr_right fun _ => and_congr ?_ ?_
  · rw [Nat.zero_add, List.length_replicate]
    exact or_iff_right_of_imp fun h => h ▸ Nat.zero_le n
  · rw [List.take_zero, List.nil_append, Nat.zero_add, List.drop_replicate]

theorem storeField_eq_ok {id : Fin CAMERA_NUM} {calib next : CameraCalibration Num}
    {field : Field} :
    storeField doc id calib field = .ok next ↔
      ∃ values, (field.entries doc id).mapM doc.asDouble = some values ∧
        (field = .k → values.length ≤ 9) ∧ calib.stored values field = next := by
  cases field with
  | k =>
      rw [storeField]
      refine bind_eq_ok.trans ?_
      simp only [storeEntries_zeros]
      constructor
      · rintro ⟨_, ⟨values, hvalues, hfits, rfl⟩, hnext⟩
        exact ⟨values, hvalues, fun _ => hfits, Except.ok.inj hnext⟩
      · rintro ⟨values, hvalues, hfits, rfl⟩
        exact ⟨_, ⟨values, hvalues, hfits trivial, rfl⟩, rfl⟩
  | d =>
      have hsize (values : List Num)
          (hvalues : (Field.d.entries doc id).mapM doc.asDouble = some values) :
          values.length = doc.size (cameraPath id ["D"]) := by
        rw [length_of_mapM hvalues, Field.entries, List.length_map, List.length_range]
      rw [storeField]
      refine bind_eq_ok.trans ?_
      simp only [storeEntries_zeros]
      constructor
      · rintro ⟨_, ⟨values, hvalues, -, rfl⟩, hnext⟩
        refine ⟨values, hvalues, nofun, ?_⟩
        rw [hsize values hvalues, Nat.sub_self, List.replicate_zero, List.append_nil] at hnext
        exact Except.ok.inj hnext
      · rintro ⟨values, hvalues, -, rfl⟩
        refine ⟨values, ⟨values, hvalues, Nat.le_of_eq (hsize values hvalues), ?_⟩, rfl⟩
        rw [hsize values hvalues, Nat.sub_self, List.replicate_zero, List.append_nil]
  | rotation =>
      rw [storeField, pushEntries_eq]
      cases (Field.rotation.entries doc id).mapM doc.asDouble with
      | none => exact iff_of_false nofun nofun
      | some values =>
          constructor
          · exact fun h => ⟨values, rfl, nofun, Except.ok.inj h⟩
          · rintro ⟨_, hvalues, -, rfl⟩
            obtain rfl := Option.some.inj hvalues
            rfl
  | translation =>
      rw [storeField, pushEntries_eq]
      cases (Field.translation.entries doc id).mapM doc.asDouble with
      | none => exact iff_of_false nofun nofun
      | some values =>
          constructor
          · exact fun h => ⟨values, rfl, nofun, Except.ok.inj h⟩
          · rintro ⟨_, hvalues, -, rfl⟩
            obtain rfl := Option.some.inj hvalues
            rfl

variable {id : Fin CAMERA_NUM} {field : Field} {fields : List (Fin CAMERA_NUM × Field)}
  {calibs : Calibs Num}

omit [Zero Num] in
theorem read_eq_some {values : List Num} :
    field.read doc id = some (some values) ↔ allDefined doc (field.required id) = some true ∧
      (field.entries doc id).mapM doc.asDouble = some values := by
  unfold Field.read
  rcases allDefined doc (field.required id) with _ | _ | _
  · exact iff_of_false nofun fun h => nomatch h.1
  · exact iff_of_false nofun fun h => nomatch h.1
  · rw [and_iff_right rfl]
    exact Option.map_eq_some_iff.trans ⟨fun ⟨_, hvalues, hsome⟩ => Option.some.inj hsome ▸ hvalues,
      fun hvalues => ⟨values, hvalues, rfl⟩⟩

omit [Zero Num] in
theorem missing_iff :
    Missing doc (id, field) ↔ allDefined doc (field.required id) = some false := by
  unfold Missing Field.read
  dsimp only
  rcases allDefined doc (field.required id) with _ | _ | _
  · exact iff_of_false nofun nofun
  · exact iff_of_true rfl rfl
  · refine iff_of_false (fun h => ?_) nofun
    obtain ⟨_, -, hnone⟩ := Option.map_eq_some_iff.mp h
    cases hnone

theorem parseFields_present {values : List Num}
    (hread : field.read doc id = some (some values)) (hk : field = .k → values.length ≤ 9) :
    parseFields doc ((id, field) :: fields) calibs =
      parseFields doc fields (Function.update calibs id ((calibs id).stored values field)) := by
  obtain ⟨hdefined, hvalues⟩ := read_eq_some.mp hread
  have hstore : storeField doc id (calibs id) field = .ok ((calibs id).stored values field) :=
    storeField_eq_ok.mpr ⟨values, hvalues, hk, rfl⟩
  rw [parseFields, hdefined]
  dsimp only
  rw [hstore]
  rfl

theorem parseFields_missing (hmissing : Missing doc (id, field)) :
    parseFields doc ((id, field) :: fields) calibs = .ok (-1, calibs) := by
  rw [parseFields, missing_iff.mp hmissing]

theorem parseFields_bad (hpresent : ¬ Present doc (id, field))
    (hmissing : ¬ Missing doc (id, field)) :
    ¬ Stays (parseFields doc ((id, field) :: fields) calibs) := by
  rw [missing_iff] at hmissing
  rw [parseFields]
  split
  next => exact not_stays_error _
  next hundefined => exact absurd hundefined hmissing
  next hdefined =>
    rw [stays_bind]
    rintro ⟨calib, hcalib, -⟩
    obtain ⟨values, hvalues, hk, -⟩ := storeField_eq_ok.mp hcalib
    exact hpresent ⟨values, read_eq_some.mpr ⟨hdefined, hvalues⟩, hk⟩

def applied (doc : Document Num) (calibs : Calibs Num) (place : Fin CAMERA_NUM × Field) :
    Calibs Num :=
  Function.update calibs place.1 ((calibs place.1).stored
    (((place.2.read doc place.1).getD none).getD []) place.2)

theorem parseFields_complete (hall : ∀ place ∈ fields, Present doc place) :
    parseFields doc fields calibs = .ok (0, fields.foldl (applied doc) calibs) := by
  induction fields generalizing calibs with
  | nil => rfl
  | cons place fields ih =>
      obtain ⟨⟨values, hread, hk⟩, hrest⟩ := List.forall_mem_cons.mp hall
      rw [parseFields_present hread hk, ih hrest, List.foldl_cons, applied, hread]
      rfl

theorem parseFields_refused (hincomplete : ¬ ∀ place ∈ fields, Present doc place)
    (hends : ¬ FirstWrong (Present doc) (fun place => ¬ Missing doc place) fields) :
    ∃ next, parseFields doc fields calibs = .ok (-1, next) := by
  induction fields generalizing calibs with
  | nil => exact absurd (fun _ => nofun) hincomplete
  | cons place fields ih =>
      rcases Classical.em (Present doc place) with hpresent | hpresent
      · rw [firstWrong_cons_of_complete hpresent] at hends
        obtain ⟨values, hread, hk⟩ := hpresent
        rw [parseFields_present hread hk]
        refine ih (fun hall => ?_) hends
        exact hincomplete (List.forall_mem_cons.mpr ⟨⟨values, hread, hk⟩, hall⟩)
      · rw [firstWrong_cons_of_not hpresent] at hends
        exact ⟨calibs, parseFields_missing (not_not.mp hends)⟩

theorem parseFields_wrong
    (hwrong : FirstWrong (Present doc) (fun place => ¬ Missing doc place) fields) :
    ¬ Stays (parseFields doc fields calibs) := by
  induction fields generalizing calibs with
  | nil => exact hwrong.elim
  | cons place fields ih =>
      rcases Classical.em (Present doc place) with hpresent | hpresent
      · obtain ⟨values, hread, hk⟩ := hpresent
        rw [firstWrong_cons_of_complete ⟨values, hread, hk⟩] at hwrong
        rw [parseFields_present hread hk]
        exact ih hwrong
      · rw [firstWrong_cons_of_not hpresent] at hwrong
        exact parseFields_bad hpresent hwrong

theorem foldl_applied (doc : Document Num) (calibs : Calibs Num) (id : Fin CAMERA_NUM) :
    cameraFields.foldl (applied doc) calibs id =
      let values (field : Field) := ((field.read doc id).getD none).getD []
      { cameraK := values .k ++ List.replicate (9 - (values .k).length) 0
        cameraD := values .d
        cameraT := (calibs id).cameraT ++ values .translation
        cameraR := (calibs id).cameraR ++ values .rotation } := by
  match id with
  | 0 => rfl
  | 1 => rfl
  | 2 => rfl
  | 3 => rfl
  | 4 => rfl

theorem mem_cameraFields (id : Fin CAMERA_NUM) (field : Field) : (id, field) ∈ cameraFields := by
  refine List.mem_flatMap.mpr ⟨id, List.mem_finRange id, ?_⟩
  cases field <;> simp

theorem holds_iff (hcomplete : Complete doc) :
    (∀ id, Holds doc id (cameraFields.foldl (applied doc) calibs id)) ↔
      ∀ id, (calibs id).cameraR = [] ∧ (calibs id).cameraT = [] := by
  refine forall_congr' fun id => ?_
  have hread (field : Field) : ∃ values, field.read doc id = some (some values) :=
    (hcomplete _ (mem_cameraFields id field)).imp fun _ h => h.1
  obtain ⟨k, hk⟩ := hread .k
  obtain ⟨d, hd⟩ := hread .d
  obtain ⟨rotation, hrotation⟩ := hread .rotation
  obtain ⟨translation, htranslation⟩ := hread .translation
  rw [foldl_applied]
  simp only [hk, hd, hrotation, htranslation, Option.getD_some]
  constructor
  · rintro ⟨-, -, hr, ht⟩
    rw [hrotation] at hr
    rw [htranslation] at ht
    exact ⟨List.self_eq_append_left.mp (Option.some.inj (Option.some.inj hr)),
      List.self_eq_append_left.mp (Option.some.inj (Option.some.inj ht))⟩
  · rintro ⟨hr, ht⟩
    rw [hr, ht]
    exact ⟨⟨k, hk, rfl⟩, hd, hrotation, htranslation⟩

end Store

section Loop

def Internal.after (state : Internal Num) (query : Query Num) (camera : Bool) (calibs : Calibs Num) :
    Internal Num :=
  { state with
    enableGetCalibrationThr := state.enableGetCalibrationThr && !query.stopped
    gotLidarCalibration := query.lidar = some true
    gotCameraCalibration := camera
    cameraCalibs := calibs }

variable {state : Internal Num} {query : Query Num}

theorem getCalibration_broken (hcamera : state.enableCamera = false)
    (hlidar : query.lidar = some true) :
    state.getCalibration query = .ok { state.after query state.gotCameraCalibration
      state.cameraCalibs with broken := true } := by
  unfold Internal.getCalibration
  dsimp only
  rw [if_pos ⟨hcamera, decide_eq_true hlidar⟩]
  rfl

omit [Zero Num] in
theorem not_broken (hcamera : state.enableCamera = true ∨ query.lidar ≠ some true) :
    ¬ (state.enableCamera = false ∧ decide (query.lidar = some true) = true) := fun h =>
  hcamera.elim (fun hon => Bool.false_ne_true (h.1.symm.trans hon))
    fun hlidar => hlidar (of_decide_eq_true h.2)

theorem getCalibration_of_none (hcamera : state.enableCamera = true ∨ query.lidar ≠ some true)
    (hnone : query.camera = none) :
    state.getCalibration query =
      .ok (state.after query state.gotCameraCalibration state.cameraCalibs) := by
  unfold Internal.getCalibration
  dsimp only
  rw [if_neg (not_broken hcamera), hnone]
  rfl

theorem getCalibration_of_some (hcamera : state.enableCamera = true ∨ query.lidar ≠ some true)
    {contents : Contents Num} (hcontents : query.camera = some contents) :
    state.getCalibration query =
      parseCameraCalibration contents state.cameraCalibs >>= fun (ret, calibs) =>
        pure (state.after query (ret = 0) calibs) := by
  unfold Internal.getCalibration
  dsimp only
  rw [if_neg (not_broken hcamera), hcontents]
  rfl

omit [Zero Num] in
/-- The loop is left once something was got, or when `Stop` is called. -/
theorem after_left {camera : Bool} {calibs : Calibs Num} (hin : state.InLoop) :
    ¬ (state.after query camera calibs).InLoop ∧
        (state.after query camera calibs).enableGetCalibrationThr = true ↔
      query.stopped = false ∧ (query.lidar = some true ∨ camera = true) := by
  obtain ⟨hbroken, henable, -, -⟩ := hin
  have hgoes : (state.after query camera calibs).enableGetCalibrationThr = true ↔
      query.stopped = false := by
    simp only [Internal.after, henable, Bool.true_and, Bool.not_eq_true']
  rw [and_comm, hgoes]
  refine and_congr_right fun hstopped => ?_
  unfold Internal.InLoop
  rw [hgoes]
  simp only [Internal.after, hbroken, hstopped, true_and, decide_eq_false_iff_not, not_and_or,
    not_not, Bool.not_eq_false]

omit [Zero Num] in
theorem after_meets (hin : state.InLoop)
    (hcamera : state.enableCamera = true ∨ query.lidar ≠ some true) (calibs : Calibs Num) :
    ((¬ (state.after query false calibs).InLoop →
        (state.after query false calibs).enableGetCalibrationThr = true →
        query.lidar = some true ∧ (state.enableCamera = true → false = true)) ↔
      (query.lidar = some true → query.stopped = true)) := by
  rw [← and_imp, after_left hin]
  constructor
  · intro hgot hlidar
    refine Bool.not_eq_false _ ▸ fun hgoes => ?_
    have hon := hcamera.resolve_right (not_not.mpr hlidar)
    exact Bool.false_ne_true ((hgot ⟨hgoes, Or.inl hlidar⟩).2 hon)
  · rintro hstopped ⟨hgoes, hlidar | hfalse⟩
    · exact absurd (hgoes.symm.trans (hstopped hlidar)) Bool.false_ne_true
    · cases hfalse

omit [Zero Num] in
theorem exists_ok_iff {result : Except Stop (Internal Num)} {next : Internal Num}
    (hresult : result = .ok next) {P : Internal Num → Prop} :
    (∃ next, result = .ok next ∧ P next) ↔ P next :=
  ⟨fun ⟨_, hother, hP⟩ => Except.ok.inj (hresult.symm.trans hother) ▸ hP,
    fun hP => ⟨next, hresult, hP⟩⟩

omit [Zero Num] in
theorem not_exists_ok {result : Except Stop (Internal Num)} (hresult : ¬ Stays result)
    {P : Internal Num → Prop} : ¬ ∃ next, result = .ok next ∧ P next :=
  fun ⟨next, hnext, _⟩ => hresult ⟨next, hnext⟩

theorem meets_without (hin : state.InLoop)
    (hcamera : state.enableCamera = true ∨ query.lidar ≠ some true) {calibs : Calibs Num}
    (hround : state.getCalibration query = .ok (state.after query false calibs)) :
    Meets state query ↔ (query.lidar = some true → query.stopped = true) := by
  unfold Meets
  rw [forall_prop_of_true hin, exists_ok_iff hround]
  refine (and_congr_left' (after_meets hin hcamera calibs)).trans (and_iff_left fun h => ?_)
  exact absurd h Bool.false_ne_true

theorem meets_with (hin : state.InLoop) {doc : Document Num}
    (hquery : query.camera = some (.yaml (some doc))) {calibs : Calibs Num}
    (hround : state.getCalibration query = .ok (state.after query true calibs)) :
    Meets state query ↔
      (query.lidar = some true ∨ query.stopped = true) ∧ ∀ id, Holds doc id (calibs id) := by
  unfold Meets
  rw [forall_prop_of_true hin, exists_ok_iff hround, ← and_imp, after_left hin]
  refine and_congr ⟨fun hgot => ?_, fun hor hgoes => ?_⟩ ⟨fun hheld => ?_, fun hheld _ => ?_⟩
  · cases hstopped : query.stopped with
    | true => exact Or.inr rfl
    | false => exact Or.inl (hgot ⟨hstopped, Or.inr rfl⟩).1
  · refine ⟨hor.resolve_right fun hstopped => ?_, fun _ => rfl⟩
    exact Bool.false_ne_true (hgoes.1.symm.trans hstopped)
  · obtain ⟨other, hother, hholds⟩ := hheld rfl
    rw [hquery] at hother
    cases hother
    exact hholds
  · exact ⟨doc, hquery, hheld⟩

theorem meets_of_document (hin : state.InLoop)
    (hcamera : state.enableCamera = true ∨ query.lidar ≠ some true) {doc : Document Num}
    (hquery : query.camera = some (.yaml (some doc))) :
    Meets state query ↔ EndsWell doc ∧
      (Complete doc → (query.lidar = some true ∨ query.stopped = true) ∧ Fresh state) ∧
      (¬ Complete doc → query.lidar = some true → query.stopped = true) := by
  have hround := getCalibration_of_some hcamera hquery
  rw [parseCameraCalibration] at hround
  rcases Classical.em (EndsWell doc) with hends | hwrong
  · rw [and_iff_right hends]
    rcases Classical.em (Complete doc) with hcomplete | hincomplete
    · rw [forall_prop_of_true hcomplete, and_iff_left fun h => absurd hcomplete h]
      rw [parseFields_complete hcomplete] at hround
      exact (meets_with hin hquery hround).trans (and_congr_right' (holds_iff hcomplete))
    · obtain ⟨calibs, hparse⟩ := parseFields_refused hincomplete hends
      rw [hparse] at hround
      rw [meets_without hin hcamera hround, forall_prop_of_true hincomplete]
      exact (and_iff_right fun h => absurd h hincomplete).symm
  · refine iff_of_false ?_ fun h => hwrong h.1
    unfold Meets
    rw [forall_prop_of_true hin, hround]
    refine not_exists_ok fun hstays => ?_
    obtain ⟨result, hparse, -⟩ := stays_bind.mp hstays
    exact parseFields_wrong (not_not.mp hwrong) ⟨result, hparse⟩

theorem meets_iff (state : Internal Num) (query : Query Num) :
    Meets state query ↔ Sound state query := by
  rcases Classical.em state.InLoop with hin | hout
  · unfold Sound
    rw [forall_prop_of_true hin]
    rcases Classical.em (state.enableCamera = true ∨ query.lidar ≠ some true) with hcamera | hnone
    · rw [forall_prop_of_true hcamera]
      split
      next hquery =>
        have hround := getCalibration_of_none hcamera hquery
        rw [hin.2.2.2] at hround
        exact meets_without hin hcamera hround
      next hquery => exact meets_without hin hcamera (getCalibration_of_some hcamera hquery)
      next hquery =>
        refine iff_of_false ?_ id
        unfold Meets
        rw [forall_prop_of_true hin, getCalibration_of_some hcamera hquery]
        exact not_exists_ok (not_stays_error _)
      next doc hquery => exact meets_of_document hin hcamera hquery
    · obtain ⟨hoff, hlidar⟩ := not_or.mp hnone
      have hround := getCalibration_broken (Bool.not_eq_true _ ▸ hoff) (not_not.mp hlidar)
      refine iff_of_true (fun _ => ⟨_, hround, fun _ _ => ⟨not_not.mp hlidar, fun hon => ?_⟩, ?_⟩)
        fun h => absurd h hnone
      · exact absurd hon hoff
      · exact fun hgot => absurd (hin.2.2.2.symm.trans hgot) Bool.false_ne_true
  · exact iff_of_true (fun hin => absurd hin hout) fun hin => absurd hin hout

end Loop

/-- 0 is returned exactly when `calibs` is filled. -/
def FillsOrFails (state : Internal Num) : Prop :=
  state.getCameraCalibration.1 = some 0 ↔ state.getCameraCalibration.2.isSome = true

omit [Zero Num] in
theorem fillsOrFails_iff (state : Internal Num) :
    FillsOrFails state ↔ state.gotCameraCalibration = false := by
  unfold FillsOrFails Internal.getCameraCalibration
  split
  next hnone =>
    refine iff_of_true (iff_of_false (fun h => ?_) Bool.false_ne_true) hnone
    exact absurd (Option.some.inj h) (by decide)
  next hgot => exact iff_of_false (fun h => nomatch h.mpr rfl) hgot

theorem calibration_iff (enableCamera : Bool) (queries : List (Query Num)) :
    (StepsMeet Internal.getCalibrationFromDevice Meets (Internal.start enableCamera) queries ↔
      StepsMeet Internal.getCalibrationFromDevice Sound (Internal.start enableCamera) queries) ∧
    ∀ state : Internal Num, FillsOrFails state ↔ state.gotCameraCalibration = false :=
  ⟨stepsMeet_congr meets_iff, fillsOrFails_iff⟩

/-- The lidar answers and the cameras do not, and nobody asks again. -/
theorem calibration_fails :
    ¬ ∀ queries : List (Query Int),
      StepsMeet Internal.getCalibrationFromDevice Meets (Internal.start true) queries := by
  intro hall
  have hmeets := (calibration_iff true _).1.mp (hall [⟨some true, none, false⟩])
  have hsound : Sound (Internal.start true) (⟨some true, none, false⟩ : Query Int) :=
    hmeets [] _ (List.prefix_refl _) _ rfl
  exact absurd (hsound ⟨rfl, rfl, rfl, rfl⟩ (Or.inl rfl) rfl) Bool.false_ne_true

end ApolloContrib.Pandora
