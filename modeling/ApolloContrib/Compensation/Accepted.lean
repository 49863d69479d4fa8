import ApolloContrib.Compensation.Motion

namespace ApolloContrib.Compensation

open ApolloContrib.Library

/-! When the compensators process what they accept. -/

section Address

variable {msg : PointCloud2} {i : Nat}

theorem lt_of_mem_points (hi : i ∈ points msg) : i < 2 ^ 31 := by
  have hlt : i < (msg.width * msg.height).toInt.toNat := List.mem_range.mp hi
  have htotal : (msg.width * msg.height).toInt < 2 ^ 31 := BitVec.toInt_lt
  omega

theorem start_toNat (hi : i < 2 ^ 31) :
    (BitVec.ofNat 32 i * msg.pointStep).toNat = i * msg.pointStep.toNat % 2 ^ 32 := by
  rw [BitVec.toNat_mul, BitVec.toNat_ofNat, Nat.mod_eq_of_lt (by omega : i < 2 ^ 32)]

theorem address_false (hi : i < 2 ^ 31) (offset : BitVec 32) :
    address msg false i offset =
      (i * msg.pointStep.toNat % 2 ^ 32 + offset.toNat) % 2 ^ 32 := by
  rw [address, if_neg Bool.false_ne_true, BitVec.toNat_add, start_toNat hi]

theorem address_true (hi : i < 2 ^ 31) (offset : BitVec 32) :
    address msg true i offset =
      (i * msg.pointStep.toNat % 2 ^ 32 +
        (offset.toNat + if 2 ^ 31 ≤ offset.toNat then 2 ^ 64 - 2 ^ 32 else 0)) % 2 ^ 64 := by
  have hsign : offset.msb = decide (2 ^ 31 ≤ offset.toNat) := BitVec.msb_eq_decide offset
  have hoffset : offset.toNat < 2 ^ 64 := offset.isLt.trans (by decide)
  have hstart : i * msg.pointStep.toNat % 2 ^ 32 < 2 ^ 64 :=
    (Nat.mod_lt _ (by decide)).trans (by decide)
  rw [address, if_pos rfl, BitVec.toNat_add, BitVec.toNat_signExtend, BitVec.toNat_setWidth,
    start_toNat hi, BitVec.toNat_setWidth, Nat.mod_eq_of_lt hoffset, Nat.mod_eq_of_lt hstart,
    hsign]
  simp only [decide_eq_true_eq]

theorem inPoint_iff {start : Nat} {size : Nat} :
    InPoint msg i start size ↔ i * msg.pointStep.toNat ≤ start ∧
      start + size ≤ i * msg.pointStep.toNat + msg.pointStep.toNat := by
  rw [InPoint, Nat.succ_mul]

theorem inPoint_narrow_iff (hi : i < 2 ^ 31) {offset : BitVec 32} {size : Nat} :
    InPoint msg i (address msg false i offset) size ↔ InStep msg i offset size := by
  rw [inPoint_iff, address_false hi]
  have hoffset := offset.isLt
  constructor
  · rintro ⟨hstart, hend⟩
    constructor <;> omega
  · rintro ⟨hwithin, hnarrow⟩
    omega

theorem inPoint_wide_iff (hi : i < 2 ^ 31) {offset : BitVec 32} :
    InPoint msg i (address msg true i offset) 4 ↔
      offset.toNat < 2 ^ 31 ∧ offset.toNat + 4 ≤ msg.pointStep.toNat ∧
        i * msg.pointStep.toNat < 2 ^ 32 := by
  have hoffset := offset.isLt
  have hstep : i * msg.pointStep.toNat < 2 ^ 31 * 2 ^ 32 :=
    Nat.mul_lt_mul'' hi msg.pointStep.isLt
  have hless := msg.pointStep.isLt
  rw [inPoint_iff, address_true hi]
  split
  next hsign =>
    refine iff_of_false ?_ (by omega)
    rintro ⟨hstart, hend⟩
    omega
  next hsign =>
    constructor
    · rintro ⟨hstart, hend⟩
      omega
    · rintro ⟨hnonneg, hwithin, hnarrow⟩
      omega

theorem scalarIn_iff (hi : i < 2 ^ 31) {offset : BitVec 32} :
    (∀ significant, InPoint msg i (address msg significant i offset) 4) ↔
      ScalarIn msg i offset := by
  rw [Bool.forall_bool, inPoint_narrow_iff hi, inPoint_wide_iff hi]
  constructor
  · rintro ⟨hin, hnonneg, -, -⟩
    exact ⟨hin, hnonneg⟩
  · rintro ⟨hin, hnonneg⟩
    exact ⟨hin, hnonneg, hin.within, (Nat.le_add_right _ _).trans_lt hin.narrow⟩

theorem address_eq (hi : i < 2 ^ 31) {significant : Bool} {offset : BitVec 32} {size : Nat}
    (h : InPoint msg i (address msg significant i offset) size) (hsize : significant = true → size = 4) :
    address msg significant i offset = i * msg.pointStep.toNat + offset.toNat := by
  have hoffset := offset.isLt
  cases significant with
  | false =>
      obtain ⟨-, hnarrow⟩ := (inPoint_narrow_iff hi).mp h
      rw [address_false hi]
      omega
  | true =>
      obtain rfl := hsize rfl
      obtain ⟨hnonneg, -, hnarrow⟩ := (inPoint_wide_iff hi).mp h
      rw [address_true hi, if_neg (by omega)]
      omega

end Address

section Read

variable {msg : PointCloud2} {c : Compensator} {data : Memory} {i start size : Nat}

theorem readPoint_of_inPoint (h : InPoint msg i start size) :
    readPoint msg data i start size = .ok (littleEndian (readBytes data start size)) := if_pos h

theorem stays_readPoint : Stays (readPoint msg data i start size) ↔ InPoint msg i start size := by
  unfold readPoint
  split
  next h => exact iff_of_true (stays_ok _) h
  next h => exact iff_of_false (not_stays_error _) h

theorem readPoint_congr {other : Memory}
    (h : ∀ k, i * msg.pointStep.toNat ≤ k → k < (i + 1) * msg.pointStep.toNat →
      other[k]? = data[k]?) :
    readPoint msg other i start size = readPoint msg data i start size := by
  unfold readPoint
  split
  next hin =>
    have hread : readBytes other start size = readBytes data start size :=
      readBytes_congr fun k hstart hend => h k (hin.1.trans hstart) (hend.trans_le hin.2)
    rw [hread]
  next => rfl

/-- What `readTimestamp` needs. -/
def TimestampIn (msg : PointCloud2) (c : Compensator) (i : Nat) : Prop :=
  c.timestampDataSize.toNat ≤ 8 ∧ InStep msg i c.timestampOffset c.timestampDataSize.toNat

theorem stays_readTimestamp (hi : i < 2 ^ 31) :
    Stays (readTimestamp msg c data i) ↔ TimestampIn msg c i := by
  unfold readTimestamp
  split
  next hsize =>
    rw [stays_readPoint, inPoint_narrow_iff hi]
    exact (and_iff_right hsize).symm
  next hsize => exact iff_of_false (not_stays_error _) fun h => hsize h.1

theorem readTimestamp_of_timestampIn (hi : i < 2 ^ 31) (h : TimestampIn msg c i) :
    readTimestamp msg c msg.data i =
      .ok (fieldAt msg i c.timestampOffset c.timestampDataSize.toNat) := by
  have hin := (inPoint_narrow_iff hi).mpr h.2
  rw [readTimestamp, if_pos h.1, readPoint_of_inPoint hin, address_eq hi hin nofun]
  rfl

theorem stays_getTimestampInterval :
    Stays (getTimestampInterval msg c) ↔ ∀ i ∈ points msg, TimestampIn msg c i := by
  refine stays_foldlM_iff (fun rest _ => rest ⊆ points msg) ?_ (List.Subset.refl _)
  intro i rest extremes hrest
  have hi := lt_of_mem_points (hrest List.mem_cons_self)
  refine ⟨?_, fun _ _ => List.subset_of_cons_subset hrest⟩
  rw [stays_bind_pure, stays_readTimestamp hi]

theorem getTimestampInterval_of_timestampIn (h : ∀ i ∈ points msg, TimestampIn msg c i) :
    getTimestampInterval msg c = .ok (((points msg).map fun i =>
        fieldAt msg i c.timestampOffset c.timestampDataSize.toNat).foldl
      (Ieee.widen Ieee.double) (Ieee.greatest Ieee.double, 0)) :=
  foldlM_read fun i hi => readTimestamp_of_timestampIn (lt_of_mem_points hi) (h i hi)

theorem same_interval_iff (values : List Nat) :
    Ieee.Same Ieee.double
        (values.foldl (Ieee.widen Ieee.double) (Ieee.greatest Ieee.double, 0)).1
        (values.foldl (Ieee.widen Ieee.double) (Ieee.greatest Ieee.double, 0)).2 ↔
      Ieee.AllOne Ieee.double 0 (Ieee.greatest Ieee.double) values :=
  (Ieee.spans_foldl_widen (by decide) (by decide)).same_iff (by decide)

end Read

section Move

variable {msg : PointCloud2} {c : Compensator} {motion : Motion} {data next : Memory} {i : Nat}

/-- The byte `k` is not one that is written for the point. -/
def Unwritten (msg : PointCloud2) (c : Compensator) (significant : Bool) (i k : Nat) : Prop :=
  ∀ offset ∈ [c.xOffset, c.yOffset, c.zOffset], InPoint msg i (address msg significant i offset) 4 →
    k < address msg significant i offset ∨ address msg significant i offset + 4 ≤ k

theorem compensatePoint_getElem? (h : compensatePoint msg c motion data i = .ok next) {k : Nat}
    (hk : Unwritten msg c motion.significant i k) : next[k]? = data[k]? := by
  obtain ⟨hx, hy, hz⟩ : _ ∧ _ ∧ _ := by simpa [Unwritten] using hk
  unfold compensatePoint at h
  obtain ⟨x, hreadX, h⟩ := bind_eq_ok.mp h
  have hinX := stays_readPoint.mp ⟨x, hreadX⟩
  split at h
  next => exact Except.ok.inj h ▸ rfl
  next =>
    obtain ⟨y, hreadY, h⟩ := bind_eq_ok.mp h
    obtain ⟨z, hreadZ, h⟩ := bind_eq_ok.mp h
    obtain ⟨tp, -, h⟩ := bind_eq_ok.mp h
    obtain rfl := Except.ok.inj h
    have hinY := stays_readPoint.mp ⟨y, hreadY⟩
    have hinZ := stays_readPoint.mp ⟨z, hreadZ⟩
    rw [writeBytes_getElem? (by simpa using hz hinZ), writeBytes_getElem? (by simpa using hy hinY),
      writeBytes_getElem? (by simpa using hx hinX)]

theorem unwritten_of_not_mem {significant : Bool} {k : Nat}
    (hk : k < i * msg.pointStep.toNat ∨ (i + 1) * msg.pointStep.toNat ≤ k) :
    Unwritten msg c significant i k := by
  intro offset _ hin
  exact hk.imp (fun h => h.trans_le hin.1) hin.2.trans

def PointIn (msg : PointCloud2) (c : Compensator) (significant : Bool) (i : Nat) : Prop :=
  InPoint msg i (address msg significant i c.xOffset) 4 ∧
    (¬ Ieee.IsNan Ieee.single (fieldAt msg i c.xOffset 4) →
      InPoint msg i (address msg significant i c.yOffset) 4 ∧
        InPoint msg i (address msg significant i c.zOffset) 4)

theorem stays_compensatePoint (hi : i < 2 ^ 31) (htimestamp : TimestampIn msg c i)
    (hdata : ∀ k, i * msg.pointStep.toNat ≤ k → k < (i + 1) * msg.pointStep.toNat →
      data[k]? = msg.data[k]?) :
    Stays (compensatePoint msg c motion data i) ↔ PointIn msg c motion.significant i := by
  unfold compensatePoint PointIn
  dsimp only
  rw [readPoint_congr hdata]
  by_cases hx : InPoint msg i (address msg motion.significant i c.xOffset) 4
  · rw [and_iff_right hx, readPoint_of_inPoint hx, address_eq hi hx (fun _ => rfl)]
    change Stays (if Ieee.IsNan Ieee.single (fieldAt msg i c.xOffset 4) then _ else _) ↔ _
    split
    next hnan => exact iff_of_true (stays_pure data) fun h => absurd hnan h
    next hnumber =>
      rw [imp_iff_right hnumber]
      refine (stays_bind_iff fun y _ => stays_bind_iff fun z _ =>
        stays_bind_pure.trans (stays_readTimestamp hi)).trans ?_
      rw [stays_readPoint, stays_readPoint, and_iff_left htimestamp]
  · refine iff_of_false (fun h => ?_) fun h => hx h.1
    obtain ⟨x, hreadX, -⟩ := stays_bind.mp h
    exact hx (stays_readPoint.mp ⟨x, hreadX⟩)

theorem stays_motionCompensation (htimestamps : ∀ i ∈ points msg, TimestampIn msg c i) :
    Stays (motionCompensation msg c motion) ↔
      ∀ i ∈ points msg, PointIn msg c motion.significant i := by
  refine stays_foldlM_iff (fun rest data => rest ⊆ points msg ∧ rest.Nodup ∧
    ∀ i ∈ rest, ∀ k, i * msg.pointStep.toNat ≤ k → k < (i + 1) * msg.pointStep.toNat →
      data[k]? = msg.data[k]?) ?_ ⟨List.Subset.refl _, List.nodup_range, fun _ _ _ _ _ => rfl⟩
  rintro i rest data ⟨hrest, hnodup, hdata⟩
  have hmem := hrest List.mem_cons_self
  obtain ⟨hnew, hnodup⟩ := List.nodup_cons.mp hnodup
  refine ⟨stays_compensatePoint (lt_of_mem_points hmem) (htimestamps i hmem)
    (hdata i List.mem_cons_self), fun next hnext => ?_⟩
  refine ⟨List.subset_of_cons_subset hrest, hnodup, fun j hj k hstart hend => ?_⟩
  rw [compensatePoint_getElem? hnext (unwritten_of_not_mem ?_)]
  · exact hdata j (List.mem_cons_of_mem i hj) k hstart hend
  · have hother : j ≠ i := fun heq => hnew (heq ▸ hj)
    rcases Nat.lt_or_gt_of_ne hother with hlt | hlt
    · exact Or.inl (hend.trans_le (Nat.mul_le_mul_right _ hlt))
    · exact Or.inr ((Nat.mul_le_mul_right _ hlt).trans hstart)

theorem motionCompensation_getElem? (h : motionCompensation msg c motion = .ok next) {k : Nat}
    (hk : ∀ i ∈ points msg, Unwritten msg c motion.significant i k) : next[k]? = msg.data[k]? :=
  foldlM_kept (fun data => data[k]? = msg.data[k]?)
    (fun _ i _ hi hdata hnext => (compensatePoint_getElem? hnext (hk i hi)).trans hdata) rfl h

theorem pointIn_iff (hi : i < 2 ^ 31) :
    (∀ significant, PointIn msg c significant i) ↔ ScalarIn msg i c.xOffset ∧
      (¬ Ieee.IsNan Ieee.single (fieldAt msg i c.xOffset 4) →
        ScalarIn msg i c.yOffset ∧ ScalarIn msg i c.zOffset) := by
  simp only [PointIn, forall_and, ← scalarIn_iff hi, forall_comm (α := Bool)]

end Move

section Callback

variable {msg : PointCloud2} {c : Compensator}

def process (msg : PointCloud2) (c : Compensator) (transform : Nat → Nat → Option Motion) :
    Except Fault (Option Compensated) := do
  let (timestampMin, timestampMax) ← getTimestampInterval msg c
  match transform timestampMin timestampMax with
  | none => return some ⟨timestampMin, timestampMax, none⟩
  | some motion =>
      let data ← motionCompensation msg c motion
      return some ⟨timestampMin, timestampMax, some data⟩

theorem callback_of_rejected (h : (checkMessage c msg).2 = false)
    (transform : Nat → Nat → Option Motion) :
    (pointcloudCallback msg c transform).2 = .ok none := by
  unfold pointcloudCallback
  dsimp only
  rw [h]
  rfl

theorem callback_of_accepted (h : (checkMessage c msg).2 = true)
    (transform : Nat → Nat → Option Motion) :
    (pointcloudCallback msg c transform).2 = process msg (updated c msg.fields) transform := by
  unfold pointcloudCallback
  dsimp only
  rw [h, (checkMessage_spec c msg).2 h]
  rfl

theorem stays_process_iff :
    (∀ transform, Stays (process msg c transform)) ↔ (∀ i ∈ points msg, TimestampIn msg c i) ∧
      ∀ i ∈ points msg, ∀ significant, PointIn msg c significant i := by
  constructor
  · intro h
    have htimestamps : ∀ i ∈ points msg, TimestampIn msg c i := by
      obtain ⟨interval, hinterval, -⟩ := stays_bind.mp (h fun _ _ => none)
      exact stays_getTimestampInterval.mp ⟨interval, hinterval⟩
    refine ⟨htimestamps, fun i hi significant => ?_⟩
    obtain ⟨interval, -, hmoved⟩ :=
      stays_bind.mp (h fun _ _ => some ⟨significant, fun _ _ => (0, 0, 0)⟩)
    obtain ⟨data, hdata, -⟩ := stays_bind.mp hmoved
    exact (stays_motionCompensation htimestamps).mp ⟨data, hdata⟩ i hi
  · rintro ⟨htimestamps, hpoints⟩ transform
    obtain ⟨interval, hinterval⟩ := stays_getTimestampInterval.mpr htimestamps
    refine stays_bind.mpr ⟨interval, hinterval, ?_⟩
    dsimp only
    split
    next => exact stays_pure _
    next motion _ =>
      obtain ⟨data, hdata⟩ := (stays_motionCompensation htimestamps).mpr
        fun i hi => hpoints i hi motion.significant
      exact stays_bind.mpr ⟨data, hdata, stays_pure _⟩

theorem process_cases {transform : Nat → Nat → Option Motion} {out : Compensated}
    (h : process msg c transform = .ok (some out)) :
    getTimestampInterval msg c = .ok (out.timestampMin, out.timestampMax) ∧
      ∀ data ∈ out.published, ∃ motion, motionCompensation msg c motion = .ok data := by
  obtain ⟨interval, hinterval, hmoved⟩ := bind_eq_ok.mp h
  dsimp only at hmoved
  split at hmoved
  next =>
    obtain rfl := Option.some.inj (Except.ok.inj hmoved)
    exact ⟨hinterval, nofun⟩
  next motion _ =>
    obtain ⟨data, hdata, hout⟩ := bind_eq_ok.mp hmoved
    obtain rfl := Option.some.inj (Except.ok.inj hout)
    refine ⟨hinterval, fun other hother => ⟨motion, ?_⟩⟩
    obtain rfl := Option.some.inj hother
    exact hdata

/-- Where everything is within its point, the divisor is not zero unless all the timestamps
are one. -/
theorem divisor_iff (htimestamps : ∀ i ∈ points msg, TimestampIn msg c i) :
    (∀ transform out, process msg c transform = .ok (some out) →
        ¬ Ieee.Same Ieee.double out.timestampMin out.timestampMax) ↔
      ¬ Ieee.AllOne Ieee.double 0 (Ieee.greatest Ieee.double) ((points msg).map fun i =>
        fieldAt msg i c.timestampOffset c.timestampDataSize.toNat) := by
  rw [← same_interval_iff]
  have hinterval := getTimestampInterval_of_timestampIn htimestamps
  constructor
  · intro h
    refine h (fun _ _ => none) ⟨_, _, none⟩ ?_
    rw [process, hinterval]
    rfl
  · intro hapart transform out hout
    have hboth := Except.ok.inj ((process_cases hout).1.symm.trans hinterval)
    rw [← hboth] at hapart
    exact hapart

theorem updated_eq {x y z t : PointField} (hx : x ∈ latest "x" msg.fields)
    (hy : y ∈ latest "y" msg.fields) (hz : z ∈ latest "z" msg.fields)
    (ht : t ∈ latest "timestamp" msg.fields) :
    updated c msg.fields = ⟨x.offset, y.offset, z.offset, t.offset, t.dataSize⟩ := by
  rw [Option.mem_def] at hx hy hz ht
  rw [updated, hx, hy, hz, ht]
  rfl

theorem unwritten_of_outsideFields {significant : Bool} {i k : Nat} (hi : i < 2 ^ 31)
    (hk : OutsideFields msg k) (hfields : ∀ offset ∈ [c.xOffset, c.yOffset, c.zOffset],
      ∃ name ∈ ["x", "y", "z"], ∃ f ∈ latest name msg.fields, f.offset = offset) :
    Unwritten msg c significant i k := by
  intro offset hoffset hin
  obtain ⟨name, hname, f, hf, rfl⟩ := hfields offset hoffset
  have hout := hk name hname f hf
  have haddress := address_eq hi hin fun _ => rfl
  rw [haddress] at hin ⊢
  obtain ⟨hstart, hend⟩ := inPoint_iff.mp hin
  by_contra hwritten
  have hmod : k % msg.pointStep.toNat = k - i * msg.pointStep.toNat := by
    have hsplit : k = (k - i * msg.pointStep.toNat) + i * msg.pointStep.toNat := by omega
    rw [hsplit, Nat.add_mul_mod_self_right, Nat.mod_eq_of_lt (by omega)]
    omega
  omega

end Callback

theorem processable_iff {msg : PointCloud2} {c : Compensator} {x y z t : PointField}
    (hc : c = ⟨x.offset, y.offset, z.offset, t.offset, t.dataSize⟩) :
    Processable msg x y z t ↔ x.datatype = FLOAT32 ∧
      (∀ transform, Stays (process msg c transform)) ∧
        ∀ transform out, process msg c transform = .ok (some out) →
          ¬ Ieee.Same Ieee.double out.timestampMin out.timestampMax := by
  subst hc
  constructor
  · intro h
    have htimestamps : ∀ i ∈ points msg,
        TimestampIn msg ⟨x.offset, y.offset, z.offset, t.offset, t.dataSize⟩ i :=
      fun i hi => ⟨h.copied i hi, h.timestamps i hi⟩
    refine ⟨h.float, stays_process_iff.mpr ⟨htimestamps, fun i hi => ?_⟩,
      (divisor_iff htimestamps).mpr h.spread⟩
    exact (pointIn_iff (lt_of_mem_points hi)).mpr ⟨h.first i hi, h.others i hi⟩
  · rintro ⟨hfloat, hstays, hdivisor⟩
    obtain ⟨htimestamps, hpoints⟩ := stays_process_iff.mp hstays
    have hpoint (i : Nat) (hi : i ∈ points msg) :=
      (pointIn_iff (lt_of_mem_points hi)).mp (hpoints i hi)
    exact
      { float := hfloat
        copied := fun i hi => (htimestamps i hi).1
        timestamps := fun i hi => (htimestamps i hi).2
        first := fun i hi => (hpoint i hi).1
        others := fun i hi => (hpoint i hi).2
        spread := (divisor_iff htimestamps).mp hdivisor }

theorem latest_mem {name : String} {fields : List PointField} {f : PointField}
    (h : f ∈ latest name fields) : f ∈ fields ∧ f.name = name := by
  obtain ⟨hmem, hname⟩ := List.mem_filter.mp (List.mem_of_getLast? h)
  exact ⟨hmem, of_decide_eq_true hname⟩

theorem member_known_iff {g : PointField → BitVec 32} {field : Option PointField}
    {member : BitVec 32} (h : ∀ f ∈ field, g f ≠ -1) :
    (field.map g).getD member ≠ -1 ↔ ¬ (field = none ∧ member = -1) := by
  cases field with
  | none => simp
  | some f => exact iff_of_true (h f rfl) fun h => nomatch h.1

theorem known_iff_not_lacks {msg : PointCloud2} (h : Passes msg) (c : Compensator) :
    Known (updated c msg.fields) ↔ ¬ Lacks msg c := by
  have hscalar (name : String) (hname : name ∈ ["x", "y", "z"]) (f : PointField)
      (hf : f ∈ latest name msg.fields) : f.offset ≠ -1 := by
    obtain ⟨hmem, rfl⟩ := latest_mem hf
    exact ((h.fields f hmem).single (by simpa using hname)).2
  have htimestamp (f : PointField) (hf : f ∈ latest "timestamp" msg.fields) :
      f.offset ≠ -1 ∧ f.dataSize ≠ -1 := by
    obtain ⟨hmem, hname⟩ := latest_mem hf
    exact (h.fields f hmem).timestamp hname
  rw [known_iff]
  unfold updated
  dsimp only
  rw [member_known_iff (hscalar "x" (by decide)), member_known_iff (hscalar "y" (by decide)),
    member_known_iff (hscalar "z" (by decide)), member_known_iff fun f hf => (htimestamp f hf).1,
    member_known_iff fun f hf => (htimestamp f hf).2, Lacks]
  tauto

theorem not_lacks_new_iff {msg : PointCloud2} :
    ¬ Lacks msg Compensator.new ↔ ∃ x ∈ latest "x" msg.fields, ∃ y ∈ latest "y" msg.fields,
      ∃ z ∈ latest "z" msg.fields, ∃ t, t ∈ latest "timestamp" msg.fields := by
  have hnew : Lacks msg Compensator.new ↔ latest "x" msg.fields = none ∨
      latest "y" msg.fields = none ∨ latest "z" msg.fields = none ∨
        latest "timestamp" msg.fields = none := by
    simp [Lacks, Compensator.new]
  rw [hnew]
  simp only [not_or, ← ne_eq, Option.ne_none_iff_exists', Option.mem_def]
  constructor
  · rintro ⟨⟨x, hx⟩, ⟨y, hy⟩, ⟨z, hz⟩, t, ht⟩
    exact ⟨x, hx, y, hy, z, hz, t, ht⟩
  · rintro ⟨x, hx, y, hy, z, hz, t, ht⟩
    exact ⟨⟨x, hx⟩, ⟨y, hy⟩, ⟨z, hz⟩, t, ht⟩

theorem Lacks.new {msg : PointCloud2} {c : Compensator} (h : Lacks msg c) :
    Lacks msg Compensator.new :=
  h.imp (fun hx => ⟨hx.1, rfl⟩) fun h => h.imp (fun hy => ⟨hy.1, rfl⟩) fun h =>
    h.imp (fun hz => ⟨hz.1, rfl⟩) fun ht => ⟨ht.1, Or.inl rfl⟩

theorem meets_of_rejected {c : Compensator} {msg : PointCloud2}
    (hc : (checkMessage c msg).2 = false)
    (hnew : (checkMessage Compensator.new msg).2 = false) : Meets c msg where
  same := hc.trans hnew.symm
  typed h := absurd (hc.symm.trans h) Bool.false_ne_true
  contained transform := callback_of_rejected hc transform ▸ stays_ok none
  divisor transform _ h := nomatch (callback_of_rejected hc transform).symm.trans h
  kept transform _ h := nomatch (callback_of_rejected hc transform).symm.trans h

theorem Passes.typed {msg : PointCloud2} (h : Passes msg) {x y z t : PointField}
    (hx : x ∈ latest "x" msg.fields) (hy : y ∈ latest "y" msg.fields)
    (hz : z ∈ latest "z" msg.fields) (ht : t ∈ latest "timestamp" msg.fields)
    (hfloat : x.datatype = FLOAT32) : Typed msg := by
  have hxy : x.datatype = y.datatype := by
    have hsame := h.sameXY
    rw [Option.mem_def] at hx hy
    rwa [typesOf, hx, hy] at hsame
  have hyz : y.datatype = z.datatype := by
    have hsame := h.sameYZ
    rw [Option.mem_def] at hy hz
    rwa [typesOf, hy, hz] at hsame
  have hcount (name : String) (hname : name ∈ ["x", "y", "z"]) (f : PointField)
      (hf : f ∈ latest name msg.fields) : f.count = 1 := by
    obtain ⟨hmem, rfl⟩ := latest_mem hf
    exact ((h.fields f hmem).single (by simpa using hname)).1
  refine ⟨fun name hname => ?_, t, ht⟩
  rcases (by simpa using hname : name = "x" ∨ name = "y" ∨ name = "z") with rfl | rfl | rfl
  · exact ⟨x, hx, hfloat, hcount "x" hname x hx⟩
  · exact ⟨y, hy, hxy ▸ hfloat, hcount "y" hname y hy⟩
  · exact ⟨z, hz, hyz ▸ hxy ▸ hfloat, hcount "z" hname z hz⟩

theorem meets_of_processable {c : Compensator} {msg : PointCloud2} (hpasses : Passes msg)
    (hc : (checkMessage c msg).2 = true) (hnew : (checkMessage Compensator.new msg).2 = true)
    {x y z t : PointField} (hx : x ∈ latest "x" msg.fields) (hy : y ∈ latest "y" msg.fields)
    (hz : z ∈ latest "z" msg.fields) (ht : t ∈ latest "timestamp" msg.fields)
    (h : Processable msg x y z t) : Meets c msg := by
  have hupdated : updated c msg.fields = _ := updated_eq hx hy hz ht
  obtain ⟨hfloat, hstays, hdivisor⟩ := (processable_iff hupdated).mp h
  refine ⟨hc.trans hnew.symm, fun _ => hpasses.typed hx hy hz ht hfloat, ?_, ?_, ?_⟩
  · intro transform
    rw [callback_of_accepted hc]
    exact hstays transform
  · intro transform out hout
    rw [callback_of_accepted hc] at hout
    exact hdivisor transform out hout
  · intro transform out hout data hdata k hk
    rw [callback_of_accepted hc] at hout
    obtain ⟨motion, hmotion⟩ := (process_cases hout).2 data hdata
    refine motionCompensation_getElem? hmotion fun i hi =>
      unwritten_of_outsideFields (lt_of_mem_points hi) hk ?_
    rw [hupdated]
    intro offset hoffset
    rcases (by simpa using hoffset : offset = x.offset ∨ offset = y.offset ∨ offset = z.offset)
      with rfl | rfl | rfl
    · exact ⟨"x", by decide, x, hx, rfl⟩
    · exact ⟨"y", by decide, y, hy, rfl⟩
    · exact ⟨"z", by decide, z, hz, rfl⟩

theorem meets_iff (c : Compensator) (msg : PointCloud2) : Meets c msg ↔ Sound c msg := by
  by_cases hpasses : Passes msg
  · have haccepted (other : Compensator) :
        (checkMessage other msg).2 = true ↔ ¬ Lacks msg other := by
      rw [(checkMessage_spec other msg).1, and_iff_right hpasses, known_iff_not_lacks hpasses]
    rw [Sound, imp_iff_right hpasses]
    by_cases hlacks : Lacks msg c
    · refine iff_of_true (meets_of_rejected ?_ ?_) (Or.inl hlacks)
      · exact Bool.eq_false_iff.mpr fun h => (haccepted c).mp h hlacks
      · exact Bool.eq_false_iff.mpr fun h => (haccepted Compensator.new).mp h hlacks.new
    · have hc := (haccepted c).mpr hlacks
      rw [or_iff_right hlacks]
      constructor
      · intro h
        have hnew := (haccepted Compensator.new).mp (h.same ▸ hc)
        obtain ⟨x, hx, y, hy, z, hz, t, ht⟩ := not_lacks_new_iff.mp hnew
        have hupdated : updated c msg.fields = _ := updated_eq hx hy hz ht
        refine ⟨x, hx, y, hy, z, hz, t, ht, (processable_iff hupdated).mpr ?_⟩
        obtain ⟨f, hf, hfloat, -⟩ := (h.typed hc).floats "x" (by decide)
        obtain rfl := Option.mem_unique hf hx
        refine ⟨hfloat, fun transform => ?_, fun transform out hout => ?_⟩
        · exact callback_of_accepted hc transform ▸ h.contained transform
        · exact h.divisor transform out ((callback_of_accepted hc transform).trans hout)
      · rintro ⟨x, hx, y, hy, z, hz, t, ht, h⟩
        have hnew := (haccepted Compensator.new).mpr
          (not_lacks_new_iff.mpr ⟨x, hx, y, hy, z, hz, t, ht⟩)
        exact meets_of_processable hpasses hc hnew hx hy hz ht h
  · have hrejected (other : Compensator) : (checkMessage other msg).2 = false :=
      Bool.eq_false_iff.mpr fun h => hpasses ((checkMessage_spec other msg).1.mp h).1
    exact iff_of_true (meets_of_rejected (hrejected c) (hrejected Compensator.new))
      fun h => absurd h hpasses

/-- A run of messages is handled as it should exactly when each lacks a field or can be
processed. -/
theorem compensator_iff (msgs : List PointCloud2) :
    StepsMeet compensatorStep Meets Compensator.new msgs ↔
      StepsMeet compensatorStep Sound Compensator.new msgs :=
  stepsMeet_congr meets_iff

def onePoint (fields : List PointField) : PointCloud2 :=
  ⟨1, 1, fields, 24, List.replicate 24 0, rfl⟩

def twoPoints (fields : List PointField) : PointCloud2 :=
  ⟨1, 2, fields, 24, List.replicate 47 0 ++ [1], rfl⟩

def pointFields : List PointField :=
  [⟨"x", 0, FLOAT32, 1⟩, ⟨"y", 4, FLOAT32, 1⟩, ⟨"z", 8, FLOAT32, 1⟩, ⟨"timestamp", 16, FLOAT64, 1⟩]

/-- With one point the divisor is zero; and behind a message with all the fields, one without
any is accepted. -/
theorem compensator_fails :
    ¬ StepsMeet compensatorStep Meets Compensator.new [onePoint pointFields] ∧
      ¬ StepsMeet compensatorStep Meets Compensator.new [twoPoints pointFields, onePoint []] := by
  constructor
  · intro hmeet
    refine (stepsMeet_cons.mp hmeet).1.divisor (fun _ _ => none) ⟨0, 0, none⟩ ?_ (by decide)
    rfl
  · intro hmeet
    have hrest := (stepsMeet_cons.mp hmeet).2 _ rfl
    exact absurd (stepsMeet_cons.mp hrest).1.same (by decide)

end ApolloContrib.Compensation
