import Mathlib.Data.List.Nodup
import Mathlib.Data.List.Range
import Mathlib.Data.List.TakeWhile
import ApolloContrib.Rslidar.Applied
import ApolloContrib.Rslidar.Assembly

namespace ApolloContrib.Rslidar

open ApolloContrib.Library

/-! The columns that the packets of a scan fill. -/

variable {exp : ℚ → ℚ} {pow : ℚ → ℚ → ℚ} {model : Model}

section Within

namespace Process

variable {process next : Process} {pkt : RslidarPacket}

theorem eq_storeScans {scans : List Scan}
    (h : scans.foldlM (storeScanWithin exp pow model) process = some next) :
    scans.foldl (fun process scan => process.storeScan exp pow model scan) process = next := by
  induction scans generalizing process with
  | nil => exact Option.some.inj h
  | cons scan scans ih =>
      rw [List.foldlM_cons, storeScanWithin] at h
      split_ifs at h
      · exact ih h
      · cases h

theorem eq_unpackBlock {block : Nat}
    (h : process.unpackBlockWithin exp pow model pkt block = some next) :
    process.unpackBlock exp pow model pkt block = next := by
  unfold unpackBlockWithin at h
  unfold unpackBlock
  dsimp only at h ⊢
  split_ifs at h ⊢
  · exact Option.some.inj h
  · obtain ⟨middle, hmiddle, rfl⟩ := Option.map_eq_some_iff.mp h
    rw [eq_storeScans hmiddle]

theorem eq_unpackBlocks {blocks : List Nat}
    (h : process.unpackBlocksWithin exp pow model pkt blocks = some next) :
    process.unpackBlocks exp pow model pkt blocks = next := by
  induction blocks generalizing process with
  | nil => exact Option.some.inj h
  | cons block blocks ih =>
      rw [unpackBlocksWithin] at h
      rw [unpackBlocks]
      split_ifs at h ⊢
      · exact Option.some.inj h
      · obtain ⟨middle, hmiddle, hrest⟩ := Option.bind_eq_some_iff.mp h
        rw [eq_unpackBlock hmiddle]
        exact ih hrest

def finishing : List RslidarPacket → List (RslidarPacket × Bool)
  | [] => []
  | pkt :: packets => (pkt, packets.isEmpty) :: finishing packets

theorem eq_unpackAll {Coord : Type*} {place : ℚ → Int → Nat → Coord}
    {packets : List RslidarPacket} {pointcloud cloud : PointCloud Coord}
    (h : process.convertPacketsToPointcloud exp pow model place pointcloud packets =
      some (next, cloud)) :
    process.unpackAll exp pow model (finishing packets) = next := by
  induction packets generalizing process pointcloud with
  | nil => exact congrArg Prod.fst (Option.some.inj h)
  | cons pkt packets ih =>
      obtain ⟨⟨middle, out⟩, hpacket, hrest⟩ := Option.bind_eq_some_iff.mp h
      obtain ⟨blocks, hblocks, hfinish⟩ := Option.bind_eq_some_iff.mp hpacket
      rw [finishing, unpackAll, unpack, eq_unpackBlocks hblocks]
      split_ifs at hfinish ⊢
      · obtain ⟨_, -, hmiddle⟩ := Option.map_eq_some_iff.mp hfinish
        obtain rfl := congrArg Prod.fst hmiddle
        exact ih hrest
      · obtain rfl := congrArg Prod.fst (Option.some.inj hfinish)
        exact ih hrest

end Process

end Within

section Scans

variable {statics : Statics} {pkt : RslidarPacket} {block : Nat}

theorem scans_point : (model.scans statics pkt block).map (·.point) = List.range' 0 32 := by
  cases model with
  | RS16 =>
      change (Rslidar16Parser.scans statics pkt block).map _ = _
      simp only [Rslidar16Parser.scans, List.map_flatMap, List.map_map, Function.comp_def]
      decide
  | RS32 =>
      change (Rslidar32Parser.scans statics pkt block).map _ = _
      simp only [Rslidar32Parser.scans, List.map_map, Function.comp_def]
      decide

theorem length_scans : (model.scans statics pkt block).length = 32 := by
  rw [← List.length_map (·.point), scans_point, List.length_range']

theorem scans_dsr : ∀ scan ∈ model.scans statics pkt block,
    scan.dsr = scan.point % model.scansPerFiring := by
  intro scan hscan
  cases model with
  | RS16 =>
      obtain ⟨firing, -, hfiring⟩ := List.mem_flatMap.mp hscan
      obtain ⟨dsr, hdsr, rfl⟩ := List.mem_map.mp hfiring
      have hlt := List.mem_range.mp hdsr
      change dsr = (dsr + 16 * firing) % 16
      omega
  | RS32 =>
      obtain ⟨dsr, hdsr, rfl⟩ := List.mem_map.mp hscan
      exact (Nat.mod_eq_of_lt (List.mem_range.mp hdsr)).symm

theorem scans_congr {other : Statics} (hangles : other.horiAngle = statics.horiAngle) :
    model.scans other pkt block = model.scans statics pkt block := by
  cases model with
  | RS16 => rfl
  | RS32 =>
      change Rslidar32Parser.scans other pkt block = Rslidar32Parser.scans statics pkt block
      unfold Rslidar32Parser.scans correctAzimuth
      rw [hangles]

end Scans

section Columns

theorem takeWhile_range (p : Nat → Bool) (n : Nat) :
    (List.range n).takeWhile p =
      (List.range n).filter fun i => decide (∀ before ≤ i, p before = true) := by
  induction n with
  | zero => rfl
  | succ n ih =>
      rw [List.range_succ, List.takeWhile_append, List.filter_append, ← ih]
      by_cases hall : ∀ i < n, p i = true
      · have hself : (List.range n).takeWhile p = List.range n :=
          List.takeWhile_eq_self_iff.mpr fun i hi => hall i (List.mem_range.mp hi)
        have hlast : p n = decide (∀ before ≤ n, p before = true) := by
          rw [Bool.eq_iff_iff, decide_eq_true_iff]
          refine ⟨fun hn before hle => ?_, fun h => h n (Nat.le_refl n)⟩
          rcases Nat.lt_or_eq_of_le hle with hlt | rfl
          · exact hall before hlt
          · exact hn
        rw [if_pos (congrArg List.length hself), hself, List.takeWhile_cons, List.takeWhile_nil,
          hlast, List.filter_cons, List.filter_nil]
      · have hshort : ((List.range n).takeWhile p).length ≠ (List.range n).length := fun hlength =>
          hall fun i hi => List.takeWhile_eq_self_iff.mp
            ((List.takeWhile_sublist p).eq_of_length hlength) i (List.mem_range.mpr hi)
        have hlast : ¬ decide (∀ before ≤ n, p before = true) = true := fun h =>
          hall fun i hi => of_decide_eq_true h i hi.le
        rw [if_neg hshort, List.filter_cons, if_neg hlast, List.filter_nil, List.append_nil]

namespace Process

structure Filled (model : Model) (start : Process) (measured : List Stored) (process : Process) :
    Prop where
  stored : process.stored = start.stored ++ measured
  horiAngle : (process.statics model).horiAngle = (start.statics model).horiAngle
  pic : ∀ i stored, measured[i]? = some stored →
    (process.statics model).pic.distance i = stored.distance ∧
      (process.statics model).pic.intensity i = stored.intensity ∧
      (process.statics model).pic.azimuthforeachP i = stored.scan.azimuth ∧
      i % model.scansPerFiring = stored.scan.dsr

variable {start process : Process} {measured : List Stored}

variable (exp pow) in
theorem Filled.storeScan (h : Filled model start measured process) {scan : Scan}
    (hpoint : (process.statics model).pic.col * SCANS_PER_BLOCK + scan.point = measured.length)
    (hdsr : scan.dsr = scan.point % model.scansPerFiring) :
    ∃ entry : Stored, entry.scan = scan ∧
      Filled model start (measured ++ [entry]) (process.storeScan exp pow model scan) ∧
      ((process.storeScan exp pow model scan).statics model).pic.col =
        (process.statics model).pic.col := by
  obtain ⟨temper, distance, intensity, hentry, hstatics⟩ :
      ∃ temper distance intensity,
        (process.storeScan exp pow model scan).stored =
          process.stored ++ [⟨scan, temper, distance, intensity⟩] ∧
        (process.storeScan exp pow model scan).statics model =
          { process.statics model with
            pic := { (process.statics model).pic with
              distance := Function.update (process.statics model).pic.distance measured.length
                distance
              intensity := Function.update (process.statics model).pic.intensity measured.length
                intensity
              azimuthforeachP := Function.update (process.statics model).pic.azimuthforeachP
                measured.length scan.azimuth } } := by
    refine ⟨_, _, _, rfl, ?_⟩
    unfold Process.storeScan
    dsimp only
    change (Process.setStatics model _ _).statics model = _
    rw [statics_setStatics, ← hpoint]
    rfl
  refine ⟨⟨scan, temper, distance, intensity⟩, rfl, ⟨?_, ?_, ?_⟩, ?_⟩
  · rw [hentry, h.stored, List.append_assoc]
  · rw [hstatics]
    exact h.horiAngle
  · intro i stored hi
    rw [hstatics]
    dsimp only
    rcases lt_trichotomy i measured.length with hold | rfl | hbeyond
    · rw [List.getElem?_append_left hold] at hi
      rw [Function.update_of_ne hold.ne, Function.update_of_ne hold.ne,
        Function.update_of_ne hold.ne]
      exact h.pic i stored hi
    · rw [List.getElem?_concat_length] at hi
      obtain rfl := Option.some.inj hi
      refine ⟨Function.update_self _ _ _, Function.update_self _ _ _, Function.update_self _ _ _,
        ?_⟩
      have hturn : model.scansPerFiring ∣ SCANS_PER_BLOCK := by
        cases model <;> decide
      rw [← hpoint, Nat.add_mod, Nat.mod_eq_zero_of_dvd (hturn.mul_left _), Nat.zero_add,
        Nat.mod_mod]
      exact hdsr.symm
    · rw [List.getElem?_eq_none (by rw [List.length_append, List.length_singleton]; omega)] at hi
      cases hi
  · rw [hstatics]

structure Columns (model : Model) (start : Process) (measured : List Stored) (process : Process) :
    Prop extends Filled model start measured process where
  aligned : (process.statics model).pic.col * SCANS_PER_BLOCK = measured.length
  room : measured.length ≤ model.dataNumberPerScan

/-- The scans are stored behind what was measured, or have no room. -/
def Fills (model : Model) (start : Process) (measured : List Stored) (scans : List Scan) :
    Option Process → Prop
  | none => model.dataNumberPerScan < measured.length + scans.length
  | some next => ∃ news, news.map (·.scan) = scans ∧ Columns model start (measured ++ news) next

theorem Fills.bind {result : Option Process} {f : Process → Option Process}
    {scans others : List Scan} (h : Fills model start measured scans result)
    (hf : ∀ news next, Columns model start (measured ++ news) next →
      Fills model start (measured ++ news) others (f next)) :
    Fills model start measured (scans ++ others) (result.bind f) := by
  cases result with
  | none =>
      refine Nat.lt_of_lt_of_le h ?_
      rw [List.length_append]
      exact Nat.add_le_add_left (Nat.le_add_right _ _) _
  | some next =>
      obtain ⟨news, hscans, hnext⟩ := h
      have hlength : news.length = scans.length := by rw [← hscans, List.length_map]
      have hrest := hf news next hnext
      rw [Option.bind_some]
      cases hresult : f next with
      | none =>
          rw [hresult] at hrest
          change _ < _ + _ at hrest
          change _ < _ + _
          rw [List.length_append] at hrest ⊢
          omega
      | some last =>
          rw [hresult] at hrest
          obtain ⟨more, hothers, hlast⟩ := hrest
          refine ⟨news ++ more, ?_, ?_⟩
          · rw [List.map_append, hscans, hothers]
          · rw [← List.append_assoc]
            exact hlast

variable (exp pow) in
/-- The scans of a column, from `p` on. -/
theorem Filled.storeScans {scans : List Scan} {p : Nat}
    (h : Filled model start measured process)
    (hlength : (process.statics model).pic.col * SCANS_PER_BLOCK + p = measured.length)
    (hroom : measured.length ≤ model.dataNumberPerScan)
    (hpoints : scans.map (·.point) = List.range' p scans.length)
    (hdsr : ∀ scan ∈ scans, scan.dsr = scan.point % model.scansPerFiring) :
    match scans.foldlM (storeScanWithin exp pow model) process with
    | none => model.dataNumberPerScan < measured.length + scans.length
    | some next => ∃ news, news.map (·.scan) = scans ∧ Filled model start (measured ++ news) next ∧
        measured.length + scans.length ≤ model.dataNumberPerScan ∧
        (next.statics model).pic.col = (process.statics model).pic.col := by
  induction scans generalizing measured process p with
  | nil =>
      refine ⟨[], rfl, ?_, hroom, rfl⟩
      rw [List.append_nil]
      exact h
  | cons scan scans ih =>
      rw [List.map_cons, List.length_cons, List.range'_succ] at hpoints
      obtain ⟨hpoint, hothers⟩ := List.cons_eq_cons.mp hpoints
      rw [← hpoint] at hlength
      rw [List.foldlM_cons, storeScanWithin, hlength]
      by_cases hplace : measured.length < model.dataNumberPerScan
      · obtain ⟨entry, hentry, hnext, hcol⟩ := h.storeScan exp pow hlength
          (hdsr scan List.mem_cons_self)
        have hlong : (measured ++ [entry]).length = measured.length + 1 := List.length_append
        have hrest := ih hnext (by rw [hcol, hlong, ← hlength]; rfl) (hlong.trans_le hplace)
          (hpoint ▸ hothers) fun other hother => hdsr other (List.mem_cons_of_mem scan hother)
        rw [if_pos hplace]
        change match scans.foldlM _ (process.storeScan exp pow model scan) with
          | none => _
          | some next => _
        rw [List.length_cons]
        cases hfold : scans.foldlM (storeScanWithin exp pow model)
            (process.storeScan exp pow model scan) with
        | none =>
            rw [hfold, hlong] at hrest
            exact hrest.trans_eq (by omega)
        | some next =>
            rw [hfold, hlong] at hrest
            obtain ⟨news, hscans, hfilled, hfits, hsame⟩ := hrest
            refine ⟨entry :: news, ?_, ?_, ?_, hsame.trans hcol⟩
            · rw [List.map_cons, hentry, hscans]
            · rw [List.append_assoc] at hfilled
              exact hfilled
            · omega
      · rw [if_neg hplace]
        change _ < _ + _
        rw [List.length_cons]
        omega

theorem Columns.congr (h : Columns model start measured process) {other : Process}
    (hstored : other.stored = process.stored)
    (hangles : (other.statics model).horiAngle = (process.statics model).horiAngle)
    (hpic : (other.statics model).pic = (process.statics model).pic) :
    Columns model start measured other where
  stored := hstored.trans h.stored
  horiAngle := hangles.trans h.horiAngle
  pic := hpic ▸ h.pic
  aligned := hpic ▸ h.aligned
  room := h.room

theorem Columns.updateTemperature (h : Columns model start measured process)
    (pkt : RslidarPacket) : Columns model start measured (process.updateTemperature model pkt) := by
  unfold Process.updateTemperature
  dsimp only
  split_ifs
  · exact h.congr rfl (by rw [statics_setStatics]) (by rw [statics_setStatics])
  · exact h.congr rfl (by rw [statics_setStatics]) (by rw [statics_setStatics])

variable (exp pow) in
theorem Columns.unpackBlock (h : Columns model start measured process) (pkt : RslidarPacket)
    (block : Nat) :
    Fills model start measured
      (if 0 < pkt.azimuthDiff block ∧ pkt.azimuthDiff block ≤ model.maxAzimuthDiff then
        model.scans (start.statics model) pkt block else [])
      (process.unpackBlockWithin exp pow model pkt block) := by
  have hbegun : Columns model start measured ((process.updateTemperature model pkt).call model
      model.callsPerBlock) := (h.updateTemperature pkt).congr rfl rfl rfl
  unfold unpackBlockWithin
  dsimp only
  by_cases hstep : 0 < pkt.azimuthDiff block ∧ pkt.azimuthDiff block ≤ model.maxAzimuthDiff
  · rw [if_pos hstep, if_neg (not_or.mpr ⟨hstep.1.not_ge, hstep.2.not_gt⟩),
      ← scans_congr hbegun.horiAngle]
    generalize (process.updateTemperature model pkt).call model model.callsPerBlock = begun
      at hbegun
    have hpoints : (model.scans (begun.statics model) pkt block).map (·.point) =
        List.range' 0 (model.scans (begun.statics model) pkt block).length := by
      rw [scans_point, length_scans]
    have hscans := hbegun.storeScans exp pow hbegun.aligned hbegun.room hpoints scans_dsr
    cases hfold : (model.scans (begun.statics model) pkt block).foldlM
        (storeScanWithin exp pow model) begun with
    | none =>
        rw [hfold] at hscans
        exact hscans
    | some next =>
        rw [hfold] at hscans
        obtain ⟨news, hnews, hfilled, hfits, hcol⟩ := hscans
        have hlength : news.length = 32 := by rw [← length_scans, ← hnews, List.length_map]
        have hnext : ((next.nextCol model).statics model) =
            { next.statics model with
              pic := { (next.statics model).pic with col := (next.statics model).pic.col + 1 } } :=
          statics_setStatics _
        refine ⟨news, hnews, ⟨⟨hfilled.stored, ?_, ?_⟩, ?_, ?_⟩⟩
        · rw [hnext]
          exact hfilled.horiAngle
        · rw [hnext]
          exact hfilled.pic
        · rw [hnext, List.length_append, hlength, ← hbegun.aligned]
          dsimp only
          rw [hcol, Nat.add_mul, Nat.one_mul]
          rfl
        · rw [List.length_append, hlength, ← length_scans]
          exact hfits
  · rw [if_neg hstep, if_pos (by omega)]
    refine ⟨[], rfl, ?_⟩
    rw [List.append_nil]
    exact h.updateTemperature pkt

variable (exp pow) in
theorem Columns.unpackBlocks (h : Columns model start measured process) (pkt : RslidarPacket)
    (blocks : List Nat) :
    Fills model start measured
      (((blocks.takeWhile pkt.upperBank).filter fun block =>
        0 < pkt.azimuthDiff block ∧ pkt.azimuthDiff block ≤ model.maxAzimuthDiff).flatMap
          (model.scans (start.statics model) pkt))
      (process.unpackBlocksWithin exp pow model pkt blocks) := by
  induction blocks generalizing measured process with
  | nil =>
      refine ⟨[], rfl, ?_⟩
      rw [List.append_nil]
      exact h
  | cons block blocks ih =>
      rw [unpackBlocksWithin]
      cases hupper : pkt.upperBank block with
      | false =>
          rw [List.takeWhile_cons_of_neg (by rw [hupper]; exact Bool.false_ne_true)]
          refine ⟨[], rfl, ?_⟩
          rw [List.append_nil]
          exact h
      | true =>
          rw [List.takeWhile_cons_of_pos hupper, List.filter_cons]
          have hblock := (h.unpackBlock exp pow pkt block).bind
            fun news next hnext => ih hnext
          by_cases hstep : 0 < pkt.azimuthDiff block ∧
              pkt.azimuthDiff block ≤ model.maxAzimuthDiff
          · rw [if_pos hstep] at hblock
            rw [if_pos (decide_eq_true hstep), List.flatMap_cons]
            exact hblock
          · rw [if_neg hstep] at hblock
            rw [if_neg (by simpa using hstep)]
            exact hblock

theorem acceptedBlocks_eq (pkt : RslidarPacket) :
    pkt.acceptedBlocks model =
      ((List.range BLOCKS_PER_PACKET).takeWhile pkt.upperBank).filter fun block =>
        0 < pkt.azimuthDiff block ∧ pkt.azimuthDiff block ≤ model.maxAzimuthDiff := by
  rw [takeWhile_range, List.filter_filter]
  refine List.filter_congr fun block _ => ?_
  rw [← Bool.decide_and]
  exact decide_eq_decide.mpr and_comm

end Process

end Columns

end ApolloContrib.Rslidar
