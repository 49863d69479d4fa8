import ApolloContrib.Library.Istream
import ApolloContrib.Pandora.Sweep

namespace ApolloContrib.Pandora

open ApolloContrib.Library

/-! `LoadCorrectionFile` of `pandar40p_internal.cc`. -/

variable {Double Single : Type*}

/-- Two arrays of angles; `none` is a number that was never set. -/
@[ext] structure Angles (Num : Type*) where
  elevAngle : Fin LASER_COUNT → Option Num
  azimuthOffset : Fin LASER_COUNT → Option Num

structure Entry (Double : Type*) where
  lineId : Int
  elev : Option Double
  azimuth : Option Double
deriving DecidableEq, Repr

def Angles.set (angles : Angles Double) (k : Fin LASER_COUNT) (entry : Entry Double) :
    Angles Double where
  elevAngle := Function.update angles.elevAngle k entry.elev
  azimuthOffset := Function.update angles.azimuthOffset k entry.azimuth

section Load

variable (format : FloatFormat Double)

def readEntry (line : List Char) : Entry Double :=
  let ss := Istream.of line
  let (subline, _, ss) := ss.getline ',' []
  let lineId := (extractInt subline).value?.getD 0
  let (subline, _, ss) := ss.getline ',' subline
  let elev := (extractDouble format subline).value?
  let (subline, _, _) := ss.getline ',' subline
  let azimuth := (extractDouble format subline).value?
  ⟨lineId, elev, azimuth⟩

/-- The rounds of the loop for the lasers that are left. There is no answer where it returns
-1. -/
def readEntries : List (Fin LASER_COUNT) → Istream → List Char → Angles Double →
    Option (Angles Double)
  -- `lineCounter` is 40
  | [], _, _, angles => some angles
  | k :: lasers, ifs, line, angles =>
      match ifs.getline '\n' line with
      | (_, false, _) => some angles
      | (line, true, ifs) =>
          let entry := readEntry format line
          if entry.lineId ≠ k.val + 1 then none
          else readEntries lasers ifs line (angles.set k entry)

/-- What it returns, and `elev_angle_map_` and `horizatal_azimuth_offset_map_` after it; `narrow`
makes a `float` of a `double`. -/
def loadCorrectionFile (narrow : Double → Single) (correctionContent : List Char)
    (maps : Angles Single) : Int × Angles Single :=
  let (line, _, ifs) := (Istream.of correctionContent).getline '\n' []
  match readEntries format (List.finRange LASER_COUNT) ifs line ⟨fun _ => none, fun _ => none⟩ with
  | none => (-1, maps)
  | some angles =>
      (0, ⟨fun i => (angles.elevAngle i).map narrow, fun i => (angles.azimuthOffset i).map narrow⟩)

end Load

section Table

variable (format : FloatFormat Double)

def rows (content : List Char) : List (List Char) := (textLines content).tail

def HasId (line : List Char) (k : Fin LASER_COUNT) : Prop :=
  ∃ first ∈ (line.splitOn ',').head?, extractInt first = .parsed (k.val + 1)

/-- The line is that of laser `k`, with its two numbers. -/
def RowHolds (line : List Char) (k : Fin LASER_COUNT) (elev azimuth : Double) : Prop :=
  ∃ first second third others, line.splitOn ',' = first :: second :: third :: others ∧
    extractInt first = .parsed (k.val + 1) ∧ extractDouble format second = .parsed elev ∧
    extractDouble format third = .parsed azimuth

/-- There is a line for each laser in order, with the numbers of the two tables. -/
def IsTable (content : List Char) (elev azimuth : Fin LASER_COUNT → Double) : Prop :=
  ∀ k, ∃ line ∈ (rows content)[k.val]?, RowHolds format line k (elev k) (azimuth k)

def Angles.Initialised (maps : Angles Single) : Prop :=
  ∀ k, (maps.elevAngle k).isSome ∧ (maps.azimuthOffset k).isSome

/-- All of a whole table is loaded, and nothing of what is not one. -/
def LoadsWhole (narrow : Double → Single) (content : List Char) (maps : Angles Single) : Prop :=
  ((∃ elev azimuth, IsTable format content elev azimuth ∧
      loadCorrectionFile format narrow content maps =
        (0, ⟨fun k => some (narrow (elev k)), fun k => some (narrow (azimuth k))⟩)) ∨
    (¬ ∃ elev azimuth, IsTable format content elev azimuth) ∧
      loadCorrectionFile format narrow content maps = (-1, maps)) ∧
  (maps.Initialised → (loadCorrectionFile format narrow content maps).2.Initialised)

end Table

section Line

variable {format : FloatFormat Double} {line : List Char}

theorem readEntry_lineId (k : Fin LASER_COUNT) :
    (readEntry format line).lineId = k.val + 1 ↔ HasId line k := by
  obtain ⟨first, others, hfields⟩ := List.exists_cons_of_ne_nil (List.splitOn_ne_nil ',' line)
  obtain ⟨_, hgetline, -⟩ := Istream.getline_of_pieces_cons
    ((Istream.pieces_of ',' line).trans hfields) []
  have hid : (readEntry format line).lineId = (extractInt first).value?.getD 0 := by
    unfold readEntry
    dsimp only
    rw [hgetline]
  have hk : k.val < 40 := k.isLt
  rw [hid, extractInt_value (by omega) (by omega) (by omega), HasId, hfields, List.head?_cons]
  constructor
  · intro hparsed
    exact ⟨first, rfl, hparsed⟩
  · rintro ⟨other, hother, hparsed⟩
    obtain rfl := Option.some.inj hother
    exact hparsed

theorem RowHolds.readEntry {k : Fin LASER_COUNT} {elev azimuth : Double}
    (h : RowHolds format line k elev azimuth) :
    readEntry format line = ⟨k.val + 1, some elev, some azimuth⟩ := by
  obtain ⟨first, second, third, others, hfields, hid, helev, hazimuth⟩ := h
  obtain ⟨stream, hfirst, hrest⟩ := Istream.getline_of_pieces_cons
    ((Istream.pieces_of ',' line).trans hfields) []
  obtain ⟨stream', hsecond, hrest'⟩ := Istream.getline_of_pieces_cons hrest first
  obtain ⟨_, hthird, -⟩ := Istream.getline_of_pieces_cons hrest' second
  unfold Pandora.readEntry
  dsimp only
  rw [hfirst]
  dsimp only
  rw [hsecond]
  dsimp only
  rw [hthird, hid, helev, hazimuth]
  rfl

theorem RowHolds.hasId {k : Fin LASER_COUNT} {elev azimuth : Double}
    (h : RowHolds format line k elev azimuth) : HasId line k := by
  obtain ⟨first, _, _, _, hfields, hid, -⟩ := h
  exact ⟨first, by rw [hfields]; rfl, hid⟩

end Line

section Rows

variable (format : FloatFormat Double)

def readRows : List (Fin LASER_COUNT) → List (List Char) → Angles Double → Option (Angles Double)
  | [], _, angles => some angles
  | _ :: _, [], angles => some angles
  | k :: lasers, line :: lines, angles =>
      if (readEntry format line).lineId ≠ k.val + 1 then none
      else readRows lasers lines (angles.set k (readEntry format line))

theorem readEntries_eq (lasers : List (Fin LASER_COUNT)) (ifs : Istream) (line : List Char)
    (angles : Angles Double) :
    readEntries format lasers ifs line angles =
      readRows format lasers (dropTrailing (ifs.pieces '\n')) angles := by
  induction lasers generalizing ifs line angles with
  | nil => rfl
  | cons k lasers ih =>
      rw [readEntries]
      cases hpieces : ifs.pieces '\n' with
      | nil =>
          rw [Istream.getline_of_pieces_nil hpieces]
          rfl
      | cons piece pieces =>
          obtain ⟨next, hgetline, hnext⟩ := Istream.getline_of_pieces_cons hpieces line
          rw [hgetline]
          by_cases hthere : piece ≠ [] ∨ pieces ≠ []
          · rw [decide_eq_true hthere, dropTrailing_cons hthere, readRows, ← hnext, ← ih]
          · obtain ⟨rfl, rfl⟩ : piece = [] ∧ pieces = [] := by simpa using hthere
            rfl

/-- A round fails at a line with another id; otherwise the lines that are there set their
angles, and no others. -/
theorem readRows_spec {lasers : List (Fin LASER_COUNT)} (hnodup : lasers.Nodup)
    (lines : List (List Char)) (angles : Angles Double) :
    match readRows format lasers lines angles with
    | none => ∃ entry ∈ lasers.zip lines, ¬ HasId entry.2 entry.1
    | some out =>
        (∀ entry ∈ lasers.zip lines, HasId entry.2 entry.1 ∧
          out.elevAngle entry.1 = (readEntry format entry.2).elev ∧
          out.azimuthOffset entry.1 = (readEntry format entry.2).azimuth) ∧
        ∀ k ∉ lasers, out.elevAngle k = angles.elevAngle k ∧
          out.azimuthOffset k = angles.azimuthOffset k := by
  induction lasers generalizing lines angles with
  | nil => exact ⟨nofun, fun _ _ => ⟨rfl, rfl⟩⟩
  | cons k lasers ih =>
      obtain ⟨hk, hlasers⟩ := List.nodup_cons.mp hnodup
      cases lines with
      | nil => exact ⟨nofun, fun _ _ => ⟨rfl, rfl⟩⟩
      | cons line lines =>
          rw [readRows, List.zip_cons_cons]
          by_cases hid : HasId line k
          · rw [if_neg (not_not.mpr ((readEntry_lineId k).mpr hid))]
            have hrest := ih hlasers lines (angles.set k (readEntry format line))
            generalize readRows format lasers lines _ = result at hrest ⊢
            cases result with
            | none =>
                obtain ⟨entry, hentry, hfail⟩ := hrest
                exact ⟨entry, List.mem_cons_of_mem _ hentry, hfail⟩
            | some out =>
                obtain ⟨hset, hkept⟩ := hrest
                refine ⟨List.forall_mem_cons.mpr ⟨⟨hid, ?_, ?_⟩, hset⟩, fun other hother => ?_⟩
                · exact (hkept k hk).1.trans (Function.update_self k _ _)
                · exact (hkept k hk).2.trans (Function.update_self k _ _)
                · obtain ⟨hne, hnot⟩ := not_or.mp (List.mem_cons.not.mp hother)
                  exact ⟨(hkept other hnot).1.trans (Function.update_of_ne hne _ _),
                    (hkept other hnot).2.trans (Function.update_of_ne hne _ _)⟩
          · rw [if_pos (fun h => hid ((readEntry_lineId k).mp h))]
            exact ⟨(k, line), List.mem_cons_self, hid⟩

theorem loadCorrectionFile_eq (narrow : Double → Single) (content : List Char)
    (maps : Angles Single) :
    loadCorrectionFile format narrow content maps =
      match readRows format (List.finRange LASER_COUNT) (rows content)
          ⟨fun _ => none, fun _ => none⟩ with
      | none => (-1, maps)
      | some angles => (0, ⟨fun i => (angles.elevAngle i).map narrow,
          fun i => (angles.azimuthOffset i).map narrow⟩) := by
  obtain ⟨piece, pieces, hpieces⟩ :=
    List.exists_cons_of_ne_nil (List.splitOn_ne_nil '\n' content)
  obtain ⟨next, hgetline, hnext⟩ := Istream.getline_of_pieces_cons
    ((Istream.pieces_of '\n' content).trans hpieces) []
  rw [loadCorrectionFile, hgetline, rows, textLines, hpieces, tail_dropTrailing, ← hnext]
  dsimp only
  rw [readEntries_eq]

end Rows

section Text

variable (format : FloatFormat Double)

theorem mem_zip_rows {content : List Char} {k : Fin LASER_COUNT} {line : List Char} :
    (k, line) ∈ (List.finRange LASER_COUNT).zip (rows content) ↔
      line ∈ (rows content)[k.val]? := by
  constructor
  · intro hmem
    obtain ⟨i, hi⟩ := List.mem_iff_getElem?.mp hmem
    obtain ⟨hk, hline⟩ := List.getElem?_zip_eq_some.mp hi
    obtain ⟨hlt, hget⟩ := List.getElem?_eq_some_iff.mp hk
    rw [List.getElem_finRange] at hget
    obtain rfl : i = k.val := congrArg Fin.val hget
    exact hline
  · intro hline
    refine List.mem_iff_getElem?.mpr ⟨k.val, List.getElem?_zip_eq_some.mpr ⟨?_, hline⟩⟩
    rw [List.getElem?_eq_getElem (by rw [List.length_finRange]; exact k.isLt),
      List.getElem_finRange]
    rfl

/-- It loads the whole table or nothing, exactly when there is a line with another id than its
laser's, or the text is a table. -/
theorem loadCorrectionFile_iff (narrow : Double → Single) (content : List Char)
    (maps : Angles Single) :
    LoadsWhole format narrow content maps ↔
      (∃ k : Fin LASER_COUNT, ∃ line ∈ (rows content)[k.val]?, ¬ HasId line k) ∨
        ∃ elev azimuth, IsTable format content elev azimuth := by
  have hspec := readRows_spec format (List.nodup_finRange LASER_COUNT) (rows content)
    ⟨fun _ => none, fun _ => none⟩
  have hload := loadCorrectionFile_eq format narrow content maps
  generalize readRows format (List.finRange LASER_COUNT) (rows content) _ = result at hspec hload
  unfold LoadsWhole
  rw [hload]
  cases result with
  | none =>
      obtain ⟨⟨k, line⟩, hmem, hid⟩ := hspec
      have hline := mem_zip_rows.mp hmem
      refine iff_of_true ⟨Or.inr ⟨?_, rfl⟩, id⟩ (Or.inl ⟨k, line, hline, hid⟩)
      rintro ⟨elev, azimuth, htable⟩
      obtain ⟨other, hother, hrow⟩ := htable k
      obtain rfl := Option.mem_unique hline hother
      exact hid hrow.hasId
  | some angles =>
      obtain ⟨hset, -⟩ := hspec
      constructor
      · rintro ⟨⟨elev, azimuth, htable, -⟩ | ⟨-, hfailed⟩, -⟩
        · exact Or.inr ⟨elev, azimuth, htable⟩
        · cases congrArg Prod.fst hfailed
      · rintro (⟨k, line, hline, hid⟩ | ⟨elev, azimuth, htable⟩)
        · exact absurd (hset (k, line) (mem_zip_rows.mpr hline)).1 hid
        · have hangles (k : Fin LASER_COUNT) : angles.elevAngle k = some (elev k) ∧
              angles.azimuthOffset k = some (azimuth k) := by
            obtain ⟨line, hline, hrow⟩ := htable k
            obtain ⟨-, helev, hazimuth⟩ := hset (k, line) (mem_zip_rows.mpr hline)
            rw [hrow.readEntry] at helev hazimuth
            exact ⟨helev, hazimuth⟩
          refine ⟨Or.inl ⟨elev, azimuth, htable, ?_⟩, fun _ k => ?_⟩
          · simp only [hangles, Option.map_some]
          · dsimp only
            rw [(hangles k).1, (hangles k).2]
            exact ⟨rfl, rfl⟩

/-- A text of no lines. -/
theorem loadCorrectionFile_fails :
    ¬ LoadsWhole (⟨id, fun _ => true⟩ : FloatFormat ℚ) id []
      (⟨fun _ => some 0, fun _ => some 0⟩ : Angles ℚ) := by
  rintro ⟨-, hset⟩
  have hnone := (hset fun _ => ⟨rfl, rfl⟩) 0
  exact absurd hnone.1 (by decide +kernel)

end Text

end ApolloContrib.Pandora
