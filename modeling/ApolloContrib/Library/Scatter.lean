import Mathlib.Data.List.Basic
import Mathlib.Data.Set.Function

namespace ApolloContrib.Library

/-! Cells that are written one after the other at places of a block. -/

variable {α : Type*}

/-- There is no answer where a place is outside the block. -/
def scatter : List (Nat × α) → List (Option α) → Option (List (Option α))
  | [], cells => some cells
  | (i, value) :: writes, cells =>
      if i < cells.length then scatter writes (cells.set i (some value)) else none

/-- Writes to different places of the block all take place, and leave the rest as it is. -/
theorem scatter_of_nodup {writes : List (Nat × α)} {cells : List (Option α)}
    (hplaces : ∀ write ∈ writes, write.1 < cells.length)
    (hnodup : (writes.map Prod.fst).Nodup) :
    ∃ out, scatter writes cells = some out ∧ out.length = cells.length ∧
      (∀ write ∈ writes, out[write.1]? = some (some write.2)) ∧
      ∀ i ∉ writes.map Prod.fst, out[i]? = cells[i]? := by
  induction writes generalizing cells with
  | nil => exact ⟨cells, rfl, rfl, nofun, fun _ _ => rfl⟩
  | cons write writes ih =>
      obtain ⟨hnew, hrest⟩ := List.nodup_cons.mp hnodup
      have hlength : (cells.set write.1 (some write.2)).length = cells.length := List.length_set
      have hplace : write.1 < cells.length := hplaces write List.mem_cons_self
      obtain ⟨out, hout, hlen, hset, hkept⟩ := ih
        (fun other hother => by
          rw [hlength]
          exact hplaces other (List.mem_cons_of_mem write hother)) hrest
      refine ⟨out, ?_, hlen.trans hlength, List.forall_mem_cons.mpr ⟨?_, hset⟩, fun i hi => ?_⟩
      · rw [scatter, if_pos hplace, hout]
      · rw [hkept write.1 hnew, List.getElem?_set_self hplace]
      · obtain ⟨hne, hother⟩ := not_or.mp (List.mem_cons.not.mp hi)
        rw [hkept i hother, List.getElem?_set_ne (Ne.symm hne)]

section Rows

variable {width rows : Nat}

theorem row_lt {row column : Nat} (hrow : row < rows) (hcolumn : column < width) :
    row * width + column < rows * width :=
  calc row * width + column < row * width + width := Nat.add_lt_add_left hcolumn _
    _ = (row + 1) * width := (Nat.succ_mul row width).symm
    _ ≤ rows * width := Nat.mul_le_mul_right width hrow

theorem row_div {row column : Nat} (hcolumn : column < width) :
    (row * width + column) / width = row := by
  rw [Nat.add_comm, Nat.add_mul_div_right _ _ (Nat.zero_lt_of_lt hcolumn),
    Nat.div_eq_of_lt hcolumn, Nat.zero_add]

theorem row_inj {row column row' column' : Nat} (hcolumn : column < width)
    (hcolumn' : column' < width) (h : row * width + column = row' * width + column') :
    row = row' ∧ column = column' := by
  constructor
  · exact (row_div hcolumn).symm.trans ((congrArg (· / width) h).trans (row_div hcolumn'))
  · exact (Nat.mul_add_mod_of_lt hcolumn).symm.trans
      ((congrArg (· % width) h).trans (Nat.mul_add_mod_of_lt hcolumn'))

theorem bijOn_transposed (hrows : 0 < rows) :
    Set.BijOn (fun i => i % rows * width + i / rows) {i | i < width * rows}
      {i | i < rows * width} := by
  have hcolumn {i : Nat} (hi : i < width * rows) : i / rows < width :=
    Nat.div_lt_of_lt_mul (Nat.mul_comm width rows ▸ hi)
  refine ⟨fun i hi => ?_, fun i hi j hj h => ?_, fun place hplace => ?_⟩
  · exact row_lt (Nat.mod_lt i hrows) (hcolumn hi)
  · obtain ⟨hmod, hdiv⟩ := row_inj (hcolumn hi) (hcolumn hj) h
    rw [← Nat.div_add_mod i rows, ← Nat.div_add_mod j rows, hmod, hdiv]
  · have hplace : place < rows * width := hplace
    have hwidth : 0 < width := Nat.pos_of_mul_pos_left (Nat.zero_lt_of_lt hplace)
    have hrow : place / width < rows := Nat.div_lt_of_lt_mul (Nat.mul_comm rows width ▸ hplace)
    refine ⟨place % width * rows + place / width, row_lt (Nat.mod_lt place hwidth) hrow, ?_⟩
    change (place % width * rows + place / width) % rows * width +
      (place % width * rows + place / width) / rows = place
    rw [Nat.mul_add_mod_of_lt hrow, row_div hrow, Nat.mul_comm, Nat.div_add_mod]

end Rows

end ApolloContrib.Library
