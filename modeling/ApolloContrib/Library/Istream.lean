import Mathlib.Algebra.Group.Int.Defs
import Mathlib.Algebra.Group.Nat.Defs
import Mathlib.Data.List.TakeWhile
import Mathlib.Data.Rat.Defs

namespace ApolloContrib.Library

/-! Text that is read from a stream: lines and numbers, as `getline` and `operator>>` read them
in the classic locale. -/

/-- What is left to read. A stream that came to its end is not `good`. -/
structure Istream where
  rest : List Char
  good : Bool
deriving DecidableEq, Repr

namespace Istream

def of (text : List Char) : Istream := ⟨text, true⟩

/-- What `str` holds after it, and whether it succeeds: it fails where there is nothing to read,
and `str` is as before where the stream was not good. -/
def getline (delim : Char) (str : List Char) (stream : Istream) : List Char × Bool × Istream :=
  if stream.good then
    let line := stream.rest.takeWhile (· ≠ delim)
    match stream.rest.dropWhile (· ≠ delim) with
    | [] => (line, decide (line ≠ []), ⟨[], false⟩)
    | _ :: rest => (line, true, ⟨rest, true⟩)
  else (str, false, stream)

def pieces (delim : Char) (stream : Istream) : List (List Char) :=
  if stream.good then stream.rest.splitOn delim else []

theorem pieces_of (delim : Char) (text : List Char) :
    (of text).pieces delim = text.splitOn delim := rfl

variable {delim : Char} {stream : Istream}

theorem getline_of_pieces_nil (hnone : stream.pieces delim = []) (str : List Char) :
    stream.getline delim str = (str, false, stream) := by
  have hgood : ¬ stream.good = true := fun hgood => by
    rw [pieces, if_pos hgood] at hnone
    exact List.splitOn_ne_nil delim stream.rest hnone
  rw [getline, if_neg hgood]

/-- It gets the next piece, and succeeds unless that is the last and empty. -/
theorem getline_of_pieces_cons {piece : List Char} {others : List (List Char)}
    (hpieces : stream.pieces delim = piece :: others) (str : List Char) :
    ∃ next, stream.getline delim str = (piece, decide (piece ≠ [] ∨ others ≠ []), next) ∧
      next.pieces delim = others := by
  have hgood : stream.good = true := by
    by_contra hgood
    rw [pieces, if_neg hgood] at hpieces
    cases hpieces
  rw [pieces, if_pos hgood] at hpieces
  rw [getline, if_pos hgood]
  have hrest := List.takeWhile_append_dropWhile (p := (· ≠ delim)) (l := stream.rest)
  have hnot : delim ∉ stream.rest.takeWhile (· ≠ delim) := fun hmem => by
    simpa using List.mem_takeWhile_imp hmem
  cases hdrop : stream.rest.dropWhile (· ≠ delim) with
  | nil =>
      rw [hdrop, List.append_nil] at hrest
      rw [hrest] at hnot
      rw [List.splitOn_eq_singleton hnot] at hpieces
      obtain ⟨rfl, rfl⟩ := List.cons_eq_cons.mp hpieces
      refine ⟨⟨[], false⟩, ?_, rfl⟩
      dsimp only
      rw [hrest]
      simp only [ne_eq, not_true_eq_false, or_false]
  | cons c rest =>
      obtain rfl : c = delim := by
        have hne : stream.rest.dropWhile (· ≠ delim) ≠ [] := hdrop ▸ List.cons_ne_nil c rest
        have hhead := List.head_dropWhile_not (· ≠ delim) hne
        simp only [hdrop, List.head_cons] at hhead
        simpa using hhead
      rw [hdrop] at hrest
      rw [← hrest, List.splitOn_append_cons_self_of_not_mem hnot] at hpieces
      obtain ⟨rfl, rfl⟩ := List.cons_eq_cons.mp hpieces
      exact ⟨⟨rest, true⟩, by simp, rfl⟩

end Istream

def dropTrailing : List (List Char) → List (List Char)
  | [] => []
  | [[]] => []
  | piece :: pieces => piece :: dropTrailing pieces

theorem dropTrailing_cons {piece : List Char} {pieces : List (List Char)}
    (hthere : piece ≠ [] ∨ pieces ≠ []) :
    dropTrailing (piece :: pieces) = piece :: dropTrailing pieces := by
  cases piece with
  | nil =>
      obtain ⟨other, others, rfl⟩ := List.exists_cons_of_ne_nil (hthere.resolve_left (absurd rfl))
      rfl
  | cons c piece => rfl

theorem tail_dropTrailing (piece : List Char) (pieces : List (List Char)) :
    (dropTrailing (piece :: pieces)).tail = dropTrailing pieces := by
  by_cases hthere : piece ≠ [] ∨ pieces ≠ []
  · rw [dropTrailing_cons hthere]
    rfl
  · obtain ⟨rfl, rfl⟩ : piece = [] ∧ pieces = [] := by simpa using hthere
    rfl

/-- The lines that `getline` gets one after the other. -/
def textLines (text : List Char) : List (List Char) := dropTrailing (text.splitOn '\n')

/-- What `operator>>` does to its argument. -/
inductive Extracted (α : Type*) where
  | unchanged
  | failed (value : α)
  | parsed (value : α)
deriving DecidableEq, Repr

def Extracted.value? {α : Type*} : Extracted α → Option α
  | unchanged => none
  | failed value => some value
  | parsed value => some value

/-- A format of floating point numbers: the number a rational is rounded to, the largest where
it is out of range. -/
structure FloatFormat (Double : Type*) where
  ofRat : ℚ → Double
  inRange : ℚ → Bool

def isSpace (c : Char) : Bool := c = ' ' || (9 ≤ c.toNat && c.toNat ≤ 13)

def skipws (text : List Char) : List Char := text.dropWhile isSpace

def natValue (digits : List Char) : Nat :=
  digits.foldl (fun value c => 10 * value + (c.toNat - 48)) 0

def takeSign : List Char → Bool × List Char
  | '-' :: rest => (true, rest)
  | '+' :: rest => (false, rest)
  | rest => (false, rest)

def signed {α : Type*} [Neg α] (negative : Bool) (value : α) : α :=
  if negative then -value else value

/-- An `int` in decimal; one that is too large or too small gives the end of the range. -/
def extractInt (text : List Char) : Extracted Int :=
  match skipws text with
  | [] => .unchanged
  | field =>
      let (negative, rest) := takeSign field
      let digits := rest.takeWhile Char.isDigit
      let value := signed negative (natValue digits : Int)
      if digits = [] then .failed 0
      else if value < -2 ^ 31 then .failed (-2 ^ 31)
      else if 2 ^ 31 - 1 < value then .failed (2 ^ 31 - 1)
      else .parsed value

/-- The exponent behind `mantissa`, where `rest` has one; the letter takes digits. -/
def scaled (mantissa : ℚ) : List Char → Option ℚ
  | [] => some mantissa
  | c :: rest =>
      if c = 'e' ∨ c = 'E' then
        let (negative, rest) := takeSign rest
        let digits := rest.takeWhile Char.isDigit
        if digits = [] then none
        else if negative then some (mantissa / 10 ^ natValue digits)
        else some (mantissa * 10 ^ natValue digits)
      else some mantissa

/-- The number at the front of a field: there has to be a digit before the exponent. -/
def decimal (field : List Char) : Option ℚ :=
  let (negative, rest) := takeSign field
  let whole := rest.takeWhile Char.isDigit
  let (fraction, rest) := match rest.dropWhile Char.isDigit with
    | '.' :: rest => (rest.takeWhile Char.isDigit, rest.dropWhile Char.isDigit)
    | rest => ([], rest)
  if whole ++ fraction = [] then none
  else scaled (signed negative ((natValue (whole ++ fraction) : ℚ) / 10 ^ fraction.length)) rest

def extractDouble {Double : Type*} (format : FloatFormat Double) (text : List Char) :
    Extracted Double :=
  match skipws text with
  | [] => .unchanged
  | field =>
      match decimal field with
      | none => .failed (format.ofRat 0)
      | some value =>
          if format.inRange value then .parsed (format.ofRat value)
          else .failed (format.ofRat value)

/-- What a failure leaves in an `int` that was 0 is 0 or an end of the range. -/
theorem extractInt_value {text : List Char} {value : Int} (hzero : value ≠ 0)
    (hlow : value ≠ -2 ^ 31) (hhigh : value ≠ 2 ^ 31 - 1) :
    (extractInt text).value?.getD 0 = value ↔ extractInt text = .parsed value := by
  constructor
  · intro h
    cases hextract : extractInt text with
    | unchanged =>
        rw [hextract] at h
        exact absurd h.symm hzero
    | parsed other =>
        rw [hextract] at h
        exact congrArg Extracted.parsed h
    | failed other =>
        rw [hextract] at h
        obtain rfl : other = value := h
        unfold extractInt at hextract
        split at hextract
        · cases hextract
        · dsimp only at hextract
          split_ifs at hextract
          · exact absurd (Extracted.failed.inj hextract).symm hzero
          · exact absurd (Extracted.failed.inj hextract).symm hlow
          · exact absurd (Extracted.failed.inj hextract).symm hhigh
  · intro h
    rw [h]
    rfl

example : extractDouble ⟨id, fun _ => true⟩ "-12.50e1".toList = .parsed (-125 : ℚ) := by
  decide +kernel

end ApolloContrib.Library
