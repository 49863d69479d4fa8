import Mathlib.Data.List.Basic

namespace ApolloContrib.Library

/-! Hexadecimal digits in a text of bytes, and how `sscanf` reads a pair of them. -/

def hexDigit (c : BitVec 8) : Option Nat :=
  if 0x30 ≤ c ∧ c ≤ 0x39 then some (c.toNat - 0x30)
  else if 0x41 ≤ c ∧ c ≤ 0x46 then some (c.toNat - 0x37)
  else if 0x61 ≤ c ∧ c ≤ 0x66 then some (c.toNat - 0x57)
  else none

def IsSpace (c : BitVec 8) : Prop := c = 0x20 ∨ 0x09 ≤ c ∧ c ≤ 0x0D

instance decidableIsSpace (c : BitVec 8) : Decidable (IsSpace c) :=
  inferInstanceAs (Decidable (_ ∨ _))

/-- What the first `2 * size` digits stand for. -/
def hexDecode : Nat → List (BitVec 8) → Option (List (BitVec 8))
  | 0, _ => some []
  | size + 1, first :: second :: text => do
      let high ← hexDigit first
      let low ← hexDigit second
      let bytes ← hexDecode size text
      return BitVec.ofNat 8 (16 * high + low) :: bytes
  | _ + 1, _ => none

/-- What `%2hhx` stores, if it stores anything: white space is skipped, and one of the two
characters may be a sign. The libraries differ about `0x` alone: `zeroX` is what they make of
it. -/
def scanHex (zeroX : Option (BitVec 8)) (text : List (BitVec 8)) : Option (BitVec 8) :=
  match (text.takeWhile (· ≠ 0)).dropWhile (IsSpace ·) with
  | [] => none
  | first :: rest =>
      if first = 0x2B ∨ first = 0x2D then
        match rest with
        | [] => none
        | second :: _ => (hexDigit second).map fun digit =>
            if first = 0x2D then -BitVec.ofNat 8 digit else BitVec.ofNat 8 digit
      else
        match hexDigit first, rest with
        | none, _ => none
        | some digit, [] => some (BitVec.ofNat 8 digit)
        | some high, second :: _ =>
            if first = 0x30 ∧ (second = 0x78 ∨ second = 0x58) then zeroX
            else
              match hexDigit second with
              | none => some (BitVec.ofNat 8 high)
              | some low => some (BitVec.ofNat 8 (16 * high + low))

/-- A digit ends no text, is no white space, no sign and no `x`. -/
theorem hexDigit_apart : ∀ c, hexDigit c ≠ none →
    c ≠ 0 ∧ ¬ IsSpace c ∧ ¬ (c = 0x2B ∨ c = 0x2D) ∧ ¬ (c = 0x78 ∨ c = 0x58) := by
  decide +kernel

theorem scanHex_of_digits (zeroX : Option (BitVec 8)) {first second : BitVec 8} {high low : Nat}
    (hfirst : hexDigit first = some high) (hsecond : hexDigit second = some low)
    (text : List (BitVec 8)) :
    scanHex zeroX (first :: second :: text) = some (BitVec.ofNat 8 (16 * high + low)) := by
  obtain ⟨hfirstZero, hspace, hsign, -⟩ := hexDigit_apart first (by simp [hfirst])
  obtain ⟨hsecondZero, -, -, hx⟩ := hexDigit_apart second (by simp [hsecond])
  have htext : ((first :: second :: text).takeWhile (· ≠ 0)).dropWhile (IsSpace ·) =
      first :: second :: text.takeWhile (· ≠ 0) := by
    rw [List.takeWhile_cons_of_pos (by simpa using hfirstZero),
      List.takeWhile_cons_of_pos (by simpa using hsecondZero),
      List.dropWhile_cons_of_neg (by simpa using hspace)]
  have hprefix : ¬ (first = 0x30 ∧ (second = 0x78 ∨ second = 0x58)) := fun h => hx h.2
  unfold scanHex
  rw [htext]
  dsimp only
  rw [if_neg hsign, hfirst]
  dsimp only
  rw [if_neg hprefix, hsecond]

/-- Every pair of a text that starts with digits is read, as it is decoded. -/
theorem scanHex_of_hexDecode (zeroX : Option (BitVec 8)) {size : Nat}
    {text bytes : List (BitVec 8)} (h : hexDecode size text = some bytes) :
    2 * size ≤ text.length ∧ bytes.length = size ∧
      ∀ i, i < size → scanHex zeroX (text.drop (2 * i)) = bytes[i]? := by
  induction size generalizing text bytes with
  | zero =>
      obtain rfl := Option.some.inj h
      exact ⟨Nat.zero_le _, rfl, nofun⟩
  | succ size ih =>
      match text, h with
      | first :: second :: text, h =>
          rw [hexDecode] at h
          obtain ⟨high, hhigh, h⟩ := Option.bind_eq_some_iff.mp h
          obtain ⟨low, hlow, h⟩ := Option.bind_eq_some_iff.mp h
          obtain ⟨rest, hrest, h⟩ := Option.bind_eq_some_iff.mp h
          obtain rfl := Option.some.inj h
          obtain ⟨hroom, hlength, hpairs⟩ := ih hrest
          simp only [List.length_cons]
          refine ⟨by omega, by omega, fun i hi => ?_⟩
          cases i with
          | zero => exact scanHex_of_digits zeroX hhigh hlow text
          | succ i => exact hpairs i (by omega)

end ApolloContrib.Library
