import Mathlib.Data.List.Basic

namespace ApolloContrib.Reg

/-! Number conversions of the kernel's `sscanf`, on the characters of a C string. -/

def isSpace (c : Char) : Bool :=
  c = ' ' || (9 ≤ c.toNat && c.toNat ≤ 13) || c.toNat = 0xa0

def skipSpaces (text : List Char) : List Char := text.dropWhile isSpace

def hexDigit (c : Char) : Option Nat :=
  if '0' ≤ c ∧ c ≤ '9' then some (c.toNat - '0'.toNat)
  else if 'a' ≤ c ∧ c ≤ 'f' then some (c.toNat - 'a'.toNat + 10)
  else if 'A' ≤ c ∧ c ≤ 'F' then some (c.toNat - 'A'.toNat + 10)
  else none

def digitOf (base : Nat) (c : Char) : Option Nat :=
  (hexDigit c).filter (· < base)

/-- `_parse_integer`: the digits from the front, and what follows them. -/
def parseInteger (base : Nat) : List Char → Nat → Nat × List Char
  | [], acc => (acc, [])
  | c :: rest, acc =>
      match digitOf base c with
      | some d => parseInteger base rest (base * acc + d)
      | none => (acc, c :: rest)

/-- `0x` stands in front of a hexadecimal number or not. -/
def fixupRadix (base : Nat) : List Char → List Char
  | '0' :: x :: rest =>
      if base = 16 ∧ (x = 'x' ∨ x = 'X') then rest else '0' :: x :: rest
  | text => text

/-- One unsigned conversion, `%x` or `%u`. -/
def scanUnsigned (base : Nat) (text : List Char) : Option (BitVec 32 × List Char) :=
  match skipSpaces text with
  | [] => none
  | c :: rest =>
      if (digitOf base c).isSome then
        let parsed := parseInteger base (fixupRadix base (c :: rest)) 0
        some (BitVec.ofNat 32 parsed.1, parsed.2)
      else
        none

def scanSigned (text : List Char) : Option (BitVec 32 × List Char) :=
  match skipSpaces text with
  | '-' :: c :: rest =>
      if (digitOf 10 c).isSome then
        let parsed := parseInteger 10 (c :: rest) 0
        some (-BitVec.ofNat 32 parsed.1, parsed.2)
      else
        none
  | text => scanUnsigned 10 text

/-- The variables after a conversion, and how many of them it assigned. -/
structure Scanned where
  first : BitVec 32
  second : BitVec 32
  count : Nat
  deriving DecidableEq

/-- A scan of one number into `first`; a conversion that fails leaves it. -/
def scanOne (conv : List Char → Option (BitVec 32 × List Char))
    (text : List Char) (first second : BitVec 32) : Scanned :=
  match conv text with
  | none => ⟨first, second, 0⟩
  | some (x, _) => ⟨x, second, 1⟩

/-- A scan of two numbers: the first that fails ends it. -/
def scanTwo (conv : List Char → Option (BitVec 32 × List Char))
    (text : List Char) (first second : BitVec 32) : Scanned :=
  match conv text with
  | none => ⟨first, second, 0⟩
  | some (x, rest) =>
      match conv (skipSpaces rest) with
      | none => ⟨x, second, 1⟩
      | some (y, _) => ⟨x, y, 2⟩

example : scanTwo (scanUnsigned 16) "0x1f8 dead\n".toList 7 9 = ⟨0x1f8, 0xdead, 2⟩ := by
  decide

end ApolloContrib.Reg
