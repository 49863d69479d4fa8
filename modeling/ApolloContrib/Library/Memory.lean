import Mathlib.Data.List.Basic
import ApolloContrib.Library.Access

namespace ApolloContrib.Library

/-! Bytes of a memory read and written by their address, little-endian. -/

abbrev Memory := List (BitVec 8)

def readBytes (memory : Memory) (address length : Nat) : List (BitVec 8) :=
  (List.range length).map fun k => memory.getD (address + k) 0

def writeBytes : Memory → Nat → List (BitVec 8) → Memory
  | memory, _, [] => memory
  | memory, address, byte :: bytes => writeBytes (memory.set address byte) (address + 1) bytes

def littleEndian : List (BitVec 8) → Nat
  | [] => 0
  | byte :: bytes => byte.toNat + 256 * littleEndian bytes

def bytesOf {width : Nat} (word : BitVec width) : List (BitVec 8) :=
  (List.range (width / 8)).map fun k => word.extractLsb' (8 * k) 8

theorem readBytes_congr {memory other : Memory} {address length : Nat}
    (h : ∀ k, address ≤ k → k < address + length → other[k]? = memory[k]?) :
    readBytes other address length = readBytes memory address length := by
  apply List.map_congr_left
  intro k hk
  rw [List.getD_eq_getElem?_getD, List.getD_eq_getElem?_getD,
    h (address + k) (Nat.le_add_right address k)
      (Nat.add_lt_add_left (List.mem_range.mp hk) address)]

theorem writeBytes_getElem? {memory : Memory} {address k : Nat} {bytes : List (BitVec 8)}
    (h : k < address ∨ address + bytes.length ≤ k) :
    (writeBytes memory address bytes)[k]? = memory[k]? := by
  induction bytes generalizing memory address with
  | nil => rfl
  | cons byte bytes ih =>
      rw [List.length_cons] at h
      rw [writeBytes, ih (by omega), List.getElem?_set_ne (by omega)]

@[simp] theorem length_bytesOf {width : Nat} (word : BitVec width) :
    (bytesOf word).length = width / 8 := by
  rw [bytesOf, List.length_map, List.length_range]

end ApolloContrib.Library
