import Mathlib.Algebra.Group.Nat.Defs
import Mathlib.Data.List.Basic
import ApolloContrib.Library.While
import ApolloContrib.Security.Verify

namespace ApolloContrib.Auth

open ApolloContrib.Library
open ApolloContrib.Security (Bytes)

/-! `AesEncrypt` and `AesDecrypt` of `encrypt.h`, over the AES of OpenSSL. -/

def AES_BLOCK_SIZE : Nat := 16

structure Block where
  bytes : Bytes
  length_bytes : bytes.length = AES_BLOCK_SIZE
deriving DecidableEq

/-- There is no result when the block goes past the buffer. -/
def Block.read (buffer : Bytes) (off : Nat) : Option Block :=
  if h : off + AES_BLOCK_SIZE ≤ buffer.length then
    some ⟨(buffer.drop off).take AES_BLOCK_SIZE, by
      rw [List.length_take, List.length_drop]
      omega⟩
  else none

def Block.write (block : Block) (buffer : Bytes) (off : Nat) : Option Bytes :=
  if off + AES_BLOCK_SIZE ≤ buffer.length then
    some (buffer.take off ++ block.bytes ++ buffer.drop (off + AES_BLOCK_SIZE))
  else none

/-- What `AES_encrypt` and `AES_decrypt` make of a block with a key of 128 bits, nothing
when `AES_set_encrypt_key` or `AES_set_decrypt_key` returns a negative number. -/
structure Aes where
  encrypt : Block → Option (Block → Block)
  decrypt : Block → Option (Block → Block)
  inverse : ∀ key, ∃ e ∈ encrypt key, ∃ d ∈ decrypt key, ∀ block, d (e block) = block

/-- `in` and `out` are moved by as many bytes as `en_len`. -/
structure AesLoop where
  enLen : Nat
  out : Bytes

/-- The sum of two `int`s, if it is one. -/
def addInt (a b : Nat) : Option Nat := if a + b < 2 ^ 31 then some (a + b) else none

def encryptAdvance (enLen : Nat) : Option Nat := addInt enLen AES_BLOCK_SIZE

def decryptAdvance (len : Int) (enLen : Nat) : Option Nat :=
  (addInt enLen AES_BLOCK_SIZE).bind fun next =>
    if next ≤ len then some next else addInt enLen (len % AES_BLOCK_SIZE).toNat

/-- A whole block is read and written, also where fewer bytes are left. -/
def blockRound (cipher : Block → Block) (advance : Nat → Option Nat) (input : Bytes)
    (l : AesLoop) : Option AesLoop :=
  (Block.read input l.enLen).bind fun block =>
  ((cipher block).write l.out l.enLen).bind fun out =>
  (advance l.enLen).map fun enLen => ⟨enLen, out⟩

/-- What is returned, and the bytes of `out`. There is no result when a byte outside the
buffers is read or written. -/
def aesCrypt (schedule : Block → Option (Block → Block)) (advance : Nat → Option Nat)
    (input : Bytes) (len : Int) (key out : Bytes) : Option (Bool × Bytes) :=
  (Block.read key 0).bind fun key =>
    match schedule key with
    | none => some (false, out)
    | some cipher =>
        (whileSome (fun l => decide (l.enLen < len)) (blockRound cipher advance input)
          len.toNat ⟨0, out⟩).map fun l => (true, l.out)

def aesEncrypt (aes : Aes) (input : Bytes) (len : Int) (key out : Bytes) :
    Option (Bool × Bytes) :=
  aesCrypt aes.encrypt encryptAdvance input len key out

def aesDecrypt (aes : Aes) (input : Bytes) (len : Int) (key out : Bytes) :
    Option (Bool × Bytes) :=
  aesCrypt aes.decrypt (decryptAdvance len) input len key out

def bytesOf (blocks : List Block) : Bytes := blocks.flatMap Block.bytes

@[simp] theorem bytesOf_nil : bytesOf [] = [] := rfl

@[simp] theorem bytesOf_append (blocks others : List Block) :
    bytesOf (blocks ++ others) = bytesOf blocks ++ bytesOf others := List.flatMap_append

@[simp] theorem bytesOf_cons (block : Block) (blocks : List Block) :
    bytesOf (block :: blocks) = block.bytes ++ bytesOf blocks := List.flatMap_cons

@[simp] theorem length_bytesOf (blocks : List Block) :
    (bytesOf blocks).length = blocks.length * AES_BLOCK_SIZE := by
  induction blocks with
  | nil => simp
  | cons block blocks ih =>
      rw [bytesOf_cons, List.length_append, ih, block.length_bytes, List.length_cons,
        Nat.succ_mul, Nat.add_comm]

theorem exists_bytesOf {count : Nat} {buffer : Bytes}
    (hlength : count * AES_BLOCK_SIZE ≤ buffer.length) :
    ∃ blocks rest, blocks.length = count ∧ buffer = bytesOf blocks ++ rest := by
  induction count generalizing buffer with
  | zero => exact ⟨[], buffer, rfl, rfl⟩
  | succ count ih =>
      rw [Nat.succ_mul] at hlength
      have hless : count * AES_BLOCK_SIZE ≤ (buffer.drop AES_BLOCK_SIZE).length := by
        rw [List.length_drop]
        omega
      obtain ⟨blocks, rest, hcount, hrest⟩ := ih hless
      have hfirst : (buffer.take AES_BLOCK_SIZE).length = AES_BLOCK_SIZE := by
        rw [List.length_take]
        omega
      refine ⟨⟨_, hfirst⟩ :: blocks, rest, congrArg (· + 1) hcount, ?_⟩
      rw [bytesOf_cons, List.append_assoc, ← hrest, List.take_append_drop]

theorem Block.read_append (before rest : Bytes) (block : Block) :
    Block.read (before ++ (block.bytes ++ rest)) before.length = some block := by
  have hlength := block.length_bytes
  unfold Block.read
  rw [dif_pos (by simp only [List.length_append]; omega)]
  congr
  rw [List.drop_left, ← hlength, List.take_left]

theorem Block.write_append {before rest : Bytes} (hrest : AES_BLOCK_SIZE ≤ rest.length)
    (block : Block) :
    block.write (before ++ rest) before.length =
      some (before ++ block.bytes ++ rest.drop AES_BLOCK_SIZE) := by
  unfold Block.write
  rw [if_pos (by rw [List.length_append]; omega), List.take_left, List.drop_length_add_append]

/-- As many bytes as the blocks have that a loop over `len` bytes begins. -/
def wholeBlocks (len : Int) : Nat := ((len + 15) / 16).toNat * AES_BLOCK_SIZE

/-- A loop over `len` bytes stays inside its buffers and inside `int`. -/
structure BlocksFit (len : Int) (input out : Bytes) : Prop where
  input : wholeBlocks len ≤ input.length
  out : wholeBlocks len ≤ out.length
  int : wholeBlocks len < 2 ^ 31

/-- By a whole block, or to the end where the block goes past it. -/
structure Advances (len : Int) (advance : Nat → Option Nat) : Prop where
  whole : ∀ enLen : Nat, enLen < len → enLen + AES_BLOCK_SIZE ≤ len →
    enLen + AES_BLOCK_SIZE < 2 ^ 31 → advance enLen = some (enLen + AES_BLOCK_SIZE)
  past : ∀ enLen : Nat, enLen < len → len < enLen + AES_BLOCK_SIZE → AES_BLOCK_SIZE ∣ enLen →
    enLen + AES_BLOCK_SIZE < 2 ^ 31 → ∃ next, advance enLen = some next ∧ len ≤ next
  int : ∀ enLen next : Nat, advance enLen = some next → enLen + AES_BLOCK_SIZE < 2 ^ 31

theorem addInt_of_lt {a b : Nat} (hint : a + b < 2 ^ 31) : addInt a b = some (a + b) :=
  if_pos hint

theorem lt_of_addInt {a b sum : Nat} (hsum : addInt a b = some sum) :
    a + b < 2 ^ 31 ∧ sum = a + b := by
  unfold addInt at hsum
  split_ifs at hsum with hint
  exact ⟨hint, (Option.some.inj hsum).symm⟩

theorem advances_encrypt (len : Int) : Advances len encryptAdvance where
  whole _ _ _ hint := addInt_of_lt hint
  past _ _ hpast _ hint := ⟨_, addInt_of_lt hint, Int.le_of_lt hpast⟩
  int _ _ hnext := (lt_of_addInt hnext).1

theorem advances_decrypt (len : Int) : Advances len (decryptAdvance len) where
  whole enLen hmore hwhole hint := by
    unfold decryptAdvance
    rw [addInt_of_lt hint, Option.bind_some, if_pos (by exact_mod_cast hwhole)]
  past enLen hmore hpast halign hint := by
    unfold decryptAdvance
    rw [addInt_of_lt hint, Option.bind_some, if_neg (by push_cast; omega)]
    unfold AES_BLOCK_SIZE at *
    exact ⟨_, addInt_of_lt (by omega), by omega⟩
  int enLen next hnext := by
    unfold decryptAdvance at hnext
    obtain ⟨sum, hsum, -⟩ := Option.bind_eq_some_iff.mp hnext
    exact (lt_of_addInt hsum).1

section Loop

variable {cipher : Block → Block} {advance : Nat → Option Nat} {len : Int}
  {input out out' : Bytes} {blocks : List Block} {l l' : AesLoop}

/-- The first blocks have been turned, and `todo` is left. -/
structure Turning (cipher : Block → Block) (len : Int) (out : Bytes) (blocks : List Block)
    (l : AesLoop) (turned todo : List Block) : Prop where
  blocks : blocks = turned ++ todo
  out : l.out = bytesOf (turned.map cipher) ++ out.drop (turned.length * AES_BLOCK_SIZE)
  enLen : l.enLen = turned.length * AES_BLOCK_SIZE ∨ todo = [] ∧ len ≤ l.enLen

theorem Turning.round (rest : Bytes) (hadvance : Advances len advance)
    (hwhole : wholeBlocks len = blocks.length * AES_BLOCK_SIZE) (hint : wholeBlocks len < 2 ^ 31)
    (hroom : wholeBlocks len ≤ out.length) {turned todo : List Block}
    (hturning : Turning cipher len out blocks l turned todo) (hmore : l.enLen < len) :
    ∃ block rest' l', todo = block :: rest' ∧
      blockRound cipher advance (bytesOf blocks ++ rest) l = some l' ∧
      Turning cipher len out blocks l' (turned ++ [block]) rest' ∧
      (len - l'.enLen).toNat < (len - l.enLen).toNat := by
  obtain ⟨hblocks, hout, henLen⟩ := hturning
  replace henLen : l.enLen = turned.length * AES_BLOCK_SIZE := henLen.resolve_right (by omega)
  have hcount : blocks.length = turned.length + todo.length := by
    rw [hblocks, List.length_append]
  rw [hcount, Nat.add_mul] at hwhole
  cases todo with
  | nil =>
      unfold wholeBlocks AES_BLOCK_SIZE at *
      simp only [List.length_nil] at hwhole
      omega
  | cons block todo =>
      have hread : Block.read (bytesOf blocks ++ rest) l.enLen = some block := by
        rw [hblocks, bytesOf_append, bytesOf_cons, List.append_assoc, List.append_assoc,
          henLen, ← length_bytesOf]
        exact Block.read_append _ _ _
      have hbefore : l.enLen = (bytesOf (turned.map cipher)).length := by
        rw [length_bytesOf, List.length_map, henLen]
      have hwrite : (cipher block).write l.out l.enLen =
          some (bytesOf ((turned ++ [block]).map cipher) ++
            out.drop ((turned ++ [block]).length * AES_BLOCK_SIZE)) := by
        rw [hout, hbefore, Block.write_append]
        · simp [List.drop_drop, Nat.succ_mul]
        · rw [List.length_drop]
          simp only [List.length_cons, Nat.succ_mul] at hwhole
          omega
      have hnext : ∃ next, advance l.enLen = some next ∧ l.enLen < next ∧
          (next = (turned ++ [block]).length * AES_BLOCK_SIZE ∨ todo = [] ∧ len ≤ next) := by
        simp only [List.length_cons, List.length_append, List.length_nil, Nat.succ_mul] at hwhole ⊢
        by_cases hin : l.enLen + AES_BLOCK_SIZE ≤ len
        · refine ⟨_, hadvance.whole _ hmore hin (by omega), ?_, Or.inl (by omega)⟩
          unfold AES_BLOCK_SIZE
          omega
        · obtain ⟨next, hnext, hend⟩ := hadvance.past _ hmore (by omega)
            (henLen ▸ Nat.dvd_mul_left _ _) (by omega)
          refine ⟨next, hnext, by omega, Or.inr ⟨?_, hend⟩⟩
          rw [← List.length_eq_zero_iff]
          unfold wholeBlocks AES_BLOCK_SIZE at *
          omega
      obtain ⟨next, hnext, hless, hplace⟩ := hnext
      refine ⟨block, todo, ⟨next, _⟩, rfl, ?_, ⟨?_, rfl, hplace⟩, ?_⟩
      · unfold blockRound
        rw [hread, Option.bind_some, hwrite, Option.bind_some, hnext]
        rfl
      · rw [hblocks, List.append_assoc]
        rfl
      · dsimp only
        omega

theorem blocks_turned (cipher : Block → Block) (rest : Bytes) (hadvance : Advances len advance)
    (hwhole : wholeBlocks len = blocks.length * AES_BLOCK_SIZE) (hint : wholeBlocks len < 2 ^ 31)
    (hroom : wholeBlocks len ≤ out.length) :
    ∃ l, whileSome (fun l => decide (l.enLen < len))
        (blockRound cipher advance (bytesOf blocks ++ rest)) len.toNat ⟨0, out⟩ = some l ∧
      l.out = bytesOf (blocks.map cipher) ++ out.drop (wholeBlocks len) := by
  have hround (l : AesLoop) (hturning : ∃ turned todo, Turning cipher len out blocks l turned todo)
      (hmore : decide (l.enLen < len) = true) :
      ∃ l', blockRound cipher advance (bytesOf blocks ++ rest) l = some l' ∧
        (∃ turned todo, Turning cipher len out blocks l' turned todo) ∧
          (len - l'.enLen).toNat < (len - l.enLen).toNat := by
    obtain ⟨turned, todo, hturning⟩ := hturning
    obtain ⟨block, rest', l', -, hround, hnext, hless⟩ :=
      hturning.round rest hadvance hwhole hint hroom (of_decide_eq_true hmore)
    exact ⟨l', hround, ⟨_, _, hnext⟩, hless⟩
  have hfirst : Turning cipher len out blocks ⟨0, out⟩ [] blocks :=
    ⟨rfl, by simp, Or.inl (Nat.zero_mul _).symm⟩
  obtain ⟨l, hloop, ⟨turned, todo, hblocks, hout, henLen⟩, hend⟩ :=
    whileSome_total (fun l : AesLoop => (len - l.enLen).toNat) hround ⟨_, _, hfirst⟩
      (show (len - ((0 : Nat) : Int)).toNat ≤ len.toNat by omega)
  have hdone : len ≤ l.enLen := by
    have hle := of_decide_eq_false hend
    omega
  have htodo : todo = [] := by
    rcases henLen with henLen | ⟨htodo, -⟩
    · rw [hblocks, List.length_append, Nat.add_mul] at hwhole
      rw [← List.length_eq_zero_iff]
      unfold wholeBlocks AES_BLOCK_SIZE at *
      omega
    · exact htodo
  subst htodo
  rw [List.append_nil] at hblocks
  subst hblocks
  exact ⟨l, hloop, by rw [hout, hwhole]⟩

theorem fits_of_loop (hadvance : Advances len advance)
    (hloop : whileSome (fun l => decide (l.enLen < len)) (blockRound cipher advance input)
      len.toNat ⟨0, out⟩ = some l) :
    l.out.length = out.length ∧ BlocksFit len input out := by
  let Inv (l : AesLoop) : Prop := l.out.length = out.length ∧
    (AES_BLOCK_SIZE ∣ l.enLen ∧ l.enLen ≤ input.length ∧ l.enLen ≤ out.length ∧
        l.enLen < 2 ^ 31 ∨ BlocksFit len input out)
  have hround (l next : AesLoop) (hinv : Inv l) (hmore : decide (l.enLen < len) = true)
      (hround : blockRound cipher advance input l = some next) : Inv next := by
    obtain ⟨hlength, hplace⟩ := hinv
    have hmore : l.enLen < len := of_decide_eq_true hmore
    unfold blockRound at hround
    obtain ⟨block, hread, hround⟩ := Option.bind_eq_some_iff.mp hround
    obtain ⟨out', hwrite, hround⟩ := Option.bind_eq_some_iff.mp hround
    obtain ⟨enLen, hadvanced, rfl⟩ := Option.map_eq_some_iff.mp hround
    have hint := hadvance.int _ _ hadvanced
    unfold Block.read at hread
    unfold Block.write at hwrite
    split_ifs at hread with hinput
    split_ifs at hwrite with hout
    have hsame : out'.length = out.length := by
      rw [← Option.some.inj hwrite, ← hlength]
      simp only [List.length_append, List.length_take, List.length_drop,
        (cipher block).length_bytes]
      omega
    refine ⟨hsame, ?_⟩
    rcases hplace with ⟨halign, -, -, -⟩ | hfits
    · rw [hlength] at hout
      by_cases hin : l.enLen + AES_BLOCK_SIZE ≤ len
      · have hnext := hadvance.whole _ hmore hin hint
        rw [hadvanced] at hnext
        obtain rfl := Option.some.inj hnext
        exact Or.inl ⟨Nat.dvd_add halign (Nat.dvd_refl _), hinput, hout, hint⟩
      · have hlast : wholeBlocks len = l.enLen + AES_BLOCK_SIZE := by
          unfold wholeBlocks AES_BLOCK_SIZE at *
          omega
        exact Or.inr ⟨hlast ▸ hinput, hlast ▸ hout, hlast ▸ hint⟩
    · exact Or.inr hfits
  have hfirst : Inv ⟨0, out⟩ :=
    ⟨rfl, Or.inl ⟨Nat.dvd_zero _, Nat.zero_le _, Nat.zero_le _, Nat.two_pow_pos 31⟩⟩
  obtain ⟨⟨hlength, hplace⟩, hend⟩ := whileSome_partial hround hfirst hloop
  refine ⟨hlength, ?_⟩
  rcases hplace with ⟨halign, hinput, hout, hint⟩ | hfits
  · have hle := of_decide_eq_false hend
    have hlast : wholeBlocks len ≤ l.enLen := by
      unfold wholeBlocks AES_BLOCK_SIZE at *
      omega
    exact ⟨Nat.le_trans hlast hinput, Nat.le_trans hlast hout, by omega⟩
  · exact hfits

end Loop

section Crypt

variable {schedule : Block → Option (Block → Block)} {cipher : Block → Block}
  {advance : Nat → Option Nat} {len : Int} {input key out rest : Bytes} {k : Block}
  {blocks : List Block}

theorem aesCrypt_of_blocks (hadvance : Advances len advance) (hkey : Block.read key 0 = some k)
    (hcipher : schedule k = some cipher)
    (hwhole : wholeBlocks len = blocks.length * AES_BLOCK_SIZE) (hint : wholeBlocks len < 2 ^ 31)
    (hroom : wholeBlocks len ≤ out.length) :
    aesCrypt schedule advance (bytesOf blocks ++ rest) len key out =
      some (true, bytesOf (blocks.map cipher) ++ out.drop (wholeBlocks len)) := by
  obtain ⟨l, hloop, hout⟩ := blocks_turned cipher rest hadvance hwhole hint hroom
  unfold aesCrypt
  rw [hkey, Option.bind_some, hcipher]
  dsimp only
  rw [hloop, ← hout]
  rfl

theorem exists_key_iff : (∃ k, Block.read key 0 = some k) ↔ AES_BLOCK_SIZE ≤ key.length := by
  unfold Block.read
  split_ifs with hkey
  · exact iff_of_true ⟨_, rfl⟩ (by omega)
  · exact iff_of_false (by simp) (by omega)

theorem fits_of_aesCrypt (hadvance : Advances len advance)
    (hschedule : ∀ k, ∃ cipher, schedule k = some cipher) {ok : Bool} {out' : Bytes}
    (hcrypt : aesCrypt schedule advance input len key out = some (ok, out')) :
    ok = true ∧ out'.length = out.length ∧ AES_BLOCK_SIZE ≤ key.length ∧
      BlocksFit len input out := by
  unfold aesCrypt at hcrypt
  obtain ⟨k, hkey, hcrypt⟩ := Option.bind_eq_some_iff.mp hcrypt
  obtain ⟨cipher, hcipher⟩ := hschedule k
  rw [hcipher] at hcrypt
  obtain ⟨l, hloop, heq⟩ := Option.map_eq_some_iff.mp hcrypt
  obtain ⟨hlength, hfits⟩ := fits_of_loop hadvance hloop
  cases heq
  exact ⟨rfl, hlength, exists_key_iff.mp ⟨k, hkey⟩, hfits⟩

/-- With a schedule for every key, all that can go wrong is that the key is too short or the
blocks do not fit. -/
theorem exists_aesCrypt (hadvance : Advances len advance)
    (hschedule : ∀ k, ∃ cipher, schedule k = some cipher) (hkey : AES_BLOCK_SIZE ≤ key.length)
    (hfits : BlocksFit len input out) :
    ∃ out', aesCrypt schedule advance input len key out = some (true, out') := by
  obtain ⟨k, hkey⟩ := exists_key_iff.mpr hkey
  obtain ⟨cipher, hcipher⟩ := hschedule k
  obtain ⟨blocks, rest, hcount, rfl⟩ := exists_bytesOf hfits.input
  exact ⟨_, aesCrypt_of_blocks hadvance hkey hcipher (by rw [hcount]; rfl) hfits.int hfits.out⟩

end Crypt

namespace Aes

variable (aes : Aes) {input key out : Bytes} {len : Int}

theorem exists_encrypt (k : Block) : ∃ cipher, aes.encrypt k = some cipher :=
  let ⟨cipher, hcipher, _⟩ := aes.inverse k
  ⟨cipher, hcipher⟩

theorem exists_decrypt (k : Block) : ∃ cipher, aes.decrypt k = some cipher :=
  let ⟨_, _, cipher, hcipher, _⟩ := aes.inverse k
  ⟨cipher, hcipher⟩

/-- What `AesEncrypt` makes of blocks, `AesDecrypt` turns back. -/
theorem exists_coded (k : Block) (blocks : List Block) :
    ∃ coded : List Block, coded.length = blocks.length ∧
      ∀ (len : Int) (key rest out : Bytes), Block.read key 0 = some k →
        wholeBlocks len = blocks.length * AES_BLOCK_SIZE → wholeBlocks len < 2 ^ 31 →
        wholeBlocks len ≤ out.length →
          aesEncrypt aes (bytesOf blocks ++ rest) len key out =
            some (true, bytesOf coded ++ out.drop (wholeBlocks len)) ∧
          aesDecrypt aes (bytesOf coded ++ rest) len key out =
            some (true, bytesOf blocks ++ out.drop (wholeBlocks len)) := by
  obtain ⟨e, hencrypt, d, hdecrypt, hinverse⟩ := aes.inverse k
  have hback : (blocks.map e).map d = blocks := by
    rw [List.map_map]
    exact (List.map_congr_left fun block _ => hinverse block).trans (List.map_id _)
  refine ⟨blocks.map e, List.length_map _, fun len key rest out hkey hwhole hint hroom => ⟨?_, ?_⟩⟩
  · exact aesCrypt_of_blocks (advances_encrypt len) hkey hencrypt hwhole hint hroom
  · have hcoded : aesDecrypt aes (bytesOf (blocks.map e) ++ rest) len key out =
        some (true, bytesOf ((blocks.map e).map d) ++ out.drop (wholeBlocks len)) :=
      aesCrypt_of_blocks (advances_decrypt len) hkey hdecrypt
        (by rw [List.length_map, hwhole]) hint hroom
    rwa [hback] at hcoded

end Aes

end ApolloContrib.Auth
