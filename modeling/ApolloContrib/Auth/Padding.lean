import ApolloContrib.Auth.Encrypt

namespace ApolloContrib.Auth

open ApolloContrib.Security (Bytes)

/-! `AESECButil` of `encrypt_utils.cc`. -/

/-- A `size_t` as an `int`. -/
def int (length : Nat) : Int := (length : Int).bmod (2 ^ 32)

def padding (length : Nat) : Bytes :=
  let n := 16 - length % 16
  List.replicate n (BitVec.ofNat 8 n)

section Model

variable (aes : Aes)

/-- `junk` are the bytes of `uc_out` that `memset` does not reach. -/
def encryptPKCS5 (content key : Bytes) (junk : Nat → BitVec 8) : Option Bytes :=
  let input := content ++ padding content.length
  let ucOut := List.replicate content.length 0 ++
    (List.range ((padding content.length).length + 1)).map junk
  (aesEncrypt aes (input ++ [0]) (int input.length) (key ++ [0]) ucOut).bind fun (ok, ucOut) =>
    if ok then
      -- the bytes are counted by an `unsigned int`
      if input.length < 2 ^ 32 then some (ucOut.take input.length) else none
    else some content

/-- The texts are followed by a 0. There is no result when a byte outside `uc_out` is read,
or the size of the string wraps. -/
def decryptPKCS5 (content key : Bytes) : Option Bytes :=
  let ucOut := List.replicate content.length 0
  (aesDecrypt aes (content ++ [0]) (int content.length) (key ++ [0]) ucOut).bind
    fun (ok, ucOut) =>
      if ok then
        ucOut.getLast?.bind fun last =>
          -- `char` is signed
          let size : Int := content.length - last.toInt
          if 0 ≤ size ∧ size ≤ content.length then some (ucOut.take size.toNat) else none
      else some content

/-- On a buffer of which `length` bytes are the content: the length that is returned, the
buffer and `out`. There is no result when the padding goes past the buffer or the length
past `int`. -/
def encryptPKCS5InPlace (buffer : Bytes) (length : Nat) (out key : Bytes) :
    Option (Nat × Bytes × Bytes) :=
  let input := buffer.take length ++ padding length
  if input.length ≤ buffer.length ∧ input.length < 2 ^ 31 then
    let buffer := input ++ buffer.drop input.length
    (aesEncrypt aes buffer input.length key out).map fun (ok, out) =>
      (if ok then input.length else 0, buffer, out)
  else none

/-- The length that is returned, and `out`. -/
def decryptPKCS5InPlace (content : Bytes) (length : Nat) (out key : Bytes) :
    Option (Int × Bytes) :=
  (aesDecrypt aes content length (key ++ [0]) out).bind fun (ok, out) =>
    if ok then
      if length = 0 then none
      else out[length - 1]?.map fun padding => (length - padding.toInt, out)
    else some (0, out)

end Model

section Properties

variable (aes : Aes)

def RoundTrips (content key : Bytes) : Prop :=
  ∀ junk, ∃ out, encryptPKCS5 aes content key junk = some out ∧
    decryptPKCS5 aes out key = some content

/-- The content is followed by `room` in its buffer, and `TimerExpired` makes `out` 16 bytes
longer than the content. -/
def RoundTripsInPlace (content room key : Bytes) : Prop :=
  ∃ length buffer out plain,
    encryptPKCS5InPlace aes (content ++ room) content.length
      (List.replicate (content.length + 16) 0) key = some (length, buffer, out) ∧
    decryptPKCS5InPlace aes out length (List.replicate length 0) key =
      some ((content.length : Int), plain) ∧
    plain.take content.length = content

/-- The bytes that `AesDecrypt` leaves in `uc_out`. -/
def plaintext (content key : Bytes) : Option Bytes :=
  (aesDecrypt aes (content ++ [0]) (int content.length) (key ++ [0])
    (List.replicate content.length 0)).map Prod.snd

def StripsPrefix (content key : Bytes) : Prop :=
  ∃ out, decryptPKCS5 aes content key = some out ∧ out.length ≤ content.length ∧
    ∀ plain ∈ plaintext aes content key, out <+: plain

def StripsPrefixInPlace (content : Bytes) (length : Nat) (out key : Bytes) : Prop :=
  ∃ size plain, decryptPKCS5InPlace aes content length out key = some (size, plain) ∧
    0 ≤ size ∧ size ≤ length

def paddedLength (length : Nat) : Nat := (length / 16 + 1) * 16

/-- There is a last byte, and it is no more than there are bytes. -/
def Strippable (plain : Bytes) : Prop :=
  ∃ last ∈ plain.getLast?, 0 ≤ last.toInt ∧ last.toInt ≤ plain.length

instance (plain : Bytes) : Decidable (Strippable plain) :=
  inferInstanceAs (Decidable (∃ last ∈ plain.getLast?, _))

structure Decryptable (content key : Bytes) : Prop where
  keyLength : 15 ≤ key.length
  blocks : wholeBlocks (int content.length) ≤ content.length
  int : wholeBlocks (int content.length) < 2 ^ 31
  strippable : ∀ plain ∈ plaintext aes content key, Strippable plain

structure DecryptableInPlace (content : Bytes) (length : Nat) (out key : Bytes) : Prop where
  keyLength : 15 ≤ key.length
  blocks : BlocksFit length content out
  strippable : ∀ ok plain, aesDecrypt aes content length (key ++ [0]) out = some (ok, plain) →
    Strippable (plain.take length)

end Properties

theorem length_padding (length : Nat) : (padding length).length = 16 - length % 16 :=
  List.length_replicate

theorem length_padded (content : Bytes) :
    (content ++ padding content.length).length = paddedLength content.length := by
  rw [List.length_append, length_padding]
  unfold paddedLength
  omega

theorem getLast?_padded (content : Bytes) :
    ∃ last, (content ++ padding content.length).getLast? = some last ∧ 0 ≤ last.toInt ∧
      paddedLength content.length - last.toInt = content.length := by
  have htoInt : ∀ r < 16, (BitVec.ofNat 8 (16 - r)).toInt = 16 - (r : Int) := by decide
  have hmod : content.length % 16 < 16 := Nat.mod_lt _ (by decide)
  refine ⟨BitVec.ofNat 8 (16 - content.length % 16), ?_, ?_, ?_⟩
  · unfold padding
    rw [List.getLast?_append, List.getLast?_replicate, if_neg (by omega)]
    rfl
  · rw [htoInt _ hmod]
    omega
  · rw [htoInt _ hmod]
    unfold paddedLength
    omega

theorem int_of_lt {length : Nat} (hlength : length < 2 ^ 31) : int length = length := by
  unfold int
  rw [Int.bmod_eq_of_le] <;> omega

theorem int_of_le {length : Nat} (hlow : 2 ^ 31 ≤ length) (hhigh : length < 2 ^ 32) :
    int length ≤ 0 := by
  unfold int Int.bmod
  dsimp only
  split_ifs <;> omega

theorem wholeBlocks_paddedLength (length : Nat) :
    wholeBlocks (paddedLength length) = (length / 16 + 1) * AES_BLOCK_SIZE := by
  unfold wholeBlocks paddedLength AES_BLOCK_SIZE
  omega

theorem wholeBlocks_of_nonpos {len : Int} (hlen : len ≤ 0) : wholeBlocks len = 0 := by
  unfold wholeBlocks AES_BLOCK_SIZE
  omega

theorem le_wholeBlocks (length : Nat) : length ≤ wholeBlocks length := by
  unfold wholeBlocks AES_BLOCK_SIZE
  omega

theorem wholeBlocks_int_le_iff {length : Nat} (hlength : length < 2 ^ 31) :
    wholeBlocks (int length) ≤ length ↔ 16 ∣ length := by
  rw [int_of_lt hlength]
  unfold wholeBlocks AES_BLOCK_SIZE
  omega

theorem exists_padded (content : Bytes) :
    ∃ blocks, blocks.length = content.length / 16 + 1 ∧
      content ++ padding content.length = bytesOf blocks := by
  have hlength := length_padded content
  have hwhole : (content.length / 16 + 1) * AES_BLOCK_SIZE ≤
      (content ++ padding content.length).length := Nat.le_of_eq hlength.symm
  obtain ⟨blocks, rest, hcount, hpadded⟩ := exists_bytesOf hwhole
  have hrest : rest.length = 0 := by
    have hsum := congrArg List.length hpadded
    rw [hlength, List.length_append, length_bytesOf, hcount] at hsum
    unfold paddedLength AES_BLOCK_SIZE at hsum
    omega
  rw [List.length_eq_zero_iff.mp hrest, List.append_nil] at hpadded
  exact ⟨blocks, hcount, hpadded⟩

theorem strippable_iff {plain : Bytes} {last : BitVec 8} (hlast : plain.getLast? = some last) :
    Strippable plain ↔ 0 ≤ last.toInt ∧ last.toInt ≤ plain.length := by
  unfold Strippable
  rw [hlast]
  simp

theorem read_append {key rest : Bytes} (hkey : AES_BLOCK_SIZE ≤ key.length) :
    Block.read (key ++ rest) 0 = Block.read key 0 := by
  unfold Block.read
  rw [dif_pos (by rw [List.length_append]; omega), dif_pos (by omega)]
  congr 2
  rw [List.drop_zero, List.drop_zero, List.take_append_of_le_length hkey]

section Overloads

variable {aes : Aes} {content key plain : Bytes}

theorem aesDecrypt_of_plaintext (hplain : plaintext aes content key = some plain) :
    aesDecrypt aes (content ++ [0]) (int content.length) (key ++ [0])
        (List.replicate content.length 0) = some (true, plain) ∧
      plain.length = content.length := by
  obtain ⟨⟨ok, plain⟩, hdecrypt, rfl⟩ := Option.map_eq_some_iff.mp hplain
  obtain ⟨rfl, hlength, -⟩ := fits_of_aesCrypt (advances_decrypt _) aes.exists_decrypt hdecrypt
  exact ⟨hdecrypt, hlength.trans List.length_replicate⟩

theorem exists_plaintext_iff :
    (∃ plain, plaintext aes content key = some plain) ↔
      15 ≤ key.length ∧ wholeBlocks (int content.length) ≤ content.length ∧
        wholeBlocks (int content.length) < 2 ^ 31 := by
  have hadvance := advances_decrypt (int content.length)
  constructor
  · rintro ⟨plain, hplain⟩
    obtain ⟨-, -, hkey, -, hout, hint⟩ :=
      fits_of_aesCrypt hadvance aes.exists_decrypt (aesDecrypt_of_plaintext hplain).1
    rw [List.length_append] at hkey
    rw [List.length_replicate] at hout
    exact ⟨Nat.le_of_succ_le_succ hkey, hout, hint⟩
  · rintro ⟨hkey, hblocks, hint⟩
    have hread : AES_BLOCK_SIZE ≤ (key ++ [0]).length := by
      rw [List.length_append]
      exact Nat.succ_le_succ hkey
    have hinput : wholeBlocks (int content.length) ≤ (content ++ [0]).length :=
      Nat.le_trans hblocks (by simp)
    have hzeros : wholeBlocks (int content.length) ≤
        (List.replicate content.length (0 : BitVec 8)).length := Nat.le_trans hblocks (by simp)
    obtain ⟨out, hdecrypt⟩ := exists_aesCrypt hadvance aes.exists_decrypt hread
      ⟨hinput, hzeros, hint⟩
    exact ⟨out, congrArg (Option.map Prod.snd) hdecrypt⟩

theorem decryptPKCS5_of_last {last : BitVec 8} (hplain : plaintext aes content key = some plain)
    (hlast : plain.getLast? = some last) :
    decryptPKCS5 aes content key =
      if 0 ≤ last.toInt ∧ last.toInt ≤ plain.length then
        some (plain.take (content.length - last.toInt).toNat)
      else none := by
  obtain ⟨hdecrypt, hlength⟩ := aesDecrypt_of_plaintext hplain
  unfold decryptPKCS5
  dsimp only
  rw [hdecrypt, Option.bind_some, if_pos rfl, hlast]
  exact if_congr (by omega) rfl rfl

theorem decryptPKCS5_isSome_iff :
    (∃ out, decryptPKCS5 aes content key = some out) ↔ Decryptable aes content key := by
  constructor
  · rintro ⟨out, hout⟩
    obtain ⟨⟨ok, plain⟩, hdecrypt, hsome⟩ := Option.bind_eq_some_iff.mp hout
    have hplain : plaintext aes content key = some plain :=
      congrArg (Option.map Prod.snd) hdecrypt
    obtain ⟨hkey, hblocks, hint⟩ := exists_plaintext_iff.mp ⟨plain, hplain⟩
    refine ⟨hkey, hblocks, hint, fun other hother => ?_⟩
    obtain rfl : plain = other := Option.some.inj (hplain.symm.trans hother)
    obtain ⟨rfl, -⟩ := fits_of_aesCrypt (advances_decrypt _) aes.exists_decrypt hdecrypt
    obtain ⟨last, hlast, -⟩ := Option.bind_eq_some_iff.mp hsome
    refine (strippable_iff hlast).mpr (Classical.byContradiction fun hnot => ?_)
    rw [decryptPKCS5_of_last hplain hlast, if_neg hnot] at hout
    cases hout
  · rintro ⟨hkey, hblocks, hint, hstrippable⟩
    obtain ⟨plain, hplain⟩ := exists_plaintext_iff.mpr ⟨hkey, hblocks, hint⟩
    obtain ⟨last, hlast, hinside⟩ := hstrippable plain hplain
    exact ⟨_, (decryptPKCS5_of_last hplain hlast).trans (if_pos hinside)⟩

theorem decryptPKCS5_prefix {out : Bytes} (hout : decryptPKCS5 aes content key = some out) :
    out.length ≤ content.length ∧ ∀ plain ∈ plaintext aes content key, out <+: plain := by
  obtain ⟨hkey, hblocks, hint, hstrippable⟩ := decryptPKCS5_isSome_iff.mp ⟨out, hout⟩
  obtain ⟨plain, hplain⟩ : ∃ plain, plaintext aes content key = some plain :=
    exists_plaintext_iff.mpr ⟨hkey, hblocks, hint⟩
  obtain ⟨last, hlast, hinside⟩ := hstrippable plain hplain
  rw [decryptPKCS5_of_last hplain hlast, if_pos hinside] at hout
  obtain rfl := Option.some.inj hout
  refine ⟨?_, fun other hother => ?_⟩
  · rw [← (aesDecrypt_of_plaintext hplain).2]
    exact List.length_take_le' _ _
  · obtain rfl : plain = other := Option.some.inj (hplain.symm.trans hother)
    exact List.take_prefix _ _

theorem stripsPrefix_iff : StripsPrefix aes content key ↔ Decryptable aes content key := by
  rw [← decryptPKCS5_isSome_iff]
  constructor
  · exact fun ⟨out, hout, _⟩ => ⟨out, hout⟩
  · exact fun ⟨out, hout⟩ => ⟨out, hout, decryptPKCS5_prefix hout⟩

theorem roundTrips_of_lt (hfits : paddedLength content.length < 2 ^ 31)
    (hkey : 15 ≤ key.length) : RoundTrips aes content key := by
  intro junk
  have hlength := length_padded content
  obtain ⟨k, hread⟩ := exists_key_iff.mpr (show AES_BLOCK_SIZE ≤ (key ++ [0]).length by
    rw [List.length_append]
    exact Nat.succ_le_succ hkey)
  obtain ⟨blocks, hcount, hblocks⟩ := exists_padded content
  obtain ⟨coded, hcoded, hcrypt⟩ := aes.exists_coded k blocks
  have hwhole : wholeBlocks (int (paddedLength content.length)) =
      blocks.length * AES_BLOCK_SIZE := by
    rw [int_of_lt hfits, wholeBlocks_paddedLength, hcount]
  have hpadded : blocks.length * AES_BLOCK_SIZE = paddedLength content.length := by
    rw [hcount]
    rfl
  have hout : (bytesOf coded).length = paddedLength content.length := by
    rw [length_bytesOf, hcoded, hpadded]
  refine ⟨bytesOf coded, ?_, ?_⟩
  · unfold encryptPKCS5
    dsimp only
    rw [hlength, hblocks, (hcrypt _ _ [0] _ hread hwhole (by rwa [hwhole, hpadded]) ?_).1,
      Option.bind_some, if_pos rfl, if_pos (by omega), ← hout, List.take_left]
    rw [hwhole, hpadded, ← hlength]
    simp only [List.length_append, List.length_replicate, List.length_map, List.length_range]
    omega
  · have hplain : plaintext aes (bytesOf coded) key =
        some (content ++ padding content.length) := by
      unfold plaintext
      rw [hout, (hcrypt _ _ [0] _ hread hwhole (by rwa [hwhole, hpadded]) ?_).2, hblocks, hwhole,
        hpadded, Option.map_some, List.drop_eq_nil_of_le (Nat.le_of_eq List.length_replicate),
        List.append_nil]
      rw [hwhole, hpadded, List.length_replicate]
    obtain ⟨last, hlast, hnonneg, hsize⟩ := getLast?_padded content
    rw [decryptPKCS5_of_last hplain hlast, if_pos (by omega), hout, hsize]
    exact congrArg some List.take_left

/-- From 2 ^ 31 bytes on nothing is encrypted and nothing decrypted, and the 0 that the last
byte stays takes nothing away. -/
theorem lt_of_roundTrips (hround : RoundTrips aes content key) :
    paddedLength content.length < 2 ^ 31 ∧ 15 ≤ key.length := by
  have hlength := length_padded content
  obtain ⟨out, hencrypted, hdecrypted⟩ := hround fun _ => 0
  obtain ⟨hkey, -, -, hstrippable⟩ := decryptPKCS5_isSome_iff.mp ⟨_, hdecrypted⟩
  refine ⟨Nat.not_le.mp fun hover => ?_, hkey⟩
  obtain ⟨⟨ok, ucOut⟩, hencrypt, hout⟩ := Option.bind_eq_some_iff.mp hencrypted
  obtain ⟨rfl, hsame, -⟩ := fits_of_aesCrypt (advances_encrypt _) aes.exists_encrypt hencrypt
  dsimp only at hout
  rw [if_pos rfl] at hout
  split_ifs at hout with hsmall
  rw [hlength] at hsmall
  have hsize : out.length = paddedLength content.length := by
    rw [← Option.some.inj hout, List.length_take, hsame, hlength, ← hlength]
    simp only [List.length_append, List.length_replicate, List.length_map, List.length_range]
    omega
  have hnone : wholeBlocks (int out.length) = ([] : List Block).length * AES_BLOCK_SIZE := by
    rw [hsize, wholeBlocks_of_nonpos (int_of_le hover hsmall)]
    rfl
  obtain ⟨k, hread⟩ := exists_key_iff.mpr (show AES_BLOCK_SIZE ≤ (key ++ [0]).length by
    rw [List.length_append]
    exact Nat.succ_le_succ hkey)
  obtain ⟨cipher, hcipher⟩ := aes.exists_decrypt k
  have hplain : plaintext aes out key = some (List.replicate out.length 0) := by
    have hcrypt : aesDecrypt aes (bytesOf [] ++ (out ++ [0])) (int out.length) (key ++ [0])
        (List.replicate out.length 0) =
          some (true, bytesOf [] ++
            (List.replicate out.length 0).drop (wholeBlocks (int out.length))) :=
      aesCrypt_of_blocks (advances_decrypt (int out.length)) hread hcipher hnone
        (by rw [hnone]; decide) (by rw [hnone]; exact Nat.zero_le _)
    rw [hnone] at hcrypt
    exact congrArg (Option.map Prod.snd) hcrypt
  have hlast : (List.replicate out.length (0 : BitVec 8)).getLast? = some 0 := by
    rw [List.getLast?_replicate, if_neg (by omega)]
  rw [decryptPKCS5_of_last hplain hlast, if_pos (by simp)] at hdecrypted
  have hcontent := congrArg List.length (Option.some.inj hdecrypted)
  have hzero : (0 : BitVec 8).toInt = 0 := rfl
  rw [List.length_take, hzero, List.length_replicate] at hcontent
  unfold paddedLength at hsize
  omega

variable {length : Nat} {room out : Bytes}

theorem decryptPKCS5InPlace_of_last {last : BitVec 8}
    (hdecrypt : aesDecrypt aes content length (key ++ [0]) out = some (true, plain))
    (hlength : length ≤ plain.length) (hlast : (plain.take length).getLast? = some last) :
    decryptPKCS5InPlace aes content length out key = some (length - last.toInt, plain) := by
  unfold decryptPKCS5InPlace
  rw [hdecrypt, Option.bind_some]
  dsimp only
  rw [if_pos rfl]
  rw [List.getLast?_take] at hlast
  split_ifs at hlast ⊢ with hzero
  rw [List.getElem?_eq_getElem (by omega), Option.some_or] at hlast
  rw [List.getElem?_eq_getElem (by omega), hlast]
  rfl

theorem roundTripsInPlace_iff :
    RoundTripsInPlace aes content room key ↔
      paddedLength content.length ≤ content.length + room.length ∧
        paddedLength content.length < 2 ^ 31 ∧ 16 ≤ key.length := by
  have hlength := length_padded content
  have htake : (content ++ room).take content.length = content := List.take_left
  constructor
  · rintro ⟨length, buffer, out, plain, hencrypt, -, -⟩
    unfold encryptPKCS5InPlace at hencrypt
    dsimp only at hencrypt
    rw [htake, hlength, List.length_append] at hencrypt
    split_ifs at hencrypt with hfits
    obtain ⟨⟨ok, out⟩, hcrypt, -⟩ := Option.map_eq_some_iff.mp hencrypt
    exact ⟨hfits.1, hfits.2,
      (fits_of_aesCrypt (advances_encrypt _) aes.exists_encrypt hcrypt).2.2.1⟩
  · rintro ⟨hfits, hint, hkey⟩
    obtain ⟨k, hread⟩ := exists_key_iff.mpr (show AES_BLOCK_SIZE ≤ key.length from hkey)
    obtain ⟨blocks, hcount, hblocks⟩ := exists_padded content
    obtain ⟨coded, hcoded, hcrypt⟩ := aes.exists_coded k blocks
    have hwhole : wholeBlocks (paddedLength content.length) =
        blocks.length * AES_BLOCK_SIZE := by
      rw [wholeBlocks_paddedLength, hcount]
    have hpadded : blocks.length * AES_BLOCK_SIZE = paddedLength content.length := by
      rw [hcount]
      rfl
    have hroom : paddedLength content.length ≤ content.length + 16 := by
      unfold paddedLength
      omega
    obtain ⟨last, hlast, -, hsize⟩ := getLast?_padded content
    have hsmall : wholeBlocks (paddedLength content.length) < 2 ^ 31 := by rwa [hwhole, hpadded]
    have hencrypt := (hcrypt (paddedLength content.length) key
      ((content ++ room).drop (paddedLength content.length))
      (List.replicate (content.length + 16) 0) hread hwhole hsmall
      (by rwa [hwhole, hpadded, List.length_replicate])).1
    obtain ⟨buffer, hencrypted⟩ : ∃ buffer, encryptPKCS5InPlace aes (content ++ room)
        content.length (List.replicate (content.length + 16) 0) key =
        some (paddedLength content.length, buffer, bytesOf coded ++
          (List.replicate (content.length + 16) 0).drop
            (wholeBlocks (paddedLength content.length))) := by
      unfold encryptPKCS5InPlace
      dsimp only
      rw [htake, hlength, List.length_append, if_pos ⟨hfits, hint⟩, hblocks, hencrypt]
      exact ⟨_, rfl⟩
    refine ⟨_, _, _, content ++ padding content.length, hencrypted, ?_, List.take_left⟩
    · have hdecrypt := (hcrypt (paddedLength content.length) (key ++ [0])
        ((List.replicate (content.length + 16) 0).drop (wholeBlocks (paddedLength content.length)))
        (List.replicate (paddedLength content.length) 0)
        ((read_append hkey).trans hread) hwhole hsmall
        (by rw [hwhole, hpadded, List.length_replicate])).2
      have hnone : (List.replicate (paddedLength content.length) (0 : BitVec 8)).drop
          (wholeBlocks (paddedLength content.length)) = [] :=
        List.drop_eq_nil_of_le (by rw [hwhole, hpadded, List.length_replicate])
      rw [hnone, List.append_nil, ← hblocks] at hdecrypt
      rw [← hsize]
      refine decryptPKCS5InPlace_of_last hdecrypt (Nat.le_of_eq hlength.symm) ?_
      rw [← hlength, List.take_length]
      exact hlast

theorem stripsPrefixInPlace_iff :
    StripsPrefixInPlace aes content length out key ↔
      DecryptableInPlace aes content length out key := by
  have hadvance := advances_decrypt length
  constructor
  · rintro ⟨size, plain, hresult, hsize, hle⟩
    obtain ⟨⟨ok, plain⟩, hdecrypt, hsome⟩ := Option.bind_eq_some_iff.mp hresult
    obtain ⟨rfl, hlength, hkey, hfits⟩ :=
      fits_of_aesCrypt hadvance aes.exists_decrypt hdecrypt
    rw [List.length_append] at hkey
    refine ⟨Nat.le_of_succ_le_succ hkey, hfits, fun ok other hother => ?_⟩
    cases hdecrypt.symm.trans hother
    have hin : length ≤ plain.length := hlength ▸ Nat.le_trans (le_wholeBlocks length) hfits.out
    dsimp only at hsome
    rw [if_pos rfl] at hsome
    split_ifs at hsome with hzero
    have hlast : (plain.take length).getLast? = some plain[length - 1] := by
      rw [List.getLast?_take, if_neg hzero, List.getElem?_eq_getElem (by omega), Option.some_or]
    rw [decryptPKCS5InPlace_of_last hdecrypt hin hlast] at hresult
    have heq := congrArg Prod.fst (Option.some.inj hresult)
    dsimp only at heq
    rw [strippable_iff hlast, List.length_take]
    omega
  · rintro ⟨hkey, hfits, hstrippable⟩
    obtain ⟨plain, hdecrypt⟩ := exists_aesCrypt hadvance aes.exists_decrypt
      (show AES_BLOCK_SIZE ≤ (key ++ [0]).length by
        rw [List.length_append]
        exact Nat.succ_le_succ hkey) hfits
    obtain ⟨-, hlength, -⟩ := fits_of_aesCrypt hadvance aes.exists_decrypt hdecrypt
    have hin : length ≤ plain.length := hlength ▸ Nat.le_trans (le_wholeBlocks length) hfits.out
    obtain ⟨last, hlast, hnonneg, hle⟩ := hstrippable true plain hdecrypt
    rw [List.length_take] at hle
    exact ⟨_, plain, decryptPKCS5InPlace_of_last hdecrypt hin hlast, by omega, by omega⟩

end Overloads

theorem pkcs5_iff (aes : Aes) (content room ciphertext buffer out key : Bytes) (length : Nat) :
    (RoundTrips aes content key ↔
        paddedLength content.length < 2 ^ 31 ∧ 15 ≤ key.length) ∧
      (RoundTripsInPlace aes content room key ↔
        paddedLength content.length ≤ content.length + room.length ∧
          paddedLength content.length < 2 ^ 31 ∧ 16 ≤ key.length) ∧
      (StripsPrefix aes ciphertext key ↔ Decryptable aes ciphertext key) ∧
      (StripsPrefixInPlace aes buffer length out key ↔
        DecryptableInPlace aes buffer length out key) :=
  ⟨⟨lt_of_roundTrips, fun ⟨hfits, hkey⟩ => roundTrips_of_lt hfits hkey⟩, roundTripsInPlace_iff,
    stripsPrefix_iff, stripsPrefixInPlace_iff⟩

def Aes.unchanged : Aes where
  encrypt _ := some id
  decrypt _ := some id
  inverse _ := ⟨id, rfl, id, rfl, fun _ => rfl⟩

/-- A key is over-read, a buffer that is full has no room, an empty ciphertext has no last
byte, the second block of 17 bytes is written past them, and a last byte of 0xFF takes away
-1 bytes, one of 0x7F more than there are. -/
theorem pkcs5_fails :
    ¬ RoundTrips Aes.unchanged [] [] ∧
      ¬ RoundTripsInPlace Aes.unchanged (List.replicate 16 0) [] (List.replicate 16 0) ∧
      ¬ StripsPrefix Aes.unchanged [] (List.replicate 16 0) ∧
      ¬ StripsPrefix Aes.unchanged (List.replicate 17 0) (List.replicate 16 0) ∧
      ¬ StripsPrefix Aes.unchanged (List.replicate 16 0xFF) (List.replicate 16 0) ∧
      ¬ StripsPrefixInPlace Aes.unchanged (List.replicate 16 0x7F) 16 (List.replicate 16 0)
        (List.replicate 16 0) := by
  refine ⟨fun hround => ?_, fun hround => ?_, fun hstrips => ?_, fun hstrips => ?_,
    fun hstrips => ?_, fun hstrips => ?_⟩
  · exact absurd (lt_of_roundTrips hround).2 (by decide)
  · exact absurd (roundTripsInPlace_iff.mp hround).1 (by decide)
  · exact absurd ((stripsPrefix_iff.mp hstrips).strippable [] (by decide)) (by decide)
  · have hblocks := (stripsPrefix_iff.mp hstrips).blocks
    exact absurd ((wholeBlocks_int_le_iff (by decide)).mp hblocks) (by decide)
  · exact absurd ((stripsPrefix_iff.mp hstrips).strippable (List.replicate 16 0xFF) (by decide))
      (by decide)
  · exact absurd ((stripsPrefixInPlace_iff.mp hstrips).strippable true (List.replicate 16 0x7F)
      (by decide)) (by decide)

end ApolloContrib.Auth
