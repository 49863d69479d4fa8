import ApolloContrib.Library.Access
import ApolloContrib.Library.Hex

namespace ApolloContrib.Uu

open ApolloContrib.Library

/-! `UuSend::TimerExpired`: how the identity gets into the message that is sent. -/

abbrev Bytes := List (BitVec 8)

inductive Fault where
  /-- An array on the stack is written past its end. -/
  | overflow
deriving DecidableEq

structure BsmParam where
  msgCnt : Nat
  id : Bytes
  posLat : BitVec 32
  posLon : BitVec 32
  token : Bytes
deriving DecidableEq

structure Stack where
  id : Bytes
  token : Bytes
  idLength : id.length = 8
  tokenLength : token.length = 4

section Model

variable (zeroX : Option (BitVec 8))

/-- `sscanf(text.c_str() + (2 * i), "%2hhx", array + i)`. -/
def scanPair (text array : Bytes) (i : Nat) : Except Fault Bytes :=
  match scanHex zeroX (text.drop (2 * i)) with
  | none => .ok array
  | some byte => if i < array.length then .ok (array.set i byte) else .error .overflow

/-- The loop that is there once for each of the arrays. -/
def scanPairs (text array : Bytes) : Except Fault Bytes :=
  (List.range (text.length / 2)).foldlM (scanPair zeroX text) array

variable (deviceId authToken : Bytes)

def fillBsmParam (position : BitVec 32 × BitVec 32) (msgCnt : Nat) (stack : Stack) :
    Except Fault BsmParam := do
  let id ← scanPairs zeroX deviceId stack.id
  let token ← scanPairs zeroX authToken stack.token
  return ⟨if msgCnt = 127 then 0 else msgCnt, id, position.1, position.2, token⟩

/-- The count that is kept and what is sent. `position` is there when the status of the car is
known or `uu_debug` is set; `encode` is what the encoding and the encryption make of the
parameters, if they make anything. -/
def timerExpired (encode : BsmParam → Option Bytes) (position : Option (BitVec 32 × BitVec 32))
    (msgCnt : Nat) (stack : Stack) : Except Fault (Nat × Option Bytes) :=
  match position with
  | none => .ok (msgCnt, none)
  | some position => do
      let para ← fillBsmParam zeroX deviceId authToken position msgCnt stack
      return (para.msgCnt + 1, encode para)

structure Meets : Prop where
  contained : ∀ encode position msgCnt stack,
    Stays (timerExpired zeroX deviceId authToken encode position msgCnt stack)
  id : ∀ bytes, hexDecode 8 deviceId = some bytes → ∀ position msgCnt stack para,
    fillBsmParam zeroX deviceId authToken position msgCnt stack = .ok para → para.id = bytes
  token : ∀ bytes, hexDecode 4 authToken = some bytes → ∀ position msgCnt stack para,
    fillBsmParam zeroX deviceId authToken position msgCnt stack = .ok para → para.token = bytes
  independent : ∀ encode position msgCnt stack other,
    timerExpired zeroX deviceId authToken encode position msgCnt stack =
      timerExpired zeroX deviceId authToken encode position msgCnt other

/-- Each of the first `size` pairs of the text is read, and no pair behind them. -/
structure Fills (text : Bytes) (size : Nat) : Prop where
  room : 2 * size ≤ text.length
  reads : ∀ i, i < size → scanHex zeroX (text.drop (2 * i)) ≠ none
  ends : ∀ i, size ≤ i → i < text.length / 2 → scanHex zeroX (text.drop (2 * i)) = none

end Model

section Pairs

variable {zeroX : Option (BitVec 8)} {text array out : Bytes}

theorem stays_scanPair {i : Nat} : Stays (scanPair zeroX text array i) ↔
    (array.length ≤ i → scanHex zeroX (text.drop (2 * i)) = none) := by
  unfold scanPair
  cases scanHex zeroX (text.drop (2 * i)) with
  | none => exact iff_of_true (stays_ok array) fun _ => rfl
  | some byte =>
      dsimp only
      split
      next hi => exact iff_of_true (stays_ok _) fun h => absurd hi (Nat.not_lt.mpr h)
      next hi => exact iff_of_false (not_stays_error _) fun h => nomatch h (Nat.not_lt.mp hi)

theorem scanPair_getElem? {i k : Nat} (h : scanPair zeroX text array i = .ok out) :
    out.length = array.length ∧ (k < array.length → out[k]? =
      if k = i then (scanHex zeroX (text.drop (2 * i))).or array[k]? else array[k]?) := by
  unfold scanPair at h
  cases hscan : scanHex zeroX (text.drop (2 * i)) with
  | none =>
      rw [hscan] at h
      obtain rfl := Except.ok.inj h
      exact ⟨rfl, fun _ => (ite_self _).symm⟩
  | some byte =>
      rw [hscan] at h
      dsimp only at h
      split at h
      next hi =>
        obtain rfl := Except.ok.inj h
        refine ⟨List.length_set, fun hk => ?_⟩
        split
        next heq =>
          subst heq
          rw [List.getElem?_set_self hk]
          rfl
        next hne => exact List.getElem?_set_ne (Ne.symm hne)
      next => exact nomatch h

theorem stays_scanPairs : Stays (scanPairs zeroX text array) ↔
    ∀ i, array.length ≤ i → i < text.length / 2 → scanHex zeroX (text.drop (2 * i)) = none := by
  have hloop : Stays (scanPairs zeroX text array) ↔ ∀ i ∈ List.range (text.length / 2),
      array.length ≤ i → scanHex zeroX (text.drop (2 * i)) = none := by
    refine stays_foldlM_iff (fun _ written => written.length = array.length) ?_ rfl
    intro i rest written hlength
    refine ⟨hlength ▸ stays_scanPair, fun next hnext => ?_⟩
    exact (scanPair_getElem? hnext (k := i)).1.trans hlength
  rw [hloop]
  exact ⟨fun h i hlong hi => h i (List.mem_range.mpr hi) hlong,
    fun h i hi hlong => h i hlong (List.mem_range.mp hi)⟩

theorem scanPairs_getElem? (h : scanPairs zeroX text array = .ok out) :
    out.length = array.length ∧ ∀ k, k < array.length → out[k]? =
      if k < text.length / 2 then (scanHex zeroX (text.drop (2 * k))).or array[k]?
      else array[k]? := by
  unfold scanPairs at h
  generalize text.length / 2 = n at h ⊢
  induction n generalizing out with
  | zero =>
      cases h
      exact ⟨rfl, fun _ _ => rfl⟩
  | succ n ih =>
      rw [List.range_succ, List.foldlM_append] at h
      obtain ⟨written, hwritten, hlast⟩ := bind_eq_ok.mp h
      obtain ⟨last, hscan, hout⟩ := bind_eq_ok.mp hlast
      obtain rfl := Except.ok.inj hout
      obtain ⟨hlength, hbytes⟩ := ih hwritten
      refine ⟨(scanPair_getElem? hscan (k := n)).1.trans hlength, fun k hk => ?_⟩
      rw [(scanPair_getElem? hscan).2 (hlength ▸ hk), hbytes k hk]
      by_cases heq : k = n
      · subst heq
        rw [if_pos rfl, if_neg (Nat.lt_irrefl k), if_pos (Nat.lt_succ_self k)]
      · rw [if_neg heq]
        congr 1
        simp only [eq_iff_iff]
        omega

variable {other : Bytes} {size : Nat}

theorem stays_of_fills (h : Fills zeroX text size) (harray : array.length = size) :
    Stays (scanPairs zeroX text array) :=
  stays_scanPairs.mpr fun i hi => h.ends i (harray ▸ hi)

theorem scanPairs_congr (h : Fills zeroX text size) (harray : array.length = size)
    (hother : other.length = size) : scanPairs zeroX text array = scanPairs zeroX text other := by
  obtain ⟨out, hout⟩ := stays_of_fills h harray
  obtain ⟨out', hout'⟩ := stays_of_fills h hother
  obtain ⟨hlength, hbytes⟩ := scanPairs_getElem? hout
  obtain ⟨hlength', hbytes'⟩ := scanPairs_getElem? hout'
  have hsame : out = out' := by
    apply List.ext_getElem?
    intro i
    by_cases hi : i < size
    · have hpair : i < text.length / 2 := by
        have hroom := h.room
        omega
      obtain ⟨byte, hbyte⟩ := Option.ne_none_iff_exists'.mp (h.reads i hi)
      rw [hbytes i (harray ▸ hi), hbytes' i (hother ▸ hi), if_pos hpair, if_pos hpair, hbyte]
      rfl
    · rw [List.getElem?_eq_none (by omega), List.getElem?_eq_none (by omega)]
  rw [hout, hout', hsame]

/-- Arrays that differ everywhere and end the same have been written everywhere. -/
theorem fills_of_eq (hout : scanPairs zeroX text (List.replicate size 0) = .ok out)
    (hother : scanPairs zeroX text (List.replicate size 1) = .ok out) :
    Fills zeroX text size := by
  have hends := stays_scanPairs.mp ⟨out, hout⟩
  rw [List.length_replicate] at hends
  have hreads (i : Nat) (hi : i < size) :
      i < text.length / 2 ∧ scanHex zeroX (text.drop (2 * i)) ≠ none := by
    have hzero := (scanPairs_getElem? hout).2 i (by rwa [List.length_replicate])
    have hone := (scanPairs_getElem? hother).2 i (by rwa [List.length_replicate])
    rw [List.getElem?_replicate_of_lt hi] at hzero hone
    rw [hzero] at hone
    split at hone
    next hpair =>
      refine ⟨hpair, fun hnone => ?_⟩
      rw [hnone] at hone
      exact absurd (Option.some.inj hone) (by decide)
    next => exact absurd (Option.some.inj hone) (by decide)
  refine ⟨?_, fun i hi => (hreads i hi).2, hends⟩
  cases size with
  | zero => exact Nat.zero_le _
  | succ size =>
      have hlast := (hreads size (Nat.lt_succ_self size)).1
      omega

theorem scanPairs_of_hexDecode {bytes : Bytes} (hbytes : hexDecode size text = some bytes)
    (harray : array.length = size) (hout : scanPairs zeroX text array = .ok out) :
    out = bytes := by
  obtain ⟨hroom, hlength, hpairs⟩ := scanHex_of_hexDecode zeroX hbytes
  obtain ⟨houtLength, houtBytes⟩ := scanPairs_getElem? hout
  apply List.ext_getElem?
  intro i
  by_cases hi : i < size
  · rw [houtBytes i (harray ▸ hi), if_pos (by omega), hpairs i hi,
      List.getElem?_eq_getElem (hlength ▸ hi)]
    rfl
  · rw [List.getElem?_eq_none (by omega), List.getElem?_eq_none (by omega)]

end Pairs

section Identity

variable {zeroX : Option (BitVec 8)} {deviceId authToken : Bytes}

theorem fillBsmParam_eq_ok {position : BitVec 32 × BitVec 32} {msgCnt : Nat} {stack : Stack}
    {para : BsmParam}
    (h : fillBsmParam zeroX deviceId authToken position msgCnt stack = .ok para) :
    scanPairs zeroX deviceId stack.id = .ok para.id ∧
      scanPairs zeroX authToken stack.token = .ok para.token := by
  obtain ⟨id, hid, h⟩ := bind_eq_ok.mp h
  obtain ⟨token, htoken, h⟩ := bind_eq_ok.mp h
  obtain rfl := Except.ok.inj h
  exact ⟨hid, htoken⟩

def Stack.of (byte : BitVec 8) : Stack := ⟨List.replicate 8 byte, List.replicate 4 byte, rfl, rfl⟩

theorem Meets.fills (h : Meets zeroX deviceId authToken) :
    Fills zeroX deviceId 8 ∧ Fills zeroX authToken 4 := by
  have hfilled (byte : BitVec 8) :
      ∃ para, fillBsmParam zeroX deviceId authToken (0, 0) 0 (Stack.of byte) = .ok para := by
    obtain ⟨para, hpara, -⟩ :=
      stays_bind.mp (h.contained (fun _ => none) (some (0, 0)) 0 (Stack.of byte))
    exact ⟨para, hpara⟩
  obtain ⟨para, hpara⟩ := hfilled 0
  obtain ⟨other, hother⟩ := hfilled 1
  have hsame (encode : BsmParam → Option Bytes) : encode para = encode other := by
    have hsent := h.independent encode (some (0, 0)) 0 (Stack.of 0) (Stack.of 1)
    simp only [timerExpired, hpara, hother] at hsent
    exact (Prod.ext_iff.mp (Except.ok.inj hsent)).2
  have hid : para.id = other.id := Option.some.inj (hsame fun para => some para.id)
  have htoken : para.token = other.token := Option.some.inj (hsame fun para => some para.token)
  obtain ⟨hzeroId, hzeroToken⟩ := fillBsmParam_eq_ok hpara
  obtain ⟨honeId, honeToken⟩ := fillBsmParam_eq_ok hother
  exact ⟨fills_of_eq hzeroId (hid ▸ honeId), fills_of_eq hzeroToken (htoken ▸ honeToken)⟩

/-- The identity fields carry only the identity exactly when 8 pairs of the id and 4 of the token
are read, and no more. -/
theorem identity_iff (zeroX : Option (BitVec 8)) (deviceId authToken : Bytes) :
    Meets zeroX deviceId authToken ↔ Fills zeroX deviceId 8 ∧ Fills zeroX authToken 4 := by
  refine ⟨Meets.fills, fun ⟨hid, htoken⟩ => ⟨?_, ?_, ?_, ?_⟩⟩
  · intro encode position msgCnt stack
    cases position with
    | none => exact stays_ok _
    | some position =>
        obtain ⟨id, hscanId⟩ := stays_of_fills hid stack.idLength
        obtain ⟨token, hscanToken⟩ := stays_of_fills htoken stack.tokenLength
        simp only [timerExpired, fillBsmParam, hscanId, hscanToken]
        exact stays_ok _
  · intro bytes hbytes position msgCnt stack para hpara
    exact scanPairs_of_hexDecode hbytes stack.idLength (fillBsmParam_eq_ok hpara).1
  · intro bytes hbytes position msgCnt stack para hpara
    exact scanPairs_of_hexDecode hbytes stack.tokenLength (fillBsmParam_eq_ok hpara).2
  · intro encode position msgCnt stack other
    unfold timerExpired fillBsmParam
    rw [scanPairs_congr hid stack.idLength other.idLength,
      scanPairs_congr htoken stack.tokenLength other.tokenLength]

/-- The text of so many digits `0`. -/
def zeros (length : Nat) : Bytes := List.replicate length 0x30

/-- An id that is too short leaves bytes of the stack in the message, and one that is too long
is written past the array. -/
theorem identity_fails :
    ¬ Meets none (zeros 4) (zeros 8) ∧ ¬ Meets none (zeros 18) (zeros 8) := by
  constructor
  · intro h
    exact absurd h.fills.1.room (by decide)
  · intro h
    exact absurd (h.fills.1.ends 8 (by decide) (by decide)) (by decide)

end Identity

end ApolloContrib.Uu
