import Mathlib.Logic.Equiv.Basic
import ApolloContrib.Auth.Manager
import ApolloContrib.Library.Search

namespace ApolloContrib.Auth

open ApolloContrib.Library
open ApolloContrib.Security (Bytes)

/-! Runs of `AuthProc`. -/

def asksForKey (type : Int) : Bool := type = 0 || type = 2

def asksForToken (type : Int) : Bool := type = 0 || type = 1

section Rounds

variable (p : Platform)

def KeyValid (para : AuthPara) (clock : Clock) : Prop :=
  After (parseStringTime p.mktime para.keyValidTime) clock.checkKey

def TokenValid (para : AuthPara) (clock : Clock) : Prop :=
  After (parseStringTime p.mktime para.tokenValidTime) clock.checkToken

/-- The status says which of key and token is invalid, and where one is the next request
asks for just that. -/
structure Describes (m : AuthManager) (clock : Clock) : Prop where
  authed : m.authStatus = .AUTHED ↔ KeyValid p m.authPara clock ∧ TokenValid p m.authPara clock
  invalidToken : m.authStatus = .INVALID_TOKEN ↔
    KeyValid p m.authPara clock ∧ ¬ TokenValid p m.authPara clock
  invalidKey : m.authStatus = .INVALID_KEY ↔
    ¬ KeyValid p m.authPara clock ∧ TokenValid p m.authPara clock
  invalidAll : m.authStatus = .INVALID_ALL ↔
    ¬ KeyValid p m.authPara clock ∧ ¬ TokenValid p m.authPara clock
  asks : ¬ (KeyValid p m.authPara clock ∧ TokenValid p m.authPara clock) →
    (asksForKey (authType m) = true ↔ ¬ KeyValid p m.authPara clock) ∧
      (asksForToken (authType m) = true ↔ ¬ TokenValid p m.authPara clock)

structure Right (m : AuthManager) (round : Round) (out : Outcome) : Prop where
  succeeded : out.auth = some true → Describes p out.manager round.clock
  failed : out.auth = some false → out.manager = m
  slept : ∀ time ∈ out.slept, 0 ≤ time

def Answers (m : AuthManager) (round : Round) : Prop :=
  ∃ out, authProc p m round = some out ∧ Right p m round out

/-- The round calls `DeviceAuth`. -/
def Authenticates (m : AuthManager) (clock : Clock) : Prop :=
  match m.authStatus with
  | .NONE | .INVALID_ALL | .INVALID_KEY | .INVALID_TOKEN => True
  | .AUTHED =>
      secFromValidTime (parseStringTime p.mktime m.authPara.keyValidTime) clock.secKey <
          VALID_TIME_INTERVAL ∨
        secFromValidTime (parseStringTime p.mktime m.authPara.tokenValidTime) clock.secToken <
          VALID_TIME_INTERVAL
  | .REGISTED => False

/-- A string that is Base64 of whole blocks, and has a padding to strip where it decrypts. -/
def Decodes (encoded key : Bytes) : Prop :=
  ∃ out, parseBase64 p encoded = some out ∧ Decryptable p.aes out key

/-- An answer with all four strings; the key, the token or both are valid. -/
def Complete (root : String → Option Item) (clock : Clock) : Prop :=
  ∃ token key tokenValidTime keyValidTime,
    stringItem root "token" = some token ∧ stringItem root "key" = some key ∧
    stringItem root "tokenvalidtime" = some tokenValidTime ∧
    stringItem root "keyvalidtime" = some keyValidTime ∧
    Decodes p token (getMD516 p (p.id ++ p.mac ++ tokenValidTime)) ∧
    Decodes p key (getMD516 p (p.id ++ p.mac ++ keyValidTime)) ∧
    (After (parseStringTime p.mktime keyValidTime) clock.checkKey ∨
      After (parseStringTime p.mktime tokenValidTime) clock.checkToken)

def Readable (body : Bytes) (clock : Clock) : Prop :=
  0x7B ∈ body ∧
    ∃ root, p.cJSONParse ((body.dropWhile (· ≠ 0x7B)).takeWhile (· ≠ 0)) = some root ∧
      ∃ result, root "result" = some result ∧ (result.valueint ≠ 0 ∨ Complete p root clock)

def Sound (m : AuthManager) (round : Round) : Prop :=
  Authenticates p m round.clock → ∀ body ∈ round.answer, Readable p body round.clock

end Rounds

section Answer

variable {p : Platform} {root : String → Option Item} {clock : Clock} {para para' : AuthPara}

theorem readPara_times (hread : readPara p root = some para) :
    stringItem root "keyvalidtime" = some para.keyValidTime ∧
      stringItem root "tokenvalidtime" = some para.tokenValidTime := by
  unfold readPara at hread
  obtain ⟨tokenValidTime, htokenTime, hread⟩ := Option.bind_eq_some_iff.mp hread
  obtain ⟨keyValidTime, hkeyTime, hread⟩ := Option.bind_eq_some_iff.mp hread
  obtain ⟨_, -, hread⟩ := Option.bind_eq_some_iff.mp hread
  obtain ⟨_, -, hread⟩ := Option.bind_eq_some_iff.mp hread
  obtain ⟨token, -, hread⟩ := Option.bind_eq_some_iff.mp hread
  obtain ⟨key, -, rfl⟩ := Option.map_eq_some_iff.mp hread
  exact ⟨hkeyTime, htokenTime⟩

theorem decodes_iff {encoded key : Bytes} :
    Decodes p encoded key ↔
      ∃ out, parseBase64 p encoded = some out ∧ ∃ plain, decryptPKCS5 p.aes out key = some plain :=
  exists_congr fun _ => and_congr_right fun _ => decryptPKCS5_isSome_iff.symm

theorem complete_iff :
    Complete p root clock ↔
      ∃ para, readPara p root = some para ∧ (KeyValid p para clock ∨ TokenValid p para clock) := by
  constructor
  · rintro ⟨token, key, tokenValidTime, keyValidTime, htoken, hkey, htokenTime, hkeyTime, hdecodes,
      hdecodes', hvalid⟩
    obtain ⟨encryptedToken, hbase64, plainToken, hplain⟩ := decodes_iff.mp hdecodes
    obtain ⟨encryptedKey, hbase64', plainKey, hplain'⟩ := decodes_iff.mp hdecodes'
    refine ⟨⟨plainKey, plainToken, keyValidTime, tokenValidTime⟩, ?_, hvalid⟩
    unfold readPara
    rw [htokenTime, hkeyTime, htoken, hkey, Option.bind_some, Option.bind_some, Option.bind_some,
      Option.bind_some, hbase64, hbase64', Option.bind_some, Option.bind_some, hplain, hplain']
    rfl
  · rintro ⟨para, hread, hvalid⟩
    obtain ⟨hkeyTime, htokenTime⟩ := readPara_times hread
    unfold readPara at hread
    rw [hkeyTime, htokenTime, Option.bind_some, Option.bind_some] at hread
    obtain ⟨encryptedToken, hencrypted, hread⟩ := Option.bind_eq_some_iff.mp hread
    obtain ⟨encryptedKey, hencrypted', hread⟩ := Option.bind_eq_some_iff.mp hread
    obtain ⟨plainToken, hplain, hread⟩ := Option.bind_eq_some_iff.mp hread
    obtain ⟨plainKey, hplain', -⟩ := Option.map_eq_some_iff.mp hread
    obtain ⟨token, htoken, hbase64⟩ := Option.bind_eq_some_iff.mp hencrypted
    obtain ⟨key, hkey, hbase64'⟩ := Option.bind_eq_some_iff.mp hencrypted'
    exact ⟨token, key, para.tokenValidTime, para.keyValidTime, htoken, hkey, htokenTime, hkeyTime,
      decodes_iff.mpr ⟨_, hbase64, _, hplain⟩, decodes_iff.mpr ⟨_, hbase64', _, hplain'⟩, hvalid⟩

/-- What `DeviceAuth` returns for an answer that can be read. -/
def Accepted (p : Platform) (clock : Clock) (para : AuthPara) : Bool × AuthPara → Prop
  | (false, para') => para' = para
  | (true, para') => KeyValid p para' clock ∨ TokenValid p para' clock

theorem readable_iff {body : Bytes} :
    Readable p body clock ↔
      ∃ result, deviceAuth p para (some body) = some result ∧ Accepted p clock para result := by
  unfold deviceAuth
  dsimp only
  by_cases hbrace : (0x7B : BitVec 8) ∈ body
  · rw [Readable, if_pos hbrace, parseResponseBody, and_iff_right hbrace]
    constructor
    · rintro ⟨root, hroot, result, hresult, hcomplete⟩
      rw [hroot, Option.bind_some, hresult, Option.bind_some]
      by_cases hzero : result.valueint = 0
      · obtain ⟨para', hread, hvalid⟩ :=
          complete_iff.mp (hcomplete.resolve_left (not_not.mpr hzero))
        rw [if_neg (not_not.mpr hzero), hread]
        exact ⟨(true, para'), rfl, hvalid⟩
      · rw [if_pos hzero]
        exact ⟨(false, para), rfl, rfl⟩
    · rintro ⟨answer, hanswer, haccepted⟩
      obtain ⟨root, hroot, hanswer⟩ := Option.bind_eq_some_iff.mp hanswer
      obtain ⟨result, hresult, hanswer⟩ := Option.bind_eq_some_iff.mp hanswer
      refine ⟨root, hroot, result, hresult, or_iff_not_imp_left.mpr fun hzero => ?_⟩
      rw [if_neg hzero] at hanswer
      obtain ⟨para', hread, rfl⟩ := Option.map_eq_some_iff.mp hanswer
      exact complete_iff.mpr ⟨para', hread, haccepted⟩
  · rw [if_neg hbrace]
    exact iff_of_false (fun h => hbrace h.1) fun ⟨_, h, _⟩ => nomatch h

theorem deviceAuth_accepted_iff (para : AuthPara) {answer : Option Bytes} :
    (∃ result, deviceAuth p para answer = some result ∧ Accepted p clock para result) ↔
      ∀ body ∈ answer, Readable p body clock := by
  cases answer with
  | none => exact iff_of_true ⟨(false, para), rfl, rfl⟩ nofun
  | some body =>
      rw [← readable_iff]
      exact ⟨fun h _ heq => Option.some.inj heq ▸ h, fun h => h body rfl⟩

theorem deviceAuth_false {answer : Option Bytes}
    (hauth : deviceAuth p para answer = some (false, para')) : para' = para := by
  cases answer with
  | none =>
      cases hauth
      rfl
  | some body =>
      unfold deviceAuth at hauth
      dsimp only at hauth
      by_cases hbrace : (0x7B : BitVec 8) ∈ body
      · rw [if_pos hbrace] at hauth
        unfold parseResponseBody at hauth
        obtain ⟨root, -, hauth⟩ := Option.bind_eq_some_iff.mp hauth
        obtain ⟨result, -, hauth⟩ := Option.bind_eq_some_iff.mp hauth
        split at hauth
        · cases hauth
          rfl
        · obtain ⟨_, -, heq⟩ := Option.map_eq_some_iff.mp hauth
          cases heq
      · rw [if_neg hbrace] at hauth
        cases hauth

end Answer

section Round

variable {p : Platform} {m m' : AuthManager} {round : Round}

/-- The status after an answer that was accepted: `INVALID_ALL` is overwritten at once. -/
def statusAfter (keyValid tokenValid : Bool) : AUTH_STATUS :=
  if keyValid then if tokenValid then .AUTHED else .INVALID_TOKEN else .INVALID_KEY

theorem doDeviceAuth_eq (p : Platform) (m : AuthManager) (round : Round) :
    doDeviceAuth p m round =
      (deviceAuth p m.authPara round.answer).map fun (ok, authPara) =>
        (ok,
          { authStatus :=
              if ok then
                statusAfter (checkKeyValid p ⟨m.authStatus, authPara⟩ round.clock.checkKey)
                  (checkTokenValid p ⟨m.authStatus, authPara⟩ round.clock.checkToken)
              else m.authStatus
            authPara }) := by
  unfold doDeviceAuth statusAfter
  refine congrArg (Option.map · _) (funext fun ⟨ok, para⟩ => ?_)
  cases ok with
  | false => rfl
  | true =>
      dsimp only
      cases checkKeyValid p ⟨m.authStatus, para⟩ round.clock.checkKey <;>
        cases checkTokenValid p ⟨m.authStatus, para⟩ round.clock.checkToken <;> rfl

theorem describes_iff (m : AuthManager) (clock : Clock) :
    Describes p (m.setAuthStatus (statusAfter (checkKeyValid p m clock.checkKey)
        (checkTokenValid p m clock.checkToken))) clock ↔
      KeyValid p m.authPara clock ∨ TokenValid p m.authPara clock := by
  have hkey : checkKeyValid p m clock.checkKey = true ↔ KeyValid p m.authPara clock :=
    checkValidTime_iff _ _
  have htoken : checkTokenValid p m clock.checkToken = true ↔ TokenValid p m.authPara clock :=
    checkValidTime_iff _ _
  constructor
  · intro hdescribes
    by_contra hnone
    obtain ⟨hnoKey, hnoToken⟩ := not_or.mp hnone
    have hstatus := hdescribes.invalidAll.mpr ⟨hnoKey, hnoToken⟩
    rw [Bool.eq_false_iff.mpr (mt hkey.mp hnoKey)] at hstatus
    cases hstatus
  · intro hvalid
    cases hkeyValid : checkKeyValid p m clock.checkKey with
    | true =>
        have hkeyTrue := hkey.mp hkeyValid
        cases htokenValid : checkTokenValid p m clock.checkToken with
        | true => constructor <;> simp [statusAfter, hkeyTrue, htoken.mp htokenValid]
        | false =>
            have htokenFalse : ¬ TokenValid p m.authPara clock :=
              fun h => Bool.eq_false_iff.mp htokenValid (htoken.mpr h)
            constructor <;>
              simp [statusAfter, hkeyTrue, htokenFalse, authType, asksForKey, asksForToken]
    | false =>
        have hkeyFalse : ¬ KeyValid p m.authPara clock :=
          fun h => Bool.eq_false_iff.mp hkeyValid (hkey.mpr h)
        have htokenTrue := hvalid.resolve_left hkeyFalse
        constructor <;>
          simp [statusAfter, hkeyFalse, htokenTrue, authType, asksForKey, asksForToken]

/-- What `DoDeviceAuth` does is right just when `DeviceAuth` returns and the answer leaves the
key or the token valid. -/
theorem doDeviceAuth_iff :
    (∃ ok m', doDeviceAuth p m round = some (ok, m') ∧
        (ok = true → Describes p m' round.clock) ∧ (ok = false → m' = m)) ↔
      ∀ body ∈ round.answer, Readable p body round.clock := by
  rw [← deviceAuth_accepted_iff m.authPara, doDeviceAuth_eq]
  constructor
  · rintro ⟨ok, m', hauth, hright, -⟩
    obtain ⟨⟨ok, para⟩, hdevice, heq⟩ := Option.map_eq_some_iff.mp hauth
    cases heq
    refine ⟨(ok, para), hdevice, ?_⟩
    cases ok with
    | false => exact deviceAuth_false hdevice
    | true => exact (describes_iff ⟨m.authStatus, para⟩ round.clock).mp (hright rfl)
  · rintro ⟨⟨ok, para⟩, hdevice, haccepted⟩
    rw [hdevice]
    refine ⟨_, _, rfl, fun hok => ?_, fun hok => ?_⟩
    · obtain rfl : ok = true := hok
      exact (describes_iff ⟨m.authStatus, para⟩ round.clock).mpr haccepted
    · obtain rfl : ok = false := hok
      obtain rfl : para = m.authPara := haccepted
      rfl

theorem authProc_of_authenticates (hauth : Authenticates p m round.clock) :
    ∃ slept : Option Int, (∀ time ∈ slept, 0 ≤ time) ∧
      authProc p m round = (doDeviceAuth p m round).map fun (ok, m') => ⟨m', some ok, slept⟩ := by
  unfold Authenticates at hauth
  unfold authProc
  cases hstatus : m.authStatus with
  | NONE | INVALID_ALL | INVALID_KEY | INVALID_TOKEN => exact ⟨none, nofun, rfl⟩
  | REGISTED =>
      rw [hstatus] at hauth
      exact hauth.elim
  | AUTHED =>
      rw [hstatus] at hauth
      refine ⟨some 1, by decide, ?_⟩
      dsimp only at hauth ⊢
      rcases hauth with hkey | htoken
      · rw [if_pos hkey]
      · rw [if_pos htoken, ite_self]

/-- Both times lie at least `VALID_TIME_INTERVAL` ahead where the thread sleeps until then. -/
theorem authProc_of_not_authenticates (hauth : ¬ Authenticates p m round.clock) :
    ∃ slept : Option Int, (∀ time ∈ slept, 0 ≤ time) ∧
      authProc p m round = some ⟨m, none, slept⟩ := by
  unfold Authenticates at hauth
  unfold authProc
  cases hstatus : m.authStatus with
  | NONE | INVALID_ALL | INVALID_KEY | INVALID_TOKEN =>
      rw [hstatus] at hauth
      exact absurd trivial hauth
  | REGISTED => exact ⟨none, nofun, rfl⟩
  | AUTHED =>
      rw [hstatus] at hauth
      obtain ⟨hkey, htoken⟩ := not_or.mp hauth
      dsimp only
      rw [if_neg hkey, if_neg htoken]
      refine ⟨some _, fun time htime => ?_, rfl⟩
      cases htime
      split_ifs <;> omega

theorem answers_iff : Answers p m round ↔ Sound p m round := by
  by_cases hauth : Authenticates p m round.clock
  · obtain ⟨slept, hslept, hproc⟩ := authProc_of_authenticates hauth
    rw [Sound, forall_prop_of_true hauth, ← doDeviceAuth_iff (m := m)]
    constructor
    · rintro ⟨out, hout, hright⟩
      rw [hproc] at hout
      obtain ⟨⟨ok, m'⟩, hdevice, rfl⟩ := Option.map_eq_some_iff.mp hout
      exact ⟨ok, m', hdevice, fun hok => hright.succeeded (congrArg some hok),
        fun hok => hright.failed (congrArg some hok)⟩
    · rintro ⟨ok, m', hdevice, hsucceeded, hfailed⟩
      refine ⟨⟨m', some ok, slept⟩, ?_, fun hok => hsucceeded (Option.some.inj hok),
        fun hok => hfailed (Option.some.inj hok), hslept⟩
      rw [hproc, hdevice]
      rfl
  · obtain ⟨slept, hslept, hproc⟩ := authProc_of_not_authenticates hauth
    exact iff_of_true ⟨_, hproc, nofun, nofun, hslept⟩ fun h => absurd h hauth

end Round

theorem authProc_iff (p : Platform) (m : AuthManager) (rounds : List Round) :
    ((∃ final, run (authStep p) m rounds = some final) ∧
        StepsMeet (authStep p) (Answers p) m rounds) ↔
      StepsMeet (authStep p) (Sound p) m rounds := by
  have hiff : StepsMeet (authStep p) (Answers p) m rounds ↔
      StepsMeet (authStep p) (Sound p) m rounds :=
    stepsMeet_congr fun _ _ => answers_iff
  rw [← hiff]
  refine and_iff_right_of_imp fun hmeet => ?_
  have htaken {state : AuthManager} {round : Round} (_ : True) (hanswers : Answers p state round) :
      ∃ next, authStep p state round = some next ∧ True := by
    obtain ⟨out, hout, -⟩ := hanswers
    exact ⟨out.manager, congrArg (Option.map Outcome.manager) hout, trivial⟩
  exact run_total htaken trivial hmeet

def Aes.swap (x y : Block) : Aes where
  encrypt _ := some (Equiv.swap x y)
  decrypt _ := some (Equiv.swap x y)
  inverse _ := ⟨_, rfl, _, rfl, Equiv.swap_apply_self x y⟩

def sampleTime : Bytes := ascii "20180101000000000"

def sampleBase64 : Bytes := ascii "zDMs6X4GDpQIMCkdJzb8wQ=="

def longBase64 : Bytes := ascii "AAAAAAAAAAAAAAAAAAAAAAA="

def sampleCipher : Block where
  bytes := [0xcc, 0x33, 0x2c, 0xe9, 0x7e, 0x06, 0x0e, 0x94, 0x08, 0x30, 0x29, 0x1d, 0x27, 0x36,
    0xfc, 0xc1]
  length_bytes := rfl

def samplePlain : Block where
  bytes := ascii "key" ++ padding 3
  length_bytes := by decide

def sampleReply (token : Bytes) : Bytes :=
  ascii "\x7b\"result\":0,\"token\":\"" ++ token ++
    ascii "\",\"tokenvalidtime\":\"" ++ sampleTime ++ ascii "\",\"key\":\"" ++ sampleBase64 ++
    ascii "\",\"keyvalidtime\":\"" ++ sampleTime ++ ascii "\"\x7d"

def sampleRoot (token : Bytes) (name : String) : Option Item :=
  if name = "result" then some ⟨0, none⟩
  else if name = "token" then some ⟨0, some token⟩
  else if name = "key" then some ⟨0, some sampleBase64⟩
  else if name = "tokenvalidtime" ∨ name = "keyvalidtime" then some ⟨0, some sampleTime⟩
  else none

/-- The answers of the libraries to what the four answers below lead to. -/
def samplePlatform : Platform where
  id := []
  mac := []
  cJSONParse text :=
    if text = sampleReply sampleBase64 then some (sampleRoot sampleBase64)
    else if text = sampleReply longBase64 then some (sampleRoot longBase64)
    else none
  md5 _ i := #v[(0xbc : BitVec 8), 0xd5, 0x28, 0x7e, 0x4e, 0xef, 0x8a, 0x58, 0x0f, 0x21, 0x04, 0x91,
    0xe3, 0xd2, 0x37, 0x93].get i
  bioRead text :=
    if text = sampleBase64 then some sampleCipher.bytes
    else if text = longBase64 then some (List.replicate 17 0)
    else some []
  aes := Aes.swap sampleCipher samplePlain
  mktime tm := if tm = ⟨118, 0, 1, 0, 0, 0⟩ then 1514764800 else -1

def sampleClock : Clock :=
  ⟨⟨1514764805, 0⟩, ⟨1514764805, 0⟩, ⟨1514764805, 0⟩, ⟨1514764805, 0⟩⟩

theorem not_answers_of_none {p : Platform} {m : AuthManager} {round : Round}
    (hnone : authProc p m round = none) : ¬ Answers p m round := by
  rintro ⟨out, hout, -⟩
  exact nomatch hnone.symm.trans hout

/-- Without a brace in the text `substr` throws, where the text is no JSON a null pointer is
followed, a token of 17 bytes is decrypted past its buffer, and where key and token are both
past their times only the key is called invalid. -/
theorem authProc_fails :
    ¬ StepsMeet (authStep samplePlatform) (Answers samplePlatform) .start
        [⟨some (ascii "404"), sampleClock⟩] ∧
      ¬ StepsMeet (authStep samplePlatform) (Answers samplePlatform) .start
        [⟨some (ascii "\x7b"), sampleClock⟩] ∧
      ¬ StepsMeet (authStep samplePlatform) (Answers samplePlatform) .start
        [⟨some (sampleReply longBase64), sampleClock⟩] ∧
      ¬ StepsMeet (authStep samplePlatform) (Answers samplePlatform) .start
        [⟨some (sampleReply sampleBase64), sampleClock⟩] := by
  refine ⟨fun hmeet => ?_, fun hmeet => ?_, fun hmeet => ?_, fun hmeet => ?_⟩
  · exact not_answers_of_none (by decide +kernel) (stepsMeet_cons.mp hmeet).1
  · exact not_answers_of_none (by decide +kernel) (stepsMeet_cons.mp hmeet).1
  · exact not_answers_of_none (by decide +kernel) (stepsMeet_cons.mp hmeet).1
  · obtain ⟨out, hout, hright⟩ := (stepsMeet_cons.mp hmeet).1
    have hauth : (authProc samplePlatform .start
        ⟨some (sampleReply sampleBase64), sampleClock⟩).map
        (fun out => (out.auth, out.manager.authStatus, checkKeyValid samplePlatform out.manager
          sampleClock.checkKey, checkTokenValid samplePlatform out.manager
          sampleClock.checkToken)) = some (some true, .INVALID_KEY, false, false) := by
      decide +kernel
    rw [hout] at hauth
    obtain ⟨hok, hrest⟩ := Prod.mk.inj (Option.some.inj hauth)
    obtain ⟨hstatus, hrest⟩ := Prod.mk.inj hrest
    obtain ⟨hkey, htoken⟩ := Prod.mk.inj hrest
    have hall := (hright.succeeded hok).invalidAll.mpr
      ⟨fun h => Bool.eq_false_iff.mp hkey ((checkValidTime_iff _ _).mpr h),
        fun h => Bool.eq_false_iff.mp htoken ((checkValidTime_iff _ _).mpr h)⟩
    exact nomatch hstatus.symm.trans hall

end ApolloContrib.Auth
