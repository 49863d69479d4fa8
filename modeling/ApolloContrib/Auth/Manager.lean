import ApolloContrib.Auth.Padding
import ApolloContrib.Library.Run

namespace ApolloContrib.Auth

open ApolloContrib.Library
open ApolloContrib.Security (Bytes)

/-! `AuthManager` of `auth_manager.cc`. -/

inductive AUTH_STATUS where
  | NONE
  | REGISTED
  | AUTHED
  | INVALID_ALL
  | INVALID_KEY
  | INVALID_TOKEN
deriving DecidableEq, Repr

structure AuthPara where
  key : Bytes
  token : Bytes
  keyValidTime : Bytes
  tokenValidTime : Bytes
deriving DecidableEq, Repr

structure AuthManager where
  authStatus : AUTH_STATUS
  authPara : AuthPara
deriving DecidableEq, Repr

def AuthManager.setAuthStatus (m : AuthManager) (status : AUTH_STATUS) : AuthManager :=
  { m with authStatus := status }

@[simp] theorem AuthManager.setAuthStatus_authStatus (m : AuthManager) (status : AUTH_STATUS) :
    (m.setAuthStatus status).authStatus = status := rfl

@[simp] theorem AuthManager.setAuthStatus_authPara (m : AuthManager) (status : AUTH_STATUS) :
    (m.setAuthStatus status).authPara = m.authPara := rfl

def AuthManager.start : AuthManager := ⟨.NONE, ⟨[], [], [], []⟩⟩

structure TimeVal where
  sec : Int
  usec : Int
deriving DecidableEq, Repr

structure Tm where
  year : Int
  mon : Int
  mday : Int
  hour : Int
  min : Int
  sec : Int
deriving DecidableEq, Repr

def isSpace (c : BitVec 8) : Bool := c = 0x20 || (0x09 ≤ c && c ≤ 0x0D)

def isDigit (c : BitVec 8) : Bool := 0x30 ≤ c && c ≤ 0x39

def decimal (digits : Bytes) : Int :=
  digits.foldl (fun value c => 10 * value + ((c - 0x30).toNat : Int)) 0

/-- `%<width>d`: the number, and the text behind it. -/
def scanInt (width : Nat) (text : Bytes) : Option (Int × Bytes) :=
  let text := text.dropWhile isSpace
  let field := text.take width
  let signs := field.take 1 |>.filter fun c => c = 0x2B || c = 0x2D
  let digits := (field.drop signs.length).takeWhile isDigit
  if digits = [] then none
  else
    some (if signs = [0x2D] then -decimal digits else decimal digits,
      text.drop (signs.length + digits.length))

/-- The numbers that are read; `sscanf` stops at the first that is not there. -/
def scanInts : List Nat → Bytes → List Int
  | [], _ => []
  | width :: widths, text =>
      match scanInt width text with
      | none => []
      | some (value, text) => value :: scanInts widths text

def parseStringTime (mktime : Tm → Int) (time : Bytes) : TimeVal :=
  let fields := scanInts [4, 2, 2, 2, 2, 2, 3] (time.takeWhile (· ≠ 0))
  let field i := fields.getD i 0
  ⟨mktime ⟨field 0 - 1900, field 1 - 1, field 2, field 3, field 4, field 5⟩, field 6 * 1000⟩

def VALID_TIME_INTERVAL : Int := 30

def secFromValidTime (valid now : TimeVal) : Int := valid.sec - now.sec + 1

def checkValidTime (valid now : TimeVal) : Bool :=
  if valid.sec - now.sec < 0 then false
  else if valid.sec - now.sec = 0 then
    if valid.usec - now.usec ≤ 0 then false else true
  else true

def After (valid now : TimeVal) : Prop :=
  now.sec < valid.sec ∨ now.sec = valid.sec ∧ now.usec < valid.usec

instance (valid now : TimeVal) : Decidable (After valid now) :=
  inferInstanceAs (Decidable (_ ∨ _))

theorem checkValidTime_iff (valid now : TimeVal) :
    checkValidTime valid now = true ↔ After valid now := by
  unfold checkValidTime After
  split_ifs <;> simp <;> omega

structure Item where
  valueint : Int
  valuestring : Option Bytes
deriving DecidableEq, Repr

/-- The device, and the libraries: an object of `cJSON_Parse` is what
`cJSON_GetObjectItem` finds in it, and `bioRead` is what `BIO_read` decodes, nothing when
it returns a negative number. -/
structure Platform where
  id : Bytes
  mac : Bytes
  cJSONParse : Bytes → Option (String → Option Item)
  md5 : Bytes → Fin 16 → BitVec 8
  bioRead : Bytes → Option Bytes
  aes : Aes
  mktime : Tm → Int

def hexDigit (n : Nat) : BitVec 8 :=
  if n < 10 then BitVec.ofNat 8 (0x30 + n) else BitVec.ofNat 8 (0x41 + (n - 10))

section Model

variable (p : Platform)

def getMD532 (input : Bytes) : Bytes :=
  (List.finRange 16).flatMap fun i =>
    let byte := p.md5 (input.takeWhile (· ≠ 0)) i
    [hexDigit (byte.toNat / 16), hexDigit (byte.toNat % 16)]

def getMD516 (input : Bytes) : Bytes := ((getMD532 p input).drop 8).take 16

/-- There is no result when a length is negative or the closing 0 is written outside the
buffer. -/
def parseBase64 (input : Bytes) : Option Bytes :=
  (p.bioRead input).bind fun out => if out.length < input.length then some out else none

/-- `cJSON_GetObjectItem(root, name)->valuestring` as a `std::string`. -/
def stringItem (root : String → Option Item) (name : String) : Option Bytes :=
  (root name).bind Item.valuestring

def readPara (root : String → Option Item) : Option AuthPara :=
  (stringItem root "tokenvalidtime").bind fun tokenValidTime =>
  (stringItem root "keyvalidtime").bind fun keyValidTime =>
  let keyToken := getMD516 p (p.id ++ p.mac ++ tokenValidTime)
  let keyKey := getMD516 p (p.id ++ p.mac ++ keyValidTime)
  ((stringItem root "token").bind (parseBase64 p)).bind fun encryptedToken =>
  ((stringItem root "key").bind (parseBase64 p)).bind fun encryptedKey =>
  (decryptPKCS5 p.aes encryptedToken keyToken).bind fun token =>
  (decryptPKCS5 p.aes encryptedKey keyKey).map fun key =>
    ⟨key, token, keyValidTime, tokenValidTime⟩

/-- There is no result when a null item is dereferenced or a string made of a null
pointer. -/
def parseResponseBody (para : AuthPara) (response : Bytes) : Option (Bool × AuthPara) :=
  (p.cJSONParse (response.takeWhile (· ≠ 0))).bind fun root =>
  (root "result").bind fun result =>
    if result.valueint ≠ 0 then some (false, para)
    else (readPara p root).map fun para => (true, para)

/-- `answer` is the text that was collected when the request was performed. -/
def deviceAuth (para : AuthPara) : Option Bytes → Option (Bool × AuthPara)
  | none => some (false, para)
  | some strData =>
      -- without a brace `substr` throws
      if 0x7B ∈ strData then parseResponseBody p para (strData.dropWhile (· ≠ 0x7B)) else none

structure Clock where
  secKey : TimeVal
  secToken : TimeVal
  checkKey : TimeVal
  checkToken : TimeVal
deriving DecidableEq, Repr

structure Round where
  answer : Option Bytes
  clock : Clock
deriving DecidableEq, Repr

def checkKeyValid (m : AuthManager) (now : TimeVal) : Bool :=
  checkValidTime (parseStringTime p.mktime m.authPara.keyValidTime) now

def checkTokenValid (m : AuthManager) (now : TimeVal) : Bool :=
  checkValidTime (parseStringTime p.mktime m.authPara.tokenValidTime) now

def doDeviceAuth (m : AuthManager) (round : Round) : Option (Bool × AuthManager) :=
  (deviceAuth p m.authPara round.answer).map fun (ok, authPara) =>
    let m := { m with authPara }
    if ok then
      if checkKeyValid p m round.clock.checkKey then
        if !checkTokenValid p m round.clock.checkToken then (ok, m.setAuthStatus .INVALID_TOKEN)
        else (ok, m.setAuthStatus .AUTHED)
      else
        let m :=
          if !checkTokenValid p m round.clock.checkToken then m.setAuthStatus .INVALID_ALL else m
        (ok, m.setAuthStatus .INVALID_KEY)
    else (ok, m)

/-- 0 requests token and key, 1 the token and 2 the key. -/
def authType (m : AuthManager) : Int :=
  match m.authStatus with
  | .INVALID_ALL => 0
  | .INVALID_TOKEN => 1
  | .INVALID_KEY => 2
  | _ => 0

/-- What a round leaves: what `DeviceAuth` returned if it was called, and how long the
AUTHED branch slept. -/
structure Outcome where
  manager : AuthManager
  auth : Option Bool
  slept : Option Int
deriving DecidableEq, Repr

/-- One round of `while (1)`. -/
def authProc (m : AuthManager) (round : Round) : Option Outcome :=
  match m.authStatus with
  | .NONE | .INVALID_ALL | .INVALID_KEY | .INVALID_TOKEN =>
      (doDeviceAuth p m round).map fun (ok, m) => ⟨m, some ok, none⟩
  | .AUTHED =>
      let timeToKey := secFromValidTime (parseStringTime p.mktime m.authPara.keyValidTime)
        round.clock.secKey
      let timeToToken := secFromValidTime (parseStringTime p.mktime m.authPara.tokenValidTime)
        round.clock.secToken
      if timeToKey < VALID_TIME_INTERVAL then
        (doDeviceAuth p m round).map fun (ok, m) => ⟨m, some ok, some 1⟩
      else if timeToToken < VALID_TIME_INTERVAL then
        (doDeviceAuth p m round).map fun (ok, m) => ⟨m, some ok, some 1⟩
      else
        some ⟨m, none, some (if timeToKey < timeToToken then timeToKey - VALID_TIME_INTERVAL
          else timeToToken - VALID_TIME_INTERVAL)⟩
  | .REGISTED => some ⟨m, none, none⟩

def authStep (m : AuthManager) (round : Round) : Option AuthManager :=
  (authProc p m round).map Outcome.manager

end Model

end ApolloContrib.Auth
