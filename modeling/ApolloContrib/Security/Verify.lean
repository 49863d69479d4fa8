import Mathlib.Data.List.Basic
import Mathlib.Tactic.Cases

namespace ApolloContrib.Security

/-! `VerifyAndStrip` of `security.cc` and `GetPubKey` of `common.c`. A union of the
decoded message is its tag and what the code reads of it, whatever the tag is. -/

abbrev Bytes := List (BitVec 8)

/-- `buf` is null, or points to as many bytes as the list has. -/
structure OctetString where
  buf : Option Bytes
  size : Nat
deriving DecidableEq, Repr

namespace OctetString

/-- The first `count` bytes. There are none when the pointer is null or when the
bytes behind it run out. -/
def take (octets : OctetString) (count : Nat) : Option Bytes :=
  match octets.buf with
  | none => if count = 0 then some [] else none
  | some bytes => if count ≤ bytes.length then some (bytes.take count) else none

def read (octets : OctetString) : Option Bytes := octets.take octets.size

end OctetString

inductive SignerInfoPR where
  | certificateStr
  | other
deriving DecidableEq, Repr

inductive PayloadPR where
  | Signed
  | other
deriving DecidableEq, Repr

inductive SignaturePR where
  | signature
  | other
deriving DecidableEq, Repr

inductive TrailerFieldPR where
  | signature
  | other
deriving DecidableEq, Repr

structure SignerInfo where
  present : SignerInfoPR
  certificateStr : OctetString
deriving DecidableEq, Repr

structure Payload where
  present : PayloadPR
  Signed : OctetString
deriving DecidableEq, Repr

structure Signature where
  present : SignaturePR
  signature : OctetString
deriving DecidableEq, Repr

structure TrailerField where
  present : TrailerFieldPR
  signature : Signature
deriving DecidableEq, Repr

structure SecuredMessage where
  signerinfo : Option SignerInfo
  payloadField : Payload
  trailerFields : TrailerField
deriving DecidableEq, Repr

/-- `signKey` is what the code reads of the verification key. -/
structure Certificate where
  signature : Signature
  verificationKey : Option OctetString
deriving DecidableEq, Repr

/-- The libraries the two functions call. `derEncode` gives nothing when the encoding
does not fit the buffer of 512 bytes. -/
structure Crypto (Key ToBeSigned : Type) where
  decodeSecuredMessage : Bytes → Option SecuredMessage
  decodeCertificate : OctetString → Option Certificate
  decodeToBeSigned : OctetString → Option ToBeSigned
  derEncode : ToBeSigned → Option Bytes
  sm3 : Bytes → Bytes
  sm2Verify : Bytes → OctetString → Key → Int
  sm2Verify_le_one : ∀ digest signature key, sm2Verify digest signature key ≤ 1
  bnNew : Bool
  sm2SetupKey : Bytes → Bytes → Option Key

variable {Key ToBeSigned : Type} (crypto : Crypto Key ToBeSigned)

/-- There is no result when the code follows a null pointer or runs past a buffer. The
inner option is the pointer that is returned. -/
def getPubKey (ca : OctetString) (rootKey : Option Key) : Option (Option Key) :=
  match ca.buf, rootKey with
  | some _, some rootKey =>
      match crypto.decodeCertificate ca, crypto.decodeToBeSigned ca with
      | some cert, some tbs =>
          match crypto.derEncode tbs with
          -- `encoded` is -1, and the hash is over as many bytes
          | none => none
          | some tbsData =>
              if tbsData.length = 0 then some none
              else if crypto.sm2Verify (crypto.sm3 tbsData) cert.signature.signature rootKey ≠ 1
                then some none
              else if !crypto.bnNew then some none
              else
                match cert.verificationKey.bind (·.take 64) with
                | none => none
                | some signKey => some (crypto.sm2SetupKey (signKey.take 32) (signKey.drop 32))
      | _, _ => some none
  | _, _ => some none

structure Output where
  data : Option Bytes
  dataLen : Option Nat
deriving DecidableEq, Repr

inductive Outcome where
  | fault
  | returned (ret : Int) (output : Output)
deriving DecidableEq, Repr

/-- `memcpy` of `data`, and `*data_len`. -/
def store (output : Output) (payload : Bytes) : Outcome :=
  match output.data with
  | none => .fault
  | some buffer =>
      if payload.length ≤ buffer.length then
        .returned 0 ⟨some (payload ++ buffer.drop payload.length), some payload.length⟩
      else .fault

def verifyAndStrip (rootKey : Option Key) (securedData : Option Bytes) (output : Output) :
    Outcome :=
  match securedData, output.data, output.dataLen with
  | some securedData, some _, some _ =>
      match crypto.decodeSecuredMessage securedData with
      | none => .returned (-2) output
      | some message =>
          match message.signerinfo with
          | none => .fault
          | some signerinfo =>
              match getPubKey crypto signerinfo.certificateStr rootKey with
              | none => .fault
              | some none => .returned (-3) output
              | some (some pubKey) =>
                  match message.payloadField.Signed.read with
                  | none => .fault
                  | some payload =>
                      if crypto.sm2Verify (crypto.sm3 payload)
                          message.trailerFields.signature.signature pubKey = 0
                        then .returned (-4) output
                      else store output payload
  | _, _, _ => .returned (-1) output

/-- What `ProcessSecured` does with one read of `cnt` bytes, and the message it submits. -/
inductive Round where
  | fault
  | dropped
  | submitted (data : Bytes)
deriving DecidableEq, Repr

def processSecured (rootKey : Option Key) (mtu : Nat) (received : Option Bytes) : Round :=
  match received with
  | none => .dropped
  | some buf =>
      match verifyAndStrip crypto rootKey (some buf)
          ⟨some (List.replicate mtu 0), some 0⟩ with
      | .fault => .fault
      | .returned ret output =>
          if ret ≠ 0 then .dropped
          else .submitted ((output.data.getD []).take (output.dataLen.getD 0))

end ApolloContrib.Security
