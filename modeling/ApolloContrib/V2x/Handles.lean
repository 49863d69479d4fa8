import ApolloContrib.V2x.Table
import ApolloContrib.Library.Run

namespace ApolloContrib.V2x

/-! The store with its entries and buffers as handles that are live from `new` to
`delete`, and the calls of `SubmitData` and `GetData` in their atomic steps. -/

/-- How far a `SubmitData` call is: before the table, or with a rejected entry to
delete. -/
inductive SubmitPhase where
  | called
  | rejected
  | finished
deriving DecidableEq, Repr

/-- What a `GetData` call is to read next, of the entry it has taken. -/
inductive ReadPhase where
  | idle
  | copy (kind : V2xKind) (handle : Nat)
  | len (kind : V2xKind) (handle : Nat)
deriving DecidableEq, Repr

/-- Submissions are numbered, and the number is the handle of the buffer and of the
entry. `deletes` counts the deletions of a buffer, and `stale` lists the handles
that were read when they were not live. -/
structure OwnedStore where
  db : V2xDb Nat
  content : Nat → Payload
  target : Nat → Option V2xKind
  next : Nat
  phase : Nat → SubmitPhase
  bufLive : Nat → Bool
  entryLive : Nat → Bool
  deletes : Nat → Nat
  readers : Nat → ReadPhase
  stale : List Nat

namespace OwnedStore

variable (s : OwnedStore)

def deleteBuf (handle : Nat) : OwnedStore :=
  { s with
    bufLive := Function.update s.bufLive handle false
    deletes := Function.update s.deletes handle (s.deletes handle + 1) }

def deleteEntry (handle : Nat) : OwnedStore :=
  { s.deleteBuf handle with entryLive := Function.update s.entryLive handle false }

def goto (handle : Nat) (phase : SubmitPhase) : OwnedStore :=
  { s with phase := Function.update s.phase handle phase }

def call (data : Payload) (type : EMsgType) : OwnedStore :=
  { s with
    content := Function.update s.content s.next data
    target := Function.update s.target s.next type.kind
    next := s.next + 1
    phase := Function.update s.phase s.next .called
    bufLive := Function.update s.bufLive s.next true }

def same (a b : Nat) : Bool := s.content a == s.content b

/-- `new` of the entry, and what the lock covers. -/
def addToTable (handle : Nat) (kind : V2xKind) : OwnedStore :=
  let result := (s.db kind).addEntryWithCompare s.same handle
  let s := { s with
    entryLive := Function.update s.entryLive handle true
    db := Function.update s.db kind result.table }
  let s := s.goto handle (if result.added then .finished else .rejected)
  match result.deleted with
  | none => s
  | some entry => s.deleteEntry entry

/-- The first step of a call. A message without a table is deleted. -/
def submitTable (handle : Nat) : OwnedStore :=
  match s.target handle with
  | none => (s.deleteBuf handle).goto handle .finished
  | some kind => s.addToTable handle kind

def submitReject (handle : Nat) : OwnedStore := (s.deleteEntry handle).goto handle .finished

def gotoRead (reader : Nat) (phase : ReadPhase) : OwnedStore :=
  { s with readers := Function.update s.readers reader phase }

def getLatest (reader : Nat) (type : EMsgType) : OwnedStore :=
  match type.kind with
  | none => s
  | some kind =>
      match (s.db kind).getLatestEntry with
      | none => s
      | some (none, t) => { s with db := Function.update s.db kind t }
      | some (some handle, t) =>
          { s.gotoRead reader (.copy kind handle) with db := Function.update s.db kind t }

def touch (handle : Nat) (live : Bool) : OwnedStore :=
  { s with stale := if live then s.stale else s.stale ++ [handle] }

/-- `memcpy` of `get_len` bytes from `get_buf`, or the last `get_len`. -/
def getRead (reader : Nat) : OwnedStore :=
  match s.readers reader with
  | .idle => s
  | .copy kind handle =>
      (s.touch handle (s.entryLive handle && s.bufLive handle)).gotoRead reader
        (.len kind handle)
  | .len _ handle => (s.touch handle (s.entryLive handle)).gotoRead reader .idle

end OwnedStore

inductive OwnedEvent where
  | call (data : Payload) (appid : BitVec 32)
  | submit (handle : Nat)
  | latest (reader : Nat) (type : EMsgType)
  | read (reader : Nat)

/-- The next atomic step of a call. A step of a call that is not there does
nothing. -/
def ownedNext (getMsgType : BitVec 32 → EMsgType) (s : OwnedStore) : OwnedEvent → OwnedStore
  | .call data appid => s.call data (getMsgType appid)
  | .submit handle =>
      match s.phase handle with
      | .called => s.submitTable handle
      | .rejected => s.submitReject handle
      | .finished => s
  | .latest reader type => if s.readers reader = .idle then s.getLatest reader type else s
  | .read reader => s.getRead reader

def ownedStep (getMsgType : BitVec 32 → EMsgType) (s : OwnedStore) (event : OwnedEvent) :
    Option OwnedStore :=
  some (ownedNext getMsgType s event)

def OwnedStore.init : OwnedStore where
  db := .v2xDbInit fun _ => 5
  content := fun _ => []
  target := fun _ => none
  next := 0
  phase := fun _ => .finished
  bufLive := fun _ => false
  entryLive := fun _ => false
  deletes := fun _ => 0
  readers := fun _ => .idle
  stale := []

end ApolloContrib.V2x
