import Mathlib.Data.List.Basic
import Mathlib.Logic.Function.Basic

namespace ApolloContrib.V2x

/-! The message store of `v2x_table.cc` and `v2x_db.cc`. The entries of a table are
messages here, and handles of messages where their lifetime matters. -/

inductive EMsgType where
  | MSG_TYPE_BSM
  | MSG_TYPE_RSI
  | MSG_TYPE_RSM
  | MSG_TYPE_MAP
  | MSG_TYPE_SPAT
  | MSG_TYPE_SSM
  | MSG_TYPE_MAX
deriving DecidableEq, Repr

/-- The front of `table` is its first entry. -/
structure V2xTable (α : Type*) where
  notifyFlag : Bool
  maxEntryNum : Nat
  table : List α
  refresh : Bool

/-- `deleted` is the entry that has been taken out and deleted. -/
structure AddResult (α : Type*) where
  added : Bool
  deleted : Option α
  table : V2xTable α

namespace V2xTable

variable {α β : Type*} (t : V2xTable α)

def init (notifyFlag : Bool) (entryNum : Nat) : V2xTable α := ⟨notifyFlag, entryNum, [], false⟩

def pushFront (data : α) : V2xTable α :=
  { t with table := data :: t.table, refresh := t.refresh || t.notifyFlag }

/-- `same` compares the lengths and the bytes of two messages. -/
def addEntryWithCompare (same : α → α → Bool) (data : α) : AddResult α :=
  if t.table.any (same · data) then ⟨false, none, t⟩
  else if t.table.length + 1 > t.maxEntryNum then
    ⟨true, t.table.head?, { t with table := t.table.tail }.pushFront data⟩
  else ⟨true, none, t.pushFront data⟩

/-- The entry, or a null pointer, and the table afterwards. There is no result while
the call waits. -/
def getLatestEntry : Option (Option α × V2xTable α) :=
  if t.notifyFlag then
    if t.refresh then some (t.table.head?, { t with refresh := false }) else none
  else some (t.table.head?, t)

def map (f : α → β) : V2xTable β := ⟨t.notifyFlag, t.maxEntryNum, t.table.map f, t.refresh⟩

theorem getLatestEntry_eq_some {entry : Option α} {next : V2xTable α}
    (hget : t.getLatestEntry = some (entry, next)) :
    entry = t.table.head? ∧ next.table = t.table := by
  unfold getLatestEntry at hget
  split at hget
  next =>
    split at hget
    next =>
      cases hget
      exact ⟨rfl, rfl⟩
    next => cases hget
  next =>
    cases hget
    exact ⟨rfl, rfl⟩

/-- A repeat is ignored, and a new entry goes to the front, for the one at the front
of a full table. -/
theorem addEntryWithCompare_cases (same : α → α → Bool) (data : α) :
    t.table.any (same · data) = true ∧
      t.addEntryWithCompare same data = ⟨false, none, t⟩ ∨
    ¬ t.table.any (same · data) = true ∧
      t.addEntryWithCompare same data = ⟨true, none, t.pushFront data⟩ ∨
    ∃ entry rest, ¬ t.table.any (same · data) = true ∧ t.table = entry :: rest ∧
      t.maxEntryNum < t.table.length + 1 ∧
      t.addEntryWithCompare same data =
        ⟨true, some entry, { t with table := rest }.pushFront data⟩ := by
  unfold addEntryWithCompare
  split
  next hrepeat => exact Or.inl ⟨hrepeat, rfl⟩
  next hnew =>
    right
    split
    next hfull =>
      cases htable : t.table with
      | nil =>
          refine Or.inl ⟨by simp, ?_⟩
          simp [pushFront, htable]
      | cons entry rest =>
          rw [htable] at hnew hfull
          exact Or.inr ⟨entry, rest, hnew, rfl, hfull, rfl⟩
    next => exact Or.inl ⟨hnew, rfl⟩

end V2xTable

def AddResult.map {α β : Type*} (f : α → β) (result : AddResult α) : AddResult β :=
  ⟨result.added, result.deleted.map f, result.table.map f⟩

namespace V2xTable

variable {α β : Type*} (t : V2xTable α) (f : α → β)

theorem map_addEntryWithCompare {same : α → α → Bool} {same' : β → β → Bool} {data : α}
    (hsame : ∀ other, same other data = same' (f other) (f data)) :
    (t.map f).addEntryWithCompare same' (f data) = (t.addEntryWithCompare same data).map f := by
  have hany : (t.map f).table.any (same' · (f data)) = t.table.any (same · data) := by
    simp only [V2xTable.map, List.any_map]
    exact congrArg (t.table.any ·) (funext fun other => (hsame other).symm)
  unfold addEntryWithCompare
  rw [hany]
  split
  next => rfl
  next =>
    simp only [V2xTable.map, List.length_map]
    split
    next => simp [AddResult.map, V2xTable.map, pushFront]
    next => rfl

theorem map_getLatestEntry :
    (t.map f).getLatestEntry =
      t.getLatestEntry.map fun (entry, next) => (entry.map f, next.map f) := by
  obtain ⟨notifyFlag, maxEntryNum, table, refresh⟩ := t
  cases notifyFlag <;> cases refresh <;> simp [getLatestEntry, V2xTable.map]

end V2xTable

/-- The tables `map_`, `spat_` and `ssm_`. -/
inductive V2xKind where
  | map
  | spat
  | ssm
deriving DecidableEq, Repr

def EMsgType.kind : EMsgType → Option V2xKind
  | .MSG_TYPE_MAP => some .map
  | .MSG_TYPE_SPAT => some .spat
  | .MSG_TYPE_SSM => some .ssm
  | _ => none

abbrev V2xDb (α : Type*) := V2xKind → V2xTable α

namespace V2xDb

variable {α β : Type*}

/-- `V2xDbInit`, with any numbers of entries for its 5. -/
def v2xDbInit (entryNum : V2xKind → Nat) : V2xDb α
  | .map => .init false (entryNum .map)
  | .spat => .init true (entryNum .spat)
  | .ssm => .init true (entryNum .ssm)

def mapEntries (f : α → β) (db : V2xDb α) : V2xDb β := fun kind => (db kind).map f

end V2xDb

abbrev Payload := List (BitVec 8)

/-- The identifiers that `adapter_uu.cc` submits messages with. -/
def appidType (appid : BitVec 32) : EMsgType :=
  if appid = 29 then .MSG_TYPE_MAP else if appid = 30 then .MSG_TYPE_SPAT else .MSG_TYPE_MAX

/-- The table after `SubmitData` of a message. A null pointer and a message of
another type are not stored. -/
def submitData (getMsgType : BitVec 32 → EMsgType) (db : V2xDb Payload) (buf : Option Payload)
    (appid : BitVec 32) : V2xDb Payload :=
  match buf, (getMsgType appid).kind with
  | some data, some kind =>
      Function.update db kind ((db kind).addEntryWithCompare (· == ·) data).table
  | _, _ => db

/-- What `GetData` copies out, if anything, and the tables afterwards. -/
def getData (db : V2xDb Payload) (type : EMsgType) : Option (Option Payload × V2xDb Payload) :=
  match type.kind with
  | none => some (none, db)
  | some kind =>
      (db kind).getLatestEntry.map fun (entry, t) => (entry, Function.update db kind t)

end ApolloContrib.V2x
