import ApolloContrib.Library.Run
import ApolloContrib.V2x.Table
import Mathlib.Data.Finset.Card

namespace ApolloContrib.V2x

open ApolloContrib.Library

/-! What the store keeps of the messages submitted to it. -/

/-- The store, with the messages of each kind that have been submitted and those of
them that were not in the table then, the latest first, and whether one has been
added since the last `GetData`. -/
structure Store where
  db : V2xDb Payload
  submitted : V2xKind → List Payload
  added : V2xKind → List Payload
  unread : V2xKind → Bool

inductive StoreCall where
  | submitData (buf : Option Payload) (appid : BitVec 32)
  | getData (type : EMsgType)

namespace Store

variable (getMsgType : BitVec 32 → EMsgType) (s : Store)

def submit (kind : V2xKind) (data : Payload) : Store :=
  let new := data ∉ (s.db kind).table
  { s with
    submitted := Function.update s.submitted kind (data :: s.submitted kind)
    added := if new then Function.update s.added kind (data :: s.added kind) else s.added
    unread := if new then Function.update s.unread kind true else s.unread }

def call : StoreCall → Option Store
  | .submitData buf appid =>
      let next := match buf, (getMsgType appid).kind with
        | some data, some kind => s.submit kind data
        | _, _ => s
      some { next with db := V2x.submitData getMsgType s.db buf appid }
  | .getData type =>
      (V2x.getData s.db type).map fun (_, db) =>
        match type.kind with
        | none => { s with db := db }
        | some kind => { s with db := db, unread := Function.update s.unread kind false }

def init (entryNum : V2xKind → Nat) : Store where
  db := .v2xDbInit entryNum
  submitted := fun _ => []
  added := fun _ => []
  unread := fun _ => false

end Store

def different (messages : List Payload) : List Payload := messages.eraseDups

/-- The entries are the latest of the different messages submitted. -/
structure KeepsLatest (t : V2xTable Payload) (submitted : List Payload) : Prop where
  nodup : t.table.Nodup
  count : t.table.length = min t.maxEntryNum submitted.toFinset.card
  latest : ∀ p, p ∈ t.table ↔ p ∈ (different submitted).take t.maxEntryNum

/-- Every table keeps the latest messages, and `GetData` yields the last one. -/
structure StoreLatest (s : Store) : Prop where
  tables : ∀ kind, KeepsLatest (s.db kind) (s.submitted kind)
  yields : ∀ type kind, type.kind = some kind → ∀ entry db,
    getData s.db type = some (entry, db) → entry = (s.submitted kind).head?

/-- The entries are messages submitted, all of them while there are no more than the
table has room for. -/
structure KeepsAdded (t : V2xTable Payload) (submitted : List Payload) : Prop where
  nodup : t.table.Nodup
  count : t.table.length = min t.maxEntryNum submitted.toFinset.card
  known : ∀ p ∈ t.table, p ∈ submitted
  all : submitted.toFinset.card ≤ t.maxEntryNum → ∀ p ∈ submitted, p ∈ t.table
  single : t.maxEntryNum = 1 → t.table = submitted.head?.toList

/-- `GetData` yields the last message that was added, and waits for a new one where
the table notifies. -/
structure StoreKept (s : Store) : Prop where
  tables : ∀ kind, KeepsAdded (s.db kind) (s.submitted kind)
  yields : ∀ type kind, type.kind = some kind → ∀ entry db,
    getData s.db type = some (entry, db) → entry = (s.added kind).head?
  waits : ∀ type kind, type.kind = some kind →
    (getData s.db type = none ↔ (s.db kind).notifyFlag = true ∧ s.unread kind = false)

structure TableInv (t : V2xTable Payload) (submitted added : List Payload)
    (unread : Bool) : Prop where
  pos : 1 ≤ t.maxEntryNum
  nodup : t.table.Nodup
  count : t.table.length = min t.maxEntryNum submitted.toFinset.card
  known : ∀ p ∈ t.table, p ∈ submitted
  all : submitted.toFinset.card ≤ t.maxEntryNum → ∀ p ∈ submitted, p ∈ t.table
  single : t.maxEntryNum = 1 → t.table = submitted.head?.toList
  head : t.table.head? = added.head?
  refresh : t.refresh = (t.notifyFlag && unread)

section Table

variable {t : V2xTable Payload} {submitted added : List Payload} {unread : Bool}

theorem TableInv.latestEntry (hinv : TableInv t submitted added unread)
    {entry : Option Payload} {next : V2xTable Payload}
    (hget : t.getLatestEntry = some (entry, next)) : entry = added.head? :=
  (t.getLatestEntry_eq_some hget).1.trans hinv.head

theorem TableInv.waits_iff (hinv : TableInv t submitted added unread) :
    t.getLatestEntry = none ↔ t.notifyFlag = true ∧ unread = false := by
  have hrefresh := hinv.refresh
  unfold V2xTable.getLatestEntry
  rw [hrefresh]
  cases t.notifyFlag <;> cases unread <;> simp

theorem any_same_iff (data : Payload) :
    t.table.any (· == data) = true ↔ data ∈ t.table := by
  simp

theorem TableInv.repeated (hinv : TableInv t submitted added unread) {data : Payload}
    (hmem : data ∈ t.table) : TableInv t (data :: submitted) added unread := by
  have hsame : (data :: submitted).toFinset = submitted.toFinset := by
    rw [List.toFinset_cons, Finset.insert_eq_of_mem]
    exact List.mem_toFinset.mpr (hinv.known data hmem)
  obtain ⟨hpos, hnodup, hcount, hsubmitted, hall, hsingle, hhead, hrefresh⟩ := hinv
  refine ⟨hpos, hnodup, ?_, ?_, ?_, ?_, hhead, hrefresh⟩
  · rw [hsame]
    exact hcount
  · intro p hp
    exact List.mem_cons_of_mem _ (hsubmitted p hp)
  · rw [hsame]
    intro hfits p hp
    rcases List.mem_cons.mp hp with rfl | hold
    · exact hmem
    · exact hall hfits p hold
  · intro hone
    have htable := hsingle hone
    cases hlast : submitted.head? with
    | none =>
        rw [htable, hlast] at hmem
        cases hmem
    | some last =>
        rw [hlast] at htable
        rw [htable] at hmem ⊢
        rw [List.mem_singleton.mp hmem]
        rfl

theorem TableInv.new (hinv : TableInv t submitted added unread) {data : Payload}
    (hnew : data ∉ t.table) :
    TableInv (t.addEntryWithCompare (· == ·) data).table (data :: submitted) (data :: added)
      true := by
  obtain ⟨hpos, hnodup, hcount, hsubmitted, hall, hsingle, hhead, hrefresh⟩ := hinv
  have hany : ¬ t.table.any (· == data) = true := (not_congr (any_same_iff data)).mpr hnew
  have hsub : submitted.toFinset ⊆ (data :: submitted).toFinset := by
    rw [List.toFinset_cons]
    exact Finset.subset_insert _ _
  have hmono : submitted.toFinset.card ≤ (data :: submitted).toFinset.card :=
    Finset.card_le_card hsub
  have hself : ∀ p, p ∈ (data :: submitted).toFinset ↔ p = data ∨ p ∈ submitted := by
    intro p
    rw [List.mem_toFinset, List.mem_cons]
  rw [V2xTable.addEntryWithCompare, if_neg hany]
  split
  next hfull =>
    have hlength : t.table.length = t.maxEntryNum := by omega
    have hcard : t.maxEntryNum ≤ submitted.toFinset.card := by omega
    have htail : t.table.tail.length = t.maxEntryNum - 1 := by
      rw [List.length_tail, hlength]
    refine ⟨hpos, ?_, ?_, ?_, ?_, ?_, rfl, ?_⟩
    · exact List.nodup_cons.mpr ⟨fun hmem => hnew (List.mem_of_mem_tail hmem), hnodup.tail⟩
    · change t.table.tail.length + 1 = min t.maxEntryNum _
      omega
    · intro p hp
      rcases List.mem_cons.mp hp with rfl | htail
      · exact List.mem_cons_self
      · exact List.mem_cons_of_mem _ (hsubmitted p (List.mem_of_mem_tail htail))
    · intro hfits p _
      have hsame : submitted.toFinset = (data :: submitted).toFinset :=
        Finset.eq_of_subset_of_card_le hsub (hfits.trans hcard)
      have hold : data ∈ submitted := by
        rw [← List.mem_toFinset, hsame, hself]
        exact Or.inl rfl
      exact absurd (hall (hmono.trans hfits) data hold) hnew
    · intro hone
      have hempty : t.table.tail = [] := by
        apply List.eq_nil_of_length_eq_zero
        rw [htail]
        exact Nat.sub_eq_zero_of_le hone.le
      change data :: t.table.tail = [data]
      rw [hempty]
    · change (t.refresh || t.notifyFlag) = (t.notifyFlag && true)
      rw [hrefresh]
      cases t.notifyFlag <;> simp
  next hroom =>
    have hfresh : data ∉ submitted := fun hmem => hnew (hall (by omega) data hmem)
    have hcard : (data :: submitted).toFinset.card = submitted.toFinset.card + 1 := by
      rw [List.toFinset_cons, Finset.card_insert_of_notMem]
      exact fun hmem => hfresh (List.mem_toFinset.mp hmem)
    refine ⟨hpos, List.nodup_cons.mpr ⟨hnew, hnodup⟩, ?_, ?_, ?_, ?_, rfl, ?_⟩
    · change t.table.length + 1 = min t.maxEntryNum _
      omega
    · intro p hp
      rcases List.mem_cons.mp hp with rfl | hold
      · exact List.mem_cons_self
      · exact List.mem_cons_of_mem _ (hsubmitted p hold)
    · intro hfits p hp
      rcases List.mem_cons.mp hp with rfl | hold
      · exact List.mem_cons_self
      · exact List.mem_cons_of_mem _ (hall (hmono.trans hfits) p hold)
    · intro hone
      have hone : t.maxEntryNum = 1 := hone
      have hempty : t.table = [] := List.eq_nil_of_length_eq_zero (by omega)
      change data :: t.table = [data]
      rw [hempty]
    · change (t.refresh || t.notifyFlag) = (t.notifyFlag && true)
      rw [hrefresh]
      cases t.notifyFlag <;> simp

theorem TableInv.read (hinv : TableInv t submitted added unread) {entry : Option Payload}
    {next : V2xTable Payload} (hget : t.getLatestEntry = some (entry, next)) :
    TableInv next submitted added false := by
  unfold V2xTable.getLatestEntry at hget
  split at hget
  next hnotify =>
    split at hget
    next =>
      cases hget
      exact { hinv with refresh := (Bool.and_false _).symm }
    next => cases hget
  next hquiet =>
    cases hget
    refine { hinv with refresh := ?_ }
    rw [hinv.refresh, Bool.eq_false_iff.mpr hquiet]
    rfl

end Table

def StoreInv (s : Store) : Prop :=
  ∀ kind, TableInv (s.db kind) (s.submitted kind) (s.added kind) (s.unread kind)

section Runs

variable {getMsgType : BitVec 32 → EMsgType} {s next : Store}

theorem storeInv_init {entryNum : V2xKind → Nat} (hpos : ∀ kind, 1 ≤ entryNum kind) :
    StoreInv (Store.init entryNum) := by
  intro kind
  cases kind <;>
    exact ⟨hpos _, List.nodup_nil, (Nat.min_zero _).symm, nofun, fun _ => nofun, fun _ => rfl,
      rfl, rfl⟩

theorem StoreInv.submit (hinv : StoreInv s) (kind : V2xKind) (data : Payload) :
    StoreInv { s.submit kind data with
      db := Function.update s.db kind
        ((s.db kind).addEntryWithCompare (· == ·) data).table } := by
  intro other
  unfold Store.submit
  dsimp only
  by_cases hother : other = kind
  · subst hother
    simp only [Function.update_self]
    by_cases hmem : data ∈ (s.db other).table
    · rw [if_neg (not_not.mpr hmem), if_neg (not_not.mpr hmem), V2xTable.addEntryWithCompare,
        if_pos ((any_same_iff data).mpr hmem)]
      exact (hinv other).repeated hmem
    · rw [if_pos hmem, if_pos hmem, Function.update_self, Function.update_self]
      exact (hinv other).new hmem
  · rw [Function.update_of_ne hother, Function.update_of_ne hother]
    have hsame := hinv other
    split <;> simpa only [Function.update_of_ne hother] using hsame

theorem StoreInv.call (hinv : StoreInv s) {event : StoreCall}
    (hcall : s.call getMsgType event = some next) : StoreInv next := by
  cases event with
  | submitData buf appid =>
      obtain rfl := Option.some.inj hcall
      cases buf with
      | none => exact hinv
      | some data =>
          unfold V2x.submitData
          cases hkind : (getMsgType appid).kind with
          | none => exact hinv
          | some kind => exact hinv.submit kind data
  | getData type =>
      simp only [Store.call, Option.map_eq_some_iff] at hcall
      obtain ⟨⟨entry, db⟩, hget, rfl⟩ := hcall
      unfold V2x.getData at hget
      cases hkind : type.kind with
      | none =>
          rw [hkind] at hget
          cases hget
          exact hinv
      | some kind =>
          rw [hkind] at hget
          obtain ⟨⟨_, t⟩, htable, hpair⟩ := Option.map_eq_some_iff.mp hget
          cases hpair
          intro other
          by_cases hother : other = kind
          · subst hother
            simp only [Function.update_self]
            exact (hinv other).read htable
          · simp only [Function.update_of_ne hother]
            exact hinv other

theorem StoreInv.storeKept (hinv : StoreInv s) : StoreKept s where
  tables := by
    intro kind
    obtain ⟨_, hnodup, hcount, hknown, hall, hsingle, _, _⟩ := hinv kind
    exact ⟨hnodup, hcount, hknown, hall, hsingle⟩
  yields := by
    intro type kind hkind entry db hget
    unfold getData at hget
    rw [hkind] at hget
    obtain ⟨⟨_, t⟩, htable, hpair⟩ := Option.map_eq_some_iff.mp hget
    cases hpair
    exact (hinv kind).latestEntry htable
  waits := by
    intro type kind hkind
    unfold getData
    rw [hkind]
    exact Option.map_eq_none_iff.trans (hinv kind).waits_iff

/-- Every order of the calls keeps the tables so. -/
theorem storeKept_throughout (getMsgType : BitVec 32 → EMsgType) (entryNum : V2xKind → Nat)
    (hpos : ∀ kind, 1 ≤ entryNum kind) (calls : List StoreCall) :
    Throughout (Store.call getMsgType) StoreKept (Store.init entryNum) calls := by
  have hall : StepsMeet (Store.call getMsgType) (fun _ _ => True) (Store.init entryNum) calls :=
    fun _ _ _ _ _ => trivial
  have hkept := throughout_of_stepsMeet
    (fun hinv _ hcall => StoreInv.call hinv hcall) (storeInv_init hpos) hall
  exact hkept.imp fun _ hinv => hinv.storeKept

theorem storeKept_throughout_five :
    Throughout (Store.call appidType) StoreKept (Store.init fun _ => 5)
      [.submitData (some [1]) 29, .submitData (some [2]) 29, .submitData (some [1]) 29,
        .getData .MSG_TYPE_MAP] :=
  storeKept_throughout appidType (fun _ => 5) (fun _ => by decide) _

/-- After the messages 1, 2 and 1 again, the table yields 2. -/
theorem storeLatest_fails :
    ¬ Throughout (Store.call appidType) StoreLatest (Store.init fun _ => 5)
        [.submitData (some [1]) 29, .submitData (some [2]) 29, .submitData (some [1]) 29] := by
  intro hall
  have hlast := (hall.last rfl).yields .MSG_TYPE_MAP .map rfl (some [2]) _ rfl
  exact absurd hlast (by decide)

end Runs

end ApolloContrib.V2x
