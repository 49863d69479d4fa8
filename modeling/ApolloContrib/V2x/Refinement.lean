import ApolloContrib.V2x.Latest
import ApolloContrib.V2x.Ownership

namespace ApolloContrib.V2x

open ApolloContrib.Library

/-! The store of handles is the store of messages, call by call. -/

def OwnedStore.messages (s : OwnedStore) : V2xDb Payload := s.db.mapEntries s.content

def Reaches (getMsgType : BitVec 32 → EMsgType) (db : V2xDb Payload) : Prop :=
  ∃ calls store, run (Store.call getMsgType) (Store.init fun _ => 5) calls = some store ∧
    store.db = db

section Steps

variable {getMsgType : BitVec 32 → EMsgType} {s : OwnedStore} {place : Nat → Place}

theorem V2xDb.mapEntries_update {α β : Type*} (f : α → β) (db : V2xDb α) (kind : V2xKind)
    (t : V2xTable α) :
    V2xDb.mapEntries f (Function.update db kind t) =
      Function.update (db.mapEntries f) kind (t.map f) := by
  funext other
  by_cases hother : other = kind
  · subst hother
    rw [Function.update_self, V2xDb.mapEntries, Function.update_self]
  · rw [Function.update_of_ne hother, V2xDb.mapEntries, Function.update_of_ne hother]
    rfl

theorem Reaches.step {db : V2xDb Payload} (hreaches : Reaches getMsgType db)
    (call : StoreCall) {next : V2xDb Payload}
    (hcall : ∀ store : Store, store.db = db →
      ∃ after, store.call getMsgType call = some after ∧ after.db = next) :
    Reaches getMsgType next := by
  obtain ⟨calls, store, hrun, hdb⟩ := hreaches
  obtain ⟨after, hafter, hnext⟩ := hcall store hdb
  refine ⟨calls ++ [call], after, ?_, hnext⟩
  rw [run_append_of_eq _ hrun, run_cons, hafter]
  rfl

theorem OwnedInv.messages_call (hinv : OwnedInv s place) (data : Payload) (type : EMsgType) :
    (s.call data type).messages = s.messages := by
  have hnew : ∀ kind, s.next ∉ (s.db kind).table := by
    intro kind hmem
    have hstored := (hinv.tables kind s.next).mp hmem
    rw [hinv.place_next] at hstored
    cases hstored
  funext kind
  change (s.db kind).map _ = (s.db kind).map _
  unfold V2xTable.map
  congr 1
  refine List.map_congr_left fun handle hmem => ?_
  have hother : handle ≠ s.next := by
    rintro rfl
    exact hnew kind hmem
  exact Function.update_of_ne hother _ _

theorem OwnedStore.messages_addToTable (s : OwnedStore) (handle : Nat) (kind : V2xKind) :
    (s.addToTable handle kind).messages = Function.update s.messages kind
      ((s.messages kind).addEntryWithCompare (· == ·) (s.content handle)).table := by
  have hafter : (s.addToTable handle kind).messages = V2xDb.mapEntries s.content
      (Function.update s.db kind ((s.db kind).addEntryWithCompare s.same handle).table) := by
    unfold OwnedStore.addToTable
    dsimp only
    split <;> rfl
  have hsame : ∀ other, s.same other handle = (s.content other == s.content handle) :=
    fun _ => rfl
  have hmap := (s.db kind).map_addEntryWithCompare s.content hsame
  rw [hafter, V2xDb.mapEntries_update]
  congr 1
  exact (congrArg AddResult.table hmap).symm

theorem Reaches.getLatest (hreaches : Reaches getMsgType s.messages) (reader : Nat)
    (type : EMsgType) : Reaches getMsgType (s.getLatest reader type).messages := by
  cases hkind : type.kind with
  | none =>
      simp only [OwnedStore.getLatest, hkind]
      exact hreaches
  | some kind =>
      cases hget : (s.db kind).getLatestEntry with
      | none =>
          simp only [OwnedStore.getLatest, hkind, hget]
          exact hreaches
      | some result =>
          obtain ⟨entry, t⟩ := result
          have hafter : (s.getLatest reader type).messages =
              V2xDb.mapEntries s.content (Function.update s.db kind t) := by
            simp only [OwnedStore.getLatest, hkind, hget]
            cases entry <;> rfl
          rw [hafter, V2xDb.mapEntries_update]
          refine hreaches.step (.getData type) fun store hdb => ?_
          have hdata : getData store.db type =
              some (entry.map s.content, Function.update s.messages kind (t.map s.content)) := by
            have hmap := (s.db kind).map_getLatestEntry s.content
            rw [hget] at hmap
            rw [hdb, getData, hkind]
            exact congrArg (Option.map _) hmap
          refine ⟨_, congrArg (Option.map _) hdata, ?_⟩
          rw [hkind]
          rfl

def Targeted (getMsgType : BitVec 32 → EMsgType) (s : OwnedStore) : Prop :=
  ∀ handle kind, s.target handle = some kind → ∃ appid, (getMsgType appid).kind = some kind

theorem Reaches.submitTable (hreaches : Reaches getMsgType s.messages)
    (htargeted : Targeted getMsgType s) (handle : Nat) :
    Reaches getMsgType (s.submitTable handle).messages := by
  unfold OwnedStore.submitTable
  split
  next => exact hreaches
  next kind htarget =>
    obtain ⟨appid, hkind⟩ := htargeted handle kind htarget
    refine hreaches.step (.submitData (some (s.content handle)) appid) fun store hdb => ?_
    refine ⟨_, rfl, ?_⟩
    rw [OwnedStore.messages_addToTable, ← hdb]
    simp only [submitData, hkind]

theorem Reaches.next (hinv : OwnedInv s place) (htargeted : Targeted getMsgType s)
    (hreaches : Reaches getMsgType s.messages) (event : OwnedEvent) :
    Reaches getMsgType (ownedNext getMsgType s event).messages := by
  cases event with
  | call data appid =>
      rw [ownedNext, hinv.messages_call]
      exact hreaches
  | submit handle =>
      unfold ownedNext
      dsimp only
      split
      next => exact hreaches.submitTable htargeted handle
      next => exact hreaches
      next => exact hreaches
  | latest reader type =>
      unfold ownedNext
      dsimp only
      split
      next => exact hreaches.getLatest reader type
      next => exact hreaches
  | read reader =>
      unfold ownedNext OwnedStore.getRead
      dsimp only
      split <;> exact hreaches

theorem Targeted.next (htargeted : Targeted getMsgType s) (event : OwnedEvent) :
    Targeted getMsgType (ownedNext getMsgType s event) := by
  have hsame : ∀ {next : OwnedStore}, next.target = s.target → Targeted getMsgType next := by
    intro next htarget handle kind hkind
    rw [htarget] at hkind
    exact htargeted handle kind hkind
  cases event with
  | call data appid =>
      intro handle kind hkind
      by_cases hself : handle = s.next
      · subst hself
        have htarget : Function.update s.target s.next (getMsgType appid).kind s.next =
            (getMsgType appid).kind := Function.update_self _ _ _
        exact ⟨appid, htarget.symm.trans hkind⟩
      · exact htargeted handle kind ((Function.update_of_ne hself _ _).symm.trans hkind)
  | submit handle =>
      apply hsame
      unfold ownedNext OwnedStore.submitTable OwnedStore.addToTable
      dsimp only
      split
      next =>
        split
        next => rfl
        next => split <;> rfl
      next => rfl
      next => rfl
  | latest reader type =>
      apply hsame
      unfold ownedNext OwnedStore.getLatest
      dsimp only
      split
      next =>
        split
        next => rfl
        next => split <;> rfl
      next => rfl
  | read reader =>
      apply hsame
      unfold ownedNext OwnedStore.getRead
      dsimp only
      split <;> rfl

end Steps

theorem owned_refines_store (getMsgType : BitVec 32 → EMsgType) (events : List OwnedEvent)
    (hmeet : StepsMeet (ownedStep getMsgType) KeepsUnread OwnedStore.init events) :
    Throughout (ownedStep getMsgType) (fun s => Reaches getMsgType s.messages)
      OwnedStore.init events := by
  have hinit : Reaches getMsgType OwnedStore.init.messages := by
    refine ⟨[], _, rfl, ?_⟩
    funext kind
    cases kind <;> rfl
  have hpreserved : ∀ {s : OwnedStore} {event : OwnedEvent} {next : OwnedStore},
      (∃ place, OwnedInv s place) ∧ Targeted getMsgType s ∧ Reaches getMsgType s.messages →
        KeepsUnread s event → ownedStep getMsgType s event = some next →
          (∃ place, OwnedInv next place) ∧ Targeted getMsgType next ∧
            Reaches getMsgType next.messages := by
    rintro s event next ⟨⟨place, hinv⟩, htargeted, hreaches⟩ hok hstep
    obtain rfl := Option.some.inj hstep
    exact ⟨hinv.step hok, htargeted.next event, hreaches.next hinv htargeted event⟩
  have hkept := throughout_of_stepsMeet hpreserved
    ⟨⟨_, ownedInv_init⟩, fun _ _ => nofun, hinit⟩ hmeet
  exact hkept.imp fun _ hall => hall.2.2

end ApolloContrib.V2x
