import ApolloContrib.V2x.Handles

namespace ApolloContrib.V2x

open ApolloContrib.Library

/-! Every buffer is deleted once and lives as long as it is owned. What a `GetData`
reads is live unless a submission to a full table has deleted it meanwhile. -/

def ReadPhase.Holds (kind : V2xKind) (handle : Nat) (phase : ReadPhase) : Prop :=
  phase = .copy kind handle ∨ phase = .len kind handle

/-- The submission is about to take the front entry out of its full table. -/
structure OwnedStore.Evicts (s : OwnedStore) (handle : Nat) (kind : V2xKind)
    (entry : Nat) : Prop where
  called : s.phase handle = .called
  target : s.target handle = some kind
  new : ∀ other ∈ (s.db kind).table, s.content other ≠ s.content handle
  full : (s.db kind).maxEntryNum < (s.db kind).table.length + 1
  front : (s.db kind).table.head? = some entry

/-- No submission takes out an entry that a `GetData` call is still to read. -/
def KeepsUnread (s : OwnedStore) : OwnedEvent → Prop
  | .submit handle => ∀ kind entry, s.Evicts handle kind entry →
      ∀ reader, ¬ (s.readers reader).Holds kind entry
  | _ => True

structure OwnedOk (s : OwnedStore) : Prop where
  deletedOnce : ∀ handle, s.deletes handle ≤ 1
  live : ∀ handle, handle < s.next → (s.bufLive handle = true ↔
    (∃ kind, handle ∈ (s.db kind).table) ∨ s.phase handle ≠ .finished)
  entryLive : ∀ handle, handle < s.next → (s.entryLive handle = true ↔
    (∃ kind, handle ∈ (s.db kind).table) ∨ s.phase handle = .rejected)
  noStale : s.stale = []

inductive Place where
  | unborn
  | called
  | rejected
  | stored (kind : V2xKind)
  | gone

/-- Whether the handle exists, how far its submission is, whether its buffer and its
entry live, and how often it has been deleted. -/
def Place.view : Place → Bool × SubmitPhase × Bool × Bool × Nat
  | .unborn => (false, .finished, false, false, 0)
  | .called => (true, .called, true, false, 0)
  | .rejected => (true, .rejected, true, true, 0)
  | .stored _ => (true, .finished, true, true, 0)
  | .gone => (true, .finished, false, false, 1)

def OwnedStore.view (s : OwnedStore) (handle : Nat) : Bool × SubmitPhase × Bool × Bool × Nat :=
  (handle < s.next, s.phase handle, s.bufLive handle, s.entryLive handle, s.deletes handle)

structure OwnedInv (s : OwnedStore) (place : Nat → Place) : Prop where
  view : ∀ handle, s.view handle = (place handle).view
  tables : ∀ kind handle, handle ∈ (s.db kind).table ↔ place handle = .stored kind
  nodup : ∀ kind, (s.db kind).table.Nodup
  readers : ∀ reader kind handle, (s.readers reader).Holds kind handle →
    handle ∈ (s.db kind).table
  stale : s.stale = []

section Inv

variable {s next : OwnedStore} {place : Nat → Place} {handle : Nat} {kind : V2xKind}

theorem ownedInv_init : OwnedInv OwnedStore.init fun _ => .unborn where
  view := fun handle => by simp [OwnedStore.view, OwnedStore.init, Place.view]
  tables := by
    intro kind handle
    cases kind <;> simp [OwnedStore.init, V2xDb.v2xDbInit, V2xTable.init]
  nodup := by
    intro kind
    cases kind <;> exact List.nodup_nil
  readers := by
    rintro reader kind handle (hcopy | hlen)
    · cases hcopy
    · cases hlen
  stale := rfl

theorem OwnedInv.phase (hinv : OwnedInv s place) (handle : Nat) :
    s.phase handle = (place handle).view.2.1 :=
  congrArg (·.2.1) (hinv.view handle)

theorem OwnedInv.place_called (hinv : OwnedInv s place) (hphase : s.phase handle = .called) :
    place handle = .called := by
  have hview := hinv.phase handle
  rw [hphase] at hview
  cases hplace : place handle <;> rw [hplace] at hview <;> first | rfl | cases hview

theorem OwnedInv.place_next (hinv : OwnedInv s place) : place s.next = .unborn := by
  have hview : decide (s.next < s.next) = (place s.next).view.1 :=
    congrArg (·.1) (hinv.view s.next)
  rw [decide_eq_false (Nat.lt_irrefl _)] at hview
  cases hplace : place s.next <;> rw [hplace] at hview <;> first | rfl | cases hview

theorem OwnedInv.ownedOk (hinv : OwnedInv s place) : OwnedOk s := by
  have hstored : ∀ handle, (∃ kind, handle ∈ (s.db kind).table) ↔
      ∃ kind, place handle = .stored kind :=
    fun handle => exists_congr fun kind => hinv.tables kind handle
  refine ⟨fun handle => ?_, fun handle hborn => ?_, fun handle hborn => ?_, hinv.stale⟩
  · have hdeletes : s.deletes handle = (place handle).view.2.2.2.2 :=
      congrArg (·.2.2.2.2) (hinv.view handle)
    rw [hdeletes]
    cases place handle <;> simp [Place.view]
  · have hlive : s.bufLive handle = (place handle).view.2.2.1 :=
      congrArg (·.2.2.1) (hinv.view handle)
    have hexists : decide (handle < s.next) = (place handle).view.1 :=
      congrArg (·.1) (hinv.view handle)
    rw [hlive, hstored, hinv.phase]
    rw [decide_eq_true hborn] at hexists
    cases hplace : place handle with
    | unborn =>
        rw [hplace] at hexists
        cases hexists
    | called | rejected | stored | gone => simp [Place.view]
  · have hlive : s.entryLive handle = (place handle).view.2.2.2.1 :=
      congrArg (·.2.2.2.1) (hinv.view handle)
    rw [hlive, hstored, hinv.phase]
    cases place handle <;> simp [Place.view]

theorem OwnedInv.move (hinv : OwnedInv s place) {new : Place}
    (hview : next.view handle = new.view) (hviews : ∀ k, k ≠ handle → next.view k = s.view k)
    (hstored : ∀ other, handle ∈ (next.db other).table ↔ new = .stored other)
    (htables : ∀ other k, k ≠ handle → (k ∈ (next.db other).table ↔ k ∈ (s.db other).table))
    (hnodup : ∀ other, (next.db other).table.Nodup)
    (hreaders : ∀ reader other k, (next.readers reader).Holds other k →
      k ∈ (next.db other).table)
    (hstale : next.stale = s.stale) : OwnedInv next (Function.update place handle new) := by
  refine ⟨fun k => ?_, fun other k => ?_, hnodup, hreaders, hstale.trans hinv.stale⟩
  · by_cases hk : k = handle
    · subst hk
      rw [Function.update_self]
      exact hview
    · rw [Function.update_of_ne hk, hviews k hk]
      exact hinv.view k
  · by_cases hk : k = handle
    · subst hk
      rw [Function.update_self]
      exact hstored other
    · rw [Function.update_of_ne hk, htables other k hk]
      exact hinv.tables other k

theorem OwnedInv.notMem (hinv : OwnedInv s place) (hplace : place handle ≠ .stored kind) :
    handle ∉ (s.db kind).table :=
  mt (hinv.tables kind handle).mp hplace

theorem OwnedInv.call (hinv : OwnedInv s place) (data : Payload) (type : EMsgType) :
    OwnedInv (s.call data type) (Function.update place s.next .called) := by
  have hunborn := hinv.place_next
  have hview := hinv.view s.next
  rw [hunborn] at hview
  have hentry : s.entryLive s.next = false := congrArg (·.2.2.2.1) hview
  have hdeletes : s.deletes s.next = 0 := congrArg (·.2.2.2.2) hview
  refine hinv.move ?_ (fun k hk => ?_) (fun other => iff_of_false ?_ nofun)
    (fun _ _ _ => Iff.rfl) hinv.nodup hinv.readers rfl
  · simp [OwnedStore.view, OwnedStore.call, Place.view, hentry, hdeletes]
  · have hborn : k < s.next + 1 ↔ k < s.next := by omega
    simp [OwnedStore.view, OwnedStore.call, Function.update_of_ne hk, hborn]
  · exact hinv.notMem (by rw [hunborn]; exact nofun)

theorem OwnedInv.delete (hinv : OwnedInv s place) (hphase : s.phase handle ≠ .finished)
    (hnext : next.next = s.next) (hphases : next.phase = Function.update s.phase handle .finished)
    (hbuf : next.bufLive = Function.update s.bufLive handle false)
    (hentry : next.entryLive = Function.update s.entryLive handle false)
    (hdeletes : next.deletes = Function.update s.deletes handle (s.deletes handle + 1))
    (hdb : next.db = s.db) (hreaders : next.readers = s.readers) (hstale : next.stale = s.stale) :
    OwnedInv next (Function.update place handle .gone) := by
  have hview := hinv.view handle
  have hbefore := hinv.phase handle
  have hnone : (place handle).view.1 = true ∧ (place handle).view.2.2.2.2 = 0 := by
    cases hplace : place handle <;> rw [hplace] at hbefore <;>
      first
        | exact ⟨rfl, rfl⟩
        | exact absurd hbefore hphase
  have hborn : decide (handle < s.next) = true :=
    (congrArg (·.1) hview).trans hnone.1
  have hzero : s.deletes handle = 0 := (congrArg (·.2.2.2.2) hview).trans hnone.2
  refine hinv.move ?_ (fun k hk => ?_) (fun kind => iff_of_false ?_ nofun) ?_ ?_ ?_ hstale
  · simp only [OwnedStore.view, hnext, hphases, hbuf, hentry, hdeletes, Function.update_self,
      hborn, hzero]
    rfl
  · simp only [OwnedStore.view, hnext, hphases, hbuf, hentry, hdeletes,
      Function.update_of_ne hk]
  · rw [hdb]
    refine hinv.notMem fun hstored => ?_
    rw [hstored] at hbefore
    exact hphase hbefore
  · intro kind k _
    rw [hdb]
  · rw [hdb]
    exact hinv.nodup
  · rw [hdb, hreaders]
    exact hinv.readers

theorem OwnedInv.enter (hinv : OwnedInv s place) (hcalled : s.phase handle = .called)
    (kind : V2xKind) (entered : Bool) (hnext : next.next = s.next)
    (hphases : next.phase = Function.update s.phase handle
      (if entered then .finished else .rejected))
    (hbuf : next.bufLive = s.bufLive)
    (hentry : next.entryLive = Function.update s.entryLive handle true)
    (hdeletes : next.deletes = s.deletes)
    (htable : (next.db kind).table =
      if entered then handle :: (s.db kind).table else (s.db kind).table)
    (hothers : ∀ other, other ≠ kind → next.db other = s.db other)
    (hreaders : next.readers = s.readers) (hstale : next.stale = s.stale) :
    OwnedInv next (Function.update place handle
      (if entered then .stored kind else .rejected)) := by
  have hplace := hinv.place_called hcalled
  have hview := hinv.view handle
  rw [hplace] at hview
  have hnew : ∀ other, handle ∉ (s.db other).table := fun other =>
    hinv.notMem (by rw [hplace]; exact nofun)
  have hmem : ∀ other k, k ∈ (next.db other).table ↔
      k ∈ (s.db other).table ∨ k = handle ∧ entered = true ∧ kind = other := by
    intro other k
    by_cases hother : other = kind
    · subst hother
      rw [htable]
      cases entered <;> simp [or_comm]
    · rw [hothers other hother]
      simp [Ne.symm hother]
  refine hinv.move ?_ (fun k hk => ?_) (fun other => ?_) (fun other k hk => ?_)
    (fun other => ?_) ?_ hstale
  · have hborn : decide (handle < s.next) = true := congrArg (·.1) hview
    have hlive : s.bufLive handle = true := congrArg (·.2.2.1) hview
    have hzero : s.deletes handle = 0 := congrArg (·.2.2.2.2) hview
    simp only [OwnedStore.view, hnext, hphases, hbuf, hentry, hdeletes, Function.update_self,
      hborn, hlive, hzero]
    cases entered <;> rfl
  · simp only [OwnedStore.view, hnext, hphases, hbuf, hentry, hdeletes,
      Function.update_of_ne hk]
  · rw [hmem]
    cases entered <;> simp [hnew other]
  · rw [hmem]
    exact or_iff_left fun hself => hk hself.1
  · by_cases hother : other = kind
    · subst hother
      rw [htable]
      split
      · exact List.nodup_cons.mpr ⟨hnew other, hinv.nodup other⟩
      · exact hinv.nodup other
    · rw [hothers other hother]
      exact hinv.nodup other
  · rw [hreaders]
    intro reader other k hholds
    exact (hmem other k).mpr (Or.inl (hinv.readers reader other k hholds))

theorem OwnedInv.evict {entry : Nat} (hinv : OwnedInv s place)
    (hmem : entry ∈ (s.db kind).table)
    (hunread : ∀ reader, ¬ (s.readers reader).Holds kind entry) (hnext : next.next = s.next)
    (hphases : next.phase = s.phase)
    (hbuf : next.bufLive = Function.update s.bufLive entry false)
    (hentry : next.entryLive = Function.update s.entryLive entry false)
    (hdeletes : next.deletes = Function.update s.deletes entry (s.deletes entry + 1))
    (htable : (next.db kind).table = (s.db kind).table.erase entry)
    (hothers : ∀ other, other ≠ kind → next.db other = s.db other)
    (hreaders : next.readers = s.readers) (hstale : next.stale = s.stale) :
    OwnedInv next (Function.update place entry .gone) := by
  have hplace := (hinv.tables kind entry).mp hmem
  have hview := hinv.view entry
  rw [hplace] at hview
  have honly : ∀ other, entry ∈ (s.db other).table → other = kind := by
    intro other hin
    have hstored := (hinv.tables other entry).mp hin
    rw [hplace] at hstored
    exact (Place.stored.inj hstored).symm
  have hother : ∀ other k, k ≠ entry →
      (k ∈ (next.db other).table ↔ k ∈ (s.db other).table) := by
    intro other k hk
    by_cases hkind : other = kind
    · subst hkind
      rw [htable, List.mem_erase_of_ne hk]
    · rw [hothers other hkind]
  refine hinv.move ?_ (fun k hk => ?_) (fun other => iff_of_false (fun hin => ?_) nofun) hother
    (fun other => ?_) ?_ hstale
  · have hborn : decide (entry < s.next) = true := congrArg (·.1) hview
    have hphase : s.phase entry = .finished := congrArg (·.2.1) hview
    have hzero : s.deletes entry = 0 := congrArg (·.2.2.2.2) hview
    simp only [OwnedStore.view, hnext, hphases, hbuf, hentry, hdeletes, Function.update_self,
      hborn, hphase, hzero]
    rfl
  · simp only [OwnedStore.view, hnext, hphases, hbuf, hentry, hdeletes,
      Function.update_of_ne hk]
  · by_cases hkind : other = kind
    · subst hkind
      rw [htable] at hin
      exact (hinv.nodup other).not_mem_erase hin
    · rw [hothers other hkind] at hin
      exact hkind (honly other hin)
  · by_cases hkind : other = kind
    · subst hkind
      rw [htable]
      exact (hinv.nodup other).erase entry
    · rw [hothers other hkind]
      exact hinv.nodup other
  · rw [hreaders]
    intro reader other k hholds
    have hin := hinv.readers reader other k hholds
    have hk : k ≠ entry := by
      rintro rfl
      obtain rfl := honly other hin
      exact hunread reader hholds
    exact (hother other k hk).mpr hin

theorem OwnedStore.same_any (hnew : ¬ (s.db kind).table.any (s.same · handle) = true) :
    ∀ other ∈ (s.db kind).table, s.content other ≠ s.content handle := by
  intro other hmem hsame
  exact hnew (List.any_eq_true.mpr ⟨other, hmem, beq_iff_eq.mpr hsame⟩)

theorem OwnedStore.table_update_self (db : V2xKind → V2xTable Nat) (t : V2xTable Nat) :
    (Function.update db kind t kind).table = t.table := by
  rw [Function.update_self]

theorem OwnedInv.addToTable (hinv : OwnedInv s place) (hcalled : s.phase handle = .called)
    (htarget : s.target handle = some kind)
    (hunread : ∀ entry, s.Evicts handle kind entry →
      ∀ reader, ¬ (s.readers reader).Holds kind entry) :
    ∃ place', OwnedInv (s.addToTable handle kind) place' := by
  unfold OwnedStore.addToTable
  rcases (s.db kind).addEntryWithCompare_cases s.same handle with
    ⟨_, hresult⟩ | ⟨_, hresult⟩ | ⟨entry, rest, hnew, htable, hfull, hresult⟩
  · rw [hresult]
    refine ⟨_, hinv.enter hcalled kind false rfl rfl rfl rfl rfl ?_ ?_ rfl rfl⟩
    · exact OwnedStore.table_update_self _ _
    · exact fun other hother => Function.update_of_ne hother _ _
  · rw [hresult]
    refine ⟨_, hinv.enter hcalled kind true rfl rfl rfl rfl rfl ?_ ?_ rfl rfl⟩
    · exact OwnedStore.table_update_self _ _
    · exact fun other hother => Function.update_of_ne hother _ _
  · rw [hresult]
    -- the new entry in front of the whole table, before the old front goes
    let entered : OwnedStore := { s with
      entryLive := Function.update s.entryLive handle true
      db := Function.update s.db kind ((s.db kind).pushFront handle)
      phase := Function.update s.phase handle .finished }
    have hentered : OwnedInv entered (Function.update place handle (.stored kind)) := by
      refine hinv.enter hcalled kind true rfl rfl rfl rfl rfl ?_ ?_ rfl rfl
      · exact OwnedStore.table_update_self _ _
      · exact fun other hother => Function.update_of_ne hother _ _
    have hentries : (entered.db kind).table = handle :: entry :: rest := by
      have hpush : entered.db kind = (s.db kind).pushFront handle := Function.update_self _ _ _
      rw [hpush, ← htable]
      rfl
    have hne : handle ≠ entry := by
      rintro rfl
      have hnew : handle ∉ (s.db kind).table :=
        hinv.notMem (by rw [hinv.place_called hcalled]; exact nofun)
      exact hnew (htable ▸ List.mem_cons_self)
    have hevicts : s.Evicts handle kind entry :=
      ⟨hcalled, htarget, OwnedStore.same_any hnew, hfull, by rw [htable]; rfl⟩
    have hmem : entry ∈ (entered.db kind).table := by
      rw [hentries]
      exact List.mem_cons_of_mem _ List.mem_cons_self
    refine ⟨_, hentered.evict hmem (hunread entry hevicts) rfl rfl rfl rfl rfl ?_ ?_ rfl rfl⟩
    · rw [hentries, List.erase_cons_tail (by simpa using hne), List.erase_cons_head]
      exact OwnedStore.table_update_self _ _
    · intro other hother
      exact (Function.update_of_ne hother _ _).trans (Function.update_of_ne hother _ _).symm

theorem OwnedInv.of_reader (hinv : OwnedInv s place) (hnext : next.next = s.next)
    (hphases : next.phase = s.phase) (hbuf : next.bufLive = s.bufLive)
    (hentry : next.entryLive = s.entryLive) (hdeletes : next.deletes = s.deletes)
    (htables : ∀ kind, (next.db kind).table = (s.db kind).table)
    (hreaders : ∀ reader kind handle, (next.readers reader).Holds kind handle →
      handle ∈ (s.db kind).table)
    (hstale : next.stale = []) : OwnedInv next place := by
  refine ⟨fun handle => ?_, fun kind handle => ?_, fun kind => ?_, ?_, hstale⟩
  · rw [← hinv.view handle]
    simp only [OwnedStore.view, hnext, hphases, hbuf, hentry, hdeletes]
  · rw [htables]
    exact hinv.tables kind handle
  · rw [htables]
    exact hinv.nodup kind
  · intro reader kind handle hholds
    rw [htables]
    exact hreaders reader kind handle hholds

theorem OwnedStore.table_update (t : V2xTable Nat) (htable : t.table = (s.db kind).table)
    (other : V2xKind) :
    (Function.update s.db kind t other).table = (s.db other).table := by
  by_cases hother : other = kind
  · subst hother
    rw [Function.update_self, htable]
  · rw [Function.update_of_ne hother]

theorem OwnedInv.holds_update (hinv : OwnedInv s place) (reader : Nat) (phase : ReadPhase)
    (hphase : ∀ kind handle, phase.Holds kind handle → handle ∈ (s.db kind).table)
    (other : Nat) (kind : V2xKind) (handle : Nat)
    (hholds : (Function.update s.readers reader phase other).Holds kind handle) :
    handle ∈ (s.db kind).table := by
  by_cases hother : other = reader
  · subst hother
    rw [Function.update_self] at hholds
    exact hphase kind handle hholds
  · rw [Function.update_of_ne hother] at hholds
    exact hinv.readers other kind handle hholds

theorem OwnedInv.getLatest (hinv : OwnedInv s place) (reader : Nat) (type : EMsgType) :
    OwnedInv (s.getLatest reader type) place := by
  unfold OwnedStore.getLatest
  split
  next => exact hinv
  next kind _ =>
    split
    next => exact hinv
    next t hget =>
      obtain ⟨_, htable⟩ := (s.db kind).getLatestEntry_eq_some hget
      exact hinv.of_reader rfl rfl rfl rfl rfl (OwnedStore.table_update t htable) hinv.readers
        hinv.stale
    next handle t hget =>
      obtain ⟨hfront, htable⟩ := (s.db kind).getLatestEntry_eq_some hget
      refine hinv.of_reader rfl rfl rfl rfl rfl (OwnedStore.table_update t htable) ?_ hinv.stale
      refine hinv.holds_update reader _ ?_
      rintro other k (hcopy | hlen)
      · cases hcopy
        exact List.mem_of_mem_head? hfront.symm
      · cases hlen

theorem OwnedInv.live_of_mem (hinv : OwnedInv s place) (hmem : handle ∈ (s.db kind).table) :
    s.bufLive handle = true ∧ s.entryLive handle = true := by
  have hview := hinv.view handle
  rw [(hinv.tables kind handle).mp hmem] at hview
  exact ⟨congrArg (·.2.2.1) hview, congrArg (·.2.2.2.1) hview⟩

theorem OwnedInv.getRead (hinv : OwnedInv s place) (reader : Nat) :
    OwnedInv (s.getRead reader) place := by
  unfold OwnedStore.getRead
  split
  next => exact hinv
  next kind handle hcopy =>
    have hmem := hinv.readers reader kind handle (Or.inl hcopy)
    obtain ⟨hbuf, hentry⟩ := hinv.live_of_mem hmem
    refine hinv.of_reader rfl rfl rfl rfl rfl (fun _ => rfl) (hinv.holds_update reader _ ?_) ?_
    · rintro other k (hnone | hlen)
      · cases hnone
      · cases hlen
        exact hmem
    · simp [OwnedStore.gotoRead, OwnedStore.touch, hbuf, hentry, hinv.stale]
  next kind handle hlen =>
    have hmem := hinv.readers reader kind handle (Or.inr hlen)
    obtain ⟨_, hentry⟩ := hinv.live_of_mem hmem
    refine hinv.of_reader rfl rfl rfl rfl rfl (fun _ => rfl) (hinv.holds_update reader _ ?_) ?_
    · rintro other k (hnone | hnone)
      · cases hnone
      · cases hnone
    · simp [OwnedStore.gotoRead, OwnedStore.touch, hentry, hinv.stale]

theorem OwnedInv.step {getMsgType : BitVec 32 → EMsgType} (hinv : OwnedInv s place)
    {event : OwnedEvent} (hok : KeepsUnread s event) :
    ∃ place', OwnedInv (ownedNext getMsgType s event) place' := by
  cases event with
  | call data appid => exact ⟨_, hinv.call data (getMsgType appid)⟩
  | submit handle =>
      unfold ownedNext
      dsimp only
      split
      next hcalled =>
        unfold OwnedStore.submitTable
        split
        next =>
          have hview := hinv.view handle
          rw [hinv.place_called hcalled] at hview
          have hentry : s.entryLive handle = false := congrArg (·.2.2.2.1) hview
          refine ⟨_, hinv.delete (by rw [hcalled]; decide) rfl rfl rfl ?_ rfl rfl rfl rfl⟩
          rw [← hentry, Function.update_eq_self]
          rfl
        next kind htarget =>
          exact hinv.addToTable hcalled htarget fun entry hevicts => hok kind entry hevicts
      next hrejected =>
        exact ⟨_, hinv.delete (by rw [hrejected]; decide) rfl rfl rfl rfl rfl rfl rfl rfl⟩
      next => exact ⟨place, hinv⟩
  | latest reader type =>
      unfold ownedNext
      dsimp only
      split
      next => exact ⟨place, hinv.getLatest reader type⟩
      next => exact ⟨place, hinv⟩
  | read reader => exact ⟨place, hinv.getRead reader⟩

end Inv

/-- Ownership is kept by every order of the steps in which no submission takes out
an entry that is still to be read. -/
theorem owned_of_keepsUnread (getMsgType : BitVec 32 → EMsgType) (events : List OwnedEvent)
    (hmeet : StepsMeet (ownedStep getMsgType) KeepsUnread OwnedStore.init events) :
    Throughout (ownedStep getMsgType) OwnedOk OwnedStore.init events := by
  have hpreserved : ∀ {s : OwnedStore} {event : OwnedEvent} {next : OwnedStore},
      (∃ place, OwnedInv s place) → KeepsUnread s event →
        ownedStep getMsgType s event = some next → ∃ place, OwnedInv next place := by
    rintro s event next ⟨place, hinv⟩ hok hstep
    obtain rfl := Option.some.inj hstep
    exact hinv.step hok
  have hkept := throughout_of_stepsMeet hpreserved ⟨_, ownedInv_init⟩ hmeet
  exact hkept.imp fun _ ⟨_, hinv⟩ => hinv.ownedOk

/-- Each `GetData` call has read its entry before anything else happens. -/
inductive Undisturbed : List OwnedEvent → Prop
  | nil : Undisturbed []
  | call (data : Payload) (appid : BitVec 32) {events : List OwnedEvent} :
      Undisturbed events → Undisturbed (.call data appid :: events)
  | submit (handle : Nat) {events : List OwnedEvent} :
      Undisturbed events → Undisturbed (.submit handle :: events)
  | getData (reader : Nat) (type : EMsgType) {events : List OwnedEvent} :
      Undisturbed events →
        Undisturbed (.latest reader type :: .read reader :: .read reader :: events)

section Undisturbed

variable {s : OwnedStore} {reader : Nat}

theorem readers_submit (getMsgType : BitVec 32 → EMsgType) (s : OwnedStore) (handle : Nat) :
    (ownedNext getMsgType s (.submit handle)).readers = s.readers := by
  unfold ownedNext
  dsimp only
  split
  · unfold OwnedStore.submitTable OwnedStore.addToTable
    split
    · rfl
    · dsimp only
      split <;> rfl
  · rfl
  · rfl

theorem readers_getLatest (s : OwnedStore) (reader : Nat) (type : EMsgType) :
    (s.getLatest reader type).readers = s.readers ∨
      ∃ kind handle, (s.getLatest reader type).readers =
        Function.update s.readers reader (.copy kind handle) := by
  unfold OwnedStore.getLatest
  split
  · exact .inl rfl
  · split
    · exact .inl rfl
    · exact .inl rfl
    · exact .inr ⟨_, _, rfl⟩

theorem readers_getRead_of_idle (hidle : s.readers reader = .idle) :
    (s.getRead reader).readers = s.readers := by
  simp [OwnedStore.getRead, hidle]

theorem readers_getRead_getRead {kind : V2xKind} {handle : Nat}
    (hcopy : s.readers reader = .copy kind handle) :
    ((s.getRead reader).getRead reader).readers = Function.update s.readers reader .idle := by
  simp [OwnedStore.getRead, hcopy, OwnedStore.gotoRead, OwnedStore.touch]

theorem readers_getData (hidle : ∀ other, s.readers other = .idle) (type : EMsgType) :
    (((s.getLatest reader type).getRead reader).getRead reader).readers = s.readers := by
  obtain hsame | ⟨kind, handle, htaken⟩ := readers_getLatest s reader type
  · have hnothing : (s.getLatest reader type).readers reader = .idle := by
      rw [hsame]
      exact hidle reader
    have hread := readers_getRead_of_idle hnothing
    have hagain : ((s.getLatest reader type).getRead reader).readers reader = .idle := by
      rw [hread]
      exact hnothing
    rw [readers_getRead_of_idle hagain, hread, hsame]
  · have hcopy : (s.getLatest reader type).readers reader = .copy kind handle := by
      rw [htaken, Function.update_self]
    rw [readers_getRead_getRead hcopy, htaken, Function.update_idem, ← hidle reader,
      Function.update_eq_self]

theorem keepsUnread_of_idle (hidle : ∀ other, s.readers other = .idle) (event : OwnedEvent) :
    KeepsUnread s event := by
  cases event with
  | submit handle =>
      rintro kind entry - other (hcopy | hlen)
      · cases (hidle other).symm.trans hcopy
      · cases (hidle other).symm.trans hlen
  | call | latest | read => trivial

theorem keepsUnread_of_undisturbed {getMsgType : BitVec 32 → EMsgType}
    {events : List OwnedEvent} (hundisturbed : Undisturbed events)
    (hidle : ∀ other, s.readers other = .idle) :
    StepsMeet (ownedStep getMsgType) KeepsUnread s events := by
  induction hundisturbed generalizing s with
  | nil => exact stepsMeet_nil
  | call data appid _ ih =>
      refine stepsMeet_cons.mpr ⟨trivial, fun next hnext => ?_⟩
      obtain rfl := Option.some.inj hnext
      exact ih hidle
  | submit handle _ ih =>
      refine stepsMeet_cons.mpr ⟨keepsUnread_of_idle hidle _, fun next hnext => ih ?_⟩
      obtain rfl := Option.some.inj hnext
      rw [readers_submit]
      exact hidle
  | getData reader type _ ih =>
      refine stepsMeet_cons.mpr ⟨trivial, fun latest hlatest => ?_⟩
      refine stepsMeet_cons.mpr ⟨trivial, fun copied hcopied => ?_⟩
      refine stepsMeet_cons.mpr ⟨trivial, fun read hread => ih ?_⟩
      obtain rfl := Option.some.inj hlatest
      obtain rfl := Option.some.inj hcopied
      obtain rfl := Option.some.inj hread
      have htaken : ownedNext getMsgType s (.latest reader type) = s.getLatest reader type :=
        if_pos (hidle reader)
      intro other
      rw [htaken]
      exact (congrFun (readers_getData hidle type) other).trans (hidle other)

end Undisturbed

/-- The sixth message takes the fifth out, which a `GetData` call has read. -/
theorem owned_of_keepsUnread_six :
    Throughout (ownedStep appidType) OwnedOk OwnedStore.init
      [.call [1] 29, .submit 0, .call [2] 29, .submit 1, .call [3] 29, .submit 2,
        .call [4] 29, .submit 3, .call [5] 29, .submit 4, .latest 0 .MSG_TYPE_MAP, .read 0,
        .read 0, .call [6] 29, .submit 5] := by
  refine owned_of_keepsUnread _ _ (keepsUnread_of_undisturbed ?_ fun _ => rfl)
  exact .call _ _ <| .submit _ <| .call _ _ <| .submit _ <| .call _ _ <| .submit _ <|
    .call _ _ <| .submit _ <| .call _ _ <| .submit _ <| .getData _ _ <| .call _ _ <|
    .submit _ .nil

example : (run (ownedStep appidType) OwnedStore.init
    [.call [1] 29, .submit 0, .call [2] 29, .submit 1, .call [3] 29, .submit 2,
      .call [4] 29, .submit 3, .call [5] 29, .submit 4, .latest 0 .MSG_TYPE_MAP, .read 0,
      .read 0, .call [6] 29, .submit 5]).map (·.deletes 4) = some 1 := rfl

/-- The same, with the copy of `GetData` still to come. -/
theorem owned_fails :
    ¬ Throughout (ownedStep appidType) OwnedOk OwnedStore.init
        [.call [1] 29, .submit 0, .call [2] 29, .submit 1, .call [3] 29, .submit 2,
          .call [4] 29, .submit 3, .call [5] 29, .submit 4, .latest 0 .MSG_TYPE_MAP,
          .call [6] 29, .submit 5, .read 0] := by
  intro hall
  have hstale := (hall.last rfl).noStale
  exact absurd hstale (by decide)

end ApolloContrib.V2x
