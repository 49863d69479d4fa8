import ApolloContrib.Esd.WorkQueue
import Mathlib.Data.List.Perm.Subperm

namespace ApolloContrib.Esd

open ApolloContrib.Library Function

/-! What each section under the lock does to a driver whose list is whole. -/

universe u

variable {Var Addr Func : Type u} [DecidableEq Addr] {s s' : State Var Addr Func} {a last : Addr}
  {addrs : List Addr} {dpc : Dpc Addr Func} {first : Option Addr}

def Dpc.cut (dpc : Dpc Addr Func) : Dpc Addr Func := { dpc with next := none }

namespace State

@[simp] theorem setObj_obj : (s.setObj a dpc).obj = update s.obj a dpc := rfl

@[simp] theorem setObj_live : (s.setObj a dpc).live = s.live := rfl

omit [DecidableEq Addr] in
@[simp] theorem setFirst_obj : (s.setFirst first).obj = s.obj := rfl

theorem deref_of_mem (hmem : a ∈ s.live) : s.deref a = some (s.obj a) := if_pos hmem

theorem next_of_mem (hmem : a ∈ s.live) : s.next a = some (s.obj a).next := by
  rw [next, deref_of_mem hmem]
  rfl

theorem mem_of_next {link : Option Addr} (hnext : s.next a = some link) : a ∈ s.live := by
  by_contra hout
  rw [next, deref, if_neg hout] at hnext
  cases hnext

theorem store_of_mem (hmem : a ∈ s.live) (f : Dpc Addr Func → Dpc Addr Func) :
    s.store a f = some (s.setObj a (f (s.obj a))) := by
  rw [store, deref_of_mem hmem]
  rfl

@[simp] theorem next_setFirst : (s.setFirst first).next = s.next := rfl

theorem next_setObj (dpc : Dpc Addr Func) (hmem : a ∈ s.live) :
    (s.setObj a dpc).next = update s.next a (some dpc.next) := by
  funext other
  rcases eq_or_ne other a with rfl | hne
  · rw [update_self, next_of_mem (s := s.setObj other dpc) hmem, setObj_obj, update_self]
  · simp only [next, deref, setObj_live, setObj_obj, update_of_ne hne]

theorem cut_setObj : (fun other => ((s.setObj a dpc).obj other).cut) =
    update (fun other => (s.obj other).cut) a dpc.cut := by
  funext other
  rcases eq_or_ne other a with rfl | hne
  · rw [update_self, setObj_obj, update_self]
  · rw [update_of_ne hne, setObj_obj, update_of_ne hne]

theorem linked_live (hlinked : Linked s.next first addrs) (hmem : a ∈ addrs) : a ∈ s.live := by
  obtain ⟨link, hnext⟩ := hlinked.readable hmem
  exact mem_of_next hnext

theorem linked_length (hlinked : Linked s.next first addrs) : addrs.length ≤ s.live.length :=
  (hlinked.nodup.subperm fun _ hmem => linked_live hlinked hmem).length_le

theorem takeFirst_none (hfirst : s.first = none) :
    s.takeFirst = some { s with interruptible := true, worker := .choose } := by
  rw [takeFirst, hfirst]

theorem takeFirst_some (hfirst : s.first = some a) (hmem : a ∈ s.live) :
    s.takeFirst = some { (((s.setFirst (s.obj a).next).setObj a
        { s.obj a with linked := false, running := true }).log (.called (s.obj a).func)) with
      worker := .call a } := by
  rw [takeFirst, hfirst]
  dsimp only
  rw [deref_of_mem hmem, Option.bind_eq_bind, Option.bind_some,
    store_of_mem (s := s.setFirst (s.obj a).next) hmem]
  rfl

theorem takeFirst_worker (worker : Worker Addr) (hlive : ∀ a, s.first = some a → a ∈ s.live) :
    State.takeFirst { s with worker } = s.takeFirst := by
  rcases Option.eq_none_or_eq_some s.first with hfirst | ⟨a, hfirst⟩
  · have hnone := takeFirst_none (s := { s with worker }) hfirst
    exact hnone.trans (takeFirst_none hfirst).symm
  · have hsome := takeFirst_some (s := { s with worker }) hfirst (hlive a hfirst)
    exact hsome.trans (takeFirst_some hfirst (hlive a hfirst)).symm

theorem threadStep_test (hworker : s.worker = .test) :
    s.threadStep = some { s with worker := if s.destroy then .exited else .clear } := by
  cases s
  cases hworker
  rfl

theorem threadStep_clear (hworker : s.worker = .clear) :
    s.threadStep = State.takeFirst { s with trig := s.trig - 1 } := by
  cases s
  cases hworker
  rfl

theorem threadStep_call (hworker : s.worker = .call a) (hmem : a ∈ s.live) :
    s.threadStep = State.takeFirst (s.setObj a { s.obj a with running := false }) := by
  have hstore := store_of_mem hmem fun dpc => { dpc with running := false }
  cases s
  cases hworker
  exact congrArg (fun next => next.bind takeFirst) hstore

theorem threadStep_choose (hworker : s.worker = .choose) :
    s.threadStep = if s.trig = 0 then some { s with worker := .schedule }
      else some { s with worker := .test, interruptible := false } := by
  cases s
  cases hworker
  rfl

theorem threadStep_schedule (hworker : s.worker = .schedule) :
    s.threadStep = if s.interruptible then none else some { s with worker := .test } := by
  cases s
  cases hworker
  rfl

/-- A list that is whole gets `a` at its end, and of the nodes only `a` gets more than a new
link. -/
theorem append_linked (hlinked : Linked s.next s.first addrs) (hout : a ∉ addrs)
    (hmem : a ∈ s.live) :
    ∃ first obj, ((s.append a).bind fun s => s.store a fun dpc =>
        { dpc with next := none, linked := true }) = some { s with first, obj } ∧
      Linked (State.next { s with first, obj }) first (addrs ++ [a]) ∧
      (fun other => (obj other).cut) =
        update (fun other => (s.obj other).cut) a { s.obj a with next := none, linked := true } := by
  cases hfirst : s.first with
  | none =>
      obtain rfl : addrs = [] := by
        rw [hfirst] at hlinked
        exact List.head?_eq_none_iff.mp hlinked.head.symm
      have happend : s.append a = some (s.setFirst (some a)) := by rw [append, hfirst]
      rw [happend, Option.bind_some, store_of_mem (s := s.setFirst (some a)) hmem]
      refine ⟨some a, _, rfl, ⟨rfl, none, ?_, rfl⟩, cut_setObj⟩
      exact (congrFun (next_setObj (s := s) _ hmem) a).trans (update_self ..)
  | some head =>
      have hne : addrs ≠ [] := by
        rintro rfl
        rw [hfirst] at hlinked
        cases hlinked
      obtain ⟨last, hlast⟩ : ∃ last, addrs.getLast? = some last :=
        ⟨_, List.getLast?_eq_some_getLast hne⟩
      have hlastMem : last ∈ s.live := linked_live hlinked (List.mem_of_getLast? hlast)
      have hwalk : lastFrom s.next s.live.length head = some last := by
        rw [← hlast]
        exact lastFrom_eq (hfirst ▸ hlinked) (linked_length hlinked)
      have hother : a ≠ last := fun heq => hout (heq ▸ List.mem_of_getLast? hlast)
      have happend : s.append a = some (s.setObj last { s.obj last with next := some a }) := by
        rw [append, hfirst]
        dsimp only
        rw [hwalk, Option.bind_eq_bind, Option.bind_some, store_of_mem hlastMem]
      let linked := s.setObj last { s.obj last with next := some a }
      have hobj : linked.obj a = s.obj a := update_of_ne hother ..
      rw [happend, Option.bind_some, store_of_mem (s := linked) hmem, hobj]
      refine ⟨s.first, _, rfl, ?_, ?_⟩
      · have hnext := next_setObj (s := linked) { s.obj a with next := none, linked := true } hmem
        rw [next_setObj _ hlastMem] at hnext
        change Linked (linked.setObj a _).next s.first (addrs ++ [a])
        rw [hnext]
        exact hlinked.snoc hlast hout
      · have hcut : (fun other => (linked.obj other).cut) = fun other => (s.obj other).cut := by
          rw [cut_setObj]
          exact update_eq_self ..
        change (fun other => ((linked.setObj a _).obj other).cut) = _
        rw [cut_setObj, hcut]
        rfl

theorem linked_setObj (hlinked : Linked s.next first addrs) (hout : a ∉ addrs)
    (hmem : a ∈ s.live) : Linked (s.setObj a dpc).next first addrs := by
  rw [next_setObj _ hmem]
  exact hlinked.congr fun other hother => update_of_ne (ne_of_mem_of_not_mem hother hout) ..

theorem linked_setObj_same (hlinked : Linked s.next first addrs) (hmem : a ∈ s.live)
    (hsame : dpc.next = (s.obj a).next) : Linked (s.setObj a dpc).next first addrs := by
  refine hlinked.congr fun other _ => ?_
  rw [next_setObj _ hmem]
  rcases eq_or_ne other a with rfl | hne
  · rw [update_self, next_of_mem hmem, hsame]
  · exact update_of_ne hne ..

theorem cut_setObj_next (link : Option Addr) :
    (fun other => ((s.setObj a { s.obj a with next := link }).obj other).cut) =
      fun other => (s.obj other).cut := by
  rw [cut_setObj]
  exact update_eq_self ..

/-- `a` is off the list, wherever it was, and no node gets more than a new link. -/
theorem linkOut_linked (hlinked : Linked s.next s.first addrs) (hmem : a ∈ s.live) :
    ∃ first obj, s.linkOut a = some { s with first, obj } ∧
      Linked (State.next { s with first, obj }) first (addrs.erase a) ∧
      (fun other => (obj other).cut) = fun other => (s.obj other).cut := by
  have hderef : s.deref a = some (s.obj a) := deref_of_mem hmem
  by_cases hfirst : s.first = some a
  · -- `a` is the first of the list
    rw [linkOut, hderef, Option.bind_eq_bind, Option.bind_some, if_pos hfirst,
      store_of_mem (s := s.setFirst (s.obj a).next) hmem]
    refine ⟨(s.obj a).next, _, rfl, ?_, cut_setObj_next none⟩
    cases addrs with
    | nil =>
        rw [hfirst] at hlinked
        cases hlinked
    | cons head rest =>
        obtain rfl : head = a := Option.some.inj (hlinked.1.symm.trans hfirst)
        have hout := hlinked.not_mem_tail
        obtain ⟨-, link, hnext, hrest⟩ := hlinked
        rw [next_of_mem hmem] at hnext
        obtain rfl := Option.some.inj hnext
        rw [List.erase_cons_head]
        exact linked_setObj hrest hout hmem
  · have hwalk : linkTo s.next a s.live.length s.first =
        some (addrs.find? fun node => s.next node = some (some a)) :=
      linkTo_eq hlinked (linked_length hlinked)
    rw [linkOut, hderef, Option.bind_eq_bind, Option.bind_some, if_neg hfirst, hwalk,
      Option.bind_eq_bind, Option.bind_some]
    by_cases hin : a ∈ addrs
    · obtain ⟨before, after, rfl⟩ := List.append_of_mem hin
      rcases List.eq_nil_or_concat before with rfl | ⟨before, last, rfl⟩
      · exact absurd hlinked.1 hfirst
      · -- `last` is the node whose link is `a`
        rw [List.concat_eq_append, List.append_assoc, List.singleton_append] at hlinked ⊢
        have hnodup := hlinked.nodup
        have hlast : last ∈ s.live := linked_live hlinked (by simp)
        have hother : a ≠ last := by
          rintro rfl
          simp [List.nodup_append] at hnodup
        have herase : (before ++ last :: a :: after).erase a = before ++ last :: after := by
          have hbefore : a ∉ before := by
            intro hbefore
            exact (List.nodup_append.mp hnodup).2.2 a hbefore a (by simp) rfl
          rw [List.erase_append_right _ hbefore, List.erase_cons_tail (by simpa using hother.symm),
            List.erase_cons_head]
        let skipped := s.setObj last { s.obj last with next := (s.obj a).next }
        have hobj : skipped.obj a = s.obj a := update_of_ne hother ..
        rw [hlinked.find_link, herase]
        dsimp only
        rw [store_of_mem hlast, Option.bind_eq_bind, Option.bind_some,
          store_of_mem (s := skipped) hmem, hobj]
        refine ⟨s.first, _, rfl, ?_, ?_⟩
        · have hnext := next_setObj (s := skipped) { s.obj a with next := none } hmem
          rw [next_setObj _ hlast] at hnext
          change Linked (skipped.setObj a _).next s.first (before ++ last :: after)
          rw [hnext]
          exact hlinked.unlink (next_of_mem hmem)
        · have hcut := cut_setObj_next (s := skipped) (a := a) none
          rw [hobj] at hcut
          exact hcut.trans (cut_setObj_next _)
    · rw [hlinked.find_none hin, List.erase_of_not_mem hin]
      exact ⟨s.first, s.obj, rfl, hlinked, rfl⟩

section Calls

variable [DecidableEq Var] {dpc : Var}

omit [DecidableEq Var] in
theorem osifDpcTrigger_destroy (hhandle : s.handle dpc = some a) (hmem : a ∈ s.live)
    (hdestroy : (s.obj a).destroy = true) :
    s.osifDpcTrigger dpc = some (s.log (.triggered dpc .enoent)) := by
  rw [osifDpcTrigger, hhandle, Option.bind_eq_bind, Option.bind_some, deref_of_mem hmem,
    Option.bind_eq_bind, Option.bind_some, if_pos hdestroy]

omit [DecidableEq Var] in
theorem osifDpcTrigger_linked (hhandle : s.handle dpc = some a) (hmem : a ∈ s.live)
    (hdestroy : (s.obj a).destroy = false) (hlinked : (s.obj a).linked = true) :
    s.osifDpcTrigger dpc = some (s.log (.triggered dpc .success)) := by
  rw [osifDpcTrigger, hhandle, Option.bind_eq_bind, Option.bind_some, deref_of_mem hmem,
    Option.bind_eq_bind, Option.bind_some, if_neg (by simp [hdestroy]), if_pos hlinked]

omit [DecidableEq Var] in
theorem osifDpcTrigger_new (hhandle : s.handle dpc = some a) (hmem : a ∈ s.live)
    (hdestroy : (s.obj a).destroy = false) (hnew : (s.obj a).linked = false)
    (hlinked : Linked s.next s.first addrs) (hout : a ∉ addrs) :
    ∃ first obj, s.osifDpcTrigger dpc = some { s with
        first, obj, trace := s.trace ++ [.triggered dpc .success], counting := s.counting + 1 } ∧
      Linked (State.next { s with first, obj }) first (addrs ++ [a]) ∧
      (fun other => (obj other).cut) =
        update (fun other => (s.obj other).cut) a { s.obj a with next := none, linked := true } := by
  obtain ⟨first, obj, happend, hnext⟩ := append_linked hlinked hout hmem
  refine ⟨first, obj, ?_, hnext⟩
  obtain ⟨middle, hmiddle, hstore⟩ := Option.bind_eq_some_iff.mp happend
  rw [osifDpcTrigger, hhandle, Option.bind_eq_bind, Option.bind_some, deref_of_mem hmem,
    Option.bind_eq_bind, Option.bind_some, if_neg (by simp [hdestroy]), if_neg (by simp [hnew]),
    hmiddle, Option.bind_eq_bind, Option.bind_some, hstore]
  rfl

theorem testRunning_of_mem (hhandle : s.handle dpc = some a) (hmem : a ∈ s.live) :
    s.testRunning dpc = some { s with
      removal := update s.removal dpc
        (some (if (s.obj a).running then .waiting else .idle)) } := by
  rw [testRunning, hhandle, Option.bind_eq_bind, Option.bind_some, deref_of_mem hmem]
  rfl

theorem osifDpcDestroy_linked (hhandle : s.handle dpc = some a) (hmem : a ∈ s.live)
    (hlinked : Linked s.next s.first addrs) :
    ∃ first obj, s.osifDpcDestroy dpc = some { s with
        first, obj
        removal := update s.removal dpc
          (some (if (s.obj a).running then .waiting else .idle)) } ∧
      Linked (State.next { s with first, obj }) first (addrs.erase a) ∧
      (fun other => (obj other).cut) =
        update (fun other => (s.obj other).cut) a { s.obj a with next := none, destroy := true } := by
  let marked := s.setObj a { s.obj a with destroy := true }
  have hmarked : Linked marked.next marked.first addrs := linked_setObj_same hlinked hmem rfl
  obtain ⟨first, obj, hout, hnext, hcut⟩ := linkOut_linked hmarked hmem
  have hcuts := hcut.trans cut_setObj
  refine ⟨first, obj, ?_, hnext, hcuts⟩
  have hcutA : (obj a).cut = { s.obj a with next := none, destroy := true } :=
    (congrFun hcuts a).trans (update_self ..)
  have hrunning := congrArg Dpc.running hcutA
  change (obj a).running = (s.obj a).running at hrunning
  rw [osifDpcDestroy, hhandle, Option.bind_eq_bind, Option.bind_some, store_of_mem hmem,
    Option.bind_eq_bind, Option.bind_some, hout, Option.bind_some,
    testRunning_of_mem (s := { marked with first, obj }) hhandle hmem]
  dsimp only
  rw [hrunning]
  rfl

end Calls

end State

end ApolloContrib.Esd
