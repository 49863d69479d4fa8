import Mathlib.Data.List.Basic

namespace ApolloContrib.Library

/-! A list under a mutex, with a semaphore for its items: who has appended an item posts, and
who has waited for the semaphore takes the front. -/

/-- Of the threads, `posting` have appended and not posted yet, and `taking` have waited and
not taken yet. -/
structure CountedQueue (Item : Type*) where
  items : List Item
  permits : Nat
  posting : Nat
  taking : Nat

variable {Item : Type*}

namespace CountedQueue

def init : CountedQueue Item := ⟨[], 0, 0, 0⟩

variable (q : CountedQueue Item)

def pushBack (item : Item) : CountedQueue Item :=
  { q with items := q.items ++ [item], posting := q.posting + 1 }

/-- A semaphore at `max` refuses. -/
def semPost (max : Nat) : CountedQueue Item :=
  { q with
    permits := if q.permits < max then q.permits + 1 else q.permits
    posting := q.posting - 1 }

/-- `none`: there is nothing to take, and the thread waits on. -/
def semWait : Option (CountedQueue Item) :=
  if q.permits = 0 then none
  else some { q with permits := q.permits - 1, taking := q.taking + 1 }

/-- `none`: the front of an empty list. -/
def popFront : Option (Item × CountedQueue Item) :=
  match q.items with
  | [] => none
  | item :: rest => some (item, { q with items := rest, taking := q.taking - 1 })

/-- Every item has a permit, or a thread that posts for it or takes it, but for `lost` items
whose post was refused. -/
def Counted (lost : Nat) : Prop := q.permits + q.posting + q.taking + lost = q.items.length

variable {q} {lost max : Nat}

@[simp] theorem items_pushBack (item : Item) : (q.pushBack item).items = q.items ++ [item] := rfl

@[simp] theorem taking_pushBack (item : Item) : (q.pushBack item).taking = q.taking := rfl

@[simp] theorem items_semPost : (q.semPost max).items = q.items := rfl

@[simp] theorem taking_semPost : (q.semPost max).taking = q.taking := rfl

theorem counted_init : Counted (init : CountedQueue Item) 0 := rfl

namespace Counted

theorem pushBack (hcounted : Counted q lost) (item : Item) : Counted (q.pushBack item) lost := by
  unfold Counted at *
  simp only [CountedQueue.pushBack, List.length_append, List.length_singleton]
  omega

theorem semPost (hcounted : Counted q lost) (hposting : q.posting ≠ 0) (hroom : q.permits < max) :
    Counted (q.semPost max) lost := by
  unfold Counted at *
  simp only [CountedQueue.semPost, if_pos hroom]
  omega

theorem semPost_refused (hcounted : Counted q lost) (hposting : q.posting ≠ 0)
    (hfull : ¬ q.permits < max) : Counted (q.semPost max) (lost + 1) := by
  unfold Counted at *
  simp only [CountedQueue.semPost, if_neg hfull]
  omega

theorem semWait (hcounted : Counted q lost) (hpermits : q.permits ≠ 0) :
    ∃ next, q.semWait = some next ∧ Counted next lost ∧ next.items = q.items ∧
      next.posting = q.posting ∧ next.taking = q.taking + 1 := by
  refine ⟨_, if_neg hpermits, ?_, rfl, rfl, rfl⟩
  unfold Counted at *
  dsimp only
  omega

theorem popFront (hcounted : Counted q lost) (htaking : q.taking ≠ 0) :
    ∃ item next, q.popFront = some (item, next) ∧ Counted next lost ∧
      q.items = item :: next.items ∧ next.posting = q.posting ∧ next.taking = q.taking - 1 := by
  unfold Counted at *
  unfold CountedQueue.popFront
  cases hitems : q.items with
  | nil =>
      rw [hitems, List.length_nil] at hcounted
      omega
  | cons item rest =>
      rw [hitems, List.length_cons] at hcounted
      refine ⟨item, _, rfl, ?_, rfl, rfl, rfl⟩
      dsimp only
      omega

end Counted

end CountedQueue

end ApolloContrib.Library
