import Mathlib.Data.List.Basic

namespace ApolloContrib.Library

/-! A queue that holds at most `capacity` items and makes room for the next one
by dropping its `batch` oldest. -/

variable {α β : Type*}

def overflowPush (capacity batch : Nat) (queue : List α) (item : α) : List α :=
  (if queue.length = capacity then queue.drop batch else queue) ++ [item]

def overflowPushAll (capacity batch : Nat) (queue : List α) (items : List α) :
    List α :=
  items.foldl (overflowPush capacity batch) queue

theorem map_overflowPush (f : α → β) (capacity batch : Nat) (queue : List α)
    (item : α) :
    (overflowPush capacity batch queue item).map f =
      overflowPush capacity batch (queue.map f) (f item) := by
  unfold overflowPush
  rw [List.map_append, List.map_singleton, List.length_map]
  congr 1
  split
  · rw [List.map_drop]
  · rfl

theorem map_overflowPushAll (f : α → β) (capacity batch : Nat) (queue : List α)
    (items : List α) :
    (overflowPushAll capacity batch queue items).map f =
      overflowPushAll capacity batch (queue.map f) (items.map f) := by
  induction items generalizing queue with
  | nil => rfl
  | cons item items ih =>
      have hstep := ih (overflowPush capacity batch queue item)
      rw [map_overflowPush] at hstep
      exact hstep

end ApolloContrib.Library
