import GraphRec.Lib.Newest
import Mathlib.Data.List.Perm.Basic

/-!
# The queue of the event trackers

`_Queue` of `ecommerce/tracking.py`: at most `max_queue_size` events.  A push into a full queue
drops the oldest event; a batch that comes back goes in front of what was pushed since, as much of
it as there is room for, its newest events first.

* `push_items`, `requeue_items` — either way the newest events are kept;
* `push_dropped`, `requeue_dropped` — and the others counted.
-/

namespace Sdk

open List (rdrop rtake)

/-- `max_queue_size`, as the constructor accepts it. -/
structure Bound where
  size : ℕ
  size_pos : 1 ≤ size

/-- `_Queue`. -/
structure Queue (α : Type) (bound : Bound) where
  items : List α
  dropped : ℕ
  length_le : items.length ≤ bound.size

variable {α : Type} {bound : Bound} (q : Queue α bound)

namespace Queue

/-- A new queue. -/
def empty : Queue α bound := ⟨[], 0, Nat.zero_le _⟩

theorem push_full_length (event : α) : (q.items.tail ++ [event]).length ≤ bound.size := by
  have hle := q.length_le
  have hpos := bound.size_pos
  rw [List.length_append, List.length_tail, List.length_singleton]
  omega

theorem push_room_length (event : α) (h : ¬ bound.size ≤ q.items.length) :
    (q.items ++ [event]).length ≤ bound.size := by
  rw [List.length_append, List.length_singleton]
  omega

/-- `push`. -/
def push (event : α) : Queue α bound :=
  if h : bound.size ≤ q.items.length then
    ⟨q.items.tail ++ [event], q.dropped + 1, q.push_full_length event⟩
  else ⟨q.items ++ [event], q.dropped, q.push_room_length event h⟩

/-- `take`: the batch is `items`. -/
def take : Queue α bound := ⟨[], q.dropped, Nat.zero_le _⟩

theorem appendLeft_length (event : α) (h : ¬ bound.size ≤ q.items.length) :
    (event :: q.items).length ≤ bound.size := by
  rw [List.length_cons]
  omega

/-- One event of a batch that comes back. -/
def appendLeft (event : α) : Queue α bound :=
  if h : bound.size ≤ q.items.length then { q with dropped := q.dropped + 1 }
  else ⟨event :: q.items, q.dropped, q.appendLeft_length event h⟩

/-- `requeue`. -/
def requeue (events : List α) : Queue α bound := events.reverse.foldl appendLeft q

/-! ## What is kept -/

/-- **A push** keeps the newest events. -/
theorem push_items (event : α) : (q.push event).items = (q.items ++ [event]).rtake bound.size := by
  have hle := q.length_le
  have hpos := bound.size_pos
  unfold push
  split
  next h =>
    have hone : (q.items ++ [event]).length - bound.size = 1 := by
      rw [List.length_append, List.length_singleton]
      omega
    have hne : q.items ≠ [] := by
      rintro hnil
      rw [hnil, List.length_nil] at h
      omega
    rw [rtake, hone, List.drop_one, List.tail_append_of_ne_nil hne]
  next h => exact (Newest.rtake_of_length_le (q.push_room_length event h)).symm

/-- What a push drops is counted. -/
theorem push_dropped (event : α) :
    (q.push event).dropped = q.dropped + ((q.items ++ [event]).rdrop bound.size).length := by
  have hle := q.length_le
  have hpos := bound.size_pos
  unfold push
  rw [rdrop, List.length_take, List.length_append, List.length_singleton]
  split
  next => dsimp only; omega
  next h => dsimp only; omega

theorem appendLeft_items (event : α) :
    (q.appendLeft event).items = (event :: q.items).rtake bound.size := by
  have hle := q.length_le
  unfold appendLeft
  split
  next h =>
    have hone : (event :: q.items).length - bound.size = 1 := by
      rw [List.length_cons]
      omega
    rw [rtake, hone, List.drop_one, List.tail_cons]
  next h => exact (Newest.rtake_of_length_le (q.appendLeft_length event h)).symm

theorem appendLeft_dropped (event : α) :
    (q.appendLeft event).dropped = q.dropped + ((event :: q.items).length - bound.size) := by
  have hle := q.length_le
  unfold appendLeft
  rw [List.length_cons]
  split
  next => dsimp only; omega
  next h => dsimp only; omega

/-- A batch comes back from its newest event to its oldest. -/
theorem requeue_cons (event : α) (events : List α) :
    q.requeue (event :: events) = (q.requeue events).appendLeft event := by
  rw [requeue, List.reverse_cons, List.foldl_append]
  rfl

/-- **A batch that comes back** goes in front, and the newest events are kept. -/
theorem requeue_items (events : List α) :
    (q.requeue events).items = (events ++ q.items).rtake bound.size := by
  induction events with
  | nil => exact (Newest.rtake_of_length_le q.length_le).symm
  | cons event events ih =>
    rw [requeue_cons, appendLeft_items, ih, List.cons_append]
    exact Newest.rtake_append_rtake bound.size (events ++ q.items) [event]

/-- What is dropped then is counted. -/
theorem requeue_dropped (events : List α) :
    (q.requeue events).dropped = q.dropped + ((events ++ q.items).rdrop bound.size).length := by
  have hle := q.length_le
  induction events with
  | nil =>
    rw [List.nil_append, Newest.rdrop_of_length_le hle]
    rfl
  | cons event events ih =>
    rw [requeue_cons, appendLeft_dropped, ih, List.length_cons, requeue_items]
    simp only [rdrop, rtake, List.length_take, List.length_drop, List.cons_append,
      List.length_cons, List.length_append]
    omega

end Queue

end Sdk
