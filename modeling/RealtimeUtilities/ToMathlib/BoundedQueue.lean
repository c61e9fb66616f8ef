import Mathlib.Data.List.DropRight

/-!
# Bounded queues

A queue with a capacity. An element that is pushed to one end of a full queue drops the element at
the other end, and a queue of capacity zero drops everything.

* `items_push_back_of_rtake`: a queue that is filled from its back holds the last elements that
  were pushed;
* `push_back_of_full` and `push_back_of_not_full`: the two cases of one push.
-/

/-- A queue of at most `capacity` elements, the oldest one first. -/
structure BoundedQueue (α : Type) where
  capacity : ℕ
  items : List α
  length_le : items.length ≤ capacity

namespace BoundedQueue

variable {α : Type} (q : BoundedQueue α) (x : α)

/-- The empty queue with the given capacity. -/
def empty (capacity : ℕ) : BoundedQueue α where
  capacity := capacity
  items := []
  length_le := Nat.zero_le capacity

/-- Push to the back, and drop from the front what is too much. -/
def push_back : BoundedQueue α where
  capacity := q.capacity
  items := (q.items ++ [x]).rtake q.capacity
  length_le := by
    have := q.length_le
    simp only [List.rtake, List.length_drop, List.length_append, List.length_singleton]
    omega

/-- Push to the front, and drop from the back what is too much. -/
def push_front : BoundedQueue α where
  capacity := q.capacity
  items := (x :: q.items).take q.capacity
  length_le := List.length_take_le _ _

/-- Remove the front. -/
def pop_front : BoundedQueue α where
  capacity := q.capacity
  items := q.items.tail
  length_le := by
    have := q.length_le
    rw [List.length_tail]
    omega

/-- Remove everything. -/
def clear : BoundedQueue α :=
  empty q.capacity

/-- Change the capacity, and drop from the back what is too much. -/
def set_capacity (capacity : ℕ) : BoundedQueue α where
  capacity := capacity
  items := q.items.take capacity
  length_le := List.length_take_le _ _

/-- The queue has no room for one more element. -/
def Full : Prop :=
  q.items.length = q.capacity

instance : Decidable q.Full := by
  unfold Full
  infer_instance

@[simp]
theorem items_empty (capacity : ℕ) : (empty capacity : BoundedQueue α).items = [] := rfl

theorem items_push_back : (q.push_back x).items = (q.items ++ [x]).rtake q.capacity := rfl

theorem items_push_front : (q.push_front x).items = (x :: q.items).take q.capacity := rfl

theorem items_set_capacity (capacity : ℕ) :
    (q.set_capacity capacity).items = q.items.take capacity := rfl

/-- A push to the back drops elements, and changes no order. -/
theorem push_back_suffix : (q.push_back x).items <:+ q.items ++ [x] :=
  List.drop_suffix _ _

/-- A push to the front drops elements, and changes no order. -/
theorem push_front_prefix : (q.push_front x).items <+: x :: q.items :=
  List.take_prefix _ _

/-- A push to either end makes the queue longer by one exactly if the queue is not full. -/
theorem length_push_back_iff :
    (q.push_back x).items.length = q.items.length + 1 ↔ ¬ q.Full := by
  have hle := q.length_le
  simp only [items_push_back, List.rtake, List.length_drop, List.length_append,
    List.length_singleton, Full]
  omega

theorem length_push_front_iff :
    (q.push_front x).items.length = q.items.length + 1 ↔ ¬ q.Full := by
  have hle := q.length_le
  simp only [items_push_front, List.length_take, List.length_cons, Full]
  omega

variable {q}

/-- A queue that is not full keeps its elements. -/
theorem push_back_of_not_full (h : ¬ q.Full) : (q.push_back x).items = q.items ++ [x] := by
  have hle := q.length_le
  unfold Full at h
  have hzero : (q.items ++ [x]).length - q.capacity = 0 := by
    rw [List.length_append, List.length_singleton]
    omega
  rw [items_push_back]
  unfold List.rtake
  rw [hzero, List.drop_zero]

/-- A full queue loses its front. -/
theorem push_back_of_full (hpos : 0 < q.capacity) (h : q.Full) :
    (q.push_back x).items = q.items.tail ++ [x] := by
  unfold Full at h
  have hone : (q.items ++ [x]).length - q.capacity = 1 := by
    rw [List.length_append, List.length_singleton]
    omega
  rw [items_push_back]
  unfold List.rtake
  rw [hone, List.drop_append_of_le_length (by omega), List.drop_one]

/-- With room for one element, what was pushed is there. -/
theorem push_back_ne_nil (hpos : 0 < q.capacity) : (q.push_back x).items ≠ [] := by
  by_cases h : q.Full
  · rw [push_back_of_full x hpos h]
    simp
  · rw [push_back_of_not_full x h]
    simp

theorem push_front_ne_nil (hpos : 0 < q.capacity) : (q.push_front x).items ≠ [] := by
  obtain ⟨n, hn⟩ := Nat.exists_eq_succ_of_ne_zero (Nat.pos_iff_ne_zero.mp hpos)
  rw [items_push_front, hn]
  simp

/-- Of the last elements and one more, the last ones are the last ones of all. -/
theorem rtake_rtake_concat (l : List α) (n : ℕ) :
    (l.rtake n ++ [x]).rtake n = (l ++ [x]).rtake n := by
  cases n with
  | zero => simp
  | succ n =>
    rw [List.rtake_concat_succ, List.rtake_concat_succ]
    congr 1
    simp [List.rtake_eq_reverse_take_reverse, List.take_take]

/-- A queue that was filled from its back holds the last elements that were pushed. -/
theorem items_push_back_of_rtake {l : List α} (h : q.items = l.rtake q.capacity) :
    (q.push_back x).items = (l ++ [x]).rtake q.capacity := by
  rw [← rtake_rtake_concat, ← h, items_push_back]

end BoundedQueue
