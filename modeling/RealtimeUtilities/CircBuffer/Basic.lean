import RealtimeUtilities.Double
import RealtimeUtilities.ToMathlib.BoundedQueue

/-!
# `circ_buffer`

The thread safe buffer around a `boost::circular_buffer`, which is a `BoundedQueue`. Every member
function runs under `monitor`, so it is one step. `front()` and `back()` wait while the buffer is
empty: here they return nothing then, and who waits and who is woken is up to the modules that
let threads call them.
-/

namespace RealtimeUtilities

/-- `circ_buffer<T>`, with the contents of its `boost::circular_buffer`. -/
structure circ_buffer (T : Type) where
  cb : BoundedQueue T

namespace circ_buffer

variable {T : Type}

/-- The constructor with a capacity. -/
def construct (n : ℕ) : circ_buffer T where
  cb := .empty n

variable (b : circ_buffer T)

/-- `push_back()`. -/
def push_back (imdata : T) : circ_buffer T where
  cb := b.cb.push_back imdata

/-- `push_front()`. -/
def push_front (imdata : T) : circ_buffer T where
  cb := b.cb.push_front imdata

/-- `front()`, nothing if the caller has to wait. -/
def front : Option T :=
  b.cb.items.head?

/-- `back()`, nothing if the caller has to wait. -/
def back : Option T :=
  b.cb.items.getLast?

/-- `pop_front()`. -/
def pop_front : circ_buffer T :=
  if b.cb.items.isEmpty then b else { cb := b.cb.pop_front }

/-- `clear()`. -/
def clear : circ_buffer T where
  cb := b.cb.clear

/-- `size()`. -/
def size : ℕ :=
  b.cb.items.length

/-- `set_capacity()`. What is too much is removed from the back. -/
def set_capacity (capacity : ℕ) : circ_buffer T where
  cb := b.cb.set_capacity capacity

/-- `empty()`. -/
def empty : Bool :=
  b.cb.items.isEmpty

/-- `full()`. -/
def full : Bool :=
  decide b.cb.Full

/-- `mean(cb)`, zero if there is no element. -/
def mean {τ : Type} [Double τ] (cb : BoundedQueue τ) : τ :=
  let ret : τ := Double.ofRat 0
  if cb.items.length = 0 then ret
  else Double.div (cb.items.foldl Double.add ret) (Double.ofRat cb.items.length)

/-- `max(cb)`: the greatest element, or zero if that is greater. -/
def max {τ : Type} [Double τ] (cb : BoundedQueue τ) : τ :=
  -- `std::max(element, ret)` is `ret` only if `element < ret`
  cb.items.foldl (fun ret element => if Double.lt element ret then ret else element)
    (Double.ofRat 0)

/-- `min(cb)`: the least element, or zero if that is less. -/
def min {τ : Type} [Double τ] (cb : BoundedQueue τ) : τ :=
  -- `std::min(element, ret)` is `ret` only if `ret < element`
  cb.items.foldl (fun ret element => if Double.lt ret element then ret else element)
    (Double.ofRat 0)

/-- Removing from an empty buffer does nothing. -/
@[simp]
theorem items_pop_front : b.pop_front.cb.items = b.cb.items.tail := by
  unfold pop_front
  split_ifs with hempty
  · rw [List.isEmpty_iff.mp hempty]
    rfl
  · rfl

@[simp]
theorem capacity_pop_front : b.pop_front.cb.capacity = b.cb.capacity := by
  unfold pop_front
  split_ifs <;> rfl

end circ_buffer

end RealtimeUtilities
