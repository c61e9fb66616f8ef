import RealtimeUtilities.CircBuffer.Basic
import RealtimeUtilities.ToMathlib.Execution

/-!
# What a buffer contains

Threads push to both ends of a buffer, remove its front, clear it and change its capacity. Each call
runs under `monitor`, so a run is a sequence of calls, and the member functions that only look at
the buffer are left out of it.

A full buffer overwrites what is at the other end, and a smaller capacity cuts off the back, so
elements are lost. Whatever is lost, the buffer never changes the order of what it keeps, and a
buffer that is only pushed to at the back is a queue as long as `full()` is false in every push.

## Main definitions

* `Recorded`: a buffer, and what was pushed to it and removed from it;
* `LosesNothing`: the call drops no element.

## Main results

* `contents`: the elements of the buffer are in order, and none was lost exactly if no call has
  dropped one;
* `fifo_iff`: the buffer as a queue.
-/

namespace RealtimeUtilities

open Execution

/-- A call that may change a buffer. -/
inductive BufferCall (T : Type) where
  | push_back (imdata : T)
  | push_front (imdata : T)
  | pop_front
  | clear
  | set_capacity (capacity : ℕ)
  deriving DecidableEq, Repr

/-- A buffer, and what was done with it. -/
structure Recorded (T : Type) where
  buffer : circ_buffer T
  /-- What `push_back()` was called with. -/
  backs : List T
  /-- What `push_front()` was called with, the last one first. -/
  fronts : List T
  /-- What `pop_front()` has removed. -/
  removed : List T

namespace Recorded

variable {T : Type}

/-- A new buffer with capacity `n`. -/
def init (n : ℕ) : Recorded T where
  buffer := .construct n
  backs := []
  fronts := []
  removed := []

/-- One call. -/
def step (s : Recorded T) : BufferCall T → Option (Recorded T)
  | .push_back imdata =>
      some { s with buffer := s.buffer.push_back imdata, backs := s.backs ++ [imdata] }
  | .push_front imdata =>
      some { s with buffer := s.buffer.push_front imdata, fronts := imdata :: s.fronts }
  | .pop_front =>
      some { s with
        buffer := s.buffer.pop_front
        removed := s.removed ++ s.buffer.front.toList }
  | .clear => some { s with buffer := s.buffer.clear }
  | .set_capacity capacity => some { s with buffer := s.buffer.set_capacity capacity }

/-- The call drops no element: it pushes to a buffer that is not full, clears one that is empty, or
leaves room for what is there. -/
def LosesNothing (s : Recorded T) : BufferCall T → Prop
  | .push_back _ | .push_front _ => s.buffer.full = false
  | .pop_front => True
  | .clear => s.buffer.empty = true
  | .set_capacity capacity => s.buffer.size ≤ capacity

instance (s : Recorded T) (c : BufferCall T) : Decidable (s.LosesNothing c) := by
  cases c <;> unfold LosesNothing <;> infer_instance

/-- How many elements were removed or are there. -/
def accounted (s : Recorded T) : ℕ :=
  s.removed.length + s.buffer.size

/-- How many elements were pushed. -/
def pushed (s : Recorded T) : ℕ :=
  s.fronts.length + s.backs.length

variable {s s' : Recorded T} {c : BufferCall T} {n : ℕ}

/-! ## One call -/

/-- The elements that are kept stay in order. -/
theorem items_sublist_step (h : s.buffer.cb.items.Sublist (s.fronts ++ s.backs))
    (hs' : s.step c = some s') : s'.buffer.cb.items.Sublist (s'.fronts ++ s'.backs) := by
  cases c with
  | push_back imdata =>
    obtain rfl := Option.some.inj hs'
    have hkept := (s.buffer.cb.push_back_suffix imdata).sublist
    have hpushed := h.append_right [imdata]
    rw [List.append_assoc] at hpushed
    exact hkept.trans hpushed
  | push_front imdata =>
    obtain rfl := Option.some.inj hs'
    exact (s.buffer.cb.push_front_prefix imdata).sublist.trans (h.cons_cons imdata)
  | pop_front =>
    obtain rfl := Option.some.inj hs'
    rw [circ_buffer.items_pop_front]
    exact (List.tail_sublist _).trans h
  | clear =>
    obtain rfl := Option.some.inj hs'
    exact List.nil_sublist _
  | set_capacity capacity =>
    obtain rfl := Option.some.inj hs'
    exact (List.take_sublist _ _).trans h

/-- A call accounts for no element that was not pushed, and for as many as it pushes exactly if it
drops none. -/
theorem accounted_step (hs' : s.step c = some s') :
    s'.accounted + s.pushed ≤ s.accounted + s'.pushed ∧
      (s'.accounted + s.pushed = s.accounted + s'.pushed ↔ s.LosesNothing c) := by
  cases c with
  | push_back imdata =>
    obtain rfl := Option.some.inj hs'
    have hle := (s.buffer.cb.push_back_suffix imdata).length_le
    have hfull := s.buffer.cb.length_push_back_iff imdata
    rw [List.length_append, List.length_singleton] at hle
    simp only [accounted, pushed, circ_buffer.size, circ_buffer.push_back, List.length_append,
      List.length_singleton, LosesNothing, circ_buffer.full, decide_eq_false_iff_not, ← hfull]
    omega
  | push_front imdata =>
    obtain rfl := Option.some.inj hs'
    have hle := (s.buffer.cb.push_front_prefix imdata).length_le
    have hfull := s.buffer.cb.length_push_front_iff imdata
    rw [List.length_cons] at hle
    simp only [accounted, pushed, circ_buffer.size, circ_buffer.push_front, List.length_cons,
      LosesNothing, circ_buffer.full, decide_eq_false_iff_not, ← hfull]
    omega
  | pop_front =>
    obtain rfl := Option.some.inj hs'
    -- the front goes from the buffer to what was removed
    have hmoved : s.buffer.front.toList.length + s.buffer.pop_front.cb.items.length =
        s.buffer.cb.items.length := by
      rw [circ_buffer.items_pop_front, circ_buffer.front]
      cases s.buffer.cb.items with
      | nil => rfl
      | cons x items => simp [Nat.add_comm]
    simp only [accounted, pushed, circ_buffer.size, List.length_append, LosesNothing, iff_true]
    omega
  | clear =>
    obtain rfl := Option.some.inj hs'
    simp only [accounted, pushed, circ_buffer.size, circ_buffer.clear, BoundedQueue.clear,
      BoundedQueue.items_empty, List.length_nil, LosesNothing, circ_buffer.empty,
      List.isEmpty_iff_length_eq_zero]
    omega
  | set_capacity capacity =>
    obtain rfl := Option.some.inj hs'
    simp only [accounted, pushed, circ_buffer.size, circ_buffer.set_capacity,
      BoundedQueue.items_set_capacity, List.length_take, LosesNothing]
    omega

/-- Without `push_front()`, what was removed and what is there are in order. -/
theorem removed_sublist_step (h : (s.removed ++ s.buffer.cb.items).Sublist s.backs)
    (hback : ∀ imdata, c ≠ .push_front imdata) (hs' : s.step c = some s') :
    (s'.removed ++ s'.buffer.cb.items).Sublist s'.backs := by
  cases c with
  | push_back imdata =>
    obtain rfl := Option.some.inj hs'
    have hkept := (s.buffer.cb.push_back_suffix imdata).sublist.append_left s.removed
    have hpushed := h.append_right [imdata]
    rw [List.append_assoc] at hpushed
    exact hkept.trans hpushed
  | push_front imdata => exact absurd rfl (hback imdata)
  | pop_front =>
    obtain rfl := Option.some.inj hs'
    have hmoved : s.buffer.front.toList ++ s.buffer.pop_front.cb.items = s.buffer.cb.items := by
      rw [circ_buffer.items_pop_front, circ_buffer.front]
      cases s.buffer.cb.items <;> rfl
    simpa only [List.append_assoc, hmoved] using h
  | clear =>
    obtain rfl := Option.some.inj hs'
    exact ((List.nil_sublist _).append_left _).trans h
  | set_capacity capacity =>
    obtain rfl := Option.some.inj hs'
    exact ((List.take_sublist _ _).append_left _).trans h

/-! ## Runs -/

variable {calls : List (BufferCall T)}

/-- No element was lost if and only if no call has dropped one. -/
theorem accounted_iff (hrun : run step (init n) calls = some s) :
    s.accounted ≤ s.pushed ∧ (s.accounted = s.pushed ↔ Along step LosesNothing (init n) calls) := by
  have hinvariant : ∀ (s : Recorded T) c s', s.accounted ≤ s.pushed → s.step c = some s' →
      s'.accounted ≤ s'.pushed := by
    intro s c s' hle hs'
    have := (accounted_step hs').1
    omega
  refine ⟨run_invariant (fun s => s.accounted ≤ s.pushed) hinvariant (Nat.le_refl 0) hrun, ?_⟩
  refine (along_iff_end (fun s => s.accounted ≤ s.pushed) (fun s => s.accounted = s.pushed)
    hinvariant ?_ ?_ (Nat.le_refl 0) rfl hrun).symm
  · intro s c s' _ heq hs'
    rw [← (accounted_step hs').2]
    omega
  · intro s c s' hle hs' heq
    have := (accounted_step hs').1
    omega

/-- **A buffer keeps the order of its elements, and loses none exactly if no call drops one.** After
any sequence of calls, the buffer holds at most as many elements as it has room for, and they are in
the order in which they would be in an unbounded buffer. Those that were removed and those that are
there are as many as were pushed if and only if no push met a full buffer, and no call cleared or
shrunk one that held too much. -/
theorem contents (hrun : run step (init n) calls = some s) :
    s.buffer.cb.items.Sublist (s.fronts ++ s.backs) ∧ s.buffer.size ≤ s.buffer.cb.capacity ∧
      (s.removed.length + s.buffer.size = s.fronts.length + s.backs.length ↔
        Along step LosesNothing (init n) calls) :=
  ⟨run_invariant (fun s => s.buffer.cb.items.Sublist (s.fronts ++ s.backs))
      (fun _ _ _ h hs' => items_sublist_step h hs') (List.Sublist.refl _) hrun,
    s.buffer.cb.length_le, (accounted_iff hrun).2⟩

/-- A buffer of two elements, of which a push to the front has dropped the second one. -/
theorem contents_both_ends :
    ∃ s : Recorded ℕ, run step (init 2) [.push_back 1, .push_back 2, .push_front 3] = some s ∧
      s.buffer.cb.items.Sublist [3, 1, 2] ∧ s.removed.length + s.buffer.size ≠ 3 := by
  let last : Recorded ℕ :=
    { buffer := ⟨2, [3, 1], by decide⟩, backs := [1, 2], fronts := [3], removed := [] }
  have hlast : run step (init 2) [.push_back 1, .push_back 2, .push_front 3] = some last := rfl
  obtain ⟨hsublist, -, hlost⟩ := contents hlast
  exact ⟨last, hlast, hsublist, fun h => absurd (hlost.mp h) (by decide)⟩

/-- **A buffer is a queue exactly as long as no call drops an element.** After any sequence of calls
without `push_front()`, the elements that `pop_front()` has removed and those that are there are, in
this order, some of those that were pushed, none of them twice. They are all of them if and only if
no call has dropped one. -/
theorem fifo_iff (hback : ∀ imdata, .push_front imdata ∉ calls)
    (hrun : run step (init n) calls = some s) :
    (s.removed ++ s.buffer.cb.items).Sublist s.backs ∧
      (s.removed ++ s.buffer.cb.items = s.backs ↔ Along step LosesNothing (init n) calls) := by
  have hstep : ∀ (s : Recorded T) c s',
      ((s.removed ++ s.buffer.cb.items).Sublist s.backs ∧ s.fronts = []) →
      (∀ imdata, c ≠ .push_front imdata) → s.step c = some s' →
      (s'.removed ++ s'.buffer.cb.items).Sublist s'.backs ∧ s'.fronts = [] := by
    rintro s c s' ⟨hsublist, hfronts⟩ hback hs'
    refine ⟨removed_sublist_step hsublist hback hs', ?_⟩
    cases c with
    | push_front imdata => exact absurd rfl (hback imdata)
    | push_back _ | pop_front | clear | set_capacity _ =>
      obtain rfl := Option.some.inj hs'
      exact hfronts
  have halong : Along step (fun (_ : Recorded T) c => ∀ imdata, c ≠ .push_front imdata) (init n)
      calls := along_of_forall_mem fun c hc imdata heq => hback imdata (heq ▸ hc)
  obtain ⟨hsublist, hfronts⟩ := run_invariant_along
    (fun s => (s.removed ++ s.buffer.cb.items).Sublist s.backs ∧ s.fronts = []) hstep
    ⟨List.Sublist.refl _, rfl⟩ halong hrun
  refine ⟨hsublist, ?_⟩
  -- of a sublist that is as long as the list, nothing is missing
  have hlengths : s.accounted = s.pushed ↔
      (s.removed ++ s.buffer.cb.items).length = s.backs.length := by
    simp [accounted, pushed, circ_buffer.size, hfronts]
  rw [← (accounted_iff hrun).2, hlengths]
  exact ⟨congrArg List.length, hsublist.eq_of_length⟩

/-- Two pushes and a removal in between, with room for one element. -/
theorem fifo_iff_room_for_one :
    ∃ s : Recorded ℕ, run step (init 1) [.push_back 1, .pop_front, .push_back 2] = some s ∧
      s.removed ++ s.buffer.cb.items = s.backs := by
  let last : Recorded ℕ :=
    { buffer := ⟨1, [2], by decide⟩, backs := [1, 2], fronts := [], removed := [1] }
  have hlast : run step (init 1) [.push_back 1, .pop_front, .push_back 2] = some last := rfl
  exact ⟨last, hlast, (fifo_iff (by simp) hlast).2.mpr (by decide)⟩

end Recorded

end RealtimeUtilities
