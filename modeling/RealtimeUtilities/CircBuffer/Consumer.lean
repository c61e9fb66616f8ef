import RealtimeUtilities.CircBuffer.Basic
import RealtimeUtilities.ToMathlib.Execution

/-!
# One producer and one consumer

The producer calls `push_back()`, the consumer takes what it finds with `front()` and removes it
with `pop_front()`. These are two critical sections, and a producer that finds the buffer full in
between drops the element that the consumer has just read. Then `pop_front()` removes the next
one, which nobody has read.

The elements are numbered in the order in which they were pushed, so that equal ones can be told
apart.

## Main definitions

* `Handover`: the buffer, and what the consumer has read;
* `RemovesRead`: a `pop_front()` of the consumer would remove what it has read;
* `KeepsFront`: the step is no `push_back()` to a full buffer between `front()` and `pop_front()`.

## Main result

* `removesRead_iff`: the one holds at every point of a run exactly if the other holds along it.
-/

namespace RealtimeUtilities

open Execution

/-- A call of the producer or of the consumer. -/
inductive HandoverCall (T : Type) where
  | push_back (imdata : T)
  | front
  | pop_front
  deriving DecidableEq, Repr

/-- A buffer between a producer and a consumer. -/
structure Handover (T : Type) where
  /-- The buffer. Every element carries its number. -/
  buffer : circ_buffer (ℕ × T)
  /-- How many elements were pushed. -/
  pushed : ℕ
  /-- What `front()` returned, until `pop_front()`. -/
  held : Option (ℕ × T)
  /-- Everything that `front()` returned so far. -/
  returned : List (ℕ × T)

namespace Handover

variable {T : Type}

/-- Nothing was pushed to a buffer with capacity `n` yet. -/
def init (n : ℕ) : Handover T where
  buffer := .construct n
  pushed := 0
  held := none
  returned := []

/-- One call. The consumer does not get past a `front()` that waits, and calls `front()` and
`pop_front()` in turns. -/
def step (s : Handover T) : HandoverCall T → Option (Handover T)
  | .push_back imdata =>
      some { s with buffer := s.buffer.push_back (s.pushed, imdata), pushed := s.pushed + 1 }
  | .front =>
      -- by value: what is returned does not change when the buffer does
      match s.held, s.buffer.front with
      | none, some v => some { s with held := some v, returned := s.returned ++ [v] }
      | _, _ => none
  | .pop_front =>
      if s.held.isSome then some { s with buffer := s.buffer.pop_front, held := none } else none

/-- The element that a `pop_front()` of the consumer would remove now is the one that its
`front()` returned, unless that one was overwritten, and in any case one that a `front()` has
returned. -/
def RemovesRead (s : Handover T) : Prop :=
  ∀ v y, s.held = some v → s.buffer.front = some y →
    (y = v ∨ v ∉ s.buffer.cb.items) ∧ y ∈ s.returned

/-- The call does not push to a full buffer between `front()` and `pop_front()`. -/
def KeepsFront (s : Handover T) : HandoverCall T → Prop
  | .push_back _ => s.held.isSome = true → ¬ s.buffer.cb.Full
  | .front | .pop_front => True

instance (s : Handover T) (c : HandoverCall T) : Decidable (s.KeepsFront c) := by
  unfold KeepsFront
  cases c <;> infer_instance

/-- The numbers in the buffer grow from its front to its back, and everything that was read came
before everything that is in the buffer, the front apart while the consumer holds it. -/
structure Numbered (s : Handover T) : Prop where
  pos : 0 < s.buffer.cb.capacity
  sorted : s.buffer.cb.items.Pairwise fun x y => x.1 < y.1
  pushed : ∀ x ∈ s.buffer.cb.items, x.1 < s.pushed
  returned_lt : ∀ x ∈ s.returned, x.1 < s.pushed
  before : ∀ x ∈ s.returned, ∀ y ∈ s.buffer.cb.items,
    x.1 < y.1 ∨ (s.held = some y ∧ s.buffer.front = some y)
  held : ∀ v, s.held = some v → v ∈ s.returned ∧ s.buffer.cb.items ≠ []

namespace Numbered

variable {s s' : Handover T} {n : ℕ}

theorem init (hpos : 0 < n) : Numbered (Handover.init n : Handover T) where
  pos := hpos
  sorted := .nil
  pushed x hx := absurd hx List.not_mem_nil
  returned_lt x hx := absurd hx List.not_mem_nil
  before x hx := absurd hx List.not_mem_nil
  held v hv := by cases hv

/-- What is behind the front was not read. -/
theorem lt_of_mem_tail (h : Numbered s) {x y : ℕ × T} (hx : x ∈ s.returned)
    (hy : y ∈ s.buffer.cb.items.tail) : x.1 < y.1 := by
  -- only the front may be held
  refine (h.before x hx y (List.mem_of_mem_tail hy)).resolve_right ?_
  rintro ⟨-, hfront⟩
  -- the front has a smaller number than what is behind it
  obtain ⟨rest, hitems⟩ := List.head?_eq_some_iff.mp hfront
  have hsorted := h.sorted
  rw [hitems] at hsorted hy
  exact lt_irrefl _ ((List.pairwise_cons.mp hsorted).1 y hy)

/-- While the consumer would remove what it has read, the front is what it holds. -/
theorem front_of_held (h : Numbered s) (hread : s.RemovesRead) {v : ℕ × T}
    (hv : s.held = some v) : s.buffer.front = some v := by
  obtain ⟨y, hy⟩ := Option.isSome_iff_exists.mp
    (List.isSome_head?.mpr (h.held v hv).2)
  have hmem : y ∈ s.buffer.cb.items := List.mem_of_mem_head? hy
  rcases h.before y (hread v y hv hy).2 y hmem with hlt | ⟨hheld, hfront⟩
  · exact absurd hlt (lt_irrefl _)
  · rw [hfront, ← hheld, hv]

/-- A new element has the greatest number. -/
theorem concat (h : Numbered s) {l : List (ℕ × T)} (hl : l.Sublist s.buffer.cb.items)
    (imdata : T) : (l ++ [(s.pushed, imdata)]).Pairwise (fun x y => x.1 < y.1) ∧
      ∀ x ∈ l ++ [(s.pushed, imdata)], x.1 < s.pushed + 1 := by
  constructor
  · rw [List.pairwise_append]
    refine ⟨h.sorted.sublist hl, List.pairwise_singleton _ _, fun x hx y hy => ?_⟩
    rw [List.mem_singleton.mp hy]
    exact h.pushed x (hl.mem hx)
  · intro x hx
    rcases List.mem_append.mp hx with hx | hx
    · exact Nat.lt_succ_of_lt (h.pushed x (hl.mem hx))
    · rw [List.mem_singleton.mp hx]
      exact Nat.lt_succ_self _

/-- A `push_back()` that finds room. -/
theorem push_back_of_not_full (h : Numbered s) (hread : s.RemovesRead)
    (hfull : ¬ s.buffer.cb.Full) {imdata : T} (hs' : s.step (.push_back imdata) = some s') :
    Numbered s' ∧ s'.RemovesRead := by
  obtain rfl := Option.some.inj hs'
  have hitems : (s.buffer.push_back (s.pushed, imdata)).cb.items =
      s.buffer.cb.items ++ [(s.pushed, imdata)] := BoundedQueue.push_back_of_not_full _ hfull
  -- what the consumer holds stays in front
  have hfront : ∀ v, s.held = some v →
      (s.buffer.push_back (s.pushed, imdata)).front = some v := by
    intro v hv
    rw [circ_buffer.front, hitems, List.head?_append_of_ne_nil _ (h.held v hv).2]
    exact h.front_of_held hread hv
  obtain ⟨hsorted, hpushed⟩ := h.concat (List.Sublist.refl _) imdata
  rw [← hitems] at hsorted hpushed
  constructor
  · refine ⟨h.pos, hsorted, hpushed, ?_, ?_, ?_⟩
    · exact fun x hx => Nat.lt_succ_of_lt (h.returned_lt x hx)
    · intro x hx y hy
      have hy' : y ∈ s.buffer.cb.items ++ [(s.pushed, imdata)] := hitems ▸ hy
      rcases List.mem_append.mp hy' with hy | hy
      · exact (h.before x hx y hy).imp_right fun hheld => ⟨hheld.1, hfront y hheld.1⟩
      · rw [List.mem_singleton.mp hy]
        exact .inl (h.returned_lt x hx)
    · exact fun v hv => ⟨(h.held v hv).1, BoundedQueue.push_back_ne_nil _ h.pos⟩
  · intro v y hv hy
    obtain rfl : v = y := Option.some.inj ((hfront v hv).symm.trans hy)
    exact ⟨.inl rfl, (h.held v hv).1⟩

/-- A `push_back()` to a full buffer drops the front, and nothing that is left was read. -/
theorem push_back_of_full (h : Numbered s) (hfull : s.buffer.cb.Full) {imdata : T}
    (hs' : s.step (.push_back imdata) = some s') :
    Numbered s' ∧ ∀ x ∈ s'.returned, ∀ y ∈ s'.buffer.cb.items, x.1 < y.1 := by
  obtain rfl := Option.some.inj hs'
  have hitems : (s.buffer.push_back (s.pushed, imdata)).cb.items =
      s.buffer.cb.items.tail ++ [(s.pushed, imdata)] := BoundedQueue.push_back_of_full _ h.pos hfull
  have hbefore : ∀ x ∈ s.returned, ∀ y ∈ (s.buffer.push_back (s.pushed, imdata)).cb.items,
      x.1 < y.1 := by
    intro x hx y hy
    rw [hitems, List.mem_append, List.mem_singleton] at hy
    rcases hy with hy | rfl
    · exact h.lt_of_mem_tail hx hy
    · exact h.returned_lt x hx
  obtain ⟨hsorted, hpushed⟩ := h.concat (List.tail_sublist _) imdata
  rw [← hitems] at hsorted hpushed
  refine ⟨⟨h.pos, hsorted, hpushed, ?_, fun x hx y hy => .inl (hbefore x hx y hy), ?_⟩, hbefore⟩
  · exact fun x hx => Nat.lt_succ_of_lt (h.returned_lt x hx)
  · exact fun v hv => ⟨(h.held v hv).1, BoundedQueue.push_back_ne_nil _ h.pos⟩

/-- A `front()` that returns. -/
theorem front (h : Numbered s) (hs' : s.step .front = some s') :
    Numbered s' ∧ s'.RemovesRead := by
  rw [step] at hs'
  split at hs'
  · next v hheld hfront =>
    obtain rfl := Option.some.inj hs'
    have hmem : v ∈ s.buffer.cb.items := List.mem_of_mem_head? hfront
    have hreturned : v ∈ s.returned ++ [v] := List.mem_append_right _ (List.mem_singleton_self v)
    obtain ⟨rest, hitems⟩ := List.head?_eq_some_iff.mp hfront
    constructor
    · refine ⟨h.pos, h.sorted, h.pushed, fun x hx => ?_, fun x hx y hy => ?_, fun w hw => ?_⟩
      · rcases List.mem_append.mp hx with hx | hx
        · exact h.returned_lt x hx
        · rw [List.mem_singleton.mp hx]
          exact h.pushed v hmem
      · rcases List.mem_append.mp hx with hx | hx
        · -- nothing was held before
          refine .inl ((h.before x hx y hy).resolve_right ?_)
          rw [hheld]
          rintro ⟨hnone, -⟩
          cases hnone
        · -- what is read is the front, which comes before the rest
          obtain rfl := List.mem_singleton.mp hx
          have hsorted := h.sorted
          have hy' : y ∈ x :: rest := hitems ▸ hy
          rw [hitems] at hsorted
          rcases List.mem_cons.mp hy' with rfl | hrest
          · exact .inr ⟨rfl, hfront⟩
          · exact .inl ((List.pairwise_cons.mp hsorted).1 y hrest)
      · obtain rfl := Option.some.inj hw
        exact ⟨hreturned, List.ne_nil_of_mem hmem⟩
    · intro w y hw hy
      obtain rfl := Option.some.inj hw
      obtain rfl := Option.some.inj (hfront.symm.trans hy)
      exact ⟨.inl rfl, hreturned⟩
  · cases hs'

/-- A `pop_front()` of the consumer. -/
theorem pop_front (h : Numbered s) (hs' : s.step .pop_front = some s') :
    Numbered s' ∧ s'.RemovesRead := by
  rw [step] at hs'
  split_ifs at hs' with hheld
  obtain rfl := Option.some.inj hs'
  have hitems : s.buffer.pop_front.cb.items = s.buffer.cb.items.tail := s.buffer.items_pop_front
  constructor
  · refine ⟨?_, ?_, ?_, h.returned_lt, ?_, ?_⟩
    · rw [circ_buffer.capacity_pop_front]
      exact h.pos
    · rw [hitems]
      exact h.sorted.tail
    · intro x hx
      rw [hitems] at hx
      exact h.pushed x (List.mem_of_mem_tail hx)
    · intro x hx y hy
      rw [hitems] at hy
      exact .inl (h.lt_of_mem_tail hx hy)
    · intro v hv
      cases hv
  · intro v y hv
    cases hv

/-- A call keeps the numbers in order. It keeps that the consumer would remove what it has read,
exactly if it does not push to a full buffer between `front()` and `pop_front()`. -/
theorem step (h : Numbered s) (hread : s.RemovesRead) {c : HandoverCall T}
    (hs' : s.step c = some s') : Numbered s' ∧ (s'.RemovesRead ↔ s.KeepsFront c) := by
  cases c with
  | push_back imdata =>
    -- a full buffer drops its front, which is read exactly if it is held
    by_cases hfull : s.buffer.cb.Full
    · obtain ⟨hnumbered, hunread⟩ := h.push_back_of_full hfull hs'
      refine ⟨hnumbered, ?_⟩
      have hheld : s'.held = s.held := by
        obtain rfl := Option.some.inj hs'
        rfl
      constructor
      · intro hread' hsome
        obtain ⟨v, hv⟩ := Option.isSome_iff_exists.mp hsome
        rw [← hheld] at hv
        -- the new front was not read
        obtain ⟨y, hy⟩ := Option.isSome_iff_exists.mp
          (List.isSome_head?.mpr (hnumbered.held v hv).2)
        exact absurd (hunread y (hread' v y hv hy).2 y (List.mem_of_mem_head? hy)) (lt_irrefl _)
      · intro hkeeps v y hv
        rw [hheld] at hv
        exact absurd hfull (hkeeps (by rw [hv]; rfl))
    · obtain ⟨hnumbered, hread'⟩ := h.push_back_of_not_full hread hfull hs'
      exact ⟨hnumbered, iff_of_true hread' fun _ => hfull⟩
  | front =>
    obtain ⟨hnumbered, hread'⟩ := h.front hs'
    exact ⟨hnumbered, iff_of_true hread' trivial⟩
  | pop_front =>
    obtain ⟨hnumbered, hread'⟩ := h.pop_front hs'
    exact ⟨hnumbered, iff_of_true hread' trivial⟩

end Numbered

/-- **The consumer removes only what it has read if and only if the producer never finds the
buffer full between a `front()` and its `pop_front()`.** For every capacity and every
interleaving of the calls, each side stands for every point of the run. -/
theorem removesRead_iff {n : ℕ} (hpos : 0 < n) (calls : List (HandoverCall T)) :
    Along step KeepsFront (init n) calls ↔ ∀ pre post s, calls = pre ++ post →
      run step (init n) pre = some s → s.RemovesRead := by
  refine along_iff_prefix Numbered RemovesRead ?_ (fun s c s' h hread hs' _ => (h.step hread hs').1)
    (fun s c s' h hread hs' => (h.step hread hs').2) (.init hpos) ?_
  · intro s c h hread hnone
    -- a `push_back()` is always possible
    cases c with
    | push_back imdata => cases hnone
    | front | pop_front => trivial
  · intro v y hv
    cases hv

/-- In a buffer for two elements, the producer fills up what the consumer has removed. -/
theorem removesRead_iff_two : ∃ s : Handover Char,
    run step (init 2) [.push_back 'a', .push_back 'b', .front, .pop_front, .push_back 'c', .front] =
        some s ∧ s.held = some (1, 'b') ∧ s.RemovesRead := by
  have hkeeps : Along step KeepsFront (init 2) [.push_back 'a', .push_back 'b', .front, .pop_front,
      .push_back 'c', .front] := by decide
  exact ⟨_, rfl, rfl, (removesRead_iff two_pos _).mp hkeeps _ [] _ (List.append_nil _).symm rfl⟩

/-- The producer pushes a third element to a buffer for two while the consumer has read the first
one. The consumer removes the second one, and reads the third one next. -/
theorem second_removed_unread : ∃ s s' s'' : Handover Char,
    run step (init 2) [.push_back 'a', .push_back 'b', .front, .push_back 'c'] = some s ∧
      ¬ s.RemovesRead ∧ s.returned = [(0, 'a')] ∧ s.buffer.front = some (1, 'b') ∧
      s.step .pop_front = some s' ∧ s'.buffer.cb.items = [(2, 'c')] ∧
      s'.step .front = some s'' ∧ s''.returned = [(0, 'a'), (2, 'c')] := by
  refine ⟨_, _, _, rfl, ?_, rfl, rfl, rfl, rfl, rfl, rfl⟩
  intro hread
  -- the second element was not read
  have hmem := (hread (0, 'a') (1, 'b') rfl rfl).2
  exact absurd hmem (by decide)

end Handover

end RealtimeUtilities
