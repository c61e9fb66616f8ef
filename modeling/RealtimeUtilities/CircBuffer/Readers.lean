import RealtimeUtilities.CircBuffer.Basic
import RealtimeUtilities.ToMathlib.Execution

/-!
# Readers that wait

`front()` and `back()` wait while the buffer is empty, and remove nothing. So one element serves
every reader that waits for one, but a push calls `notify_one`, which wakes one of them. The
others sleep on although the buffer is not empty, until the next push.

A reader is blocked only by the step in which it finds the buffer empty. A reader that was woken
looks at the buffer again in a step of its own, and other calls may come in between.

## Main definitions

* `Shared`: a buffer that threads share, with the readers that wait;
* `NoneAsleep`: nobody is blocked, if the buffer is not empty and all woken readers have looked;
* `WakesAll`: the step is no push that finds two readers blocked.

## Main result

* `noneAsleep_iff`: nobody ever sleeps on a buffer that is not empty, whenever the woken readers
  look, exactly if no push ever finds two readers blocked.
-/

namespace RealtimeUtilities

open Execution

/-- The member functions that wait. -/
inductive ReadCall where
  | front
  | back
  deriving DecidableEq, Repr

/-- What the call returns, nothing if the reader has to wait. -/
def ReadCall.value {T : Type} (b : circ_buffer T) : ReadCall → Option T
  | front => b.front
  | back => b.back

/-- A call has to wait exactly if the buffer is empty. -/
theorem ReadCall.value_eq_none_iff {T : Type} {b : circ_buffer T} {call : ReadCall} :
    call.value b = none ↔ b.cb.items = [] := by
  cases call with
  | front => exact List.head?_eq_none_iff
  | back => exact List.getLast?_eq_none_iff

/-- A thread in a call that waits. -/
structure Reader where
  thread : ℕ
  call : ReadCall
  deriving DecidableEq, Repr

/-- A step of one of the threads. A push names the reader that its `notify_one` wakes. -/
inductive SharedEvent (T : Type) where
  | push_back (imdata : T) (notified : Option Reader)
  | push_front (imdata : T) (notified : Option Reader)
  | read (r : Reader)
  | recheck (r : Reader)
  | pop_front
  | clear
  deriving DecidableEq, Repr

/-- A buffer that threads share. -/
structure Shared (T : Type) where
  buffer : circ_buffer T
  /-- The readers that are blocked in `buffer_not_empty.wait`. -/
  blocked : List Reader
  /-- The readers that were woken, and have not looked at the buffer since. -/
  woken : List Reader

namespace Shared

variable {T : Type}

/-- An empty buffer with capacity `n`, and nobody waits. -/
def init (n : ℕ) : Shared T where
  buffer := .construct n
  blocked := []
  woken := []

/-- `buffer_not_empty.notify_one()`: it wakes one of the blocked readers, if there is one. -/
def notify_one (s : Shared T) : Option Reader → Option (Shared T)
  | some r =>
      if r ∈ s.blocked then
        some { s with blocked := s.blocked.erase r, woken := r :: s.woken }
      else none
  | none => if s.blocked = [] then some s else none

/-- One step. A thread that waits does not start another call. -/
def step (s : Shared T) : SharedEvent T → Option (Shared T)
  | .push_back imdata notified =>
      notify_one { s with buffer := s.buffer.push_back imdata } notified
  | .push_front imdata notified =>
      notify_one { s with buffer := s.buffer.push_front imdata } notified
  | .read r =>
      if r.thread ∈ (s.blocked ++ s.woken).map Reader.thread then none
      else match r.call.value s.buffer with
        | some _ => some s
        | none => some { s with blocked := r :: s.blocked }
  | .recheck r =>
      if r ∈ s.woken then
        match r.call.value s.buffer with
        -- the reader returns, and wakes nobody
        | some _ => some { s with woken := s.woken.erase r }
        -- the buffer was emptied again
        | none => some { s with blocked := r :: s.blocked, woken := s.woken.erase r }
      else none
  | .pop_front => some { s with buffer := s.buffer.pop_front }
  | .clear => some { s with buffer := s.buffer.clear }

/-- If the buffer is not empty and no woken reader is still to look at it, nobody is blocked. -/
def NoneAsleep (s : Shared T) : Prop :=
  s.buffer.cb.items ≠ [] → s.woken = [] → s.blocked = []

/-- The step is no push that finds two readers blocked. -/
def WakesAll (s : Shared T) (e : SharedEvent T) : Prop :=
  match e with
  | .push_back _ _ | .push_front _ _ => (s.step e).isSome = true → s.blocked.length ≤ 1
  | .read _ | .recheck _ | .pop_front | .clear => True

instance (s : Shared T) (e : SharedEvent T) : Decidable (s.WakesAll e) := by
  unfold WakesAll
  cases e <;> infer_instance

/-- Nobody is blocked if the buffer is not empty, whoever was woken. -/
def Served (s : Shared T) : Prop :=
  s.buffer.cb.items ≠ [] → s.blocked = []

variable {s s' : Shared T} {e : SharedEvent T} {n : ℕ}

/-- Nothing but who waits changes with a notification, and nobody is blocked after it exactly if
at most one reader was. -/
theorem notify_one_spec {notified : Option Reader} (hs' : s.notify_one notified = some s') :
    s'.buffer = s.buffer ∧ (s'.blocked = [] ↔ s.blocked.length ≤ 1) := by
  cases notified with
  | none =>
    rw [notify_one] at hs'
    split_ifs at hs' with hnone
    obtain rfl := Option.some.inj hs'
    exact ⟨rfl, iff_of_true hnone (by simp [hnone])⟩
  | some r =>
    rw [notify_one] at hs'
    split_ifs at hs' with hmem
    obtain rfl := Option.some.inj hs'
    refine ⟨rfl, ?_⟩
    -- one of them is gone
    have hpos : 0 < s.blocked.length := List.length_pos_of_mem hmem
    rw [← List.length_eq_zero_iff, List.length_erase_of_mem hmem]
    omega

/-- A step leaves the capacity alone. -/
theorem capacity_step (hs' : s.step e = some s') :
    s'.buffer.cb.capacity = s.buffer.cb.capacity := by
  cases e with
  | push_back imdata notified | push_front imdata notified =>
    rw [(notify_one_spec hs').1]
    rfl
  | read r =>
    rw [step] at hs'
    split_ifs at hs'
    split at hs' <;> obtain rfl := Option.some.inj hs' <;> rfl
  | recheck r =>
    rw [step] at hs'
    split_ifs at hs'
    split at hs' <;> obtain rfl := Option.some.inj hs' <;> rfl
  | pop_front =>
    obtain rfl := Option.some.inj hs'
    exact s.buffer.capacity_pop_front
  | clear =>
    obtain rfl := Option.some.inj hs'
    rfl

/-- A push serves all readers exactly if it finds at most one blocked. -/
theorem served_push {b : circ_buffer T} (hb : b.cb.items ≠ []) {notified : Option Reader}
    (hs' : notify_one { s with buffer := b } notified = some s') :
    s'.Served ↔ s.blocked.length ≤ 1 := by
  obtain ⟨hbuffer, hblocked⟩ := notify_one_spec hs'
  rw [Served, hbuffer, ← hblocked]
  exact ⟨fun h => h hb, fun h _ => h⟩

/-- Only a push that finds two readers blocked leaves one of them behind. -/
theorem served_step (hpos : 0 < s.buffer.cb.capacity) (h : s.Served)
    (hs' : s.step e = some s') : s'.Served ↔ s.WakesAll e := by
  cases e with
  | push_back imdata notified =>
    rw [served_push (BoundedQueue.push_back_ne_nil imdata hpos) hs', WakesAll, hs']
    exact ⟨fun h _ => h, fun h => h rfl⟩
  | push_front imdata notified =>
    rw [served_push (BoundedQueue.push_front_ne_nil imdata hpos) hs', WakesAll, hs']
    exact ⟨fun h _ => h, fun h => h rfl⟩
  | read r =>
    refine iff_of_true ?_ trivial
    rw [step] at hs'
    split_ifs at hs'
    split at hs'
    · obtain rfl := Option.some.inj hs'
      exact h
    · next hvalue =>
      -- a reader is blocked on an empty buffer only
      obtain rfl := Option.some.inj hs'
      exact fun hne => absurd (ReadCall.value_eq_none_iff.mp hvalue) hne
  | recheck r =>
    refine iff_of_true ?_ trivial
    rw [step] at hs'
    split_ifs at hs'
    split at hs'
    · obtain rfl := Option.some.inj hs'
      exact h
    · next hvalue =>
      obtain rfl := Option.some.inj hs'
      exact fun hne => absurd (ReadCall.value_eq_none_iff.mp hvalue) hne
  | pop_front =>
    refine iff_of_true ?_ trivial
    obtain rfl := Option.some.inj hs'
    intro hne
    -- nothing can be left of an empty buffer
    refine h fun hempty => hne ?_
    show s.buffer.pop_front.cb.items = []
    rw [circ_buffer.items_pop_front, hempty]
    rfl
  | clear =>
    refine iff_of_true ?_ trivial
    obtain rfl := Option.some.inj hs'
    exact fun hne => absurd rfl hne

/-- Nobody is left behind along a run exactly if no push finds two readers blocked. -/
theorem served_iff (hpos : 0 < n) (es : List (SharedEvent T)) :
    Along step WakesAll (init n) es ↔ ∀ pre post s, es = pre ++ post →
      run step (init n) pre = some s → s.Served := by
  refine along_iff_prefix (fun s => 0 < s.buffer.cb.capacity) Served ?_ ?_
    (fun s e s' hcapacity h hs' => served_step hcapacity h hs') hpos fun hne => absurd rfl hne
  · intro s e hcapacity h hnone
    cases e with
    | push_back imdata notified | push_front imdata notified =>
      intro hsome
      rw [hnone] at hsome
      cases hsome
    | read r | recheck r | pop_front | clear => trivial
  · intro s e s' hcapacity h hs' hserved
    rw [capacity_step hs']
    exact hcapacity

/-- All woken readers look at a buffer that is not empty, and return. -/
theorem run_recheck (hne : s.buffer.cb.items ≠ []) :
    run step s (s.woken.map .recheck) = some { s with woken := [] } := by
  obtain ⟨b, blocked, woken⟩ := s
  induction woken with
  | nil => rfl
  | cons r woken ih =>
    have hvalue : r.call.value b ≠ none := fun hnone => hne (ReadCall.value_eq_none_iff.mp hnone)
    obtain ⟨v, hv⟩ := Option.ne_none_iff_exists'.mp hvalue
    have hrecheck : step ⟨b, blocked, r :: woken⟩ (.recheck r) = some ⟨b, blocked, woken⟩ := by
      rw [step, if_pos List.mem_cons_self]
      show (match r.call.value b with
        | some _ => some _
        | none => some _) = _
      rw [hv, List.erase_cons_head]
    exact run_cons_eq_some.mpr ⟨_, hrecheck, ih hne⟩

/-- **Nobody ever sleeps on a buffer that is not empty, if and only if no push ever finds two
readers blocked.** For every capacity, every number of threads and every interleaving, each side
stands for every point of the run. On the right, any of the woken readers may look at the buffer
before it is asked who is blocked. -/
theorem noneAsleep_iff (hpos : 0 < n) (es : List (SharedEvent T)) :
    Along step WakesAll (init n) es ↔ ∀ pre post s, es = pre ++ post →
      run step (init n) pre = some s → ∀ (woken : List Reader) s',
        run step s (woken.map .recheck) = some s' → s'.NoneAsleep := by
  rw [served_iff hpos]
  constructor
  · intro h pre post s hes hs woken s' hs'
    -- readers that look at the buffer leave nobody behind
    have hserved : s'.Served := by
      have halong := (served_iff hpos es).mpr h
      subst hes
      have hbefore := ((along_append hs).mp halong).1
      refine (served_iff hpos (pre ++ woken.map .recheck)).mp ?_ _ [] s' (by simp)
        (run_append_eq_some.mpr ⟨s, hs, hs'⟩)
      refine (along_append hs).mpr ⟨hbefore, ?_⟩
      refine (along_of_forall_mem (P := fun e => ∃ r, e = .recheck r) ?_).imp ?_
      · intro e he
        obtain ⟨r, -, rfl⟩ := List.mem_map.mp he
        exact ⟨r, rfl⟩
      · rintro s e ⟨r, rfl⟩
        trivial
    exact fun hne _ => hserved hne
  · intro h pre post s hes hs hne
    exact h pre post s hes hs s.woken { s with woken := [] } (run_recheck hne) hne rfl

/-- A reader waits, and is served by a push. -/
theorem noneAsleep_iff_one : ∃ s : Shared Char,
    run step (init 1) [.read ⟨0, .front⟩, .push_back 'a' (some ⟨0, .front⟩),
        .recheck ⟨0, .front⟩] = some s ∧
      s.buffer.cb.items = ['a'] ∧ s.woken = [] ∧ s.NoneAsleep := by
  have hwakes : Along step WakesAll (init 1) [.read ⟨0, .front⟩,
      .push_back 'a' (some ⟨0, .front⟩), .recheck ⟨0, .front⟩] := by decide
  exact ⟨_, rfl, rfl, rfl,
    (noneAsleep_iff one_pos _).mp hwakes _ [] _ (List.append_nil _).symm rfl [] _ rfl⟩

/-- Two threads wait in `front()`, and one element is pushed. One of them reads it, the other
sleeps on although the element is still there. -/
theorem second_reader_asleep : ∃ s : Shared Char,
    run step (init 1) [.read ⟨0, .front⟩, .read ⟨1, .front⟩,
        .push_back 'a' (some ⟨0, .front⟩), .recheck ⟨0, .front⟩] = some s ∧
      s.buffer.cb.items = ['a'] ∧ s.woken = [] ∧ s.blocked = [⟨1, .front⟩] ∧ ¬ s.NoneAsleep := by
  refine ⟨_, rfl, rfl, rfl, rfl, ?_⟩
  intro h
  exact absurd (h (by decide) rfl) (by decide)

end Shared

end RealtimeUtilities
