import RealtimeUtilities.CircBuffer.Basic

/-!
# `TimeSpanTracker`

A tracker measures the cycles of a thread, either between two calls of `time_span()` or between a
`tick()` and the next `tock()`. The first call decides which, and calls of the other kind are
refused from then on.

Every member function runs under `mtx_`, so it is one step, and threads that share a tracker make
one sequence of calls. `Tracked` is a tracker with such a sequence and what each call did.

## Main definitions

* `TimeSpanTracker`, with `time_span`, `tick` and `tock`;
* `Tracked`, a tracker and its history, and `Tracked.after`, the tracker after a sequence of calls.

## Main results

* `TimeSpanTracker.call_cases`: a call is refused, or sets the mode and the last tick, or records
  a time span;
* `cycles_call`, `missed_call` and `items_call`: what a call does to the counters and the buffer, by
  the time span that it pushes.
-/

namespace RealtimeUtilities

/-- `TimeSpanTracker::mode_`. -/
inductive TrackerMode where
  | NONE
  | TIME_SPAN
  | TICK_TOCK
  deriving DecidableEq, Repr

/-- `TimeSpanTracker`. A `time_point` is its number of nanoseconds since the epoch of the clock. The
two counters are `size_t`, which no run of calls is long enough to wrap around. -/
structure TimeSpanTracker (τ : Type) where
  nominal_time_span_ : τ
  cycles_ : ℕ
  missed_cycles_ : ℕ
  mode_ : TrackerMode
  buffer_ : circ_buffer τ
  last_tick_ : ℤ

/-- What a member function returns, what it pushed to `buffer_`, and the tracker after it. -/
structure TrackerOutcome (τ : Type) where
  ret : Bool
  pushed : Option τ
  self : TimeSpanTracker τ

namespace TimeSpanTracker

variable {τ : Type} [Double τ]

/-- The constructor. It does not mention `last_tick_`, which is the epoch of the clock then. -/
def construct (windows_dim : ℕ) (nominal_time_span : τ) : TimeSpanTracker τ where
  nominal_time_span_ := nominal_time_span
  cycles_ := 0
  missed_cycles_ := 0
  mode_ := .NONE
  buffer_ := .construct windows_dim
  last_tick_ := 0

/-- `duration_cast< duration<double> >(t - last_tick)`, in seconds. -/
def count (t last_tick : ℤ) : τ :=
  Double.div (Double.ofRat (t - last_tick)) (Double.ofRat 1000000000)

variable (s : TimeSpanTracker τ)

/-- `1.2 * nominal_time_span_`. -/
def allowed : τ :=
  Double.mul (Double.ofRat (6 / 5)) s.nominal_time_span_

/-- What `time_span()` and `tock()` do from their `mode_ = …` on, with the clock reading `t`. -/
def record (mode : TrackerMode) (t : ℤ) : TrackerOutcome τ :=
  -- `last_tick_` is the reading of the call before, or what the constructor has left
  let ts := count t s.last_tick_
  { ret := true
    pushed := some ts
    self :=
      { s with
        mode_ := mode
        buffer_ := s.buffer_.push_back ts
        missed_cycles_ :=
          if Double.lt s.allowed ts then s.missed_cycles_ + 1 else s.missed_cycles_
        cycles_ := s.cycles_ + 1
        last_tick_ := t } }

/-- `time_span()`, with the clock reading `t`. -/
def time_span (t : ℤ) : TrackerOutcome τ :=
  if s.mode_ = .TICK_TOCK then { ret := false, pushed := none, self := s }
  else s.record .TIME_SPAN t

/-- `tick()`, with the clock reading `t`. -/
def tick (t : ℤ) : TrackerOutcome τ :=
  if s.mode_ = .TIME_SPAN then { ret := false, pushed := none, self := s }
  else { ret := true, pushed := none, self := { s with mode_ := .TICK_TOCK, last_tick_ := t } }

/-- `tock()`, with the clock reading `t`. -/
def tock (t : ℤ) : TrackerOutcome τ :=
  if s.mode_ = .TIME_SPAN then { ret := false, pushed := none, self := s }
  else s.record .TICK_TOCK t

/-- `getMean()`. -/
def getMean : τ :=
  circ_buffer.mean s.buffer_.cb

/-- `getMax()`. -/
def getMax : τ :=
  circ_buffer.max s.buffer_.cb

/-- `getMin()`. -/
def getMin : τ :=
  circ_buffer.min s.buffer_.cb

/-- `getMissedCycles()`. -/
def getMissedCycles : ℕ :=
  s.missed_cycles_

/-- `getTotalCycles()`. -/
def getTotalCycles : ℕ :=
  s.cycles_

end TimeSpanTracker

/-! ## Sequences of calls -/

/-- A call of a member function, with its clock reading. -/
inductive TrackerCall where
  | time_span (t : ℤ)
  | tick (t : ℤ)
  | tock (t : ℤ)
  deriving DecidableEq, Repr

namespace TrackerCall

/-- The mode that the call asks for. -/
def mode : TrackerCall → TrackerMode
  | time_span _ => .TIME_SPAN
  | tick _ | tock _ => .TICK_TOCK

/-- The call records a time span, if it is not refused. -/
def records : TrackerCall → Bool
  | time_span _ | tock _ => true
  | tick _ => false

/-- The clock reading, which the call takes if it is not refused. -/
def reading : TrackerCall → ℤ
  | time_span t | tick t | tock t => t

end TrackerCall

variable {τ : Type} [Double τ]

/-- A member function is called. -/
def TimeSpanTracker.call (s : TimeSpanTracker τ) : TrackerCall → TrackerOutcome τ
  | .time_span t => s.time_span t
  | .tick t => s.tick t
  | .tock t => s.tock t

/-- A call that was made: what it returned, and what it pushed to `buffer_`. -/
structure Entry (τ : Type) where
  call : TrackerCall
  ret : Bool
  pushed : Option τ

/-- A tracker, and the calls that were made so far. -/
structure Tracked (τ : Type) where
  tracker : TimeSpanTracker τ
  history : List (Entry τ)

namespace Tracked

/-- One more call. -/
def step (s : Tracked τ) (c : TrackerCall) : Tracked τ :=
  let o := s.tracker.call c
  { tracker := o.self, history := s.history ++ [⟨c, o.ret, o.pushed⟩] }

/-- A new tracker after the calls `calls`. -/
def after (windows_dim : ℕ) (nominal_time_span : τ) (calls : List TrackerCall) : Tracked τ :=
  calls.foldl step ⟨.construct windows_dim nominal_time_span, []⟩

omit [Double τ] in
/-- The time spans that were recorded. -/
def spans (s : Tracked τ) : List τ :=
  s.history.filterMap Entry.pushed

theorem after_concat (windows_dim : ℕ) (nominal_time_span : τ) (calls : List TrackerCall)
    (c : TrackerCall) :
    after windows_dim nominal_time_span (calls ++ [c]) =
      (after windows_dim nominal_time_span calls).step c := by
  rw [after, List.foldl_append]
  rfl

end Tracked

/-- A call of the mode of the tracker, or the first call. -/
def TimeSpanTracker.Accepts (s : TimeSpanTracker τ) (c : TrackerCall) : Prop :=
  s.mode_ = .NONE ∨ s.mode_ = c.mode

omit [Double τ] in
instance (s : TimeSpanTracker τ) (c : TrackerCall) : Decidable (s.Accepts c) := by
  unfold TimeSpanTracker.Accepts
  infer_instance

namespace TimeSpanTracker

variable {s : TimeSpanTracker τ} {c : TrackerCall}

/-- A call of the other mode is refused, and changes nothing. -/
theorem call_of_not_accepts (h : ¬ s.Accepts c) :
    s.call c = { ret := false, pushed := none, self := s } := by
  unfold Accepts at h
  -- the mode is neither `NONE` nor that of the call, so it is the other one
  cases c with
  | time_span t =>
    have hmode : s.mode_ = .TICK_TOCK := by
      cases hm : s.mode_ <;> simp_all [TrackerCall.mode]
    rw [call, time_span, if_pos hmode]
  | tick t =>
    have hmode : s.mode_ = .TIME_SPAN := by
      cases hm : s.mode_ <;> simp_all [TrackerCall.mode]
    rw [call, tick, if_pos hmode]
  | tock t =>
    have hmode : s.mode_ = .TIME_SPAN := by
      cases hm : s.mode_ <;> simp_all [TrackerCall.mode]
    rw [call, tock, if_pos hmode]

/-- A call that is accepted sets the mode and the last tick. If it records, it records the time
since the last tick. -/
theorem call_of_accepts (h : s.Accepts c) :
    s.call c = if c.records = true then s.record c.mode c.reading
      else { ret := true, pushed := none,
             self := { s with mode_ := c.mode, last_tick_ := c.reading } } := by
  unfold Accepts at h
  -- the tests of the functions ask for the other mode
  cases c with
  | time_span t =>
    have hmode : s.mode_ ≠ .TICK_TOCK := by
      rcases h with h | h <;> simp [h, TrackerCall.mode]
    rw [call, time_span, if_neg hmode]
    rfl
  | tick t =>
    have hmode : s.mode_ ≠ .TIME_SPAN := by
      rcases h with h | h <;> simp [h, TrackerCall.mode]
    rw [call, tick, if_neg hmode]
    rfl
  | tock t =>
    have hmode : s.mode_ ≠ .TIME_SPAN := by
      rcases h with h | h <;> simp [h, TrackerCall.mode]
    rw [call, tock, if_neg hmode]
    rfl

/-- A call is refused, or only sets the mode and the last tick, or records a time span. -/
theorem call_cases (s : TimeSpanTracker τ) (c : TrackerCall) :
    (¬ s.Accepts c ∧ s.call c = { ret := false, pushed := none, self := s }) ∨
      (s.Accepts c ∧ c.records = false ∧ s.call c =
        { ret := true, pushed := none,
          self := { s with mode_ := c.mode, last_tick_ := c.reading } }) ∨
      (s.Accepts c ∧ c.records = true ∧ s.call c = s.record c.mode c.reading) := by
  by_cases haccepts : s.Accepts c
  · rw [call_of_accepts haccepts]
    by_cases hrecords : c.records = true
    · exact .inr (.inr ⟨haccepts, hrecords, if_pos hrecords⟩)
    · exact .inr (.inl ⟨haccepts, eq_false_of_ne_true hrecords, if_neg hrecords⟩)
  · exact .inl ⟨haccepts, call_of_not_accepts haccepts⟩

variable (s c)

/-- No call changes the nominal time span. -/
@[simp]
theorem nominal_call : (s.call c).self.nominal_time_span_ = s.nominal_time_span_ := by
  rcases s.call_cases c with ⟨-, hcall⟩ | ⟨-, -, hcall⟩ | ⟨-, -, hcall⟩
  · rw [hcall]
  · rw [hcall]
  · rw [hcall]
    rfl

@[simp]
theorem allowed_call : (s.call c).self.allowed = s.allowed := by
  rw [allowed, nominal_call, allowed]

/-- No call changes the size of the window. -/
@[simp]
theorem capacity_call : (s.call c).self.buffer_.cb.capacity = s.buffer_.cb.capacity := by
  rcases s.call_cases c with ⟨-, hcall⟩ | ⟨-, -, hcall⟩ | ⟨-, -, hcall⟩
  · rw [hcall]
  · rw [hcall]
  · rw [hcall]
    rfl

/-- Every time span is counted. -/
theorem cycles_call :
    (s.call c).self.cycles_ = s.cycles_ + (s.call c).pushed.toList.length := by
  rcases s.call_cases c with ⟨-, hcall⟩ | ⟨-, -, hcall⟩ | ⟨-, -, hcall⟩
  · rw [hcall]
    rfl
  · rw [hcall]
    rfl
  · rw [hcall]
    rfl

/-- A time span that is too long is counted as missed. -/
theorem missed_call :
    (s.call c).self.missed_cycles_ =
      s.missed_cycles_ + (s.call c).pushed.toList.countP fun ts => Double.lt s.allowed ts := by
  rcases s.call_cases c with ⟨-, hcall⟩ | ⟨-, -, hcall⟩ | ⟨-, -, hcall⟩
  · rw [hcall]
    rfl
  · rw [hcall]
    rfl
  · rw [hcall]
    simp only [record, Option.toList_some, List.countP_singleton]
    split_ifs <;> rfl

/-- A buffer of the last time spans gets one more. -/
theorem items_call {l : List τ} (h : s.buffer_.cb.items = l.rtake s.buffer_.cb.capacity) :
    (s.call c).self.buffer_.cb.items =
      (l ++ (s.call c).pushed.toList).rtake s.buffer_.cb.capacity := by
  rcases s.call_cases c with ⟨-, hcall⟩ | ⟨-, -, hcall⟩ | ⟨-, -, hcall⟩
  · rw [hcall, Option.toList_none, List.append_nil]
    exact h
  · rw [hcall, Option.toList_none, List.append_nil]
    exact h
  · rw [hcall]
    exact BoundedQueue.items_push_back_of_rtake _ h

variable {s c}

/-- A call that is accepted sets the mode. -/
theorem mode_call (h : s.Accepts c) : (s.call c).self.mode_ = c.mode := by
  rw [call_of_accepts h]
  split_ifs <;> rfl

end TimeSpanTracker

/-- The time spans after one more call. -/
theorem Tracked.spans_step (s : Tracked τ) (c : TrackerCall) :
    (s.step c).spans = s.spans ++ (s.tracker.call c).pushed.toList := by
  rw [spans, step, List.filterMap_append, spans]
  cases (s.tracker.call c).pushed <;> simp

end RealtimeUtilities
