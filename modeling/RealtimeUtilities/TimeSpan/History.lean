import RealtimeUtilities.TimeSpan.Tracker

/-!
# What the members of a tracker say about its history

`TrackerInvariant` gives every member of a tracker in terms of the calls that were made: the mode
is that of the first call, `cycles_` and `missed_cycles_` count recorded time spans, and `buffer_`
holds the last ones. One call keeps it (`TrackerInvariant.step`), so it holds after every sequence
of calls (`tracker_invariant`).
-/

namespace RealtimeUtilities

/-- The mode that the first call asks for, if there was one. -/
def firstMode (calls : List TrackerCall) : Option TrackerMode :=
  calls.head?.map TrackerCall.mode

theorem firstMode_concat_of_ne_nil {calls : List TrackerCall} (hne : calls ≠ [])
    (c : TrackerCall) : firstMode (calls ++ [c]) = firstMode calls := by
  rw [firstMode, firstMode, List.head?_append_of_ne_nil _ hne]

variable {τ : Type} [Double τ]

/-- What the members of the tracker `s.tracker` say about the calls `calls` that were made of
it. -/
structure TrackerInvariant (windows_dim : ℕ) (nominal_time_span : τ) (calls : List TrackerCall)
    (s : Tracked τ) : Prop where
  history : s.history.map Entry.call = calls
  nominal : s.tracker.nominal_time_span_ = nominal_time_span
  mode : s.tracker.mode_ = (firstMode calls).getD .NONE
  ret : ∀ x ∈ s.history, x.ret = true ↔ firstMode calls = some x.call.mode
  pushed : ∀ x ∈ s.history, x.pushed.isSome = true ↔ (x.ret && x.call.records) = true
  cycles : s.tracker.cycles_ = s.history.countP fun x => x.ret && x.call.records
  missed : s.tracker.missed_cycles_ = s.spans.countP fun ts => Double.lt s.tracker.allowed ts
  buffer : s.tracker.buffer_.cb.items = s.spans.rtake s.tracker.buffer_.cb.capacity
  capacity : s.tracker.buffer_.cb.capacity = windows_dim

namespace TrackerInvariant

variable {windows_dim : ℕ} {nominal_time_span : τ} {calls : List TrackerCall} {c : TrackerCall}
  {s : Tracked τ}

/-- A call is accepted if it is of the mode of the first call. -/
theorem accepts_iff (h : TrackerInvariant windows_dim nominal_time_span calls s)
    (c : TrackerCall) : s.tracker.Accepts c ↔ firstMode (calls ++ [c]) = some c.mode := by
  unfold TimeSpanTracker.Accepts
  rw [h.mode]
  cases calls with
  | nil => simp [firstMode]
  | cons first calls => cases first <;> cases c <;> simp [firstMode, TrackerCall.mode]

/-- There is a recorded time span for every cycle. -/
theorem length_spans (h : TrackerInvariant windows_dim nominal_time_span calls s) :
    s.spans.length = s.tracker.cycles_ := by
  rw [Tracked.spans, List.length_filterMap_eq_countP, h.cycles]
  exact List.countP_congr h.pushed

/-- No more cycles are missed than recorded. -/
theorem missed_le (h : TrackerInvariant windows_dim nominal_time_span calls s) :
    s.tracker.missed_cycles_ ≤ s.tracker.cycles_ := by
  rw [h.missed, ← h.length_spans]
  exact List.countP_le_length

/-- The buffer holds the last time spans, as many as it has room for. -/
theorem items_buffer (h : TrackerInvariant windows_dim nominal_time_span calls s) :
    s.tracker.buffer_.cb.items = s.spans.rtake (min windows_dim s.tracker.cycles_) := by
  rw [h.buffer, h.capacity, ← h.length_spans]
  -- a list has no more than its last `length` elements
  unfold List.rtake
  congr 1
  omega

/-- After the first call, a call of the other mode is refused and changes nothing. -/
theorem refuses (h : TrackerInvariant windows_dim nominal_time_span calls s) (hne : calls ≠ [])
    (hmode : firstMode calls ≠ some c.mode) :
    s.tracker.call c = { ret := false, pushed := none, self := s.tracker } := by
  refine TimeSpanTracker.call_of_not_accepts fun haccepts => hmode ?_
  rw [← firstMode_concat_of_ne_nil hne c]
  exact (h.accepts_iff c).mp haccepts

/-- A new tracker. -/
theorem construct (windows_dim : ℕ) (nominal_time_span : τ) :
    TrackerInvariant windows_dim nominal_time_span []
      ⟨.construct windows_dim nominal_time_span, []⟩ where
  history := rfl
  nominal := rfl
  mode := rfl
  ret x hx := absurd hx List.not_mem_nil
  pushed x hx := absurd hx List.not_mem_nil
  cycles := rfl
  missed := rfl
  buffer := by simp [TimeSpanTracker.construct, circ_buffer.construct, Tracked.spans]
  capacity := rfl

/-- The calls before have returned what they have to return with another call, too. -/
theorem ret_concat (h : TrackerInvariant windows_dim nominal_time_span calls s) (c : TrackerCall)
    {x : Entry τ} (hx : x ∈ s.history) :
    x.ret = true ↔ firstMode (calls ++ [c]) = some x.call.mode := by
  have hne : calls ≠ [] := by
    rintro rfl
    rw [List.map_eq_nil_iff.mp h.history] at hx
    cases hx
  rw [firstMode_concat_of_ne_nil hne]
  exact h.ret x hx

/-- A call returns `true` if it is of the mode of the first call, and then records a time span
unless it is a `tick()`. -/
theorem outcome (h : TrackerInvariant windows_dim nominal_time_span calls s) (c : TrackerCall) :
    ((s.tracker.call c).ret = true ↔ firstMode (calls ++ [c]) = some c.mode) ∧
      ((s.tracker.call c).pushed.isSome = true ↔
        ((s.tracker.call c).ret && c.records) = true) := by
  rw [← h.accepts_iff c]
  rcases s.tracker.call_cases c with
    ⟨haccepts, hcall⟩ | ⟨haccepts, hrecords, hcall⟩ | ⟨haccepts, hrecords, hcall⟩
  · rw [hcall]
    exact ⟨iff_of_false Bool.false_ne_true haccepts, Iff.rfl⟩
  · rw [hcall, hrecords]
    exact ⟨iff_of_true rfl haccepts, Iff.rfl⟩
  · rw [hcall, hrecords]
    exact ⟨iff_of_true rfl haccepts, Iff.rfl⟩

/-- The first call sets the mode. -/
theorem mode_step (h : TrackerInvariant windows_dim nominal_time_span calls s) (c : TrackerCall) :
    (s.step c).tracker.mode_ = (firstMode (calls ++ [c])).getD .NONE := by
  by_cases haccepts : s.tracker.Accepts c
  · rw [(h.accepts_iff c).mp haccepts]
    exact TimeSpanTracker.mode_call haccepts
  · -- a call came before, or this one would not be refused
    have hne : calls ≠ [] := by
      rintro rfl
      exact haccepts (.inl h.mode)
    rw [Tracked.step, TimeSpanTracker.call_of_not_accepts haccepts,
      firstMode_concat_of_ne_nil hne]
    exact h.mode

/-- **A call keeps the invariant.** -/
theorem step (h : TrackerInvariant windows_dim nominal_time_span calls s) (c : TrackerCall) :
    TrackerInvariant windows_dim nominal_time_span (calls ++ [c]) (s.step c) := by
  obtain ⟨hret, hpushed⟩ := h.outcome c
  have hspans := s.spans_step c
  refine ⟨?_, ?_, h.mode_step c, fun x hx => ?_, fun x hx => ?_, ?_, ?_, ?_, ?_⟩
  · simp only [Tracked.step, List.map_append, h.history, List.map_cons, List.map_nil]
  · exact (s.tracker.nominal_call c).trans h.nominal
  · rcases List.mem_append.mp hx with hx | hx
    · exact h.ret_concat c hx
    · rw [List.mem_singleton.mp hx]
      exact hret
  · rcases List.mem_append.mp hx with hx | hx
    · exact h.pushed x hx
    · rw [List.mem_singleton.mp hx]
      exact hpushed
  · -- the call is one of the calls that are counted if it pushed a time span
    have hlength : (s.tracker.call c).pushed.toList.length =
        if ((s.tracker.call c).ret && c.records) = true then 1 else 0 := by
      simp only [← hpushed]
      cases (s.tracker.call c).pushed <;> rfl
    rw [Tracked.step, List.countP_append, List.countP_singleton, ← h.cycles, ← hlength]
    exact s.tracker.cycles_call c
  · -- what is allowed has not changed
    rw [hspans, List.countP_append, Tracked.step, TimeSpanTracker.allowed_call, ← h.missed]
    exact s.tracker.missed_call c
  · rw [hspans, Tracked.step, TimeSpanTracker.capacity_call]
    exact s.tracker.items_call c h.buffer
  · exact (s.tracker.capacity_call c).trans h.capacity

/-- The invariant holds after every sequence of calls. -/
theorem after (windows_dim : ℕ) (nominal_time_span : τ) (calls : List TrackerCall) :
    TrackerInvariant windows_dim nominal_time_span calls
      (Tracked.after windows_dim nominal_time_span calls) := by
  induction calls using List.reverseRecOn with
  | nil => exact .construct windows_dim nominal_time_span
  | append_singleton calls c ih =>
    rw [Tracked.after_concat]
    exact ih.step c

end TrackerInvariant

/-- **The members of a tracker follow from its history.** After every sequence of calls, with
every window size, nominal time span and clock readings:

* the mode is that of the first call, the calls of this mode returned `true` and the others
  `false`, and a further call of the other mode changes nothing;
* `cycles_` is the number of calls of `time_span()` and `tock()` that returned `true`, each of
  which recorded a time span, and `missed_cycles_` is the number of those that were longer than
  `1.2 * nominal_time_span_`;
* `buffer_` holds the last ones, as many as it has room for. -/
theorem tracker_invariant (windows_dim : ℕ) (nominal_time_span : τ) (calls : List TrackerCall) :
    let s := Tracked.after windows_dim nominal_time_span calls
    TrackerInvariant windows_dim nominal_time_span calls s ∧
      s.tracker.missed_cycles_ ≤ s.tracker.cycles_ ∧
      s.tracker.buffer_.cb.items = s.spans.rtake (min windows_dim s.tracker.cycles_) ∧
      ∀ c : TrackerCall, calls ≠ [] → firstMode calls ≠ some c.mode →
        s.tracker.call c = { ret := false, pushed := none, self := s.tracker } := by
  have h := TrackerInvariant.after windows_dim nominal_time_span calls
  exact ⟨h, h.missed_le, h.items_buffer, fun c => h.refuses⟩

end RealtimeUtilities
