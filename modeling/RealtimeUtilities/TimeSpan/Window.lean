import RealtimeUtilities.TimeSpan.History
import RealtimeUtilities.TimeSpan.Statistics

/-!
# The time that a window covers

The time spans that a tracker records lie between two of its clock readings each, and follow one
another. With times read exactly, the mean of a window times the number of its cycles is therefore
the time from the reading before its first cycle to the last reading, less the time that passed
before a `tick()`, which no cycle counts. A tracker on which `time_span()` is called has no such
time, so its mean is the time that the window covers, divided by the number of its cycles.

## Main definitions

* `idle`: the time that passed before the `tick()` of a sequence of calls.

## Main results

* `sum_spans_add_idle`: recorded and idle time make up the time that has passed;
* `window_accounts`: the mean of a window.
-/

namespace RealtimeUtilities

namespace TimeSpanTracker

/-- The time before the `tick()` calls among `calls`. A `tick()` that is refused reads no clock. -/
def idle (s : TimeSpanTracker ℚ) : List TrackerCall → ℚ
  | [] => 0
  | c :: calls =>
      (if s.Accepts c ∧ c.records = false then count c.reading s.last_tick_ else 0) +
        idle (s.call c).self calls

/-- Times from one reading to the next add up. -/
theorem count_add_count (a b c : ℤ) : (count a b : ℚ) + count b c = count a c := by
  simp only [count, Double.div, Double.ofRat]
  ring

theorem count_self (a : ℤ) : (count a a : ℚ) = 0 := by
  simp [count, Double.div, Double.ofRat]

variable {s : TimeSpanTracker ℚ} {c : TrackerCall}

/-- A call records the time since the last tick, or lets it pass. -/
theorem pushed_add_idle (s : TimeSpanTracker ℚ) (c : TrackerCall) :
    (s.call c).pushed.toList.sum + s.idle [c] = count (s.call c).self.last_tick_ s.last_tick_ := by
  rcases s.call_cases c with
    ⟨haccepts, hcall⟩ | ⟨haccepts, hrecords, hcall⟩ | ⟨haccepts, hrecords, hcall⟩
  · simp [idle, haccepts, hcall, count_self]
  · simp [idle, haccepts, hrecords, hcall]
  · simp [idle, hrecords, hcall, record]

/-- Once there is a mode, it stays. -/
theorem mode_of_call (hmode : s.mode_ ≠ .NONE) : (s.call c).self.mode_ = s.mode_ := by
  by_cases haccepts : s.Accepts c
  · rw [mode_call haccepts]
    exact (haccepts.resolve_left hmode).symm
  · rw [call_of_not_accepts haccepts]

end TimeSpanTracker

open TimeSpanTracker

/-- Recorded and idle time make up the time that has passed between the clock readings. -/
theorem sum_spans_add_idle (s : Tracked ℚ) (calls : List TrackerCall) :
    (calls.foldl Tracked.step s).spans.sum + s.tracker.idle calls =
      s.spans.sum + count (calls.foldl Tracked.step s).tracker.last_tick_ s.tracker.last_tick_ := by
  induction calls generalizing s with
  | nil => simp [idle, count_self]
  | cons c calls ih =>
    have hfirst := pushed_add_idle s.tracker c
    have hrest := ih (s.step c)
    have hpassed := count_add_count (calls.foldl Tracked.step (s.step c)).tracker.last_tick_
      (s.step c).tracker.last_tick_ s.tracker.last_tick_
    rw [s.spans_step, List.sum_append] at hrest
    simp only [idle, add_zero, List.foldl_cons, Tracked.step] at hfirst hrest hpassed ⊢
    linarith

/-- Once there is a mode, no sequence of calls changes it. -/
theorem mode_of_calls {s : Tracked ℚ} (hmode : s.tracker.mode_ ≠ .NONE)
    (calls : List TrackerCall) :
    (calls.foldl Tracked.step s).tracker.mode_ = s.tracker.mode_ := by
  induction calls generalizing s with
  | nil => rfl
  | cons c calls ih =>
    have hstep : (s.step c).tracker.mode_ = s.tracker.mode_ := mode_of_call hmode
    rw [List.foldl_cons, ih (hstep ▸ hmode), hstep]

/-- In a sequence of calls that ends in the mode of `time_span()`, no time is idle. -/
theorem idle_of_time_span (s : Tracked ℚ) (calls : List TrackerCall)
    (hmode : (calls.foldl Tracked.step s).tracker.mode_ = .TIME_SPAN) :
    s.tracker.idle calls = 0 := by
  induction calls generalizing s with
  | nil => rfl
  | cons c calls ih =>
    have hrest : (s.tracker.call c).self.idle calls = 0 := ih (s.step c) hmode
    have hrecords : ¬ (s.tracker.Accepts c ∧ c.records = false) := by
      rintro ⟨haccepts, hrecords⟩
      -- after a `tick()` the mode is another one
      have hmode' : (s.step c).tracker.mode_ = .TICK_TOCK := by
        rw [Tracked.step, mode_call haccepts]
        cases c with
        | tick t => rfl
        | time_span t | tock t => cases hrecords
      rw [List.foldl_cons, mode_of_calls (by rw [hmode']; decide), hmode'] at hmode
      cases hmode
    rw [idle, if_neg hrecords, hrest, add_zero]

/-- More calls record more time spans. -/
theorem spans_prefix (s : Tracked ℚ) (calls : List TrackerCall) :
    s.spans <+: (calls.foldl Tracked.step s).spans := by
  induction calls generalizing s with
  | nil => exact List.prefix_rfl
  | cons c calls ih =>
    refine List.IsPrefix.trans ?_ (ih (s.step c))
    rw [s.spans_step]
    exact List.prefix_append _ _

/-- The window holds the time spans of the calls `post`, if they are as many as it has room for. -/
theorem items_of_calls (windows_dim : ℕ) (nominal_time_span : ℚ) (pre post : List TrackerCall)
    {n : ℕ} {before s : Tracked ℚ} (hbefore : before = .after windows_dim nominal_time_span pre)
    (hs : s = post.foldl Tracked.step before)
    (hcycles : s.tracker.getTotalCycles = before.tracker.getTotalCycles + n)
    (hwindow : n = min windows_dim s.tracker.getTotalCycles) :
    s.spans = before.spans ++ s.tracker.buffer_.cb.items ∧
      s.tracker.buffer_.cb.items.length = n := by
  have hinv₀ : TrackerInvariant windows_dim nominal_time_span pre before := by
    rw [hbefore]
    exact .after windows_dim nominal_time_span pre
  have hinv : TrackerInvariant windows_dim nominal_time_span (pre ++ post) s := by
    rw [hs, hbefore, Tracked.after, ← List.foldl_append]
    exact .after windows_dim nominal_time_span (pre ++ post)
  obtain ⟨new, hnew⟩ : before.spans <+: s.spans := hs ▸ spans_prefix before post
  have hlength : new.length = n := by
    have hall := hinv.length_spans
    rw [← hnew, List.length_append, hinv₀.length_spans] at hall
    simp only [getTotalCycles] at hcycles
    omega
  have hitems : s.tracker.buffer_.cb.items = new := by
    rw [hinv.items_buffer, ← getTotalCycles, ← hwindow, ← hnew, ← hlength]
    simp [List.rtake]
  exact ⟨by rw [hitems, hnew], by rw [hitems, hlength]⟩

/-- **The mean of a window and its idle time make up the time that the window covers.** Let a window
hold the time spans of the last calls, `n` of them, and no others. Then `n` times the mean, and what
passed before the `tick()` calls among them, is the time from the clock reading before these calls
to the last one. In the mode of `time_span()`, the mean is an `n`-th part of this time. -/
theorem window_accounts (windows_dim : ℕ) (nominal_time_span : ℚ) (pre post : List TrackerCall)
    {n : ℕ} {before s : Tracked ℚ} (hbefore : before = .after windows_dim nominal_time_span pre)
    (hs : s = post.foldl Tracked.step before) (hpos : 0 < n)
    (hcycles : s.tracker.getTotalCycles = before.tracker.getTotalCycles + n)
    (hwindow : n = min windows_dim s.tracker.getTotalCycles) :
    n * s.tracker.getMean + before.tracker.idle post =
        count s.tracker.last_tick_ before.tracker.last_tick_ ∧
      (s.tracker.mode_ = .TIME_SPAN →
        s.tracker.getMean = count s.tracker.last_tick_ before.tracker.last_tick_ / n) := by
  obtain ⟨hspans, hlength⟩ :=
    items_of_calls windows_dim nominal_time_span pre post hbefore hs hcycles hwindow
  have hnonzero : (n : ℚ) ≠ 0 := by exact_mod_cast hpos.ne'
  have hmean : n * s.tracker.getMean = s.tracker.buffer_.cb.items.sum := by
    have hne : s.tracker.buffer_.cb.items ≠ [] := List.ne_nil_of_length_pos (hlength ▸ hpos)
    rw [getMean, circ_buffer.mean_eq hne, hlength]
    exact mul_div_cancel₀ _ hnonzero
  have hpassed : n * s.tracker.getMean + before.tracker.idle post =
      count s.tracker.last_tick_ before.tracker.last_tick_ := by
    have hsum := sum_spans_add_idle before post
    rw [← hs, hspans, List.sum_append] at hsum
    linarith
  refine ⟨hpassed, fun hmode => ?_⟩
  rw [idle_of_time_span before post (hs ▸ hmode), add_zero] at hpassed
  rw [← hpassed, mul_div_cancel_left₀ _ hnonzero]

/-- A window with room for two time spans, after three calls of `time_span()`. -/
theorem window_accounts_two :
    (Tracked.after 2 (1 / 1000 : ℚ)
      [.time_span 5, .time_span 1000, .time_span 3000]).tracker.getMean = count 3000 5 / 2 :=
  (window_accounts 2 (1 / 1000) [.time_span 5] [.time_span 1000, .time_span 3000] (n := 2) rfl rfl
    (by decide) rfl rfl).2 rfl

end RealtimeUtilities
