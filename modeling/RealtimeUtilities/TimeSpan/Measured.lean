import Mathlib.Data.List.Chain
import RealtimeUtilities.TimeSpan.History
import RealtimeUtilities.ToMathlib.Execution

/-!
# Which time spans were measured

A time span is measured if it is the time between the clock readings of two calls on the tracker.
The first call has no reading before it, but `last_tick_` has a value: the epoch of the clock. So
a `time_span()` or a `tock()` that comes first records the time since the epoch, and the time
spans of a tracker were measured if and only if the first call is a `tick()` (`measured_iff`).

The cycles of a punctual thread that only calls `time_span()` are counted right if the epoch is
not longer ago than a cycle may take (`staysOnTime_iff`).
-/

namespace RealtimeUtilities

open TimeSpanTracker

variable {τ : Type} [Double τ]

/-- Every time span that was pushed to the buffer is the time between the clock reading of the
call that pushed it and that of an earlier call. -/
def Measured (history : List (Entry τ)) : Prop :=
  ∀ pre x post ts, history = pre ++ x :: post → x.pushed = some ts →
    ∃ y ∈ pre, y.ret = true ∧ ts = count x.call.reading y.call.reading

/-- The last tick is the clock reading of a call. -/
def Ticked (s : Tracked τ) : Prop :=
  ∃ y ∈ s.history, y.ret = true ∧ s.tracker.last_tick_ = y.call.reading

variable {s : Tracked τ} {windows_dim : ℕ} {nominal_time_span : τ} {calls : List TrackerCall}

/-- After a call that is not refused, the last tick is its clock reading. -/
theorem Ticked.step (h : Ticked s) (c : TrackerCall) : Ticked (s.step c) := by
  have hmem : (⟨c, (s.tracker.call c).ret, (s.tracker.call c).pushed⟩ : Entry τ) ∈
      (s.step c).history := List.mem_append_right _ (List.mem_singleton_self _)
  rcases s.tracker.call_cases c with ⟨-, hcall⟩ | ⟨-, -, hcall⟩ | ⟨-, -, hcall⟩
  · obtain ⟨y, hy, hret, hlast⟩ := h
    refine ⟨y, List.mem_append_left _ hy, hret, ?_⟩
    rw [Tracked.step, hcall]
    exact hlast
  · refine ⟨_, hmem, ?_, ?_⟩
    · rw [hcall]
    · rw [Tracked.step, hcall]
  · refine ⟨_, hmem, ?_, ?_⟩
    · rw [hcall]
      rfl
    · rw [Tracked.step, hcall]
      rfl

/-- What a call records is the time since the last tick. -/
theorem Measured.step (h : Measured s.history) (hticked : Ticked s) (c : TrackerCall) :
    Measured (s.step c).history := by
  intro pre x post ts hhistory hpushed
  -- the time span is that of this call, or was recorded before
  rcases List.concat_eq_append_cons hhistory with ⟨-, rfl, rfl⟩ | ⟨post', -, hbefore⟩
  · obtain ⟨y, hy, hret, hlast⟩ := hticked
    refine ⟨y, hy, hret, ?_⟩
    rcases s.tracker.call_cases c with ⟨-, hcall⟩ | ⟨-, -, hcall⟩ | ⟨-, -, hcall⟩
    · rw [hcall] at hpushed
      cases hpushed
    · rw [hcall] at hpushed
      cases hpushed
    · rw [hcall] at hpushed
      rw [← hlast]
      exact (Option.some.inj hpushed).symm
  · exact h pre x post' ts hbefore hpushed

/-- After a `tick()` that comes first, every time span is measured. -/
theorem measured_of_tick (t : ℤ) (calls : List TrackerCall) :
    Measured (Tracked.after windows_dim nominal_time_span (.tick t :: calls)).history := by
  have hboth : Measured (Tracked.after windows_dim nominal_time_span (.tick t :: calls)).history ∧
      Ticked (Tracked.after windows_dim nominal_time_span (.tick t :: calls)) := by
    induction calls using List.reverseRecOn with
    | nil =>
      refine ⟨fun pre x post ts hhistory hpushed => ?_, ⟨_, List.mem_singleton_self _, rfl, rfl⟩⟩
      obtain ⟨rfl, rfl⟩ : pre = [] ∧ x = ⟨.tick t, true, none⟩ := by
        cases pre with
        | nil => exact ⟨rfl, (List.cons_eq_cons.mp hhistory).1.symm⟩
        | cons y pre => simpa using (List.cons_eq_cons.mp hhistory).2
      cases hpushed
    | append_singleton calls c ih =>
      rw [← List.cons_append, Tracked.after_concat]
      exact ⟨ih.1.step ih.2 c, ih.2.step c⟩
  exact hboth.1

/-- A time span that the first call records was not measured. -/
theorem not_measured_of_records {c : TrackerCall} (hc : c.records = true)
    (calls : List TrackerCall) :
    ¬ Measured (Tracked.after windows_dim nominal_time_span (c :: calls)).history := by
  intro h
  have hinv := TrackerInvariant.after windows_dim nominal_time_span (c :: calls)
  obtain ⟨x, rest, hhistory, rfl, -⟩ := List.map_eq_cons_iff.mp hinv.history
  have hx : x ∈ (Tracked.after windows_dim nominal_time_span (x.call :: calls)).history := by
    rw [hhistory]
    exact List.mem_cons_self
  have hret : x.ret = true := (hinv.ret x hx).mpr rfl
  obtain ⟨ts, hts⟩ := Option.isSome_iff_exists.mp ((hinv.pushed x hx).mpr (by rw [hret, hc]; rfl))
  -- no call came before it
  obtain ⟨y, hy, -⟩ := h [] x rest ts hhistory hts
  cases hy

/-- **The time spans of a tracker were measured if and only if the first call is a `tick()`**, or
there was no call. -/
theorem measured_iff (windows_dim : ℕ) (nominal_time_span : τ) (calls : List TrackerCall) :
    Measured (Tracked.after windows_dim nominal_time_span calls).history ↔
      ∀ c ∈ calls.head?, c.records = false := by
  cases calls with
  | nil => exact iff_of_true (fun pre x post ts h => by simp [Tracked.after] at h) (by simp)
  | cons c calls =>
    cases c with
    | tick t => exact iff_of_true (measured_of_tick t calls) (by simp [TrackerCall.records])
    | time_span t | tock t =>
      exact iff_of_false (not_measured_of_records rfl calls) (by simp [TrackerCall.records])

/-! ## Runs of `time_span()` -/

/-- The statistics say that no cycle took longer than allowed. -/
structure OnTime (s : TimeSpanTracker τ) : Prop where
  missed : s.getMissedCycles = 0
  max : ¬ Double.lt s.allowed s.getMax = true

/-- In a run of `time_span()` the time spans are the distances of the clock readings, and that of
the first one from the last tick. -/
theorem forall_spans_iff (P : τ → Prop) {s : Tracked τ} (hmode : s.tracker.mode_ ≠ .TICK_TOCK)
    (readings : List ℤ) :
    (∀ ts ∈ ((readings.map TrackerCall.time_span).foldl Tracked.step s).spans, P ts) ↔
      (∀ ts ∈ s.spans, P ts) ∧
        List.IsChain (fun a b => P (count b a)) (s.tracker.last_tick_ :: readings) := by
  induction readings generalizing s with
  | nil => simp
  | cons t readings ih =>
    have hcall : s.tracker.call (.time_span t) = s.tracker.record .TIME_SPAN t := if_neg hmode
    have hspans : (s.step (.time_span t)).spans =
        s.spans ++ [count t s.tracker.last_tick_] := by
      rw [s.spans_step, hcall]
      rfl
    -- the rest of the run starts with the reading `t` as the last tick
    have hmode' : (s.step (.time_span t)).tracker.mode_ ≠ .TICK_TOCK := by
      rw [Tracked.step, hcall]
      simp [record]
    have hlast : (s.step (.time_span t)).tracker.last_tick_ = t := by
      rw [Tracked.step, hcall]
      rfl
    rw [List.map_cons, List.foldl_cons, ih hmode', hspans, hlast, List.isChain_cons_cons,
      ← and_assoc]
    refine and_congr_left' ?_
    simp [or_imp, forall_and]

/-- The greatest time span is zero or a time span of the buffer. -/
theorem max_mem (cb : BoundedQueue τ) :
    circ_buffer.max cb = Double.ofRat 0 ∨ circ_buffer.max cb ∈ cb.items := by
  -- along the elements, the result is the start value or one of those that were seen
  have hfold : ∀ (l : List τ) (ret : τ),
      l.foldl (fun ret element => if Double.lt element ret then ret else element) ret = ret ∨
        l.foldl (fun ret element => if Double.lt element ret then ret else element) ret ∈ l := by
    intro l
    induction l with
    | nil => exact fun ret => .inl rfl
    | cons x l ih =>
      intro ret
      rw [List.foldl_cons]
      split_ifs
      · exact (ih ret).imp_right (List.mem_cons_of_mem x)
      · rcases ih x with hx | hx
        · rw [hx]
          exact .inr List.mem_cons_self
        · exact .inr (List.mem_cons_of_mem x hx)
  exact hfold _ _

/-- The statistics are those of the recorded time spans. -/
theorem onTime_iff (h : TrackerInvariant windows_dim nominal_time_span calls s)
    (hnominal : ¬ Double.lt s.tracker.allowed (Double.ofRat 0) = true) :
    OnTime s.tracker ↔ ∀ ts ∈ s.spans, ¬ Double.lt s.tracker.allowed ts = true := by
  have hmissed : s.tracker.getMissedCycles = 0 ↔
      ∀ ts ∈ s.spans, ¬ Double.lt s.tracker.allowed ts = true := by
    rw [getMissedCycles, h.missed]
    exact List.countP_eq_zero
  constructor
  · exact fun hontime => hmissed.mp hontime.missed
  · intro hspans
    refine ⟨hmissed.mpr hspans, ?_⟩
    rcases max_mem s.tracker.buffer_.cb with hzero | hmem
    · rw [getMax, hzero]
      exact hnominal
    · refine hspans _ ?_
      rw [h.buffer] at hmem
      exact List.mem_of_mem_drop hmem

variable (windows_dim nominal_time_span) in
/-- The successive clock readings are never further apart than a cycle may take. -/
def Punctual (readings : List ℤ) : Prop :=
  readings.IsChain fun a b =>
    ¬ Double.lt (construct windows_dim nominal_time_span).allowed (count b a) = true

variable (windows_dim nominal_time_span) in
/-- In a run of `time_span()` with these clock readings, the statistics say so at every point from
the first call on. -/
def StaysOnTime (readings : List ℤ) : Prop :=
  ∀ pre post, pre ≠ [] → readings = pre ++ post →
    OnTime (Tracked.after windows_dim nominal_time_span (pre.map .time_span)).tracker

/-- A run of `time_span()` by a punctual thread is on time from the first call on, exactly if the
first clock reading is not further from the epoch than a cycle may take. -/
theorem staysOnTime_iff (hnominal : ¬ Double.lt (construct windows_dim nominal_time_span).allowed
      (Double.ofRat 0) = true)
    {readings : List ℤ} (hpunctual : Punctual windows_dim nominal_time_span readings) :
    StaysOnTime windows_dim nominal_time_span readings ↔ ∀ t ∈ readings.head?,
      ¬ Double.lt (construct windows_dim nominal_time_span).allowed (count t 0) = true := by
  -- the nominal time span does not change
  have hallowed : ∀ calls, (Tracked.after windows_dim nominal_time_span calls).tracker.allowed =
      (construct windows_dim nominal_time_span).allowed := fun calls => by
    rw [allowed, (TrackerInvariant.after windows_dim nominal_time_span calls).nominal]
    rfl
  -- the first time span is the distance from the epoch
  have hontime : ∀ pre : List ℤ, OnTime
      (Tracked.after windows_dim nominal_time_span (pre.map .time_span)).tracker ↔
        Punctual windows_dim nominal_time_span (0 :: pre) := by
    intro pre
    rw [onTime_iff (.after _ _ _) (by rw [hallowed]; exact hnominal), hallowed]
    rw [Tracked.after, forall_spans_iff _ (by simp [construct])]
    exact and_iff_right fun ts hts => absurd hts List.not_mem_nil
  constructor
  · intro h t ht
    have hne : readings ≠ [] := by
      rintro rfl
      cases ht
    have hchain := (hontime readings).mp (h readings [] hne (List.append_nil _).symm)
    exact (List.isChain_cons.mp hchain).1 t ht
  · rintro h pre post - rfl
    rw [hontime, Punctual, List.isChain_cons]
    refine ⟨fun t ht => h t ?_, hpunctual.left_of_append⟩
    rw [List.head?_append, Option.mem_def.mp ht]
    rfl

/-! ## Runs of a tracker -/

variable (windows_dim nominal_time_span) in
/-- The time spans of the run were measured, and if it is a run of `time_span()` by a punctual
thread, it stays on time. -/
structure MeasuredRun (calls : List TrackerCall) : Prop where
  measured : Measured (Tracked.after windows_dim nominal_time_span calls).history
  punctual : ∀ readings : List ℤ, calls = readings.map .time_span →
    Punctual windows_dim nominal_time_span readings →
    StaysOnTime windows_dim nominal_time_span readings

/-- **The recorded cycle times are measured ones if and only if the first call is a `tick()`**, or
there is no call: the constructor leaves `last_tick_` at the epoch of the clock. If the nominal
time span is not negative, the statistics of a punctual thread that only calls `time_span()` are
right if and only if the first call comes no later after the epoch than a cycle may take. -/
theorem measuredRun_iff (windows_dim : ℕ) (nominal_time_span : τ) :
    (∀ calls : List TrackerCall, MeasuredRun windows_dim nominal_time_span calls ↔
      ∀ c ∈ calls.head?, c.records = false) ∧
    (¬ Double.lt (construct windows_dim nominal_time_span).allowed (Double.ofRat 0) = true →
      ∀ readings : List ℤ, Punctual windows_dim nominal_time_span readings →
        (StaysOnTime windows_dim nominal_time_span readings ↔ ∀ t ∈ readings.head?,
          ¬ Double.lt (construct windows_dim nominal_time_span).allowed (count t 0) = true)) := by
  refine ⟨fun calls => ⟨fun h => (measured_iff _ _ _).mp h.measured, fun h => ?_⟩,
    fun hnominal readings => staysOnTime_iff hnominal⟩
  refine ⟨(measured_iff _ _ _).mpr h, ?_⟩
  rintro readings rfl - pre post hne rfl
  -- a run of `time_span()` that is not empty starts with one
  obtain ⟨t, pre, rfl⟩ := List.exists_cons_of_ne_nil hne
  have hrecords : (TrackerCall.time_span t).records = false := h _ rfl
  cases hrecords

/-- A thread calls `time_span()` for the first time, many years after the epoch. The time span it
records is no difference of clock readings, and its only cycle counts as missed. -/
theorem measuredRun_first_call :
    let calls : List TrackerCall := [.time_span 1700000000000000000]
    let s := Tracked.after 8 (1 / 1000 : ℚ) calls
    ¬ MeasuredRun 8 (1 / 1000 : ℚ) calls ∧ s.spans = [1700000000] ∧
      (∀ x ∈ calls, ∀ y ∈ calls, (count x.reading y.reading : ℚ) ≠ 1700000000) ∧
      s.tracker.getMissedCycles = 1 ∧ s.tracker.getMax = 1700000000 := by
  have hspan : (count 1700000000000000000 0 : ℚ) = 1700000000 := by
    norm_num [count, Double.div, Double.ofRat]
  have hstep : Tracked.after 8 (1 / 1000 : ℚ) [.time_span 1700000000000000000] =
      ⟨((construct 8 (1 / 1000 : ℚ)).record .TIME_SPAN 1700000000000000000).self,
        [⟨.time_span 1700000000000000000, true, some (count 1700000000000000000 0)⟩]⟩ := rfl
  have hspans : (Tracked.after 8 (1 / 1000 : ℚ) [.time_span 1700000000000000000]).spans =
      [1700000000] := by
    rw [hstep, hspan]
    rfl
  refine ⟨?_, hspans, ?_, ?_, ?_⟩
  · intro h
    exact not_measured_of_records rfl [] h.measured
  · simp [count, Double.div, Double.ofRat]
  · rw [getMissedCycles, (TrackerInvariant.after 8 (1 / 1000 : ℚ) _).missed, hspans]
    norm_num [allowed, Double.lt, Double.mul, Double.ofRat,
      (TrackerInvariant.after 8 (1 / 1000 : ℚ) _).nominal]
  · -- the buffer has room for the only time span
    have hitems : (Tracked.after 8 (1 / 1000 : ℚ)
        [.time_span 1700000000000000000]).tracker.buffer_.cb.items = [1700000000] := by
      rw [(TrackerInvariant.after 8 (1 / 1000 : ℚ) _).buffer, hspans, hstep]
      rfl
    rw [getMax, circ_buffer.max, hitems]
    norm_num [Double.lt, Double.ofRat]

end RealtimeUtilities
