import Mathlib.Data.Fintype.Basic
import Mathlib.Logic.Function.Basic
import RealtimeUtilities.Diagnostics.Interface
import RealtimeUtilities.TimeSpan.History
import RealtimeUtilities.ToMathlib.Execution

/-!
# The performance report

`diagnosticsPerformance()` writes a line for every tracker of the interface. The line is made of
five getters of the tracker, each of which takes the lock of the tracker for itself, and C++ does
not say in which order they run. The thread that the tracker measures goes on meanwhile.

`Reporting.step` interleaves the getters with calls of the trackers. A tracker carries the calls
that were made of it, so that the values in a line can be compared with its states.

## Main definitions

* `Getter`, `Reads` and `Line`: the getters, the values that a report has read for the current
  line, and all five of them;
* `Snapshot`: a line holds the values of one state of its tracker;
* `Undisturbed`: no time span is recorded between the first and the last getter of a line.

## Main result

* `snapshot_of_undisturbed`: in the runs of undisturbed steps, all lines are snapshots.
-/

namespace RealtimeUtilities

open Execution

/-- The getters that a line is made of. -/
inductive Getter where
  | getMean
  | getMin
  | getMax
  | getMissedCycles
  | getTotalCycles
  deriving DecidableEq, Repr

namespace Getter

instance : Fintype Getter where
  elems := {.getMean, .getMin, .getMax, .getMissedCycles, .getTotalCycles}
  complete g := by cases g <;> decide

/-- What a getter returns. -/
def Val (τ : Type) : Getter → Type
  | getMean | getMin | getMax => τ
  | getMissedCycles | getTotalCycles => ℕ

/-- The getter is called. -/
def get {τ : Type} [Double τ] (s : TimeSpanTracker τ) : (g : Getter) → g.Val τ
  | getMean => s.getMean
  | getMin => s.getMin
  | getMax => s.getMax
  | getMissedCycles => s.getMissedCycles
  | getTotalCycles => s.getTotalCycles

end Getter

/-- The values that were read so far. -/
abbrev Reads (τ : Type) := (g : Getter) → Option (g.Val τ)

/-- The values of a line. -/
abbrev Line (τ : Type) := (g : Getter) → g.Val τ

namespace Reads

variable {τ : Type}

/-- Some getter was called. -/
def Started (r : Reads τ) : Prop :=
  ∃ g, (r g).isSome = true

/-- All getters were called. -/
def Complete (r : Reads τ) : Prop :=
  ∀ g, (r g).isSome = true

instance (r : Reads τ) : Decidable r.Started := by
  unfold Started
  infer_instance

instance (r : Reads τ) : Decidable r.Complete := by
  unfold Complete
  infer_instance

/-- The line, when all getters were called. -/
def line (r : Reads τ) (h : r.Complete) : Line τ :=
  fun g => (r g).get (h g)

end Reads

namespace Line

variable {τ : Type}

/-- The cycles that were missed, according to the line. -/
def missed (l : Line τ) : ℕ :=
  l .getMissedCycles

/-- The cycles in total, according to the line. -/
def total (l : Line τ) : ℕ :=
  l .getTotalCycles

/-- The text of a line for the tracker `id`. -/
def keyValue (to_string_fix : τ → String) (timer_id_ id : String) (l : Line τ) : KeyValue where
  key := timer_id_ ++ " " ++ id ++ " [s]"
  value := to_string_fix (l .getMean) ++ " [ " ++ to_string_fix (l .getMin) ++ " - " ++
    to_string_fix (l .getMax) ++ " ] " ++ "Missed: " ++ toString l.missed ++ "/" ++
    toString l.total

end Line

/-- A tracker in the map `time_span_tracker_`, and the calls that were made of it. -/
structure NamedTracker (τ : Type) where
  id : String
  windows_dim : ℕ
  nominal_time_span : τ
  tracker : TimeSpanTracker τ
  calls : List TrackerCall

/-- A line that was written: the number of its tracker, the values, and the text. -/
structure Written (τ : Type) where
  index : ℕ
  line : Line τ
  keyValue : KeyValue

/-- The trackers in the order of the map, and a report in progress. -/
structure Reporting (τ : Type) where
  trackers : List (NamedTracker τ)
  /-- The number of the tracker whose line comes next. -/
  current : ℕ
  reads : Reads τ
  written : List (Written τ)

/-- Who moves next. -/
inductive PerformanceEvent where
  /-- The thread that the tracker `i` measures calls it. -/
  | call (i : ℕ) (c : TrackerCall)
  /-- The report calls a getter that it has not yet called for the current line. -/
  | get (g : Getter)
  /-- The report writes the line, `stat.add(k.key, k.value)`. -/
  | add
  /-- A new report begins. -/
  | report
  deriving DecidableEq

namespace Reporting

variable {τ : Type} [Double τ]

/-- New trackers, each with its name, its window and its nominal time span. -/
def init (trackers : List (String × ℕ × τ)) : Reporting τ where
  trackers := trackers.map fun x =>
    { id := x.1
      windows_dim := x.2.1
      nominal_time_span := x.2.2
      tracker := .construct x.2.1 x.2.2
      calls := [] }
  current := trackers.length
  reads := fun _ => none
  written := []

/-- One step. -/
def step (to_string_fix : τ → String) (timer_id_ : String) (s : Reporting τ) :
    PerformanceEvent → Option (Reporting τ)
  | .call i c => (s.trackers[i]?).map fun t =>
      { s with trackers :=
          s.trackers.set i { t with tracker := (t.tracker.call c).self, calls := t.calls ++ [c] } }
  | .get g => (s.trackers[s.current]?).bind fun t =>
      if s.reads g = none then
        some { s with reads := Function.update s.reads g (some (g.get t.tracker)) }
      else none
  | .add => (s.trackers[s.current]?).bind fun t =>
      if h : s.reads.Complete then
        some { s with
          current := s.current + 1
          reads := fun _ => none
          written := s.written ++ [{
            index := s.current
            line := s.reads.line h
            keyValue := (s.reads.line h).keyValue to_string_fix timer_id_ t.id }] }
      else none
  | .report =>
      if s.current = s.trackers.length then some { s with current := 0, reads := fun _ => none }
      else none

/-- Of the tracker whose line is being read, no time span is recorded. -/
def Undisturbed (s : Reporting τ) : PerformanceEvent → Prop
  | .call i c => i = s.current → s.reads.Started → ¬ s.reads.Complete →
      ∀ t ∈ s.trackers[i]?, ¬ (t.tracker.Accepts c ∧ c.records = true)
  | .get _ | .add | .report => True

instance (s : Reporting τ) (e : PerformanceEvent) : Decidable (s.Undisturbed e) := by
  cases e <;> unfold Undisturbed <;> infer_instance

end Reporting

/-- After some of the calls that were made of the tracker, its getters would return the values of
the line. -/
def Line.OfTracker {τ : Type} [Double τ] (t : NamedTracker τ) (l : Line τ) : Prop :=
  ∃ calls, calls <+: t.calls ∧
    ∀ g, l g = g.get (Tracked.after t.windows_dim t.nominal_time_span calls).tracker

/-- The written values and the text are those of one state of the tracker. -/
def Snapshot {τ : Type} [Double τ] (to_string_fix : τ → String) (timer_id_ : String)
    (s : Reporting τ) (x : Written τ) : Prop :=
  ∃ t, s.trackers[x.index]? = some t ∧ x.line.OfTracker t ∧
    x.keyValue = x.line.keyValue to_string_fix timer_id_ t.id

namespace Reporting

variable {τ : Type} [Double τ]

/-- The values read so far are those of one state of the tracker, and of its current state as long
as the line is not complete. -/
structure Consistent (to_string_fix : τ → String) (timer_id_ : String) (s : Reporting τ) :
    Prop where
  tracker : ∀ t ∈ s.trackers,
    t.tracker = (Tracked.after t.windows_dim t.nominal_time_span t.calls).tracker
  reads : ∀ t, s.trackers[s.current]? = some t → s.reads.Started →
    ∃ l : Line τ, l.OfTracker t ∧ (∀ g x, s.reads g = some x → x = l g) ∧
      (¬ s.reads.Complete → ∀ g, l g = g.get t.tracker)
  written : ∀ x ∈ s.written, Snapshot to_string_fix timer_id_ s x

variable {to_string_fix : τ → String} {timer_id_ : String} {s s' : Reporting τ}
  {e : PerformanceEvent}

omit [Double τ] in
theorem not_started : ¬ Reads.Started (fun _ => none : Reads τ) := by
  rintro ⟨g, hg⟩
  cases hg

/-- A call that records nothing changes nothing that a getter returns. -/
theorem get_call {t : TimeSpanTracker τ} {c : TrackerCall}
    (h : ¬ (t.Accepts c ∧ c.records = true)) (g : Getter) : g.get (t.call c).self = g.get t := by
  rcases t.call_cases c with ⟨-, hcall⟩ | ⟨-, -, hcall⟩ | ⟨haccepts, hrecords, -⟩
  · rw [hcall]
  · rw [hcall]
    cases g <;> rfl
  · exact absurd ⟨haccepts, hrecords⟩ h

/-- More calls of the tracker do not matter. -/
theorem ofTracker_call {t : NamedTracker τ} {l : Line τ}
    (h : l.OfTracker t) (c : TrackerCall) :
    l.OfTracker { t with tracker := (t.tracker.call c).self, calls := t.calls ++ [c] } := by
  obtain ⟨calls, hprefix, hl⟩ := h
  exact ⟨calls, hprefix.trans (List.prefix_append _ _), hl⟩

/-- A call of a tracker that does not disturb the report. -/
theorem Consistent.call (h : s.Consistent to_string_fix timer_id_) {i : ℕ} {c : TrackerCall}
    (hquiet : s.Undisturbed (.call i c))
    (hs' : s.step to_string_fix timer_id_ (.call i c) = some s') :
    s'.Consistent to_string_fix timer_id_ := by
  obtain ⟨t, ht, rfl⟩ := Option.map_eq_some_iff.mp hs'
  -- the tracker with a number is the one that was called, or one of before
  have hcases : ∀ j t', (s.trackers.set i
      { t with tracker := (t.tracker.call c).self, calls := t.calls ++ [c] })[j]? = some t' →
      (j = i ∧ t' = { t with tracker := (t.tracker.call c).self, calls := t.calls ++ [c] }) ∨
        s.trackers[j]? = some t' := by
    intro j t' ht'
    rw [List.getElem?_set] at ht'
    split_ifs at ht' with hij
    · exact .inl ⟨hij.symm, (Option.some.inj ht').symm⟩
    · exact .inr ht'
  refine ⟨fun t' ht' => ?_, fun t' ht' hstarted => ?_, fun x hx => ?_⟩
  · rcases List.mem_or_eq_of_mem_set ht' with hmem | rfl
    · exact h.tracker t' hmem
    · dsimp only
      rw [Tracked.after_concat, h.tracker t (List.mem_of_getElem? ht)]
      rfl
  · rcases hcases _ t' ht' with ⟨hi, rfl⟩ | hsame
    · have hcurrent : s.trackers[s.current]? = some t := by rw [hi, ht]
      obtain ⟨l, hl, hreads, hnow⟩ := h.reads t hcurrent hstarted
      refine ⟨l, ofTracker_call hl c, hreads, fun hopen g => ?_⟩
      rw [hnow hopen g]
      exact (get_call (hquiet hi.symm hstarted hopen t ht) g).symm
    · exact h.reads t' hsame hstarted
  · obtain ⟨t₀, ht₀, hl, htext⟩ := h.written x hx
    by_cases hi : x.index = i
    · subst hi
      obtain rfl := Option.some.inj (ht.symm.trans ht₀)
      refine ⟨_, ?_, ofTracker_call hl c, htext⟩
      obtain ⟨hlt, -⟩ := List.getElem?_eq_some_iff.mp ht
      rw [List.getElem?_set_self hlt]
    · refine ⟨t₀, ?_, hl, htext⟩
      rw [List.getElem?_set_ne (Ne.symm hi), ht₀]

/-- A getter returns a value of the current state, which is that of the values read before. -/
theorem Consistent.get (h : s.Consistent to_string_fix timer_id_) {g : Getter}
    (hs' : s.step to_string_fix timer_id_ (.get g) = some s') :
    s'.Consistent to_string_fix timer_id_ := by
  obtain ⟨t, ht, hread⟩ := Option.bind_eq_some_iff.mp hs'
  split_ifs at hread with hnone
  obtain rfl := Option.some.inj hread
  have hopen : ¬ s.reads.Complete := fun hcomplete => by
    have := hcomplete g
    rw [hnone] at this
    cases this
  refine ⟨h.tracker, fun t' ht' _ => ?_, h.written⟩
  obtain rfl := Option.some.inj (ht.symm.trans ht')
  -- the values read before are of the current state, if there are any
  obtain ⟨l, hl, hreads, hnow⟩ : ∃ l : Line τ, l.OfTracker t ∧
      (∀ g x, s.reads g = some x → x = l g) ∧ ∀ g, l g = g.get t.tracker := by
    by_cases hstarted : s.reads.Started
    · obtain ⟨l, hl, hreads, hnow⟩ := h.reads t ht hstarted
      exact ⟨l, hl, hreads, hnow hopen⟩
    · refine ⟨fun g => g.get t.tracker, ⟨t.calls, List.prefix_rfl, fun g => ?_⟩, ?_,
        fun g => rfl⟩
      · rw [← h.tracker t (List.mem_of_getElem? ht)]
      · intro g' x hx
        exact absurd ⟨g', by rw [hx]; rfl⟩ hstarted
  refine ⟨l, hl, fun g' x hx => ?_, fun _ => hnow⟩
  dsimp only at hx
  by_cases hg : g' = g
  · subst hg
    rw [Function.update_self] at hx
    rw [hnow, ← Option.some.inj hx]
  · rw [Function.update_of_ne hg] at hx
    exact hreads g' x hx

/-- A line is written with the values that were read. -/
theorem Consistent.add (h : s.Consistent to_string_fix timer_id_)
    (hs' : s.step to_string_fix timer_id_ .add = some s') :
    s'.Consistent to_string_fix timer_id_ := by
  obtain ⟨t, ht, hwrite⟩ := Option.bind_eq_some_iff.mp hs'
  split_ifs at hwrite with hcomplete
  obtain rfl := Option.some.inj hwrite
  refine ⟨h.tracker, fun _ _ hstarted => absurd hstarted not_started, fun x hx => ?_⟩
  rcases List.mem_append.mp hx with hx | hx
  · exact h.written x hx
  · rw [List.mem_singleton.mp hx]
    obtain ⟨l, hl, hreads, -⟩ := h.reads t ht ⟨.getMean, hcomplete .getMean⟩
    have hline : s.reads.line hcomplete = l :=
      funext fun g => hreads g _ (Option.some_get (hcomplete g)).symm
    exact ⟨t, ht, hline ▸ hl, rfl⟩

/-- **Undisturbed steps keep the report consistent.** -/
theorem Consistent.step (h : s.Consistent to_string_fix timer_id_) (hquiet : s.Undisturbed e)
    (hs' : s.step to_string_fix timer_id_ e = some s') : s'.Consistent to_string_fix timer_id_ := by
  cases e with
  | call i c => exact h.call hquiet hs'
  | get g => exact h.get hs'
  | add => exact h.add hs'
  | report =>
    rw [Reporting.step] at hs'
    split_ifs at hs' with hend
    obtain rfl := Option.some.inj hs'
    exact ⟨h.tracker, fun _ _ hstarted => absurd hstarted not_started, h.written⟩

/-- The values of a state do not say that more cycles were missed than there were. -/
theorem missed_le_total {t : NamedTracker τ} {l : Line τ} (h : l.OfTracker t) :
    l.missed ≤ l.total := by
  obtain ⟨calls, -, hl⟩ := h
  rw [Line.missed, Line.total, hl, hl]
  exact (TrackerInvariant.after t.windows_dim t.nominal_time_span calls).missed_le

/-- **The lines of the report are snapshots, if no time span is recorded while a line is read.**
In every run of such steps, with any number of trackers and with the getters of a line in any
order, the values of every line are those of one state of its tracker, and it does not report
more missed cycles than cycles. -/
theorem snapshot_of_undisturbed (trackers : List (String × ℕ × τ)) {es : List PerformanceEvent}
    (halong : Along (Reporting.step to_string_fix timer_id_) Undisturbed (init trackers) es)
    (hrun : run (Reporting.step to_string_fix timer_id_) (init trackers) es = some s) :
    ∀ x ∈ s.written, Snapshot to_string_fix timer_id_ s x ∧ x.line.missed ≤ x.line.total := by
  have hinit : (init trackers).Consistent to_string_fix timer_id_ := by
    refine ⟨fun t ht => ?_, fun _ _ hstarted => absurd hstarted not_started,
      fun x hx => absurd hx List.not_mem_nil⟩
    obtain ⟨x, -, rfl⟩ := List.mem_map.mp ht
    rfl
  have h := run_invariant_along (Consistent to_string_fix timer_id_)
    (fun _ _ _ h hquiet hs' => h.step hquiet hs') hinit halong hrun
  intro x hx
  obtain ⟨t, ht, hl, htext⟩ := h.written x hx
  exact ⟨⟨t, ht, hl, htext⟩, missed_le_total hl⟩

/-- One cycle is recorded before the line of a tracker is read, and one after it was written. -/
def reportOnce : List PerformanceEvent :=
  [.report, .call 0 (.time_span 5), .get .getTotalCycles, .get .getMissedCycles, .get .getMax,
    .get .getMean, .get .getMin, .add, .call 0 (.time_span 7)]

theorem snapshot_of_undisturbed_one :
    ∃ s : Reporting ℚ, run (Reporting.step (fun _ => "") "timer") (init [("loop", 4, 1 / 100)])
        reportOnce = some s ∧ s.written.length = 1 ∧
      ∀ x ∈ s.written, Snapshot (fun _ => "") "timer" s x ∧ x.line.missed ≤ x.line.total :=
  ⟨_, rfl, rfl, @snapshot_of_undisturbed ℚ _ _ _ _ [("loop", 4, 1 / 100)] reportOnce (by decide)
    rfl⟩

/-- A cycle is missed after the report has read the number of cycles, and before it reads the
number of missed ones. -/
def reportTorn : List PerformanceEvent :=
  [.report, .get .getTotalCycles, .call 0 (.time_span 1000000000), .get .getMissedCycles,
    .get .getMax, .get .getMean, .get .getMin, .add]

/-- The line reports one missed cycle of none. -/
theorem line_torn :
    ∃ s : Reporting ℚ, run (Reporting.step (fun _ => "") "timer") (init [("loop", 4, 1 / 100)])
        reportTorn = some s ∧
      ∃ x ∈ s.written, x.line.missed = 1 ∧ x.line.total = 0 ∧
        ¬ Snapshot (fun _ => "") "timer" s x := by
  refine ⟨_, rfl, _, List.mem_singleton_self _, ?_⟩
  have hlate : Double.lt (TimeSpanTracker.construct 4 (1 / 100 : ℚ)).allowed
      (TimeSpanTracker.count 1000000000 0) = true := by
    norm_num [TimeSpanTracker.construct, TimeSpanTracker.allowed, TimeSpanTracker.count,
      Double.lt, Double.mul, Double.div, Double.ofRat]
  have hmissed : (if Double.lt (TimeSpanTracker.construct 4 (1 / 100 : ℚ)).allowed
      (TimeSpanTracker.count 1000000000 0) = true then 0 + 1 else 0) = 1 := if_pos hlate
  refine ⟨hmissed, rfl, ?_⟩
  -- no state of a tracker has missed more cycles than it has recorded
  rintro ⟨t, -, hl, -⟩
  have hle : 1 ≤ 0 := le_trans (le_of_eq hmissed.symm) (missed_le_total hl)
  exact absurd hle (by decide)

end Reporting

end RealtimeUtilities
