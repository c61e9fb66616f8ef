import Mathlib.Data.Int.Notation
import Mathlib.Data.List.Basic

/-!
# `DiagnosticsInterface`

`addDiagnosticsMessage()` puts a message in the queue `diagnostic_.status`, and `diagnostics()`
drains the queue at one level into a `DiagnosticStatusWrapper`. The wrapper is not part of the
repository: what a drain does to it is the list of its assignments and calls (`StatCall`).

Each of the two functions works on the queue under `mtx_`, in one go.
-/

namespace RealtimeUtilities

/-- The levels of `diagnostic_msgs::DiagnosticStatus`. -/
inductive DiagnosticLevel where
  | OK
  | WARN
  | ERROR
  | STALE
  deriving DecidableEq, Repr

/-- The constants of `diagnostic_msgs::DiagnosticStatus`. -/
def DiagnosticLevel.toInt : DiagnosticLevel → ℤ
  | OK => 0
  | WARN => 1
  | ERROR => 2
  | STALE => 3

@[simp]
theorem DiagnosticLevel.toInt_inj {a b : DiagnosticLevel} : a.toInt = b.toInt ↔ a = b := by
  cases a <;> cases b <;> simp [toInt]

/-- `diagnostic_msgs::KeyValue`. -/
structure KeyValue where
  key : String
  value : String
  deriving DecidableEq, Repr

/-- `diagnostic_msgs::DiagnosticStatus`. A new one is zero and empty. -/
structure DiagnosticStatus where
  level : DiagnosticLevel := .OK
  name : String := ""
  message : String := ""
  hardware_id : String := ""
  values : List KeyValue := []
  deriving DecidableEq, Repr

/-- What is done to a `diagnostic_updater::DiagnosticStatusWrapper`. -/
inductive StatCall where
  | hardware_id (s : String)
  | name (s : String)
  | level (l : DiagnosticLevel)
  | summary (l : DiagnosticLevel) (s : String)
  | add (key value : String)
  deriving DecidableEq, Repr

/-- The members of `DiagnosticsInterface` that belong to the queue of messages. -/
structure DiagnosticsInterface where
  hardware_id_ : String
  name_id_ : String
  /-- `diagnostic_.status`. -/
  status : List DiagnosticStatus
  deriving DecidableEq, Repr

namespace DiagnosticsInterface

/-- The message that `addDiagnosticsMessage()` makes, from the entries of the map `key_values` in
its order. -/
def message (d : DiagnosticsInterface) (level summary : String)
    (key_values : List (String × String)) : DiagnosticStatus :=
  let diag : DiagnosticStatus :=
    { name := d.name_id_, hardware_id := d.hardware_id_, message := summary }
  -- a string that is none of the four leaves the level at zero
  let diag := if level = "OK" then { diag with level := .OK } else diag
  let diag := if level = "WARN" then { diag with level := .WARN } else diag
  let diag := if level = "ERROR" then { diag with level := .ERROR } else diag
  let diag := if level = "STALE" then { diag with level := .STALE } else diag
  { diag with values := key_values.map fun key_value => ⟨key_value.1, key_value.2⟩ }

/-- `addDiagnosticsMessage()`: what is in the stream `report` afterwards, if there is one, and
the queue with the message. -/
def addDiagnosticsMessage (d : DiagnosticsInterface) (level summary : String)
    (key_values : List (String × String)) (report : Option String) :
    Option String × DiagnosticsInterface :=
  let line := "[" ++ d.hardware_id_ ++ "] " ++ summary
  let report :=
    if level = "OK" ∨ level = "WARN" ∨ level = "ERROR" ∨ level = "STALE" then
      report.map (· ++ line)
    else report
  (report, { d with status := d.status ++ [d.message level summary key_values] })

/-- What `diagnostics()` calls a level in the name of its report. -/
def levelName (level : ℤ) : String :=
  if level = DiagnosticLevel.OK.toInt then "Info"
  else if level = DiagnosticLevel.WARN.toInt then "Warn"
  else "Error"

/-- The level of the report of `diagnostics()`. -/
def levelOf (level : ℤ) : DiagnosticLevel :=
  if level = DiagnosticLevel.OK.toInt then .OK
  else if level = DiagnosticLevel.WARN.toInt then .WARN
  else if level = DiagnosticLevel.ERROR.toInt then .ERROR
  else .STALE

/-- `diagnostics()`, at the time of day `time`: what is done to `stat`, and the queue without the
messages of the level. -/
def diagnostics (d : DiagnosticsInterface) (level : ℤ) (time : String) :
    List StatCall × DiagnosticsInterface :=
  let header : List StatCall :=
    [.hardware_id d.hardware_id_, .name (d.name_id_ ++ "[" ++ levelName level ++ "]")]
  let something_to_add := d.status.any fun s => s.level.toInt = level
  if something_to_add then
    (header ++ [.level (levelOf level),
        .summary (levelOf level) ("Log of the status at [" ++ time ++ "]")] ++
        -- the whole queue is added, of every message its name and its summary
        d.status.map fun s => .add s.name s.message,
      -- only the messages of the level are removed
      { d with status := d.status.filter fun p => !decide (p.level.toInt = level) })
  else
    (header ++ [.summary .OK ("None Error in the queue [" ++ time ++ "]")], d)

/-- `diagnosticsInfo()`. -/
def diagnosticsInfo (d : DiagnosticsInterface) (time : String) :
    List StatCall × DiagnosticsInterface :=
  d.diagnostics DiagnosticLevel.OK.toInt time

/-- `diagnosticsWarn()`. -/
def diagnosticsWarn (d : DiagnosticsInterface) (time : String) :
    List StatCall × DiagnosticsInterface :=
  d.diagnostics DiagnosticLevel.WARN.toInt time

/-- `diagnosticsError()`. -/
def diagnosticsError (d : DiagnosticsInterface) (time : String) :
    List StatCall × DiagnosticsInterface :=
  d.diagnostics DiagnosticLevel.ERROR.toInt time

end DiagnosticsInterface

/-- What the calls `add` to a wrapper. -/
def reported (calls : List StatCall) : List KeyValue :=
  calls.filterMap fun
    | .add key value => some ⟨key, value⟩
    | _ => none

namespace DiagnosticsInterface

variable (d : DiagnosticsInterface) (l : DiagnosticLevel) (time : String)

/-- A drain removes the messages of its level and leaves the others in their order. -/
theorem diagnostics_snd :
    (d.diagnostics l.toInt time).2 =
      { d with status := d.status.filter fun s => decide (s.level ≠ l) } := by
  simp only [diagnostics, DiagnosticLevel.toInt_inj]
  split_ifs with hany
  · simp only [decide_not]
  · -- there is nothing to remove
    have hkept : d.status.filter (fun s => decide (s.level ≠ l)) = d.status := by
      rw [List.filter_eq_self]
      simpa using hany
    rw [hkept]

/-- A drain that finds a message of its level reports the whole queue, with names and summaries
only, and one that finds none reports nothing. -/
theorem reported_diagnostics :
    reported (d.diagnostics l.toInt time).1 =
      if ∃ s ∈ d.status, s.level = l then d.status.map fun s => ⟨s.name, s.message⟩ else [] := by
  have hany : (d.status.any fun s => decide (s.level.toInt = l.toInt)) = true ↔
      ∃ s ∈ d.status, s.level = l := by simp
  simp only [diagnostics, hany]
  split_ifs
  · simp [reported, List.filterMap_map]
  · rfl

/-- Only the level string `STALE` makes a stale message. -/
theorem level_message_eq_stale_iff (level summary : String) (key_values : List (String × String)) :
    (d.message level summary key_values).level = .STALE ↔ level = "STALE" := by
  simp only [message]
  split_ifs <;> simp_all

end DiagnosticsInterface

end RealtimeUtilities
