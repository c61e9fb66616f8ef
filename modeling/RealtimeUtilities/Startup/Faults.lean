import RealtimeUtilities.Startup.Prefault
import RealtimeUtilities.Timer.Deadline
import RealtimeUtilities.ToMathlib.Execution
import RealtimeUtilities.ToMathlib.Maintains

/-!
# The page faults of a start

The main thread calls `rt_main_init()` and every other thread `rt_init_thread()`. Both report the
page faults of the process since the last report, for which `show_new_pagefault_count()` keeps the
readings of `getrusage()` in two static variables. These are of type `int`, and the readings of type
`long`, so a process that has had more page faults than an `int` can count reports wrong numbers.

The calls come one after the other. The readings of `getrusage()` are numbered in the order of the
calls.

## Main definitions

* `rt_main_init`, `rt_init_thread` and what they call;
* `Process`: what a start has read and printed;
* `Reported`: the static variables and the numbers that were printed.

## Main result

* `newFaults_iff`: when the reports are right.
-/

namespace RealtimeUtilities

open Execution

/-- The values of `errno` after `mlockall()`. -/
inductive MlockError where
  | ENOSYS
  | EAGAIN
  | EINVAL
  | ENOMEM
  | EPERM
  | other
  deriving DecidableEq, Repr

/-- The parameters of `mallopt()`. -/
inductive MalloptParam where
  | M_TRIM_THRESHOLD
  | M_MMAP_MAX
  deriving DecidableEq, Repr

/-- What a process prints: a report, or a text to one of its streams. -/
inductive Printed where
  | report (line : PagefaultLine)
  | stdout (text : String)
  | stderr (text : String)

/-- A process that starts. -/
structure Process where
  /-- The static variables of `show_new_pagefault_count()`. -/
  count : PagefaultCount
  /-- How often `getrusage()` was called. -/
  readings : ℕ
  printed : List Printed
  /-- What `mallopt()` was called with. -/
  mallopts : List (MalloptParam × ℤ)

namespace Process

/-- Nothing was called yet. -/
def start : Process where
  count := ⟨0, 0⟩
  readings := 0
  printed := []
  mallopts := []

end Process

/-- `printf()` of a text without a report. -/
def printOut (text : String) : StateT Process Option Unit :=
  modify fun s => { s with printed := s.printed ++ [.stdout text] }

/-- `std::cerr`. -/
def printErr (text : String) : StateT Process Option Unit :=
  modify fun s => { s with printed := s.printed ++ [.stderr text] }

def mallopt (param : MalloptParam) (value : ℤ) : StateT Process Option Unit :=
  modify fun s => { s with mallopts := s.mallopts ++ [(param, value)] }

/-- What `configure_malloc_behavior()` prints. -/
def MlockError.text : MlockError → Option String
  | ENOSYS => some "The implementation does not support this memory locking interface."
  | EAGAIN => some ("Some or all of the memory identified by the operation could not be locked " ++
      "when the call was made.")
  | EINVAL => some "The flags argument is zero, or includes unimplemented flags."
  | ENOMEM => some ("Locking all of the pages currently mapped into the address space of the " ++
      "process would exceed an implementation-dependent limit on the amount of memory that the " ++
      "process may lock.")
  | EPERM => some ("The calling process does not have the appropriate privilege to perform the " ++
      "requested operation.")
  | other => none

/-- `configure_malloc_behavior()`, where `mlockall()` succeeds or leaves an error. -/
def configure_malloc_behavior (mlockall : Option MlockError) : StateT Process Option Bool := do
  if let some errno := mlockall then
    if let some text := errno.text then printErr text
    return false
  mallopt .M_TRIM_THRESHOLD (-1)
  mallopt .M_MMAP_MAX 0
  return true

section Calls

variable (getrusage : ℕ → rusage) (fuel pagesize : ℕ)

/-- `show_new_pagefault_count(logtext, allowed_maj, allowed_min)`, with the next reading. -/
def report (logtext allowed_maj allowed_min : String) : StateT Process Option Bool := do
  let s ← get
  let (ret, line, count) :=
    show_new_pagefault_count s.count (getrusage s.readings) logtext allowed_maj allowed_min
  set { s with count, readings := s.readings + 1, printed := s.printed ++ [Printed.report line] }
  return ret

/-- `prove_thread_stack_use_is_safe(stacksize)`, with the next reading. -/
def proveStackUse (stacksize : ℕ) : StateT Process Option Bool := do
  let s ← get
  let use ← prove_thread_stack_use_is_safe s.count (getrusage s.readings) fuel pagesize stacksize
  set { s with
    count := use.count
    readings := s.readings + 1
    printed := s.printed ++ [Printed.report use.printed] }
  return use.ret

/-- `rt_main_init(pre_allocation_size)`. -/
def rt_main_init (mlockall : Option MlockError) (pre_allocation_size : ℕ) :
    StateT Process Option Bool := do
  unless ← report getrusage "Initial count" ">=0" ">=0" do
    printOut "Error in show_new_pagefault_count. Exit."
    return false
  unless ← configure_malloc_behavior mlockall do
    printOut "Error in configure_malloc_behavior. Exit."
    return false
  unless ← report getrusage "mlockall() generated" ">=0" ">=0" do
    printOut "Error in show_new_pagefault_count. Exit."
    return false
  unless (← reserve_process_memory fuel pagesize pre_allocation_size).ret do
    printOut "Error in reserve_process_memory. Exit."
    return false
  unless ← report getrusage "malloc() and touch generated" ">=0" ">=0" do
    printOut "Error in show_new_pagefault_count. Exit."
    return false
  -- the second time there should be no page faults
  unless (← reserve_process_memory fuel pagesize pre_allocation_size).ret do
    printOut "Error in reserve_process_memory. Exit."
    return false
  unless ← report getrusage "2nd malloc() and use generated" "0" "0" do
    printOut "Error in show_new_pagefault_count. Exit."
    return false
  printOut ("\n\nLook at the output of ps -leyf, and see that the RSS is now about " ++
    toString (pre_allocation_size / (1024 * 1024)) ++ " [MB]\n")
  return true

/-- `setprio(prio, sched)`, with what `sched_setscheduler()` returns. -/
def setprio (sched_setscheduler : ℤ → ℤ → ℤ) (prio sched : ℤ) : Bool :=
  if sched_setscheduler sched prio < 0 then false else true

/-- `rt_init_thread(stack_size, prio, sched, pinfo, period_ns)` on a POSIX system: what it returns,
and `*pinfo` if `pinfo` is not `NULL`. The clock reads `now`. The caller was compiled with `NDEBUG`
or without. -/
def rt_init_thread (ndebug : Bool) (sched_setscheduler : ℤ → ℤ → ℤ) (stack_size : ℕ)
    (prio sched : ℤ) (pinfo : Option period_info) (period_ns : ℤ) (now : timespec) :
    StateT Process Option (Bool × Option period_info) := do
  unless setprio sched_setscheduler prio sched do
    printOut "Error in setprio."
    return (false, pinfo)
  printOut ("I am an RT-thread with a stack that does not generate page-faults during use, " ++
    "stacksize=" ++ toString stack_size ++ "\n")
  let _ ← report getrusage "Caused by creating thread" ">=0" ">=0"
  let _ ← proveStackUse getrusage fuel pagesize stack_size
  if pinfo.isSome then
    -- `assert(period_ns > 0)`
    unless ndebug || 0 < period_ns do failure
    return (true, some (timer_periodic_init period_ns now))
  return (true, pinfo)

end Calls

/-- A call by one of the threads, with what it finds. -/
inductive StartupCall where
  | show_new_pagefault_count (logtext allowed_maj allowed_min : String)
  | prove_thread_stack_use_is_safe (fuel stacksize : ℕ)
  | rt_main_init (fuel : ℕ) (mlockall : Option MlockError) (pre_allocation_size : ℕ)
  | rt_init_thread (fuel : ℕ) (ndebug : Bool) (sched_setscheduler : ℤ → ℤ → ℤ) (stack_size : ℕ)
      (prio sched : ℤ) (pinfo : Option period_info) (period_ns : ℤ) (now : timespec)

namespace Process

/-- One call. There is no state after it if a loop is short of turns, or the process is aborted. -/
def step (getrusage : ℕ → rusage) (pagesize : ℕ) (s : Process) : StartupCall → Option Process
  | .show_new_pagefault_count logtext allowed_maj allowed_min =>
      ((report getrusage logtext allowed_maj allowed_min).run s).map Prod.snd
  | .prove_thread_stack_use_is_safe fuel stacksize =>
      ((proveStackUse getrusage fuel pagesize stacksize).run s).map Prod.snd
  | .rt_main_init fuel mlockall pre_allocation_size =>
      ((rt_main_init getrusage fuel pagesize mlockall pre_allocation_size).run s).map Prod.snd
  | .rt_init_thread fuel ndebug sched_setscheduler stack_size prio sched pinfo period_ns now =>
      ((rt_init_thread getrusage fuel pagesize ndebug sched_setscheduler stack_size prio sched pinfo
        period_ns now).run s).map Prod.snd

/-- The numbers of major and minor page faults that were reported. -/
def reports (s : Process) : List (ℤ × ℤ) :=
  s.printed.filterMap fun
    | .report line => some (line.majflt, line.minflt)
    | .stdout _ | .stderr _ => none

end Process

section Reports

variable (getrusage : ℕ → rusage)

/-- The static variables before the reading `k`. -/
def countBefore : ℕ → PagefaultCount
  | 0 => ⟨0, 0⟩
  | k + 1 => ⟨longToInt (getrusage k).ru_majflt, longToInt (getrusage k).ru_minflt⟩

/-- What the report of the reading `k` says. -/
def reportedFaults (k : ℕ) : ℤ × ℤ :=
  ((getrusage k).ru_majflt - (countBefore getrusage k).last_majflt,
    (getrusage k).ru_minflt - (countBefore getrusage k).last_minflt)

/-- The page faults since the reading before, or since the start of the process. -/
def newFaults : ℕ → ℤ × ℤ
  | 0 => ((getrusage 0).ru_majflt, (getrusage 0).ru_minflt)
  | k + 1 => ((getrusage (k + 1)).ru_majflt - (getrusage k).ru_majflt,
      (getrusage (k + 1)).ru_minflt - (getrusage k).ru_minflt)

/-- There was one report for every reading. -/
structure Reported (s : Process) : Prop where
  count : s.count = countBefore getrusage s.readings
  reports : s.reports = (List.range s.readings).map (reportedFaults getrusage)

variable {getrusage} {s s' : Process} {pagesize fuel : ℕ}

theorem reported_start : Reported getrusage .start where
  count := rfl
  reports := rfl

/-- Other output is no report. -/
theorem Reported.print (h : Reported getrusage s) {printed : List Printed}
    (hprinted : ∀ x ∈ printed, ∀ line, x ≠ .report line) {mallopts : List (MalloptParam × ℤ)} :
    Reported getrusage { s with printed := s.printed ++ printed, mallopts } where
  count := h.count
  reports := by
    have hnone : printed.filterMap (fun
        | .report line => some (line.majflt, line.minflt)
        | .stdout _ | .stderr _ => none) = [] := by
      rw [List.filterMap_eq_nil_iff]
      intro x hx
      cases x with
      | report line => exact absurd rfl (hprinted _ hx line)
      | stdout _ | stderr _ => rfl
    rw [← h.reports, Process.reports, List.filterMap_append, hnone, List.append_nil]
    rfl

/-- A report of the next reading. -/
theorem Reported.report (h : Reported getrusage s) (logtext allowed_maj allowed_min : String) :
    let shown := show_new_pagefault_count s.count (getrusage s.readings) logtext allowed_maj
      allowed_min
    Reported getrusage
      { s with
        count := shown.2.2
        readings := s.readings + 1
        printed := s.printed ++ [.report shown.2.1] } where
  count := rfl
  reports := by
    rw [Process.reports, List.filterMap_append, List.range_succ, List.map_append, ← h.reports]
    simp only [Process.reports, show_new_pagefault_count, h.count]
    rfl

theorem maintains_printOut (text : String) : Maintains (Reported getrusage) (printOut text) :=
  maintains_modify fun _ h => h.print (by simp)

theorem maintains_printErr (text : String) : Maintains (Reported getrusage) (printErr text) :=
  maintains_modify fun _ h => h.print (by simp)

theorem maintains_mallopt (param : MalloptParam) (value : ℤ) :
    Maintains (Reported getrusage) (mallopt param value) :=
  maintains_modify fun _ h => ⟨h.count, h.reports⟩

theorem maintains_report (logtext allowed_maj allowed_min : String) :
    Maintains (Reported getrusage) (report getrusage logtext allowed_maj allowed_min) := by
  rintro s a s' hs ⟨⟩
  exact hs.report logtext allowed_maj allowed_min

theorem maintains_proveStackUse (stacksize : ℕ) :
    Maintains (Reported getrusage) (proveStackUse getrusage fuel pagesize stacksize) := by
  intro s a s' hs h
  -- the loop writes to the stack, and then there is a report
  cases hwrites : touchPages fuel pagesize stacksize fun i => UInt8.ofNat i with
  | none => simp [proveStackUse, prove_thread_stack_use_is_safe, hwrites] at h
  | some writes =>
    simp [proveStackUse, prove_thread_stack_use_is_safe, hwrites] at h
    obtain ⟨-, rfl⟩ := h
    exact hs.report "Caused by using thread stack" "0" "0"

theorem maintains_configure_malloc_behavior (mlockall : Option MlockError) :
    Maintains (Reported getrusage) (configure_malloc_behavior mlockall) := by
  unfold configure_malloc_behavior
  cases mlockall with
  | none =>
    exact (maintains_mallopt _ _).bind fun _ => (maintains_mallopt _ _).bind fun _ => .pure true
  | some errno =>
    cases htext : errno.text with
    | none =>
      simp only [htext]
      exact .pure false
    | some text =>
      simp only [htext]
      exact (maintains_printErr text).bind fun _ => .pure false

/-- A function that prints an error and returns. -/
theorem maintains_exit {α : Type} (text : String) (ret : α) :
    Maintains (Reported getrusage) (do printOut text; return ret) :=
  (maintains_printOut text).bind fun _ => .pure ret

theorem maintains_rt_main_init (mlockall : Option MlockError) (size : ℕ) :
    Maintains (Reported getrusage) (rt_main_init getrusage fuel pagesize mlockall size) := by
  unfold rt_main_init
  refine (maintains_report _ _ _).bind fun _ => .ite ?_ (maintains_exit _ _)
  refine (maintains_configure_malloc_behavior mlockall).bind fun _ => .ite ?_ (maintains_exit _ _)
  refine (maintains_report _ _ _).bind fun _ => .ite ?_ (maintains_exit _ _)
  refine (maintains_liftM _).bind fun _ => .ite ?_ (maintains_exit _ _)
  refine (maintains_report _ _ _).bind fun _ => .ite ?_ (maintains_exit _ _)
  refine (maintains_liftM _).bind fun _ => .ite ?_ (maintains_exit _ _)
  exact (maintains_report _ _ _).bind fun _ => .ite (maintains_exit _ _) (maintains_exit _ _)

theorem maintains_rt_init_thread (ndebug : Bool) (sched_setscheduler : ℤ → ℤ → ℤ)
    (stack_size : ℕ) (prio sched : ℤ) (pinfo : Option period_info) (period_ns : ℤ)
    (now : timespec) :
    Maintains (Reported getrusage) (rt_init_thread getrusage fuel pagesize ndebug
      sched_setscheduler stack_size prio sched pinfo period_ns now) := by
  unfold rt_init_thread
  refine .ite ?_ (maintains_exit _ _)
  refine (maintains_printOut _).bind fun _ => (maintains_report _ _ _).bind fun _ => ?_
  refine (maintains_proveStackUse _).bind fun _ => .ite ?_ (.pure _)
  exact .ite (.pure _) (maintains_failure.bind fun _ => .pure _)

/-- A call reports what it reads. -/
theorem Reported.step (h : Reported getrusage s) {c : StartupCall}
    (hs' : s.step getrusage pagesize c = some s') : Reported getrusage s' := by
  cases c with
  | show_new_pagefault_count logtext allowed_maj allowed_min =>
    exact (maintains_report logtext allowed_maj allowed_min).of_map_run h hs'
  | prove_thread_stack_use_is_safe fuel stacksize =>
    exact (maintains_proveStackUse stacksize).of_map_run h hs'
  | rt_main_init fuel mlockall size =>
    exact (maintains_rt_main_init mlockall size).of_map_run h hs'
  | rt_init_thread fuel ndebug sched_setscheduler stack_size prio sched pinfo period_ns now =>
    exact (maintains_rt_init_thread ndebug sched_setscheduler stack_size prio sched pinfo period_ns
      now).of_map_run h hs'

/-! ## When the reports are right -/

/-- An `int` holds the readings. -/
def rusage.FitsInt (usage : rusage) : Prop :=
  (-2 ^ 31 ≤ usage.ru_majflt ∧ usage.ru_majflt < 2 ^ 31) ∧
    (-2 ^ 31 ≤ usage.ru_minflt ∧ usage.ru_minflt < 2 ^ 31)

instance (usage : rusage) : Decidable usage.FitsInt := by
  unfold rusage.FitsInt
  infer_instance

theorem longToInt_eq_self_iff {n : ℤ} : longToInt n = n ↔ -2 ^ 31 ≤ n ∧ n < 2 ^ 31 := by
  unfold longToInt
  rw [Int.bmod_def]
  split_ifs <;> omega

/-- A report is right if and only if the reading before it was kept. -/
theorem reportedFaults_eq_newFaults_iff {k : ℕ} :
    reportedFaults getrusage (k + 1) = newFaults getrusage (k + 1) ↔ (getrusage k).FitsInt := by
  simp only [reportedFaults, newFaults, countBefore, Prod.mk.injEq, sub_right_inj,
    longToInt_eq_self_iff, rusage.FitsInt]

/-- **The reports of a start are right if and only if an `int` holds every reading but the last.**
In every sequence of calls, with any readings, one line is printed for every reading, and the lines
give the page faults since the reading before exactly then. -/
theorem newFaults_iff {calls : List StartupCall}
    (hrun : run (Process.step getrusage pagesize) .start calls = some s) :
    s.reports.length = s.readings ∧
      (s.reports = (List.range s.readings).map (newFaults getrusage) ↔
        ∀ k, k + 1 < s.readings → (getrusage k).FitsInt) := by
  obtain ⟨-, hreports⟩ := run_invariant (Reported getrusage)
    (fun _ _ _ h hs' => h.step hs') reported_start hrun
  rw [hreports, List.length_map, List.length_range, List.map_inj_left]
  refine ⟨rfl, fun h k hk => ?_, fun h k hk => ?_⟩
  · exact reportedFaults_eq_newFaults_iff.mp (h (k + 1) (List.mem_range.mpr hk))
  · cases k with
    | zero => simp [reportedFaults, newFaults, countBefore]
    | succ k => exact reportedFaults_eq_newFaults_iff.mpr (h k (List.mem_range.mp hk))

/-- The main thread starts, and `getrusage()` finds three more page faults at every call. -/
theorem newFaults_iff_main :
    ∃ s, run (Process.step (fun k => ⟨k, 2 * k⟩) 4096) .start [.rt_main_init 2 none 1] = some s ∧
      s.reports = [(0, 0), (1, 2), (1, 2), (1, 2)] := by
  obtain ⟨s, hs, hreadings⟩ : ∃ s, run (Process.step (fun k => ⟨k, 2 * k⟩) 4096) .start
      [.rt_main_init 2 none 1] = some s ∧ s.readings = 4 := ⟨_, rfl, rfl⟩
  refine ⟨s, hs, ?_⟩
  rw [(newFaults_iff hs).2.mpr fun k hk => ?_, hreadings]
  · rfl
  · have hlt : k < 3 := by omega
    simp only [rusage.FitsInt]
    omega

end Reports

end RealtimeUtilities
