import Mathlib.Data.List.Nodup
import RealtimeUtilities.ToMathlib.Execution

/-!
# The thread pool `tasks`

The struct `tasks` of `parallel_computing.h`: a mutex, a condition variable, one deque
`work_` of `std::packaged_task<void()>`, and the futures `finished_` of its workers.

Every critical section under `mtx_` is one step. `queue()` and `finish()` leave their
critical section before they notify, so the two notifications are steps of their own;
`abort()` is `cancel_pending()` followed by `finish()`, two critical sections. A worker runs
`thread_task()`: one critical section that blocks on an empty deque or pops the front, then
the popped task. Testing `f.valid()` reads a local variable only, so a worker that pops an
invalid task returns in the same step.

The fields from `next` on are history: no operation of the code reads them. Every entry
pushed on `work_` gets the next sequence number, which names a queued task.

## Main definitions

* `Tasks`, with one function for each critical section under the source's name;
* `Event` and `step`: the interleavings, an event naming who moves;
* `Step`: the same steps as a relation, one constructor for each thing a step can do
  (`step_eq_some_iff`).
-/

namespace RealtimeUtilities

open Execution

/-- A `std::packaged_task<void()>` stored in `work_`, with the sequence number it was pushed
under: a task wrapping a callable, or the default-constructed one that `finish()` pushes. -/
inductive PackagedTask where
  | task (seq : ℕ)
  | empty (seq : ℕ)
  deriving DecidableEq, Repr

namespace PackagedTask

/-- `std::packaged_task::valid`: a default-constructed task has no shared state. -/
def valid : PackagedTask → Bool
  | task _ => true
  | empty _ => false

/-- The sequence number of an entry of `work_`. -/
def seq : PackagedTask → ℕ
  | task s => s
  | empty s => s

@[simp] theorem seq_task (s : ℕ) : (task s).seq = s := rfl

@[simp] theorem seq_empty (s : ℕ) : (empty s).seq = s := rfl

@[simp] theorem valid_task (s : ℕ) : (task s).valid = true := rfl

@[simp] theorem valid_empty (s : ℕ) : (empty s).valid = false := rfl

/-- The sequence number of a queued task, nothing for a stop request. -/
def taskSeq? : PackagedTask → Option ℕ
  | task s => some s
  | empty _ => none

end PackagedTask

/-- Where a worker is in `thread_task()`. -/
inductive Worker where
  /-- About to take `mtx_`, for the first time, after a task or after a wake-up. -/
  | awake
  /-- In `notifier_.wait`. -/
  | blocked
  /-- Outside the mutex with the popped task `seq`. -/
  | running (seq : ℕ)
  /-- Returned, because the popped entry `seq` was not valid. -/
  | exited (seq : ℕ)
  deriving DecidableEq, Repr

namespace Worker

/-- The worker returned from `thread_task()`. -/
def isExited : Worker → Bool
  | exited _ => true
  | _ => false

/-- The worker neither waits on the condition variable nor returned. -/
def isAwake : Worker → Bool
  | awake | running _ => true
  | _ => false

/-- `notify_all` as seen by one worker. -/
def wake : Worker → Worker
  | blocked => awake
  | w => w

end Worker

/-- The state of a `tasks` object, of its workers and of the calls in progress. -/
structure Tasks where
  /-- The deque of tasks and stop requests. -/
  work_ : List PackagedTask
  /-- The futures of the workers, each given as the index of its worker. -/
  finished_ : List ℕ
  /-- The threads started so far. -/
  workers : List Worker
  /-- Calls of `queue()` that pushed and did not call `notify_one` yet. -/
  notifyOnes : ℕ
  /-- Calls of `finish()` that pushed and did not call `notify_all` yet. -/
  notifyAlls : ℕ
  /-- Calls of `abort()` between `cancel_pending()` and `finish()`. -/
  aborts : ℕ
  /-- The sequence number of the next entry. -/
  next : ℕ
  /-- The tasks ever queued. -/
  queued : List ℕ
  /-- The tasks that left `work_` towards a worker, in the order they left. -/
  taken : List ℕ
  /-- The tasks that ran to their end, one occurrence for each run. -/
  completed : List ℕ
  /-- The tasks that a `cancel_pending()` removed. -/
  cancelled : List ℕ
  /-- For each worker, the sequence number that was next when it was started. -/
  born : List ℕ
  /-- For each call of `finish()`, the sequence number that was next when it took `mtx_`. -/
  fences : List ℕ
  deriving DecidableEq, Repr

namespace Tasks

/-- A `tasks` object after its construction. -/
def init : Tasks where
  work_ := []
  finished_ := []
  workers := []
  notifyOnes := 0
  notifyAlls := 0
  aborts := 0
  next := 0
  queued := []
  taken := []
  completed := []
  cancelled := []
  born := []
  fences := []

/-- The body of the loop of `start(N)`: launch one worker and keep its future. -/
def startOne (p : Tasks) : Tasks :=
  { p with
    finished_ := p.finished_ ++ [p.workers.length]
    workers := p.workers ++ [.awake]
    born := p.born ++ [p.next] }

/-- `start(N)`. -/
def start (p : Tasks) : ℕ → Tasks
  | 0 => p
  | n + 1 => (p.startOne).start n

/-- The critical section of `queue(f)`. The stored task wraps `f`, so it is valid. -/
def queue (p : Tasks) : Tasks :=
  { p with
    work_ := p.work_ ++ [.task p.next]
    notifyOnes := p.notifyOnes + 1
    next := p.next + 1
    queued := p.queued ++ [p.next] }

/-- `cancel_pending()`: `work_.clear()`. -/
def cancel_pending (p : Tasks) : Tasks :=
  { p with
    work_ := []
    cancelled := p.cancelled ++ p.work_.filterMap PackagedTask.taskSeq? }

/-- The critical section of `finish()`: one default-constructed task for each future. -/
def finish (p : Tasks) : Tasks :=
  { p with
    work_ := p.work_ ++ p.finished_.mapIdx fun i _ => .empty (p.next + i)
    notifyAlls := p.notifyAlls + 1
    next := p.next + p.finished_.length
    fences := p.fences ++ [p.next] }

/-- The worker `w` moves to `x`. -/
def setWorker (p : Tasks) (w : ℕ) (x : Worker) : Tasks :=
  { p with workers := p.workers.set w x }

/-- `notifier_.notify_all()`. -/
def notify_all (p : Tasks) : Tasks :=
  { p with workers := p.workers.map Worker.wake, notifyAlls := p.notifyAlls - 1 }

/-- The critical section of `thread_task()` in worker `w`: it blocks on an empty deque,
otherwise it pops the front and leaves with it, or returns if the front is not valid. -/
def thread_task (p : Tasks) (w : ℕ) : Tasks :=
  match p.work_ with
  | [] => p.setWorker w .blocked
  | f :: rest =>
      -- if the task is invalid, the worker is asked to return
      if f.valid then
        { p.setWorker w (.running f.seq) with work_ := rest, taken := p.taken ++ [f.seq] }
      else
        { p.setWorker w (.exited f.seq) with work_ := rest }

/-- The task `seq` of worker `w` returned or threw. `std::packaged_task` stores an exception
in the shared state, so the worker goes on in both cases. -/
def complete (p : Tasks) (w seq : ℕ) : Tasks :=
  { p.setWorker w .awake with completed := p.completed ++ [seq] }

/-- Who moves next, and how. -/
inductive Event where
  /-- One iteration of `start(N)`. -/
  | start
  /-- A thread runs the critical section of `queue()`. -/
  | queue
  /-- A `queue()` calls `notify_one`, which wakes the blocked worker `w`, if any is blocked. -/
  | notifyOne (w : ℕ)
  /-- A `finish()` calls `notify_all`. -/
  | notifyAll
  /-- A thread calls `cancel_pending()`. -/
  | cancelPending
  /-- A thread runs the critical section of `finish()`. -/
  | finish
  /-- A thread calls `abort()` and runs its `cancel_pending()`. -/
  | abortCancel
  /-- An `abort()` runs the critical section of its `finish()`. -/
  | abortFinish
  /-- Worker `w` runs the critical section of `thread_task()`. -/
  | threadTask (w : ℕ)
  /-- The task of worker `w` returned, or threw. -/
  | complete (w : ℕ) (threw : Bool)
  /-- Worker `w` wakes up without a notification. -/
  | spurious (w : ℕ)
  deriving DecidableEq, Repr

/-- One step of the pool and its clients. -/
def step (p : Tasks) : Event → Option Tasks
  | .start => some p.startOne
  | .queue => some p.queue
  | .notifyOne w =>
      if p.notifyOnes = 0 then none
      -- the notification is lost only if nobody is blocked
      else if Worker.blocked ∈ p.workers then
        if p.workers[w]? = some .blocked then
          some { p.setWorker w .awake with notifyOnes := p.notifyOnes - 1 }
        else none
      else some { p with notifyOnes := p.notifyOnes - 1 }
  | .notifyAll => if p.notifyAlls = 0 then none else some p.notify_all
  | .cancelPending => some p.cancel_pending
  | .finish => some p.finish
  | .abortCancel => some { p.cancel_pending with aborts := p.aborts + 1 }
  | .abortFinish =>
      if p.aborts = 0 then none else some { p.finish with aborts := p.aborts - 1 }
  | .threadTask w => if p.workers[w]? = some .awake then some (p.thread_task w) else none
  | .complete w _ =>
      match p.workers[w]? with
      | some (.running s) => some (p.complete w s)
      | _ => none
  | .spurious w =>
      if p.workers[w]? = some .blocked then some (p.setWorker w .awake) else none

/-- The steps of the pool, one constructor for each thing a step can do. -/
inductive Step (p : Tasks) : Event → Tasks → Prop
  | start : Step p .start p.startOne
  | queue : Step p .queue p.queue
  | notifyOne {w : ℕ} (hpending : 0 < p.notifyOnes) (hw : p.workers[w]? = some .blocked) :
      Step p (.notifyOne w) { p.setWorker w .awake with notifyOnes := p.notifyOnes - 1 }
  | notifyNobody {w : ℕ} (hpending : 0 < p.notifyOnes) (hnone : Worker.blocked ∉ p.workers) :
      Step p (.notifyOne w) { p with notifyOnes := p.notifyOnes - 1 }
  | notifyAll (hpending : 0 < p.notifyAlls) : Step p .notifyAll p.notify_all
  | cancelPending : Step p .cancelPending p.cancel_pending
  | finish : Step p .finish p.finish
  | abortCancel : Step p .abortCancel { p.cancel_pending with aborts := p.aborts + 1 }
  | abortFinish (hpending : 0 < p.aborts) :
      Step p .abortFinish { p.finish with aborts := p.aborts - 1 }
  | block {w : ℕ} (hw : p.workers[w]? = some .awake) (hwork : p.work_ = []) :
      Step p (.threadTask w) (p.setWorker w .blocked)
  | pop {w s : ℕ} {rest : List PackagedTask} (hw : p.workers[w]? = some .awake)
      (hwork : p.work_ = .task s :: rest) :
      Step p (.threadTask w)
        { p.setWorker w (.running s) with work_ := rest, taken := p.taken ++ [s] }
  | exit {w s : ℕ} {rest : List PackagedTask} (hw : p.workers[w]? = some .awake)
      (hwork : p.work_ = .empty s :: rest) :
      Step p (.threadTask w) { p.setWorker w (.exited s) with work_ := rest }
  | complete {w s : ℕ} {threw : Bool} (hw : p.workers[w]? = some (.running s)) :
      Step p (.complete w threw) (p.complete w s)
  | spurious {w : ℕ} (hw : p.workers[w]? = some .blocked) :
      Step p (.spurious w) (p.setWorker w .awake)

variable {p p' : Tasks} {e : Event}

/-- `step` and `Step` are the same steps. -/
theorem step_eq_some_iff : step p e = some p' ↔ Step p e p' := by
  constructor
  · intro h
    cases e with
    | start => cases h; exact .start
    | queue => cases h; exact .queue
    | cancelPending => cases h; exact .cancelPending
    | finish => cases h; exact .finish
    | abortCancel => cases h; exact .abortCancel
    | notifyOne w =>
      simp only [step] at h
      split_ifs at h with h0 hb hw
      · cases h; exact .notifyOne (Nat.pos_of_ne_zero h0) hw
      · cases h; exact .notifyNobody (Nat.pos_of_ne_zero h0) hb
    | notifyAll =>
      simp only [step] at h
      split_ifs at h with h0
      cases h; exact .notifyAll (Nat.pos_of_ne_zero h0)
    | abortFinish =>
      simp only [step] at h
      split_ifs at h with h0
      cases h; exact .abortFinish (Nat.pos_of_ne_zero h0)
    | threadTask w =>
      simp only [step] at h
      split_ifs at h with hw
      cases h
      -- the three ways out of the critical section, by the front of the deque
      rcases hwork : p.work_ with _ | ⟨s | s, rest⟩
      · simpa [thread_task, hwork] using Step.block hw hwork
      · simpa [thread_task, hwork] using Step.pop hw hwork
      · simpa [thread_task, hwork] using Step.exit hw hwork
    | complete w threw =>
      simp only [step] at h
      split at h
      · next s hw => cases h; exact .complete hw
      · cases h
    | spurious w =>
      simp only [step] at h
      split_ifs at h with hw
      cases h; exact .spurious hw
  · intro h
    cases h with
    | notifyOne hpending hw =>
      -- the worker that is woken is one of the blocked ones
      have hmem := List.mem_of_getElem? hw
      simp [step, hmem, hw, Nat.ne_of_gt hpending]
    | notifyNobody hpending hnone => simp [step, hnone, Nat.ne_of_gt hpending]
    | notifyAll hpending => simp [step, Nat.ne_of_gt hpending]
    | abortFinish hpending => simp [step, Nat.ne_of_gt hpending]
    | block hw hwork => simp [step, hw, thread_task, hwork]
    | pop hw hwork => simp [step, hw, thread_task, hwork]
    | exit hw hwork => simp [step, hw, thread_task, hwork]
    | complete hw => simp [step, hw]
    | spurious hw => simp [step, hw]
    | _ => rfl

/-- A state that the pool reaches from its construction through the events `es`. -/
abbrev Reached (es : List Event) (p : Tasks) : Prop := run step init es = some p

/-- `start(N)` is `N` iterations of its loop. -/
theorem run_start (p : Tasks) (n : ℕ) :
    run step p (List.replicate n .start) = some (p.start n) := by
  induction n generalizing p with
  | zero => rfl
  | succ n ih => simpa [List.replicate_succ, step, start] using ih p.startOne

/-- Every started worker has one future in `finished_`, and `finished_` is never cleared. -/
structure Sized (p : Tasks) : Prop where
  futures : p.finished_.length = p.workers.length
  births : p.born.length = p.workers.length

theorem Sized.step (h : Sized p) (hstep : Step p e p') : Sized p' := by
  obtain ⟨hf, hb⟩ := h
  cases hstep <;> constructor <;>
    simp [startOne, Tasks.queue, Tasks.finish, Tasks.cancel_pending, notify_all, setWorker,
      Tasks.complete, hf, hb]

theorem sized_of_reached {es : List Event} (h : Reached es p) : Sized p :=
  run_invariant Sized (fun _ _ _ hI hs => hI.step (step_eq_some_iff.mp hs)) ⟨rfl, rfl⟩ h

end Tasks

end RealtimeUtilities
