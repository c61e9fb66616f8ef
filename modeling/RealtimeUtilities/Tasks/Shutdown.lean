import RealtimeUtilities.Tasks.Pool

/-!
# `finish()` and `abort()` do not wait

The comments of `finish()` and `abort()` say that the call *waits for them*, the working
threads. The line that would wait, `finished_.clear()`, is commented out, so the call returns
after its `notify_all`.

`barrier_iff` compares the promise with the code for every state of the pool at the call: all
workers have exited in every state in which the call has returned, if and only if all of them
had exited before the call. A worker still alive at the call can be anywhere in
`thread_task()` when the call has returned; `abort_returns_before_task` shows one in the middle
of a task.
-/

namespace RealtimeUtilities.Tasks

open Execution

variable {p p' q : Tasks} {e : Event} {es : List Event} {w : ℕ}

/-- The two calls that shut a pool down. -/
inductive ShutdownCall where
  | finish
  | abort
  deriving DecidableEq, Repr

/-- The steps of the calling thread, from the call to its return. -/
def ShutdownCall.events : ShutdownCall → List Event
  | finish => [.finish, .notifyAll]
  | abort => [.abortCancel, .abortFinish, .notifyAll]

/-- A step of a worker. -/
def Event.ofWorker : Event → Bool
  | threadTask _ | complete _ _ | spurious _ => true
  | _ => false

/-- The execution `es` interleaves steps of workers with one whole shutdown call, and nothing
else. -/
def Returned (call : ShutdownCall) (es : List Event) : Prop :=
  es.filter (fun e => !e.ofWorker) = call.events

/-- All workers have returned from `thread_task()`. -/
def AllExited (p : Tasks) : Prop :=
  ∀ x ∈ p.workers, x.isExited = true

instance (p : Tasks) : Decidable (AllExited p) :=
  inferInstanceAs (Decidable (∀ x ∈ p.workers, x.isExited = true))

/-- A worker that moves in a step has not returned, so none does once all have. -/
theorem AllExited.not_mem (h : AllExited p) {x : Worker} (hx : x.isExited = false)
    (hw : p.workers[w]? = some x) : False := by
  have := h x (List.mem_of_getElem? hw)
  rw [hx] at this
  exact Bool.noConfusion this

/-- Workers that returned stay so, as long as no worker is started. -/
theorem AllExited.step (h : AllExited p) (hstart : e ≠ .start) (hstep : Step p e p') :
    AllExited p' := by
  cases hstep with
  | start => exact absurd rfl hstart
  | notifyAll =>
    intro y hy
    obtain ⟨x, hx, rfl⟩ := List.mem_map.mp hy
    have hexited := h x hx
    cases x with
    | exited s => rfl
    | _ => exact Bool.noConfusion hexited
  | notifyOne hpending hw => exact (h.not_mem rfl hw).elim
  | block hw => exact (h.not_mem rfl hw).elim
  | pop hw => exact (h.not_mem rfl hw).elim
  | exit hw => exact (h.not_mem rfl hw).elim
  | complete hw => exact (h.not_mem rfl hw).elim
  | spurious hw => exact (h.not_mem rfl hw).elim
  | _ => exact h

/-- A shutdown call starts no worker. -/
theorem not_start_of_returned {call : ShutdownCall} (h : Returned call es) :
    ∀ e ∈ es, e ≠ .start := by
  rintro e he rfl
  have hmem : Event.start ∈ call.events := by
    rw [← h]
    exact List.mem_filter.mpr ⟨he, rfl⟩
  cases call <;> simp [ShutdownCall.events] at hmem

/-- The caller alone can run its call to the end: the workers are as before, except that the
blocked ones were woken. -/
theorem exists_run_call (p : Tasks) (call : ShutdownCall) :
    ∃ q, run step p call.events = some q ∧ q.workers = p.workers.map Worker.wake := by
  cases call with
  | finish => exact ⟨p.finish.notify_all, rfl, rfl⟩
  | abort =>
    exact ⟨{ p.cancel_pending.finish with aborts := p.aborts }.notify_all, rfl, rfl⟩

/-- **When the shutdown calls are barriers.** For every number of workers and every content of
the deque: in every interleaving of worker steps with one call of `finish()` or `abort()`, all
workers have exited once the call has returned, if and only if all workers had exited when the
call was made. -/
theorem barrier_iff (call : ShutdownCall) (p : Tasks) :
    (∀ es q, Returned call es → run step p es = some q → AllExited q) ↔ AllExited p := by
  constructor
  · intro h x hx
    obtain ⟨q, hq, hworkers⟩ := exists_run_call p call
    have hreturned : Returned call call.events := by cases call <;> rfl
    -- the caller runs to the end before any worker moves
    have hexited := h call.events q hreturned hq x.wake (by
      rw [hworkers]
      exact List.mem_map_of_mem hx)
    cases x with
    | exited s => rfl
    | _ => exact Bool.noConfusion hexited
  · intro h es q hes hq
    have hstart : Along step (fun _ e => e ≠ .start) p es :=
      along_of_forall_mem (not_start_of_returned hes)
    exact run_invariant_along AllExited
      (fun _ _ _ hI hC hs => hI.step hC (step_eq_some_iff.mp hs)) h hstart hq

/-- A worker is in the middle of its task when `abort()` returns, and ends it later. -/
theorem abort_returns_before_task :
    ∃ p q r, Reached [.queue, .notifyOne 0, .start, .threadTask 0] p ∧
      run step p ShutdownCall.abort.events = some q ∧ q.workers = [.running 0] ∧
      run step q [.complete 0 false] = some r ∧ r.completed = [0] :=
  ⟨_, _, _, rfl, rfl, rfl, rfl, rfl⟩

end RealtimeUtilities.Tasks
