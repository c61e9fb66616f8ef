import RealtimeUtilities.Tasks.Pool

/-!
# No lost wake-up

A notification may be issued late, reach a worker that finds the deque empty again, or be
used by a worker that then returns on a stop request. Still, a worker that sleeps on a
non-empty deque is never forgotten: some notification is to come or some worker is awake and
will look at the deque (`no_lost_wakeup`).

The statement about work alone is not inductive: the last awake worker may return and leave
work behind. It returns on a stop request, and for stop requests more is true, because
`finish()` wakes everybody and nobody falls asleep on a non-empty deque (`Signalled.stop`).
-/

namespace RealtimeUtilities.Tasks

open Execution

variable {p p' : Tasks} {e : Event} {es : List Event} {w : ℕ} {x : Worker}

/-- Some worker is blocked in `notifier_.wait`. -/
def SomeBlocked (p : Tasks) : Prop :=
  .blocked ∈ p.workers

/-- A `queue()` or a `finish()` has pushed and is still to notify. -/
def NotificationPending (p : Tasks) : Prop :=
  0 < p.notifyOnes ∨ 0 < p.notifyAlls

/-- Some worker is neither blocked nor exited. -/
def SomeAwake (p : Tasks) : Prop :=
  ∃ x ∈ p.workers, x.isAwake = true

/-- The invariant of the notifications. -/
structure Signalled (p : Tasks) : Prop where
  /-- While a stop request is pending, everybody is or will be woken. -/
  stop : (∃ s, .empty s ∈ p.work_) → 0 < p.notifyAlls ∨ ¬ p.SomeBlocked
  /-- While work is pending, a sleeping worker is not alone. -/
  work : p.work_ ≠ [] → p.SomeBlocked → p.NotificationPending ∨ p.SomeAwake

theorem signalled_init : Signalled init := by
  constructor <;> simp [init]

/-- A worker that was moved to an awake state is awake. -/
theorem someAwake_of_set {y : Worker} (hw : p.workers[w]? = some y) (hx : x.isAwake = true)
    (hworkers : p'.workers = p.workers.set w x) : p'.SomeAwake := by
  refine ⟨x, ?_, hx⟩
  rw [hworkers]
  exact List.mem_set (List.getElem?_eq_some_iff.mp hw).1 x

/-- Moving a worker to a state other than `blocked` blocks nobody. -/
theorem someBlocked_of_set (hx : x ≠ .blocked) (hworkers : p'.workers = p.workers.set w x)
    (h : p'.SomeBlocked) : p.SomeBlocked := by
  rw [SomeBlocked, hworkers] at h
  rcases List.mem_or_eq_of_mem_set h with h | h
  · exact h
  · exact absurd h.symm hx

/-- A blocked worker that wakes up leaves the rest of `Signalled` to `notify_all`: a pending
stop request with a blocked worker means that `notify_all` is still to come. -/
theorem Signalled.unblock (h : Signalled p) (hw : p.workers[w]? = some .blocked)
    (hwork : p'.work_ = p.work_) (hall : p'.notifyAlls = p.notifyAlls)
    (hworkers : p'.workers = p.workers.set w .awake) : Signalled p' where
  stop hs := by
    rw [hwork] at hs
    rw [hall]
    exact (h.stop hs).imp_right fun hnone => absurd (List.mem_of_getElem? hw) hnone
  work _ _ := .inr (someAwake_of_set hw rfl hworkers)

/-- Nobody is blocked after `notify_all`. -/
theorem not_someBlocked_notify_all : ¬ p.notify_all.SomeBlocked := by
  intro h
  obtain ⟨x, -, hx⟩ := List.mem_map.mp h
  cases x <;> simp [Worker.wake] at hx

theorem Signalled.step (h : Signalled p) (hstep : Step p e p') : Signalled p' := by
  cases hstep with
  | start =>
    refine ⟨fun hs => (h.stop hs).imp_right ?_, fun _ _ => .inr ⟨.awake, ?_, rfl⟩⟩
    · simp [SomeBlocked, startOne]
    · simp [startOne]
  | queue =>
    refine ⟨fun hs => h.stop ?_, fun _ _ => .inl (.inl (Nat.succ_pos _))⟩
    simpa [queue] using hs
  | notifyOne hpending hw => exact h.unblock hw rfl rfl rfl
  | notifyNobody hpending hnone => exact ⟨fun _ => .inr hnone, fun _ hb => absurd hb hnone⟩
  | notifyAll =>
    exact ⟨fun _ => .inr not_someBlocked_notify_all,
      fun _ hb => absurd hb not_someBlocked_notify_all⟩
  | cancelPending | abortCancel =>
    refine ⟨?_, fun hne => absurd rfl hne⟩
    rintro ⟨s, hs⟩
    exact absurd hs List.not_mem_nil
  | finish | abortFinish =>
    exact ⟨fun _ => .inl (Nat.succ_pos _), fun _ _ => .inl (.inr (Nat.succ_pos _))⟩
  | block hw hwork =>
    -- a worker falls asleep only on an empty deque
    refine ⟨?_, fun hne => absurd hwork hne⟩
    rintro ⟨s, hs⟩
    exact absurd (hwork ▸ hs) List.not_mem_nil
  | pop hw hwork =>
    refine ⟨?_, fun _ _ => .inr (someAwake_of_set hw rfl rfl)⟩
    rintro ⟨s, hs⟩
    refine (h.stop ⟨s, by simp [hwork, hs]⟩).imp_right fun hnone hb => hnone ?_
    exact someBlocked_of_set (by simp) rfl hb
  | @exit w s rest hw hwork =>
    -- the popped stop request was pending before the step
    have hstop := h.stop ⟨s, by simp [hwork]⟩
    refine ⟨fun _ => ?_, fun _ hb => ?_⟩
    · exact hstop.imp_right fun hnone hb => hnone (someBlocked_of_set (by simp) rfl hb)
    · have hblocked : p.SomeBlocked := someBlocked_of_set (by simp) rfl hb
      exact .inl (.inr (hstop.resolve_right fun hnone => hnone hblocked))
  | complete hw =>
    refine ⟨fun hs => (h.stop hs).imp_right fun hnone hb => hnone ?_,
      fun _ _ => .inr (someAwake_of_set hw rfl rfl)⟩
    exact someBlocked_of_set (by simp) rfl hb
  | spurious hw => exact h.unblock hw rfl rfl rfl

theorem signalled_of_reached (h : Reached es p) : Signalled p :=
  run_invariant Signalled (fun _ _ _ hI hs => hI.step (step_eq_some_iff.mp hs)) signalled_init h

/-- **No lost wake-up.** In every state that any interleaving reaches, while `work_` is not
empty and some worker is blocked, a notification is still to be issued or some worker is
awake; and while a stop request is in `work_`, a `notify_all` is still to be issued or no
worker is blocked. -/
theorem no_lost_wakeup (h : Reached es p) :
    (p.work_ ≠ [] → p.SomeBlocked → p.NotificationPending ∨ p.SomeAwake) ∧
    ((∃ s, .empty s ∈ p.work_) → 0 < p.notifyAlls ∨ ¬ p.SomeBlocked) :=
  ⟨(signalled_of_reached h).work, (signalled_of_reached h).stop⟩

/-- Two workers sleep, two tasks arrive, and only one of the two notifications was issued. -/
theorem no_lost_wakeup_two_workers :
    ∃ p, Reached [.start, .start, .threadTask 0, .threadTask 1, .queue, .queue, .notifyOne 1] p ∧
      (p.NotificationPending ∨ p.SomeAwake) := by
  refine ⟨_, rfl, ?_⟩
  refine (@no_lost_wakeup _ [.start, .start, .threadTask 0, .threadTask 1, .queue, .queue,
    .notifyOne 1] rfl).1 ?_ ?_
  · decide
  · simp [SomeBlocked, init, startOne, setWorker, thread_task, queue]

end RealtimeUtilities.Tasks
