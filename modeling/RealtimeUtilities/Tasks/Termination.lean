import RealtimeUtilities.Tasks.ExactlyOnce
import RealtimeUtilities.Tasks.Shutdown
import RealtimeUtilities.Tasks.StopRequests

/-!
# The workers of a pool come to an end

`~tasks` calls `finish()`, and then the destructors of the futures in `finished_` wait for the
workers. Meanwhile the workers move, notifications are issued, and a task may queue another one.

Every step of the pool uses up a potential, to which a wake-up without a notification and a
`queue()` add a fixed amount (`potential_step`). So the pool comes to a state in which nothing
moves, and there all workers have returned, because the stop requests cover them
(`Draining.allExited`).

## Main results

* `destructor_returns`: the wait of the destructor ends, whatever was done with the pool before;
* `taken_of_finish`: no task that was queued after a `finish()` is started;
* `all_tasks_complete`: the program that queues tasks, starts workers and calls `finish()` completes
  every task.
-/

namespace RealtimeUtilities

open Execution

/-- The steps that a worker takes if nothing is pushed any more: one with a task has to complete it
and to look at the deque again. -/
def Worker.potential : Worker → ℕ
  | .awake => 1
  | .running _ => 2
  | .blocked | .exited _ => 0

namespace Tasks

variable {p p' q : Tasks} {e : Event} {es es' : List Event} {n w : ℕ} {old : List ℕ}

/-- A step of a worker, or a notification that is still to be issued. -/
def Event.ofPool : Event → Bool
  | notifyOne _ | notifyAll | threadTask _ | complete _ _ => true
  | start | queue | cancelPending | finish | abortCancel | abortFinish | spurious _ => false

/-- What can happen while the destructor waits. The only calls on the pool are those of `queue()`,
by the tasks. -/
def Event.duringWait : Event → Bool
  | queue | spurious _ => true
  | e => e.ofPool

/-- The potential that a step adds: a task is to be popped and completed, and its notification may
wake a worker. -/
def Event.gain : Event → ℕ
  | queue => 4
  | spurious _ => 1
  | _ => 0

/-- The steps that the pool can still take. A `notify_all` may wake every worker. -/
def potential (p : Tasks) : ℕ :=
  2 * p.work_.countP PackagedTask.valid + (p.workers.map Worker.potential).sum +
    2 * p.notifyOnes + (p.workers.length + 1) * p.notifyAlls

/-- Nothing moves, unless a blocked worker wakes up without a notification. -/
def Stuck (p : Tasks) : Prop :=
  ∀ e : Event, e.ofPool = true → step p e = none

/-! ## The potential -/

theorem sum_map_wake_le (l : List Worker) :
    ((l.map Worker.wake).map Worker.potential).sum ≤ (l.map Worker.potential).sum + l.length := by
  induction l with
  | nil => simp
  | cons x l ih =>
    have hx : x.wake.potential ≤ x.potential + 1 := by
      cases x <;> simp [Worker.wake, Worker.potential]
    simp only [List.map_cons, List.sum_cons, List.length_cons]
    omega

/-- A step of the pool uses up potential. -/
theorem potential_step (hwait : e.duringWait = true) (hstep : Step p e p') :
    p'.potential + e.ofPool.toNat ≤ p.potential + e.gain := by
  cases hstep with
  | start | cancelPending | finish | abortCancel | abortFinish => cases hwait
  | queue =>
    simp only [potential, queue, List.countP_append, List.countP_singleton,
      PackagedTask.valid_task, if_true, Event.ofPool, Event.gain, Bool.toNat_false]
    omega
  | notifyOne hpending hw =>
    have hsum := List.sum_map_set Worker.potential hw .awake
    simp only [Worker.potential] at hsum
    simp only [potential, setWorker, List.length_set, Event.ofPool, Event.gain, Bool.toNat_true]
    omega
  | notifyNobody hpending hnone =>
    simp only [potential, Event.ofPool, Event.gain, Bool.toNat_true]
    omega
  | notifyAll hpending =>
    have hsum := sum_map_wake_le p.workers
    obtain ⟨n, hn⟩ := Nat.exists_eq_succ_of_ne_zero (Nat.ne_of_gt hpending)
    simp only [potential, notify_all, List.length_map, hn, Nat.succ_sub_one, Nat.mul_succ,
      Event.ofPool, Event.gain, Bool.toNat_true]
    omega
  | block hw hwork =>
    have hsum := List.sum_map_set Worker.potential hw .blocked
    simp only [Worker.potential] at hsum
    simp only [potential, setWorker, List.length_set, Event.ofPool, Event.gain, Bool.toNat_true]
    omega
  | @pop w s rest hw hwork =>
    have hsum := List.sum_map_set Worker.potential hw (.running s)
    simp only [Worker.potential] at hsum
    simp only [potential, setWorker, List.length_set, hwork, List.countP_cons,
      PackagedTask.valid_task, if_true, Event.ofPool, Event.gain, Bool.toNat_true]
    omega
  | @exit w s rest hw hwork =>
    have hsum := List.sum_map_set Worker.potential hw (.exited s)
    simp only [Worker.potential] at hsum
    simp only [potential, setWorker, List.length_set, hwork, List.countP_cons,
      PackagedTask.valid_empty, Bool.false_eq_true, if_false, Event.ofPool, Event.gain,
      Bool.toNat_true]
    omega
  | @complete w s threw hw =>
    have hsum := List.sum_map_set Worker.potential hw .awake
    simp only [Worker.potential] at hsum
    simp only [potential, complete, setWorker, List.length_set, Event.ofPool, Event.gain,
      Bool.toNat_true]
    omega
  | spurious hw =>
    have hsum := List.sum_map_set Worker.potential hw .awake
    simp only [Worker.potential] at hsum
    simp only [potential, setWorker, List.length_set, Event.ofPool, Event.gain, Bool.toNat_false]
    omega

theorem sum_map_toNat (P : Event → Bool) (es : List Event) :
    (es.map fun e => (P e).toNat).sum = es.countP P := by
  induction es with
  | nil => rfl
  | cons e es ih =>
    rw [List.map_cons, List.sum_cons, ih, List.countP_cons, Nat.add_comm]
    cases P e <;> rfl

/-! ## States in which nothing moves -/

theorem duringWait_of_ofPool (h : e.ofPool = true) : e.duringWait = true := by
  cases e with
  | notifyOne | notifyAll | threadTask | complete => rfl
  | start | queue | cancelPending | finish | abortCancel | abortFinish | spurious => cases h

/-- A step of the pool that can be taken lowers the potential. -/
theorem exists_step_of_not_stuck (h : ¬ Stuck p) :
    ∃ e p', e.ofPool = true ∧ step p e = some p' ∧ True ∧ p'.potential < p.potential := by
  simp only [Stuck, not_forall] at h
  obtain ⟨e, he, hs⟩ := h
  obtain ⟨p', hp'⟩ := Option.ne_none_iff_exists'.mp hs
  have hlt := potential_step (duringWait_of_ofPool he) (step_eq_some_iff.mp hp')
  have hgain : e.gain = 0 := by
    cases e with
    | notifyOne | notifyAll | threadTask | complete => rfl
    | start | queue | cancelPending | finish | abortCancel | abortFinish | spurious => cases he
  rw [he, hgain, Bool.toNat_true] at hlt
  exact ⟨e, p', he, hp', trivial, by omega⟩

/-- Every notification was issued when nothing moves, and no worker is awake. -/
theorem stuck_iff :
    Stuck p ↔ p.notifyOnes = 0 ∧ p.notifyAlls = 0 ∧ ¬ p.SomeAwake := by
  constructor
  · intro h
    refine ⟨?_, ?_, ?_⟩
    · by_contra hne
      by_cases hb : Worker.blocked ∈ p.workers
      · obtain ⟨w, hw⟩ := List.getElem?_of_mem hb
        simpa [step, hne, hb, hw] using h (.notifyOne w) rfl
      · simpa [step, hne, hb] using h (.notifyOne 0) rfl
    · by_contra hne
      simpa [step, hne] using h .notifyAll rfl
    · rintro ⟨x, hx, hawake⟩
      obtain ⟨w, hw⟩ := List.getElem?_of_mem hx
      cases x with
      | awake => simpa [step, hw] using h (.threadTask w) rfl
      | running s => simpa [step, hw] using h (.complete w false) rfl
      | blocked | exited s => cases hawake
  · rintro ⟨hones, halls, hnone⟩ e he
    have hidle : ∀ {w : ℕ} {x : Worker}, p.workers[w]? = some x → x.isAwake = false := fun hw =>
      Bool.eq_false_iff.mpr fun hx => hnone ⟨_, List.mem_of_getElem? hw, hx⟩
    cases hstep : step p e with
    | none => rfl
    | some p' =>
      cases step_eq_some_iff.mp hstep with
      | start | queue | cancelPending | finish | abortCancel | abortFinish | spurious => cases he
      | notifyOne hpending | notifyNobody hpending => omega
      | notifyAll hpending => omega
      | block hw | pop hw | exit hw | complete hw => cases hidle hw

instance (p : Tasks) : Decidable p.SomeAwake :=
  inferInstanceAs (Decidable (∃ x ∈ p.workers, x.isAwake = true))

instance (p : Tasks) : Decidable (Stuck p) :=
  decidable_of_iff _ stuck_iff.symm

/-! ## The wait -/

/-- The pool after a `finish()` that made `n` the next sequence number, when the tasks `old` had
been queued. -/
structure Draining (n : ℕ) (old : List ℕ) (q : Tasks) : Prop where
  covered : q.Covered
  aborts_eq : q.aborts = 0
  le_next : n ≤ q.next
  stop_lt : ∀ s, .empty s ∈ q.work_ → s < n
  taken_lt : ∀ s ∈ q.taken, s < n
  queued_eq : ∃ later, q.queued = old ++ later ∧ ∀ s ∈ later, n ≤ s

/-- A step that touches neither the deque nor the history keeps `Draining`, if it keeps the workers
covered. -/
theorem Draining.of_frame (h : Draining n old p) (hcovered : p'.Covered)
    (haborts : p'.aborts = p.aborts) (hnext : p'.next = p.next) (hwork : p'.work_ = p.work_)
    (htaken : p'.taken = p.taken) (hqueued : p'.queued = p.queued) : Draining n old p' where
  covered := hcovered
  aborts_eq := haborts ▸ h.aborts_eq
  le_next := hnext ▸ h.le_next
  stop_lt := hwork ▸ h.stop_lt
  taken_lt := htaken ▸ h.taken_lt
  queued_eq := hqueued ▸ h.queued_eq

/-- While a worker has not returned, some stop request is pending. -/
theorem Draining.exists_stop (h : Draining n old p) {x : Worker} (hx : x ∈ p.workers)
    (hrunning : x.isExited = false) : ∃ s < n, .empty s ∈ p.work_ := by
  have hlt : p.exitedCount < p.workers.length := by
    refine Nat.lt_of_le_of_ne exited_le_length fun heq => ?_
    exact absurd (exited_eq_length_iff.mp heq x hx) (by simp [hrunning])
  have hpos : 0 < p.stopCount := by
    have hcovered := h.covered
    unfold Covered at hcovered
    omega
  obtain ⟨f, hf, hfv⟩ := List.countP_pos_iff.mp hpos
  cases f with
  | task s => simp at hfv
  | empty s => exact ⟨s, h.stop_lt s hf, hf⟩

theorem Draining.step (hsized : Sized p) (hord : Ordered p) (h : Draining n old p)
    (hwait : e.duringWait = true) (hstep : Step p e p') : Draining n old p' := by
  have hcovered : p'.aborts = 0 → p'.Covered :=
    covered_step hsized (fun _ => h.covered) (by rintro rfl; cases hwait)
      (by rintro rfl; cases hwait) hstep
  cases hstep with
  | start | cancelPending | finish | abortCancel | abortFinish => cases hwait
  | queue =>
    obtain ⟨later, hqueued, hlater⟩ := h.queued_eq
    refine ⟨hcovered h.aborts_eq, h.aborts_eq, Nat.le_succ_of_le h.le_next, ?_, h.taken_lt,
      later ++ [p.next], by simp [queue, hqueued], ?_⟩
    · simpa [queue] using h.stop_lt
    · intro s hs
      rcases List.mem_append.mp hs with hs | hs
      · exact hlater s hs
      · exact List.mem_singleton.mp hs ▸ h.le_next
  | notifyOne | notifyNobody | notifyAll | block | complete | spurious =>
    exact h.of_frame (hcovered h.aborts_eq) rfl rfl rfl rfl rfl
  | @pop w s rest hw hwork =>
    -- the stop request of the worker comes after the front, so the front is not a young task
    have hfront : s < n := by
      obtain ⟨t, ht, hmem⟩ := h.exists_stop (List.mem_of_getElem? hw) rfl
      have hsorted := hord.work_sorted
      rw [hwork, List.pairwise_cons] at hsorted
      have hlater : .empty t ∈ rest := by simpa [hwork] using hmem
      exact Nat.lt_trans (hsorted.1 _ hlater) ht
    refine ⟨hcovered h.aborts_eq, h.aborts_eq, h.le_next, fun t ht => h.stop_lt t ?_, ?_,
      h.queued_eq⟩
    · simp [hwork, ht]
    · intro t ht
      rcases List.mem_append.mp ht with ht | ht
      · exact h.taken_lt t ht
      · exact List.mem_singleton.mp ht ▸ hfront
  | exit hw hwork =>
    refine ⟨hcovered h.aborts_eq, h.aborts_eq, h.le_next, fun t ht => h.stop_lt t ?_, h.taken_lt,
      h.queued_eq⟩
    simp [hwork, ht]

theorem draining_finish (h : Reached es p) (habort : p.aborts = 0) :
    Draining p.finish.next p.queued p.finish := by
  have hord := (ordered_of_reached h).finish
  refine ⟨covered_finish (sized_of_reached h), habort, Nat.le_refl _,
    fun s hs => hord.work_lt_next _ hs, fun s hs => hord.popped_lt_next s (.inl hs),
    [], (List.append_nil _).symm, by simp⟩

/-- What holds right after a `finish()` holds until the destructor's wait ends. -/
theorem draining_of_run (h : Reached es p) (habort : p.aborts = 0)
    (hwait : ∀ e ∈ es', e.duringWait = true) (hrun : run step p.finish es' = some q) :
    Draining p.finish.next p.queued q := by
  have hfinish : Reached (es ++ [.finish]) p.finish := run_concat_eq_some.mpr ⟨p, h, rfl⟩
  have halong : Along step (fun _ e => e.duringWait = true) p.finish es' :=
    along_of_forall_mem hwait
  have hinv := run_invariant_along
    (fun r => Sized r ∧ Ordered r ∧ Draining p.finish.next p.queued r)
    (fun r e r' hr he hs => ⟨hr.1.step (step_eq_some_iff.mp hs),
      hr.2.1.step (step_eq_some_iff.mp hs),
      Draining.step hr.1 hr.2.1 hr.2.2 he (step_eq_some_iff.mp hs)⟩)
    ⟨sized_of_reached hfinish, ordered_of_reached hfinish, draining_finish h habort⟩
    halong hrun
  exact hinv.2.2

/-- When nothing moves any more, all workers have returned: one that sleeps has a stop request to
come back for, so a `notify_all` would still be to come. -/
theorem Draining.allExited (h : Draining n old q) (hsig : Signalled q) (hstuck : Stuck q) :
    AllExited q := by
  obtain ⟨-, halls, hnone⟩ := stuck_iff.mp hstuck
  intro x hx
  cases x with
  | exited s => rfl
  | awake | running s => exact absurd ⟨_, hx, rfl⟩ hnone
  | blocked =>
    have hpos := notifyAll_of_covered hsig h.covered hx
    omega

/-- The workers take no task that was queued after the `finish()`. -/
theorem Draining.queued_of_taken (h : Draining n old q) (hacc : Accounted q) :
    ∀ s ∈ q.taken, s ∈ old := by
  intro s hs
  have hpos := List.count_pos_iff.mpr hs
  have hplaces := hacc.places_eq s
  rw [hacc.taken_eq] at hpos
  simp only [places] at hplaces
  have hmem : s ∈ q.queued := List.count_pos_iff.mp (by omega)
  obtain ⟨later, hqueued, hlater⟩ := h.queued_eq
  rw [hqueued, List.mem_append] at hmem
  exact hmem.resolve_right fun hlate => absurd (h.taken_lt s hs) (Nat.not_lt.mpr (hlater s hlate))

/-- **The destructor returns.** Let `~tasks` call `finish()` after any use of the pool, with no
`abort()` in progress. Whatever the workers, the notifications and the `queue()` calls of the tasks
do then, in whatever order:

* the steps of the pool are bounded;
* when the pool cannot take another one, all workers have returned;
* from every state of the wait the pool alone can come to a state in which they have. -/
theorem destructor_returns (h : Reached es p) (habort : p.aborts = 0)
    (hwait : ∀ e ∈ es', e.duringWait = true) (hrun : run step p.finish es' = some q) :
    es'.countP Event.ofPool ≤ p.finish.potential + (es'.map Event.gain).sum ∧
    (Stuck q → AllExited q) ∧
    ∃ es₁ r, (∀ e ∈ es₁, e.ofPool = true) ∧ run step q es₁ = some r ∧ AllExited r := by
  have hfinish : Reached (es ++ [.finish]) p.finish := run_concat_eq_some.mpr ⟨p, h, rfl⟩
  have hcost := run_cost_le potential (fun e => e.ofPool.toNat) Event.gain
    (fun s e s' he hs => potential_step (hwait e he) (step_eq_some_iff.mp hs)) hrun
  rw [sum_map_toNat] at hcost
  have hexited : ∀ {es₁ : List Event} {r : Tasks}, (∀ e ∈ es₁, e.ofPool = true) →
      run step q es₁ = some r → Stuck r → AllExited r := fun {es₁ r} hpool hr hstuck => by
    have hlater : run step p.finish (es' ++ es₁) = some r := run_append_eq_some.mpr ⟨q, hrun, hr⟩
    refine (draining_of_run h habort (fun e he => ?_) hlater).allExited
      (signalled_of_reached (run_append_eq_some.mpr ⟨_, hfinish, hlater⟩)) hstuck
    rcases List.mem_append.mp he with he | he
    · exact hwait e he
    · exact duringWait_of_ofPool (hpool e he)
  refine ⟨by omega, @hexited [] q (by simp) rfl, ?_⟩
  obtain ⟨es₁, r, hpool, hr, -, hstuck⟩ :=
    exists_run_of_measure potential (fun _ => True) Stuck (fun e : Event => e.ofPool = true)
      (fun _ _ hmoves => exists_step_of_not_stuck hmoves) trivial
  exact ⟨es₁, r, hpool, hr, hexited hpool hr hstuck⟩

/-- The destructor runs while one worker sleeps and another one is in a task, which then queues
another task. -/
theorem destructor_returns_two_workers :
    ∃ p q, Reached [.start, .start, .threadTask 1, .queue, .threadTask 0] p ∧
      run step p.finish [.queue, .notifyAll, .complete 0 false] = some q ∧
      ∃ es₁ r, (∀ e ∈ es₁, e.ofPool = true) ∧ run step q es₁ = some r ∧ AllExited r := by
  refine ⟨_, _, rfl, rfl, ?_⟩
  exact (@destructor_returns _ _ [.start, .start, .threadTask 1, .queue, .threadTask 0]
    [.queue, .notifyAll, .complete 0 false] rfl rfl (by decide) rfl).2.2

/-! ## What is left to run -/

theorem cancels_of_duringWait (h : e.duringWait = true) : ¬ e.Cancels := by
  rintro (rfl | rfl) <;> cases h

/-- Only `cancel_pending()` and `abort()` cancel tasks. -/
theorem cancelled_of_run (hes : ∀ e ∈ es, ¬ e.Cancels) (hrun : run step p es = some q) :
    q.cancelled = p.cancelled := by
  refine run_invariant_along (fun r => r.cancelled = p.cancelled) (fun r e r' hr he hs => ?_) rfl
    (along_of_forall_mem hes) hrun
  cases step_eq_some_iff.mp hs with
  | cancelPending => exact absurd (.inl rfl) he
  | abortCancel => exact absurd (.inr rfl) he
  | _ => exact hr

/-- Without `finish()` and `abort()` no shutdown is going on. -/
theorem no_shutdown_of_reached (h : Reached es p) (hes : ∀ e ∈ es, ¬ e.Cancels ∧ e ≠ .finish) :
    p.aborts = 0 ∧ p.fences = [] := by
  refine run_invariant_along (fun r : Tasks => r.aborts = 0 ∧ r.fences = [])
    (fun r e r' hr he hs => ?_) ⟨rfl, rfl⟩ (along_of_forall_mem hes) h
  cases step_eq_some_iff.mp hs with
  | abortCancel => exact absurd (.inr rfl) he.1
  | finish => exact absurd rfl he.2
  | abortFinish hpending => omega
  | _ => exact hr

/-- During the wait no call of `finish()` is made. -/
theorem fences_of_wait (hwait : ∀ e ∈ es, e.duringWait = true) (hrun : run step p es = some q) :
    q.fences = p.fences := by
  refine run_invariant_along (fun r => r.fences = p.fences) (fun r e r' hr he hs => ?_) rfl
    (along_of_forall_mem hwait) hrun
  cases step_eq_some_iff.mp hs with
  | finish | abortFinish => cases he
  | _ => exact hr

/-- Workers that were started stay in the pool. -/
theorem workers_ne_nil_of_run (h : p.workers ≠ []) (hrun : run step p es = some q) :
    q.workers ≠ [] := by
  refine run_invariant (fun r => r.workers ≠ []) (fun r e r' hr hs => ?_) h hrun
  have hlen : r.workers.length ≤ r'.workers.length := by
    cases step_eq_some_iff.mp hs <;>
      simp [startOne, queue, Tasks.finish, cancel_pending, notify_all, setWorker, Tasks.complete]
  have hpos := List.length_pos_iff.mpr hr
  exact List.length_pos_iff.mp (by omega)

/-- **A task that comes after `finish()` is not started.** After any use of the pool let `finish()`
be called, with no `abort()` in progress. As long as no worker is started, nothing is cancelled and
`finish()` is not called again, the workers take only tasks that were queued before the call, and
the others stay pending behind the stop requests. -/
theorem taken_of_finish (h : Reached es p) (habort : p.aborts = 0)
    (hwait : ∀ e ∈ es', e.duringWait = true) (hrun : run step p.finish es' = some q) :
    (∀ s ∈ q.taken, s ∈ p.queued) ∧ ∀ s ∈ q.queued, s ∉ p.queued → .task s ∈ q.work_ := by
  have hreached : Reached (es ++ [.finish] ++ es') q :=
    run_append_eq_some.mpr ⟨_, run_concat_eq_some.mpr ⟨p, h, rfl⟩, hrun⟩
  have hacc := accounted_of_reached hreached
  have hdrain := draining_of_run h habort hwait hrun
  have htaken := hdrain.queued_of_taken hacc
  refine ⟨htaken, fun s hs hnew => ?_⟩
  -- what was cancelled, was cancelled before the `finish()`
  have hcancelled : q.cancelled.count s = 0 := by
    rw [cancelled_of_run (fun e he => cancels_of_duringWait (hwait e he)) hrun]
    have hplaces := (accounted_of_reached h).places_eq s
    rw [List.count_eq_zero.mpr hnew] at hplaces
    simp only [places] at hplaces
    show p.cancelled.count s = 0
    omega
  have hnone : q.taken.count s = 0 := List.count_eq_zero.mpr fun hs' => hnew (htaken s hs')
  have hone := hacc.places_eq_one (ordered_of_reached hreached) hs
  rw [hacc.taken_eq] at hnone
  simp only [places] at hone
  exact List.count_pos_iff.mp (by omega)

/-- One worker, one task before the `finish()` and one after it. -/
theorem taken_of_finish_late_task :
    ∃ p q, Reached [.start, .queue] p ∧
      run step p.finish [.queue, .threadTask 0, .complete 0 false, .threadTask 0] = some q ∧
      AllExited q ∧ .task 2 ∈ q.work_ := by
  refine ⟨_, _, rfl, rfl, by decide, ?_⟩
  exact (@taken_of_finish _ _ [.start, .queue]
    [.queue, .threadTask 0, .complete 0 false, .threadTask 0] rfl rfl (by decide) rfl).2 2
    (by decide) (by decide)

theorem exists_eq_exited {x : Worker} (h : x.isExited = true) : ∃ s, x = .exited s := by
  cases x with
  | exited s => exact ⟨s, rfl⟩
  | awake | blocked | running s => cases h

/-- **Every task completes.** Threads queue tasks and start at least one worker, in any order and
with the workers running meanwhile, and then `finish()` is called, for the first time. When nothing
moves any more, which comes to pass (`destructor_returns`), all workers have returned, they started
the tasks queued before the call in the order of their `queue()` calls, and completed each of them
once. -/
theorem all_tasks_complete (h : Reached es p) (hes : ∀ e ∈ es, ¬ e.Cancels ∧ e ≠ .finish)
    (hworkers : p.workers ≠ []) (hwait : ∀ e ∈ es', e.duringWait = true)
    (hrun : run step p.finish es' = some q) (hstuck : Stuck q) :
    AllExited q ∧ q.taken = p.queued ∧ q.completed.Perm p.queued := by
  obtain ⟨habort, hfences⟩ := no_shutdown_of_reached h hes
  have hreached : Reached (es ++ [.finish] ++ es') q :=
    run_append_eq_some.mpr ⟨_, run_concat_eq_some.mpr ⟨p, h, rfl⟩, hrun⟩
  have hacc := accounted_of_reached hreached
  have hord := ordered_of_reached hreached
  have hold := ordered_of_reached h
  have hdrain := draining_of_run h habort hwait hrun
  have hsub := hdrain.queued_of_taken hacc
  have hexited := hdrain.allExited (signalled_of_reached hreached) hstuck
  have hcancelled : q.cancelled = [] :=
    (cancelled_of_run (fun e he => cancels_of_duringWait (hwait e he)) hrun).trans
      (show p.cancelled = [] from cancelled_eq_nil h fun e he => (hes e he).1)
  have hidle : ∀ s, q.workers.count (.running s) = 0 := fun s =>
    List.count_eq_zero.mpr fun hmem => absurd (hexited _ hmem) (by simp [Worker.isExited])
  have hqueued : ∀ s ∈ p.queued, s ∈ q.queued := fun s hs => by
    obtain ⟨later, hlater, -⟩ := hdrain.queued_eq
    exact hlater ▸ List.mem_append_left _ hs
  -- some worker returned, on a stop request behind all these tasks
  have hbefore : ∀ s ∈ p.queued, .task s ∉ q.work_ := fun s hs => by
    obtain ⟨x, hx⟩ :=
      List.exists_mem_of_ne_nil _ (workers_ne_nil_of_run (p := p.finish) hworkers hrun)
    obtain ⟨t, rfl⟩ := exists_eq_exited (hexited x hx)
    refine not_mem_work_of_exited hreached hx ⟨hqueued s hs, ?_⟩
    rw [fences_of_wait hwait hrun]
    simpa [Tasks.finish, hfences] using hold.queued_lt_next s hs
  have htaken : ∀ s, q.taken.count s = p.queued.count s := fun s => by
    by_cases hs : s ∈ p.queued
    · have hone := hacc.places_eq_one hord (hqueued s hs)
      simp only [places, hcancelled, List.count_nil, List.count_eq_zero.mpr (hbefore s hs)] at hone
      rw [List.count_eq_one_of_mem (hold.queued_sorted.imp Nat.ne_of_lt) hs, hacc.taken_eq]
      omega
    · rw [List.count_eq_zero.mpr hs]
      exact List.count_eq_zero.mpr fun hs' => hs (hsub s hs')
  refine ⟨hexited, ?_, List.perm_iff_count.mpr fun s => ?_⟩
  · refine (List.perm_iff_count.mpr htaken).eq_of_pairwise ?_ hord.taken_sorted
      hold.queued_sorted
    exact fun s t _ _ hst hts => absurd hst (Nat.lt_asymm hts)
  · rw [← htaken, hacc.taken_eq, hidle, Nat.zero_add]

/-- One worker and two tasks, the first of which throws. -/
theorem all_tasks_complete_one_worker :
    ∃ p q, Reached [.queue, .start, .notifyOne 0, .threadTask 0, .queue] p ∧
      run step p.finish [.notifyAll, .notifyOne 0, .complete 0 true, .threadTask 0,
        .complete 0 false, .threadTask 0] = some q ∧ q.completed.Perm [0, 1] := by
  refine ⟨_, _, rfl, rfl, ?_⟩
  exact (@all_tasks_complete _ _ [.queue, .start, .notifyOne 0, .threadTask 0, .queue]
    [.notifyAll, .notifyOne 0, .complete 0 true, .threadTask 0, .complete 0 false,
      .threadTask 0] rfl (by simp [Event.Cancels]) (by decide) (by decide) rfl (by decide)).2.2

end Tasks

end RealtimeUtilities
