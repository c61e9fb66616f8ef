import RealtimeUtilities.Tasks.Wakeup

/-!
# Stop requests that a `cancel_pending()` takes back

After a `finish()` there is one stop request in `work_` for every worker that did not return
yet, as long as no worker is started: `Covered`. The requests share the deque with the tasks,
and `cancel_pending()`, whose comment says that it *merely cancels all non-started tasks*,
clears the deque with the requests in it.

`stop_requests_kept_iff` says exactly when this goes wrong. After the `finish()`, every state
in which no `abort()` is between its halves is covered if and only if every
`cancel_pending()` outside an `abort()` comes after all workers have returned. A
`cancel_pending()` inside an `abort()` does no harm, because the `finish()` of the `abort()`
pushes the requests again.
-/

namespace RealtimeUtilities.Tasks

open Execution

variable {p p' p₁ p₂ p₃ : Tasks} {e : Event} {es es₁ es₂ : List Event} {w : ℕ}

/-- The stop requests pending in `work_`. -/
def stopCount (p : Tasks) : ℕ :=
  p.work_.countP fun f => !f.valid

/-- The workers that returned. -/
def exitedCount (p : Tasks) : ℕ :=
  p.workers.countP Worker.isExited

/-- There are at least as many pending stop requests and returned workers as workers were
ever started. -/
def Covered (p : Tasks) : Prop :=
  p.workers.length ≤ p.stopCount + p.exitedCount

instance (p : Tasks) : Decidable p.Covered := by
  unfold Covered
  infer_instance

/-- What a `finish()` promises for later: unless an `abort()` is between its halves, the stop
requests cover the workers, and whoever sleeps is going to be woken. -/
def StopKept (p : Tasks) : Prop :=
  p.aborts = 0 → p.Covered ∧ (p.SomeBlocked → 0 < p.notifyAlls)

/-- A `cancel_pending()` outside an `abort()` comes after all workers have returned. -/
def KeepsStops (p : Tasks) (e : Event) : Prop :=
  e = .cancelPending → p.aborts = 0 → ∀ x ∈ p.workers, x.isExited = true

/-! ## Counting -/

theorem exited_eq_length_iff :
    p.exitedCount = p.workers.length ↔ ∀ x ∈ p.workers, x.isExited = true :=
  List.countP_eq_length

theorem exited_le_length : p.exitedCount ≤ p.workers.length :=
  List.countP_le_length

/-- `finish()` pushes one stop request for each future. -/
theorem countP_mapIdx_empty (l : List ℕ) (n : ℕ) :
    (l.mapIdx fun i _ => PackagedTask.empty (n + i)).countP (fun f => !f.valid) = l.length := by
  rw [← List.length_mapIdx (f := fun i _ => PackagedTask.empty (n + i)), List.countP_eq_length]
  intro f hf
  obtain ⟨i, -, rfl⟩ := List.mem_mapIdx.mp hf
  rfl

/-- `finish()` pushes as many stop requests as workers were started. -/
theorem covered_finish (h : Sized p) : p.finish.Covered := by
  simp only [Covered, stopCount, Tasks.finish, List.countP_append, countP_mapIdx_empty,
    h.futures]
  omega

/-- Replacing a worker that has not returned by one that has not returned either. -/
theorem countP_set_not_exited {l : List Worker} {x y : Worker} (hw : l[w]? = some x)
    (hx : x.isExited = false) (hy : y.isExited = false) :
    (l.set w y).countP Worker.isExited = l.countP Worker.isExited := by
  obtain ⟨hlt, rfl⟩ := List.getElem?_eq_some_iff.mp hw
  rw [List.countP_set hlt, hx, hy]
  rfl

/-- A worker that has not returned returns. -/
theorem countP_set_exited {l : List Worker} {x : Worker} (hw : l[w]? = some x)
    (hx : x.isExited = false) (s : ℕ) :
    (l.set w (.exited s)).countP Worker.isExited = l.countP Worker.isExited + 1 := by
  obtain ⟨hlt, rfl⟩ := List.getElem?_eq_some_iff.mp hw
  rw [List.countP_set hlt, hx]
  rfl

theorem countP_map_wake (l : List Worker) :
    (l.map Worker.wake).countP Worker.isExited = l.countP Worker.isExited := by
  rw [List.countP_map]
  congr 1
  funext x
  cases x <;> rfl

/-! ## Steps after a `finish()` -/

/-- A step that changes neither the number of workers nor the two counts keeps `Covered`. -/
theorem Covered.of_counts (h : p.Covered) (hlen : p'.workers.length = p.workers.length)
    (hstops : p'.stopCount = p.stopCount) (hexited : p'.exitedCount = p.exitedCount) :
    p'.Covered := by
  rw [Covered, hlen, hstops, hexited]
  exact h

/-- Without a `start`, a step that meets `KeepsStops` keeps the workers covered outside an
`abort()`. -/
theorem covered_step (hsized : Sized p) (h : p.aborts = 0 → p.Covered) (hstart : e ≠ .start)
    (hkeeps : KeepsStops p e) (hstep : Step p e p') : p'.aborts = 0 → p'.Covered := by
  intro habort
  cases hstep with
  | start => exact absurd rfl hstart
  | queue => exact (h habort).of_counts rfl (by simp [stopCount, Tasks.queue]) rfl
  | notifyNobody => exact h habort
  | notifyAll => exact (h habort).of_counts (List.length_map _) rfl (countP_map_wake _)
  | cancelPending =>
    -- the condition on the step: everybody has returned
    rw [Covered, Nat.le_iff_lt_or_eq]
    have hall := exited_eq_length_iff.mpr (hkeeps rfl habort)
    exact .inr (by simpa [stopCount, exitedCount, Tasks.cancel_pending] using hall.symm)
  | abortCancel => exact absurd habort (Nat.succ_ne_zero _)
  | finish => exact covered_finish hsized
  | abortFinish => exact covered_finish hsized
  | notifyOne hpending hw =>
    exact (h habort).of_counts List.length_set rfl (countP_set_not_exited hw rfl rfl)
  | block hw => exact (h habort).of_counts List.length_set rfl (countP_set_not_exited hw rfl rfl)
  | pop hw hwork =>
    exact (h habort).of_counts List.length_set (by simp [stopCount, hwork])
      (countP_set_not_exited hw rfl rfl)
  | exit hw hwork =>
    -- one stop request less, one returned worker more
    have hcov := h habort
    rw [Covered, stopCount, hwork, List.countP_cons_of_pos (by rfl)] at hcov
    rw [Covered, exitedCount, setWorker, countP_set_exited hw rfl, List.length_set]
    refine Nat.le_trans hcov (Nat.le_of_eq ?_)
    simp only [stopCount, exitedCount]
    omega
  | complete hw =>
    exact (h habort).of_counts List.length_set rfl (countP_set_not_exited hw rfl rfl)
  | spurious hw =>
    exact (h habort).of_counts List.length_set rfl (countP_set_not_exited hw rfl rfl)

/-- In a covered state a blocked worker has a stop request to come back for, and the
`notify_all` that wakes it is still to be issued. -/
theorem notifyAll_of_covered (hsig : Signalled p) (h : p.Covered) (hb : p.SomeBlocked) :
    0 < p.notifyAlls := by
  have hlt : p.exitedCount < p.workers.length := by
    refine Nat.lt_of_le_of_ne exited_le_length fun heq => ?_
    exact absurd (exited_eq_length_iff.mp heq _ hb) (by decide)
  have hpos : 0 < p.stopCount := by
    unfold Covered at h
    omega
  obtain ⟨f, hf, hfv⟩ := List.countP_pos_iff.mp hpos
  have hstop : ∃ s, .empty s ∈ p.work_ := by
    cases f with
    | task s => simp at hfv
    | empty s => exact ⟨s, hf⟩
  exact (hsig.stop hstop).resolve_right fun hnone => hnone hb

/-- **When stop requests are not taken back.** After a `finish()`, called by itself or by an
`abort()`, and as long as `start()` is not called again: in every later state in which no
`abort()` is between its halves, the pending stop requests and the returned workers are at
least as many as the workers ever started, and a blocked worker is going to be notified, if
and only if every `cancel_pending()` outside an `abort()` comes after all workers have
returned. -/
theorem stop_requests_kept_iff (h₁ : Reached es₁ p₁) (he : e = .finish ∨ e = .abortFinish)
    (hfinish : step p₁ e = some p₂) (hstart : .start ∉ es₂)
    (h₂ : run step p₂ es₂ = some p₃) :
    (∀ pre post q, es₂ = pre ++ post → run step p₂ pre = some q → StopKept q) ↔
      Along step KeepsStops p₂ es₂ := by
  have hreached : Reached (es₁ ++ [e]) p₂ := run_concat_eq_some.mpr ⟨p₁, h₁, hfinish⟩
  constructor
  · intro hkept
    refine along_of_prefix fun pre e' post t hes ht he' habort => ?_
    -- look at the state right after the `cancel_pending()`
    subst he'
    have hcancel : run step p₂ (pre ++ [.cancelPending]) = some t.cancel_pending :=
      run_concat_eq_some.mpr ⟨t, ht, rfl⟩
    have hcov : t.cancel_pending.Covered :=
      (hkept (pre ++ [.cancelPending]) post t.cancel_pending (by simp [hes]) hcancel habort).1
    refine exited_eq_length_iff.mp (Nat.le_antisymm exited_le_length ?_)
    simpa [Covered, stopCount, exitedCount, cancel_pending] using hcov
  · intro halong pre post q hes hq habort
    subst hes
    have hinit : p₂.aborts = 0 → p₂.Covered := fun _ => by
      have hsized := sized_of_reached h₁
      rcases he with rfl | rfl
      · cases step_eq_some_iff.mp hfinish
        exact covered_finish hsized
      · cases step_eq_some_iff.mp hfinish
        exact covered_finish hsized
    have hcov : q.aborts = 0 → q.Covered := by
      have hpre : Along step (fun r e => KeepsStops r e ∧ e ≠ .start) p₂ pre := by
        have hno : ∀ e ∈ pre, e ≠ .start := fun e he => by
          rintro rfl
          exact hstart (by simp [he])
        exact ((along_append hq).mp halong).1.and (along_of_forall_mem hno)
      have hinv := run_invariant_along (fun r => Sized r ∧ (r.aborts = 0 → r.Covered))
        (fun r e r' hr hC hs =>
          ⟨hr.1.step (step_eq_some_iff.mp hs),
            covered_step hr.1 hr.2 hC.2 hC.1 (step_eq_some_iff.mp hs)⟩)
        ⟨sized_of_reached hreached, hinit⟩ hpre hq
      exact hinv.2
    have hall : Reached (es₁ ++ [e] ++ pre) q := run_append_eq_some.mpr ⟨p₂, hreached, hq⟩
    exact ⟨hcov habort, notifyAll_of_covered (signalled_of_reached hall) (hcov habort)⟩

/-- One worker, `finish()`, then `abort()`: the requests are pushed again. -/
theorem stop_requests_kept_iff_abort :
    ∃ q, run step init.startOne.finish [.abortCancel, .abortFinish, .notifyAll] = some q ∧
      StopKept q := by
  have halong : Along step KeepsStops init.startOne.finish
      [.abortCancel, .abortFinish, .notifyAll] := by
    refine along_of_prefix fun pre e post t hes ht he => ?_
    have hmem : Event.cancelPending ∈ [Event.abortCancel, .abortFinish, .notifyAll] := by
      simp [hes, he]
    simp at hmem
  refine ⟨_, rfl, ?_⟩
  exact (@stop_requests_kept_iff _ _ _ .finish [.start]
    [.abortCancel, .abortFinish, .notifyAll] rfl (.inl rfl) rfl (by decide) rfl).mpr halong _ [] _
    (List.append_nil _).symm rfl

/-- One worker, `finish()`, then `cancel_pending()` before the worker looked at the deque: the
worker goes to sleep, no stop request is left and nothing is left to wake it. -/
theorem stop_request_taken_back :
    ∃ p, Reached [.start, .finish, .notifyAll, .cancelPending, .threadTask 0] p ∧
      p.aborts = 0 ∧ p.stopCount + p.exitedCount < p.workers.length ∧
      p.SomeBlocked ∧ ¬ p.NotificationPending ∧ p.work_ = [] := by
  refine ⟨_, rfl, rfl, by decide, ?_, ?_, rfl⟩
  · simp [SomeBlocked, init, startOne, setWorker, thread_task, notify_all, cancel_pending,
      Tasks.finish]
  · simp [NotificationPending, init, startOne, setWorker, thread_task, notify_all,
      cancel_pending, Tasks.finish]

end RealtimeUtilities.Tasks
