import RealtimeUtilities.Tasks.Accounting

/-!
# Queued tasks run exactly once, in order

Whatever threads call `queue()`, `start(N)`, `cancel_pending()`, `finish()` and `abort()`, and
however the workers are scheduled:

* a queued task is in exactly one place, tasks leave `work_` in the order they were queued, and
  no worker returns on a queued task;
* without `cancel_pending()` and `abort()`, the first worker that returns has let every task
  queued before the first `finish()` leave `work_`, and when all workers have returned all
  these tasks have completed.

The drain follows from the push order: a worker returns on a stop request, which is younger
than every task queued before the first `finish()`, and it popped that request after all of
them (`not_mem_work_of_exited`). Both statements are `exactly_once`.
-/

namespace RealtimeUtilities.Tasks

open Execution

variable {p p' : Tasks} {e : Event} {es : List Event} {w s : ℕ}

/-! ## Stop requests -/

/-- The entry `s` is a stop request: pending in `work_`, or consumed by a worker that
returned on it. -/
def StopRequest (p : Tasks) (s : ℕ) : Prop :=
  .empty s ∈ p.work_ ∨ .exited s ∈ p.workers

/-- Every stop request was pushed by some `finish()`, and none is a queued task. -/
structure Fenced (p : Tasks) : Prop where
  fences_sorted : p.fences.Pairwise (· ≤ ·)
  fences_le_next : ∀ f ∈ p.fences, f ≤ p.next
  exists_fence_le : ∀ s, p.StopRequest s → ∃ f ∈ p.fences, f ≤ s
  not_queued : ∀ s, p.StopRequest s → s ∉ p.queued

theorem fenced_init : Fenced init := by
  constructor <;> simp [init, StopRequest]

/-- A step that pushes nothing keeps `Fenced`, if no stop request is new in it. -/
theorem Fenced.of_frame (h : Fenced p) (hfences : p'.fences = p.fences)
    (hnext : p'.next = p.next) (hqueued : p'.queued = p.queued)
    (hstop : ∀ s, p'.StopRequest s → p.StopRequest s) : Fenced p' where
  fences_sorted := hfences ▸ h.fences_sorted
  fences_le_next := by rw [hfences, hnext]; exact h.fences_le_next
  exists_fence_le s hs := hfences ▸ h.exists_fence_le s (hstop s hs)
  not_queued s hs := hqueued ▸ h.not_queued s (hstop s hs)

/-- A stop request is older than the next entry. -/
theorem Ordered.stop_lt_next (h : Ordered p) (hs : p.StopRequest s) : s < p.next := by
  rcases hs with hs | hs
  · exact h.work_lt_next _ hs
  · exact h.popped_lt_next s (.inr hs)

theorem Fenced.queue (h : Fenced p) (ho : Ordered p) : Fenced p.queue := by
  have hstop : ∀ s, p.queue.StopRequest s → p.StopRequest s := by
    rintro s (hs | hs)
    · exact .inl (by simpa [Tasks.queue] using hs)
    · exact .inr hs
  refine ⟨h.fences_sorted, fun f hf => Nat.le_succ_of_le (h.fences_le_next f hf),
    fun s hs => h.exists_fence_le s (hstop s hs), fun s hs hmem => ?_⟩
  rcases List.mem_append.mp hmem with hmem | hmem
  · exact h.not_queued s (hstop s hs) hmem
  · obtain rfl := List.mem_singleton.mp hmem
    exact Nat.lt_irrefl _ (ho.stop_lt_next (hstop _ hs))

/-- After a `finish()` a stop request is an old one, or was pushed just now. -/
theorem stopRequest_finish {t : ℕ} (h : p.finish.StopRequest t) :
    p.StopRequest t ∨ p.next ≤ t := by
  rcases h with ht | ht
  · rcases List.mem_append.mp ht with ht | ht
    · exact .inl (.inl ht)
    · exact .inr (mem_mapIdx_empty ht).1
  · exact .inl (.inr ht)

theorem Fenced.finish (h : Fenced p) (ho : Ordered p) : Fenced p.finish := by
  refine ⟨?_, fun f hf => ?_, fun s hs => ?_, fun s hs hmem => ?_⟩
  · refine List.pairwise_append.mpr ⟨h.fences_sorted, by simp, fun f hf g hg => ?_⟩
    obtain rfl := List.mem_singleton.mp hg
    exact h.fences_le_next f hf
  · rcases List.mem_append.mp hf with hf | hf
    · exact Nat.le_add_right_of_le (h.fences_le_next f hf)
    · obtain rfl := List.mem_singleton.mp hf
      exact Nat.le_add_right _ _
  · rcases stopRequest_finish hs with hs | hs
    · obtain ⟨f, hf, hle⟩ := h.exists_fence_le s hs
      exact ⟨f, by simp [Tasks.finish, hf], hle⟩
    · exact ⟨p.next, by simp [Tasks.finish], hs⟩
  · rcases stopRequest_finish hs with hs | hs
    · exact h.not_queued s hs hmem
    · exact absurd (ho.queued_lt_next s hmem) (Nat.not_lt.mpr hs)

theorem Fenced.cancel_pending (h : Fenced p) : Fenced p.cancel_pending := by
  refine h.of_frame rfl rfl rfl ?_
  rintro s (hs | hs)
  · cases hs
  · exact .inr hs

theorem Fenced.step (h : Fenced p) (ho : Ordered p) (hstep : Step p e p') : Fenced p' := by
  cases hstep with
  | queue => exact h.queue ho
  | finish => exact h.finish ho
  | abortFinish => exact (h.finish ho).of_frame rfl rfl rfl fun _ hs => hs
  | cancelPending => exact h.cancel_pending
  | abortCancel => exact h.cancel_pending.of_frame rfl rfl rfl fun _ hs => hs
  | start =>
    refine h.of_frame rfl rfl rfl fun s hs => ?_
    simpa [StopRequest, startOne] using hs
  | notifyNobody => exact h.of_frame rfl rfl rfl fun _ hs => hs
  | notifyAll =>
    exact h.of_frame rfl rfl rfl fun _ hs => hs.imp_right exited_of_mem_map_wake
  | notifyOne | block | complete | spurious =>
    exact h.of_frame rfl rfl rfl fun _ hs => hs.imp_right (exited_of_mem_set (by simp))
  | pop hw hwork =>
    refine h.of_frame rfl rfl rfl fun s hs => hs.imp (fun hs => ?_) (exited_of_mem_set (by simp))
    simpa [hwork] using hs
  | exit hw hwork =>
    -- the request moves from the deque to the worker that returns on it
    refine h.of_frame rfl rfl rfl fun s hs => ?_
    rcases hs with hs | hs
    · exact .inl (by simp [hwork, hs])
    · rcases List.mem_or_eq_of_mem_set hs with hs | hs
      · exact .inr hs
      · exact .inl (by simp [hwork, Worker.exited.inj hs])

theorem fenced_of_reached (h : Reached es p) : Fenced p := by
  have hboth : Ordered p ∧ Fenced p :=
    run_invariant (fun q => Ordered q ∧ Fenced q)
      (fun _ _ _ hI hs =>
        ⟨hI.1.step (step_eq_some_iff.mp hs), hI.2.step hI.1 (step_eq_some_iff.mp hs)⟩)
      ⟨ordered_init, fenced_init⟩ h
  exact hboth.2

/-! ## The drain -/

/-- The task `s` was queued before the first call of `finish()`, if there was one. -/
def QueuedBeforeFinish (p : Tasks) (s : ℕ) : Prop :=
  s ∈ p.queued ∧ ∀ f ∈ p.fences.head?, s < f

/-- A call of `cancel_pending()`, by itself or as the first half of `abort()`. -/
def Event.Cancels (e : Event) : Prop :=
  e = .cancelPending ∨ e = .abortCancel

/-- Nothing is cancelled in a run without `cancel_pending()` and `abort()`. -/
theorem cancelled_eq_nil (h : Reached es p) (hes : ∀ e ∈ es, ¬ e.Cancels) :
    p.cancelled = [] := by
  refine run_invariant_along (fun q => q.cancelled = []) (fun q e q' hq he hs => ?_) rfl
    (along_of_forall_mem hes) h
  cases step_eq_some_iff.mp hs with
  | cancelPending => exact absurd (.inl rfl) he
  | abortCancel => exact absurd (.inr rfl) he
  | _ => exact hq

/-- Once a worker returned, no task queued before the first `finish()` is pending: the worker
returned on a younger entry. -/
theorem not_mem_work_of_exited (h : Reached es p) {t : ℕ} (ht : .exited t ∈ p.workers)
    (hs : p.QueuedBeforeFinish s) : .task s ∉ p.work_ := by
  intro hmem
  obtain ⟨f, hf, hft⟩ := (fenced_of_reached h).exists_fence_le t (.inr ht)
  have hst : t < s := (ordered_of_reached h).popped_lt_work t (.inr ht) _ hmem
  -- the first `finish()` came no later than the one that pushed `t`
  obtain ⟨f₀, rest, hfences⟩ := List.exists_cons_of_ne_nil (List.ne_nil_of_mem hf)
  have hle : f₀ ≤ f := by
    have hsorted := (fenced_of_reached h).fences_sorted
    rw [hfences] at hf hsorted
    rcases List.mem_cons.mp hf with rfl | hf
    · exact Nat.le_refl _
    · exact (List.pairwise_cons.mp hsorted).1 f hf
  have hsf : s < f₀ := hs.2 f₀ (by simp [hfences])
  omega

/-- **Exactly once, in order, nothing lost.** In every state that any interleaving reaches:

* a task ever queued is in exactly one of the four places, exactly once;
* tasks left `work_` in the order they were queued, ahead of everything still in it;
* no worker returned on a queued task;
* if nothing was ever cancelled, then once one worker returned every task queued before the
  first `finish()` was taken, and once all workers returned every such task has completed. -/
theorem exactly_once (h : Reached es p) :
    (∀ s ∈ p.queued, p.places s = 1) ∧
    (p.taken.Pairwise (· < ·) ∧ ∀ s ∈ p.taken, ∀ t, .task t ∈ p.work_ → s < t) ∧
    (∀ t, .exited t ∈ p.workers → t ∉ p.queued) ∧
    ((∀ e ∈ es, ¬ e.Cancels) →
      ((∃ t, .exited t ∈ p.workers) → ∀ s, p.QueuedBeforeFinish s → s ∈ p.taken) ∧
      (p.workers ≠ [] → (∀ x ∈ p.workers, x.isExited = true) →
        ∀ s, p.QueuedBeforeFinish s → p.completed.count s = 1)) := by
  have hacc := accounted_of_reached h
  have hord := ordered_of_reached h
  have hplaces : ∀ s ∈ p.queued, p.places s = 1 := fun s hs => hacc.places_eq_one hord hs
  refine ⟨hplaces, ⟨hord.taken_sorted, fun s hs t ht => hord.popped_lt_work s (.inl hs) _ ht⟩,
    fun t ht => (fenced_of_reached h).not_queued t (.inr ht), fun hes => ?_⟩
  -- what is queued, not cancelled and not pending is held by a worker or completed
  have hleft : ∀ t, .exited t ∈ p.workers → ∀ s, p.QueuedBeforeFinish s →
      p.workers.count (.running s) + p.completed.count s = 1 := fun t ht s hs => by
    have hone := hplaces s hs.1
    have hwork := List.count_eq_zero.mpr (not_mem_work_of_exited h ht hs)
    simp only [places, hwork, cancelled_eq_nil h hes, List.count_nil] at hone
    omega
  refine ⟨?_, fun hne hall s hs => ?_⟩
  · rintro ⟨t, ht⟩ s hs
    rw [← List.count_pos_iff, hacc.taken_eq, hleft t ht s hs]
    exact Nat.one_pos
  · obtain ⟨x, hx⟩ := List.exists_mem_of_ne_nil _ hne
    obtain ⟨t, rfl⟩ : ∃ t, x = .exited t := by
      have := hall x hx
      cases x <;> simp_all [Worker.isExited]
    have hidle : p.workers.count (.running s) = 0 := by
      rw [List.count_eq_zero]
      intro hmem
      simpa [Worker.isExited] using hall _ hmem
    have := hleft t hx s hs
    omega

/-- One task, one worker: the worker runs the task, then returns on the stop request. -/
theorem exactly_once_one_worker :
    ∃ p, Reached [.queue, .start, .finish, .threadTask 0, .complete 0 true, .threadTask 0] p ∧
      p.completed.count 0 = 1 := by
  refine ⟨_, rfl, ?_⟩
  refine ((@exactly_once _ [.queue, .start, .finish, .threadTask 0, .complete 0 true,
    .threadTask 0] rfl).2.2.2 ?_).2 ?_ ?_ 0 ?_
  · simp [Event.Cancels]
  · decide
  · decide
  · exact ⟨by decide, by decide⟩

end RealtimeUtilities.Tasks
