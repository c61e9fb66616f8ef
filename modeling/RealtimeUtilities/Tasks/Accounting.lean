import RealtimeUtilities.Tasks.Pool

/-!
# Where the queued tasks of a pool are

Two invariants of every run of the pool, whatever its clients and its scheduler do.

* `Accounted`: a queued task is in exactly one place (pending, held by a worker, completed
  once, cancelled), and no other task is in any;
* `Ordered`: sequence numbers grow along `work_`, and whatever was popped was pushed before
  everything still in `work_`.

`accounted_of_reached` and `ordered_of_reached` give both at every state a pool reaches.
-/

namespace RealtimeUtilities.Tasks

open Execution

variable {p p' : Tasks} {e : Event} {es : List Event} {w s : ℕ}

/-! ## Counting in a list with one entry replaced -/

/-- Replacing an entry `b` by `a` moves one occurrence from `b` to `a`. -/
theorem count_set_add {α : Type} [DecidableEq α] {l : List α} {i : ℕ} {b : α}
    (hi : l[i]? = some b) (a x : α) :
    (l.set i a).count x + (if b = x then 1 else 0) = l.count x + (if a = x then 1 else 0) := by
  obtain ⟨hlt, hb⟩ := List.getElem?_eq_some_iff.mp hi
  have hpos : b = x → 0 < l.count x := by
    rintro rfl
    exact List.count_pos_iff.mpr (List.mem_of_getElem? hi)
  rw [List.count_set hlt, hb]
  by_cases hbx : b = x
  · have := hpos hbx
    simp only [hbx, beq_self_eq_true, if_true]
    simp only [beq_iff_eq]
    omega
  · simp [hbx]

/-! ## Every queued task is in one place -/

/-- In how many places the task `s` is: pending in `work_`, held by a worker, completed
(counted once for each run), removed by `cancel_pending()`. -/
def places (p : Tasks) (s : ℕ) : ℕ :=
  p.work_.count (.task s) + p.workers.count (.running s) + p.completed.count s
    + p.cancelled.count s

/-- A task is in as many places as it was queued times, and every task that left `work_`
towards a worker is held by one or completed. -/
structure Accounted (p : Tasks) : Prop where
  places_eq : ∀ s, p.places s = p.queued.count s
  taken_eq : ∀ s, p.taken.count s = p.workers.count (.running s) + p.completed.count s

theorem count_taskSeq? (l : List PackagedTask) (s : ℕ) :
    (l.filterMap PackagedTask.taskSeq?).count s = l.count (.task s) := by
  induction l with
  | nil => rfl
  | cons f l ih =>
    cases f <;> simp [PackagedTask.taskSeq?, List.filterMap_cons, List.count_cons, ih]

theorem count_task_mapIdx (l : List ℕ) (n s : ℕ) :
    (l.mapIdx fun i _ => PackagedTask.empty (n + i)).count (.task s) = 0 := by
  simp [List.count_eq_zero, List.mem_mapIdx]

theorem count_running_map_wake (l : List Worker) (s : ℕ) :
    (l.map Worker.wake).count (.running s) = l.count (.running s) := by
  induction l with
  | nil => rfl
  | cons x l ih => cases x <;> simp [Worker.wake, List.count_cons, ih]

/-- Moving a worker between states without a task keeps the tasks that workers hold. -/
theorem count_running_set {l : List Worker} {x : Worker} (hw : l[w]? = some x)
    (hx : ∀ s, x ≠ .running s) (y : Worker) (hy : ∀ s, y ≠ .running s) (s : ℕ) :
    (l.set w y).count (.running s) = l.count (.running s) := by
  have hcount := count_set_add hw y (.running s)
  rwa [if_neg (hx s), if_neg (hy s)] at hcount

theorem accounted_init : Accounted init := ⟨fun _ => rfl, fun _ => rfl⟩

theorem Accounted.step (h : Accounted p) (hstep : Step p e p') : Accounted p' := by
  suffices hs : ∀ s, p'.places s = p'.queued.count s ∧
      p'.taken.count s = p'.workers.count (.running s) + p'.completed.count s from
    ⟨fun s => (hs s).1, fun s => (hs s).2⟩
  intro s
  have hplaces := h.places_eq s
  have htaken := h.taken_eq s
  simp only [places] at hplaces
  cases hstep with
  | start => simpa [places, startOne] using ⟨hplaces, htaken⟩
  | queue =>
    -- one more task, and one more place for it
    simp only [places, queue, List.count_append, List.count_singleton, beq_iff_eq,
      PackagedTask.task.injEq]
    omega
  | notifyOne hpending hw =>
    simp only [places, setWorker, count_running_set hw (by simp) .awake (by simp)]
    exact ⟨hplaces, htaken⟩
  | notifyNobody => exact ⟨hplaces, htaken⟩
  | notifyAll =>
    simp only [places, notify_all, count_running_map_wake]
    exact ⟨hplaces, htaken⟩
  | cancelPending | abortCancel =>
    -- the pending tasks become cancelled ones
    simp only [places, cancel_pending, List.count_append, count_taskSeq?, List.count_nil]
    omega
  | finish | abortFinish =>
    simp only [places, finish, List.count_append, count_task_mapIdx]
    omega
  | block hw =>
    simp only [places, setWorker, count_running_set hw (by simp) .blocked (by simp)]
    exact ⟨hplaces, htaken⟩
  | @pop w t rest hw hwork =>
    -- the front of the deque moves to the worker
    have hheld := count_set_add hw (.running t) (.running s)
    simp only [reduceCtorEq, if_false, Worker.running.injEq] at hheld
    simp only [hwork, List.count_cons, beq_iff_eq, PackagedTask.task.injEq] at hplaces
    simp only [places, setWorker, List.count_append, List.count_singleton, beq_iff_eq]
    omega
  | @exit w t rest hw hwork =>
    simp only [hwork, List.count_cons, beq_iff_eq, reduceCtorEq, if_false] at hplaces
    simp only [places, setWorker, count_running_set hw (by simp) (.exited t) (by simp)]
    exact ⟨hplaces, htaken⟩
  | @complete w t threw hw =>
    -- the task of the worker becomes a completed one
    have hheld := count_set_add hw .awake (.running s)
    simp only [reduceCtorEq, if_false, Worker.running.injEq] at hheld
    simp only [places, complete, setWorker, List.count_append, List.count_singleton, beq_iff_eq]
    omega
  | spurious hw =>
    simp only [places, setWorker, count_running_set hw (by simp) .awake (by simp)]
    exact ⟨hplaces, htaken⟩

/-- Every run keeps the tasks accounted for. -/
theorem accounted_of_reached (h : Reached es p) : Accounted p :=
  run_invariant Accounted (fun _ _ _ hI hs => hI.step (step_eq_some_iff.mp hs)) accounted_init h

/-! ## The deque is in push order -/

/-- The entry `s` was popped by a worker: as a task, or as the stop request it returned on. -/
def Popped (p : Tasks) (s : ℕ) : Prop :=
  s ∈ p.taken ∨ .exited s ∈ p.workers

/-- Sequence numbers grow along `work_`, popped entries are older than everything in it, and
tasks left it in the order they were queued. -/
structure Ordered (p : Tasks) : Prop where
  work_sorted : p.work_.Pairwise fun f g => f.seq < g.seq
  work_lt_next : ∀ f ∈ p.work_, f.seq < p.next
  popped_lt_work : ∀ s, p.Popped s → ∀ f ∈ p.work_, s < f.seq
  popped_lt_next : ∀ s, p.Popped s → s < p.next
  taken_sorted : p.taken.Pairwise (· < ·)
  queued_sorted : p.queued.Pairwise (· < ·)
  queued_lt_next : ∀ s ∈ p.queued, s < p.next

theorem ordered_init : Ordered init := by
  constructor <;> simp [init, Popped]

/-- A step that touches neither the deque nor the history keeps `Ordered`, if no worker
returns in it. -/
theorem Ordered.of_frame (h : Ordered p) (hwork : p'.work_ = p.work_) (hnext : p'.next = p.next)
    (htaken : p'.taken = p.taken) (hqueued : p'.queued = p.queued)
    (hexited : ∀ s, .exited s ∈ p'.workers → .exited s ∈ p.workers) : Ordered p' := by
  have hpopped : ∀ s, p'.Popped s → p.Popped s := by
    rintro s (hs | hs)
    · exact .inl (htaken ▸ hs)
    · exact .inr (hexited s hs)
  exact
    { work_sorted := hwork ▸ h.work_sorted
      work_lt_next := by rw [hwork, hnext]; exact h.work_lt_next
      popped_lt_work := fun s hs => by rw [hwork]; exact h.popped_lt_work s (hpopped s hs)
      popped_lt_next := fun s hs => by rw [hnext]; exact h.popped_lt_next s (hpopped s hs)
      taken_sorted := htaken ▸ h.taken_sorted
      queued_sorted := hqueued ▸ h.queued_sorted
      queued_lt_next := by rw [hqueued, hnext]; exact h.queued_lt_next }

/-- Only a worker that was put there by `set` can be new in the list of workers. -/
theorem exited_of_mem_set {l : List Worker} {x : Worker} (hx : ∀ s, x ≠ .exited s)
    (h : .exited s ∈ l.set w x) : .exited s ∈ l := by
  rcases List.mem_or_eq_of_mem_set h with h | h
  · exact h
  · exact absurd h.symm (hx s)

theorem exited_of_mem_map_wake {l : List Worker} (h : .exited s ∈ l.map Worker.wake) :
    .exited s ∈ l := by
  obtain ⟨x, hx, hwake⟩ := List.mem_map.mp h
  cases x <;> simp_all [Worker.wake]

theorem sorted_mapIdx_empty (l : List ℕ) (n : ℕ) :
    (l.mapIdx fun i _ => PackagedTask.empty (n + i)).Pairwise fun f g => f.seq < g.seq := by
  rw [List.pairwise_iff_getElem]
  intro i j hi hj hij
  simpa using hij

theorem mem_mapIdx_empty {l : List ℕ} {n : ℕ} {f : PackagedTask}
    (hf : f ∈ l.mapIdx fun i _ => PackagedTask.empty (n + i)) :
    n ≤ f.seq ∧ f.seq < n + l.length := by
  obtain ⟨i, hi, rfl⟩ := List.mem_mapIdx.mp hf
  simpa using hi

theorem Ordered.queue (h : Ordered p) : Ordered p.queue where
  work_sorted := by
    refine List.pairwise_append.mpr ⟨h.work_sorted, by simp, fun f hf g hg => ?_⟩
    obtain rfl := List.mem_singleton.mp hg
    exact h.work_lt_next f hf
  work_lt_next f hf := by
    rcases List.mem_append.mp hf with hf | hf
    · exact Nat.lt_succ_of_lt (h.work_lt_next f hf)
    · obtain rfl := List.mem_singleton.mp hf
      exact Nat.lt_succ_self _
  popped_lt_work s hs f hf := by
    rcases List.mem_append.mp hf with hf | hf
    · exact h.popped_lt_work s hs f hf
    · obtain rfl := List.mem_singleton.mp hf
      exact h.popped_lt_next s hs
  popped_lt_next s hs := Nat.lt_succ_of_lt (h.popped_lt_next s hs)
  taken_sorted := h.taken_sorted
  queued_sorted := by
    refine List.pairwise_append.mpr ⟨h.queued_sorted, by simp, fun s hs t ht => ?_⟩
    obtain rfl := List.mem_singleton.mp ht
    exact h.queued_lt_next s hs
  queued_lt_next s hs := by
    rcases List.mem_append.mp hs with hs | hs
    · exact Nat.lt_succ_of_lt (h.queued_lt_next s hs)
    · obtain rfl := List.mem_singleton.mp hs
      exact Nat.lt_succ_self _

theorem Ordered.finish (h : Ordered p) : Ordered p.finish where
  work_sorted := by
    refine List.pairwise_append.mpr ⟨h.work_sorted, sorted_mapIdx_empty _ _, fun f hf g hg => ?_⟩
    exact Nat.lt_of_lt_of_le (h.work_lt_next f hf) (mem_mapIdx_empty hg).1
  work_lt_next f hf := by
    rcases List.mem_append.mp hf with hf | hf
    · exact Nat.lt_add_right _ (h.work_lt_next f hf)
    · exact (mem_mapIdx_empty hf).2
  popped_lt_work s hs f hf := by
    rcases List.mem_append.mp hf with hf | hf
    · exact h.popped_lt_work s hs f hf
    · exact Nat.lt_of_lt_of_le (h.popped_lt_next s hs) (mem_mapIdx_empty hf).1
  popped_lt_next s hs := Nat.lt_add_right _ (h.popped_lt_next s hs)
  taken_sorted := h.taken_sorted
  queued_sorted := h.queued_sorted
  queued_lt_next s hs := Nat.lt_add_right _ (h.queued_lt_next s hs)

theorem Ordered.cancel_pending (h : Ordered p) : Ordered p.cancel_pending where
  work_sorted := List.Pairwise.nil
  work_lt_next f hf := by cases hf
  popped_lt_work s hs f hf := by cases hf
  popped_lt_next := h.popped_lt_next
  taken_sorted := h.taken_sorted
  queued_sorted := h.queued_sorted
  queued_lt_next := h.queued_lt_next

/-- Popping the front `f` keeps the order, if only `f` is new among the popped entries. -/
theorem Ordered.pop_front {f : PackagedTask} {rest : List PackagedTask} (h : Ordered p)
    (hwork : p.work_ = f :: rest) (hwork' : p'.work_ = rest) (hnext : p'.next = p.next)
    (htaken : p'.taken = p.taken ∨ p'.taken = p.taken ++ [f.seq]) (hqueued : p'.queued = p.queued)
    (hpopped : ∀ s, p'.Popped s → p.Popped s ∨ s = f.seq) : Ordered p' := by
  have hfront : f ∈ p.work_ := by simp [hwork]
  -- the front is older than the rest
  have hsorted := h.work_sorted
  rw [hwork, List.pairwise_cons] at hsorted
  refine
    { work_sorted := hwork' ▸ hsorted.2
      work_lt_next := fun g hg => ?_
      popped_lt_work := fun s hs g hg => ?_
      popped_lt_next := fun s hs => ?_
      taken_sorted := ?_
      queued_sorted := hqueued ▸ h.queued_sorted
      queued_lt_next := by rw [hqueued, hnext]; exact h.queued_lt_next }
  · rw [hwork'] at hg
    exact hnext ▸ h.work_lt_next g (by simp [hwork, hg])
  · rw [hwork'] at hg
    rcases hpopped s hs with hs | rfl
    · exact h.popped_lt_work s hs g (by simp [hwork, hg])
    · exact hsorted.1 g hg
  · rcases hpopped s hs with hs | rfl
    · exact hnext ▸ h.popped_lt_next s hs
    · exact hnext ▸ h.work_lt_next f hfront
  · rcases htaken with htaken | htaken
    · exact htaken ▸ h.taken_sorted
    · rw [htaken]
      refine List.pairwise_append.mpr ⟨h.taken_sorted, by simp, fun s hs t ht => ?_⟩
      obtain rfl := List.mem_singleton.mp ht
      exact h.popped_lt_work s (.inl hs) f hfront

theorem Ordered.step (h : Ordered p) (hstep : Step p e p') : Ordered p' := by
  cases hstep with
  | queue => exact h.queue
  | finish => exact h.finish
  | abortFinish => exact h.finish.of_frame rfl rfl rfl rfl fun _ hs => hs
  | cancelPending => exact h.cancel_pending
  | abortCancel => exact h.cancel_pending.of_frame rfl rfl rfl rfl fun _ hs => hs
  | start =>
    refine h.of_frame rfl rfl rfl rfl fun s hs => ?_
    simpa [startOne] using hs
  | notifyNobody => exact h.of_frame rfl rfl rfl rfl fun _ hs => hs
  | notifyAll => exact h.of_frame rfl rfl rfl rfl fun _ hs => exited_of_mem_map_wake hs
  | notifyOne | block | complete | spurious =>
    exact h.of_frame rfl rfl rfl rfl fun _ hs => exited_of_mem_set (by simp) hs
  | pop hw hwork =>
    -- the front becomes the last task that was taken
    refine h.pop_front hwork rfl rfl (.inr rfl) rfl fun s hs => ?_
    rcases hs with hs | hs
    · rcases List.mem_append.mp hs with hs | hs
      · exact .inl (.inl hs)
      · exact .inr (List.mem_singleton.mp hs)
    · exact .inl (.inr (exited_of_mem_set (by simp) hs))
  | exit hw hwork =>
    -- the front is a stop request, which its worker keeps
    refine h.pop_front hwork rfl rfl (.inl rfl) rfl fun s hs => ?_
    rcases hs with hs | hs
    · exact .inl (.inl hs)
    · rcases List.mem_or_eq_of_mem_set hs with hs | hs
      · exact .inl (.inr hs)
      · exact .inr (Worker.exited.inj hs)

/-- A task that was queued is in one place. -/
theorem Accounted.places_eq_one (h : Accounted p) (hord : Ordered p) (hs : s ∈ p.queued) :
    p.places s = 1 := by
  rw [h.places_eq]
  exact List.count_eq_one_of_mem (hord.queued_sorted.imp Nat.ne_of_lt) hs

/-- Every run keeps the deque in push order. -/
theorem ordered_of_reached (h : Reached es p) : Ordered p :=
  run_invariant Ordered (fun _ _ _ hI hs => hI.step (step_eq_some_iff.mp hs)) ordered_init h

end RealtimeUtilities.Tasks
