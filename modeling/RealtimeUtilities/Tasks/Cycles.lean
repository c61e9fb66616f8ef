import RealtimeUtilities.Tasks.ExactlyOnce
import RealtimeUtilities.Tasks.StopRequests
import RealtimeUtilities.Tasks.Shutdown

/-!
# Using a pool again after `finish()`

A client uses the pool in cycles: `start(N)` with `N ≥ 1`, any calls of `queue()`, one call of
`finish()`, and the next cycle only after all workers have exited (`Cyclic`).

`finish()` pushes one stop request for each future in `finished_`, and `finished_` also keeps
the futures of the workers of earlier cycles. The first cycle has none, so its requests are
used up by its own workers. The second one pushes a surplus, which stays in `work_` when its
workers have exited, and the workers of a third cycle return on it before they see a task.

* `two_cycles`: with at most two cycles every task is executed and every worker returns on a
  request of its own cycle, in every interleaving;
* `third_cycle_task_lost`: a task of a third cycle that no worker ever takes.

Behind `two_cycles` stands one invariant, `InCycles`: whatever a worker holds, returned on or
may still pop belongs to its own cycle. A cycle begins with an empty deque, because the requests
of the first `finish()` and the workers that return on them are equal in number.
-/

namespace RealtimeUtilities.Tasks

open Execution

variable {p p' : Tasks} {e : Event} {es : List Event} {w s : ℕ}

/-- The cycle in which something with sequence number `s` happened: the calls of `finish()`
before it. -/
def cycleOf (p : Tasks) (s : ℕ) : ℕ :=
  p.fences.countP (· < s)

/-- The current cycle has begun and its `finish()` was not called yet: some worker was started
after every `finish()`. -/
def CycleOpen (p : Tasks) : Prop :=
  ∃ b ∈ p.born, ∀ f ∈ p.fences, f < b

instance (p : Tasks) : Decidable p.CycleOpen :=
  inferInstanceAs (Decidable (∃ b ∈ p.born, ∀ f ∈ p.fences, f < b))

/-- The cycle `i` has workers and all of them have exited. -/
def CycleExited (p : Tasks) (i : ℕ) : Prop :=
  (∃ b ∈ p.born, p.cycleOf b = i) ∧
    ∀ (w b : ℕ) (x : Worker), p.born[w]? = some b → p.cycleOf b = i →
      p.workers[w]? = some x → x.isExited = true

/-- The client uses the pool in cycles: it starts workers in the current cycle, or in the next
one when all workers have exited; it queues and finishes in a cycle that has begun; and it
cancels nothing. -/
def Cyclic (p : Tasks) : Event → Prop
  | .start => p.CycleOpen ∨ AllExited p
  | .queue | .finish => p.CycleOpen
  | .cancelPending | .abortCancel | .abortFinish => False
  | .notifyOne _ | .notifyAll | .threadTask _ | .complete _ _ | .spurious _ => True

instance (p : Tasks) : (e : Event) → Decidable (Cyclic p e)
  | .start => inferInstanceAs (Decidable (p.CycleOpen ∨ AllExited p))
  | .queue | .finish => inferInstanceAs (Decidable p.CycleOpen)
  | .cancelPending | .abortCancel | .abortFinish => .isFalse id
  | .notifyOne _ | .notifyAll | .threadTask _ | .complete _ _ | .spurious _ => .isTrue trivial

/-- No worker is started after the second `finish()`. -/
def TwoCycles (p : Tasks) (e : Event) : Prop :=
  e = .start → p.fences.length < 2

instance (p : Tasks) (e : Event) : Decidable (TwoCycles p e) :=
  inferInstanceAs (Decidable (e = .start → p.fences.length < 2))

/-- What a client of a reusable pool relies on. -/
structure Reusable (p : Tasks) : Prop where
  /-- When the workers of a cycle have exited, its tasks have been executed, each once. -/
  executed : ∀ i, p.CycleExited i → ∀ s ∈ p.queued, p.cycleOf s = i → p.completed.count s = 1
  /-- No worker returned on a stop request pushed before it was started. -/
  own_stop : ∀ w b t : ℕ, p.born[w]? = some b → p.workers[w]? = some (.exited t) → b ≤ t

/-! ## Counting cycles -/

theorem countP_lt_countP {α : Type} {l : List α} {P Q : α → Bool} (h : ∀ x ∈ l, P x → Q x)
    {a : α} (ha : a ∈ l) (hP : P a = false) (hQ : Q a = true) : l.countP P < l.countP Q := by
  obtain ⟨l₁, l₂, rfl⟩ := List.append_of_mem ha
  have h₁ : l₁.countP P ≤ l₁.countP Q := List.countP_mono_left fun x hx => h x (by simp [hx])
  have h₂ : l₂.countP P ≤ l₂.countP Q := List.countP_mono_left fun x hx => h x (by simp [hx])
  rw [List.countP_append, List.countP_append, List.countP_cons, List.countP_cons, hP, hQ]
  simp only [Bool.false_eq_true, if_false, if_true]
  omega

/-- What comes after every `finish()` is in the current cycle. -/
theorem cycleOf_eq_length (h : ∀ f ∈ p.fences, f < s) : p.cycleOf s = p.fences.length := by
  rw [cycleOf, List.countP_eq_length]
  exact fun f hf => decide_eq_true (h f hf)

/-- A `finish()` that comes after `b` comes after all of the cycle of `b`. -/
theorem le_of_cycleOf_eq {b f : ℕ} (hf : f ∈ p.fences) (hb : b ≤ f)
    (hcycle : p.cycleOf b = p.cycleOf s) : s ≤ f := by
  by_contra hs
  have hlt : p.cycleOf b < p.cycleOf s := by
    refine countP_lt_countP (fun g _ hg => ?_) hf (decide_eq_false (by omega))
      (decide_eq_true (by omega))
    have := of_decide_eq_true hg
    exact decide_eq_true (by omega)
  exact Nat.ne_of_lt hlt hcycle

/-- A `finish()` moves nothing older to another cycle. -/
theorem cycleOf_finish (hs : s ≤ p.next) : p.finish.cycleOf s = p.cycleOf s := by
  simp only [cycleOf, Tasks.finish, List.countP_append, List.countP_singleton]
  rw [if_neg (by simpa using hs), Nat.add_zero]

theorem AllExited.cycleExited (h : AllExited p) {b i : ℕ} (hb : b ∈ p.born)
    (hi : p.cycleOf b = i) : p.CycleExited i :=
  ⟨⟨b, hb, hi⟩, fun _ _ x _ _ hx => h x (List.mem_of_getElem? hx)⟩

/-! ## The invariant -/

/-- The invariants of every run, whatever the client does. -/
structure Sound (p : Tasks) : Prop where
  sized : Sized p
  accounted : Accounted p
  ordered : Ordered p
  fenced : Fenced p

theorem sound_init : Sound init := ⟨⟨rfl, rfl⟩, accounted_init, ordered_init, fenced_init⟩

theorem Sound.step (h : Sound p) (hstep : Step p e p') : Sound p' :=
  ⟨h.sized.step hstep, h.accounted.step hstep, h.ordered.step hstep,
    h.fenced.step h.ordered hstep⟩

/-- The worker state `x` has to do with the entry `g`: it holds it, returned on it, or is
alive while `g` is pending. -/
def Serves (p : Tasks) (x : Worker) (g : PackagedTask) : Prop :=
  (∃ s, x = .running s ∧ g = .task s) ∨ (∃ t, x = .exited t ∧ g = .empty t) ∨
    (x.isExited = false ∧ g ∈ p.work_)

/-- The entry `g` belongs to the cycle of a worker started at `b`: it is a task of this cycle,
or a stop request that is not older than the worker. -/
def OwnEntry (p : Tasks) (b : ℕ) : PackagedTask → Prop
  | .task s => p.cycleOf b = p.cycleOf s
  | .empty t => b ≤ t

/-- The invariant of a pool used in at most two cycles. -/
structure InCycles (p : Tasks) : Prop where
  fence_lt_next : ∀ f ∈ p.fences, f < p.next
  born_le_next : ∀ b ∈ p.born, b ≤ p.next
  cancelled : p.cancelled = []
  /-- A stop request was pushed by a `finish()` with nothing started or queued in between. -/
  stop_near : ∀ t, p.StopRequest t →
    ∃ f ∈ p.fences, f ≤ t ∧ ∀ x, x ∈ p.born ∨ x ∈ p.queued → f < x → t < x
  /-- A task is queued in a cycle that has workers. -/
  home : ∀ s ∈ p.queued, ∃ b ∈ p.born, p.cycleOf b = p.cycleOf s
  /-- Between the first two cycles, stop requests and returned workers add up. -/
  balanced : ¬ p.CycleOpen → p.fences.length ≤ 1 →
    p.stopCount + p.exitedCount = p.workers.length
  /-- An open cycle has no stop request, and no task of an earlier cycle. -/
  open_work : p.CycleOpen → ∀ g ∈ p.work_, g.valid = true ∧ ∀ f ∈ p.fences, f < g.seq
  /-- In an open cycle the workers of earlier cycles have exited. -/
  open_live : p.CycleOpen → ∀ (w b : ℕ) (x : Worker), p.born[w]? = some b →
    p.workers[w]? = some x → x.isExited = false → ∀ f ∈ p.fences, f < b
  /-- Workers and entries meet in their own cycle only. -/
  own : ∀ (w b : ℕ) (x : Worker) (g : PackagedTask), p.born[w]? = some b →
    p.workers[w]? = some x → p.Serves x g → p.OwnEntry b g

theorem inCycles_init : InCycles init := by
  constructor <;> simp [init, StopRequest, stopCount, exitedCount]

/-- What workers serve was queued, or is a stop request. -/
theorem Accounted.queued_of_serves (h : Accounted p) {x : Worker} (hx : x ∈ p.workers)
    (hserves : p.Serves x (.task s)) : s ∈ p.queued := by
  rw [← List.count_pos_iff, ← h.places_eq, places]
  rcases hserves with ⟨t, rfl, ht⟩ | ⟨t, -, ht⟩ | ⟨-, hmem⟩
  · obtain rfl := PackagedTask.task.inj ht
    have := List.count_pos_iff.mpr hx
    omega
  · cases ht
  · have := List.count_pos_iff.mpr hmem
    omega

/-- Two lists of one length have entries at the same places. -/
theorem exists_getElem?_of_length {α β : Type} {l : List α} {m : List β} {y : β}
    (hlen : l.length = m.length) (hy : m[w]? = some y) : ∃ x, l[w]? = some x := by
  obtain ⟨hlt, -⟩ := List.getElem?_eq_some_iff.mp hy
  exact ⟨_, List.getElem?_eq_getElem (hlen ▸ hlt)⟩

/-- **The tasks of a cycle whose workers have exited.** A worker of the cycle returned on a
request younger than all these tasks, so they left `work_`; and whoever holds one is a worker
of the cycle, so they completed. -/
theorem InCycles.executed (h : InCycles p) (hsound : Sound p) {i : ℕ} (hexited : p.CycleExited i)
    (hs : s ∈ p.queued) (hi : p.cycleOf s = i) : p.completed.count s = 1 := by
  obtain ⟨⟨b, hb, hbi⟩, hall⟩ := hexited
  obtain ⟨w, hw⟩ := List.mem_iff_getElem?.mp hb
  obtain ⟨x, hx⟩ := exists_getElem?_of_length hsound.sized.births.symm hw
  obtain ⟨t, rfl⟩ : ∃ t, x = .exited t := by
    have := hall w b x hw hbi hx
    cases x <;> simp_all [Worker.isExited]
  -- the worker `w` returned on `t`, and `t` is younger than `s`
  have hstop : p.StopRequest t := .inr (List.mem_of_getElem? hx)
  have hbt : b ≤ t := h.own w b _ (.empty t) hw hx (.inr (.inl ⟨t, rfl, rfl⟩))
  obtain ⟨f, hf, hft, hnear⟩ := h.stop_near t hstop
  have hbf : b ≤ f := Nat.le_of_not_lt fun hlt => by
    have := hnear b (.inl hb) hlt
    omega
  have hsf : s ≤ f := le_of_cycleOf_eq hf hbf (hbi.trans hi.symm)
  have hst : s ≠ t := by
    rintro rfl
    exact hsound.fenced.not_queued s hstop hs
  have hwork : p.work_.count (.task s) = 0 := by
    rw [List.count_eq_zero]
    intro hmem
    have := hsound.ordered.popped_lt_work t (.inr (List.mem_of_getElem? hx)) _ hmem
    simp only [PackagedTask.seq_task] at this
    omega
  have hheld : p.workers.count (.running s) = 0 := by
    rw [List.count_eq_zero]
    intro hmem
    obtain ⟨v, hv⟩ := List.mem_iff_getElem?.mp hmem
    obtain ⟨b', hborn⟩ := exists_getElem?_of_length hsound.sized.births hv
    have hown := h.own v _ _ (.task s) hborn hv (.inl ⟨s, rfl, rfl⟩)
    exact Bool.noConfusion (hall v _ _ hborn (Eq.trans hown hi) hv)
  have hone := hsound.accounted.places_eq_one hsound.ordered hs
  simpa [places, hwork, hheld, h.cancelled] using hone

theorem InCycles.reusable (h : InCycles p) (hsound : Sound p) : Reusable p where
  executed _ hexited _ hs hi := h.executed hsound hexited hs hi
  own_stop w b t hb hw := h.own w b _ (.empty t) hb hw (.inr (.inl ⟨t, rfl, rfl⟩))

/-! ## Steps of the workers and notifications -/

/-- The steps that neither start, nor queue, nor finish, nor cancel: they leave the history of
the client alone and move stop requests from `work_` to exited workers. -/
structure Quiet (p p' : Tasks) : Prop where
  born : p'.born = p.born
  fences : p'.fences = p.fences
  next : p'.next = p.next
  queued : p'.queued = p.queued
  cancelled : p'.cancelled = p.cancelled
  work : ∀ g ∈ p'.work_, g ∈ p.work_
  sum : p'.stopCount + p'.exitedCount = p.stopCount + p.exitedCount
  length : p'.workers.length = p.workers.length
  /-- No worker comes to life, and none serves what it did not serve before. -/
  worker : ∀ (w : ℕ) (x' : Worker), p'.workers[w]? = some x' → ∃ x : Worker,
    p.workers[w]? = some x ∧ (x'.isExited = false → x.isExited = false) ∧
    ∀ g, p'.Serves x' g → p.Serves x g

/-- The worker `w`, which has not exited, goes to a state in which it serves entries that were
pending before. -/
theorem worker_of_set {x y : Worker} (hw : p.workers[w]? = some x) (hx : x.isExited = false)
    (hworkers : p'.workers = p.workers.set w y) (hwork : ∀ g ∈ p'.work_, g ∈ p.work_)
    (hy : ∀ g, p'.Serves y g → g ∈ p.work_) (v : ℕ) (x' : Worker)
    (hv : p'.workers[v]? = some x') :
    ∃ z : Worker, p.workers[v]? = some z ∧ (x'.isExited = false → z.isExited = false) ∧
      ∀ g, p'.Serves x' g → p.Serves z g := by
  obtain ⟨hlt, -⟩ := List.getElem?_eq_some_iff.mp hw
  rw [hworkers] at hv
  by_cases hvw : w = v
  · subst hvw
    rw [List.getElem?_set_self hlt] at hv
    obtain rfl := Option.some.inj hv
    exact ⟨x, hw, fun _ => hx, fun g hg => .inr (.inr ⟨hx, hy g hg⟩)⟩
  · rw [List.getElem?_set_ne hvw] at hv
    refine ⟨x', hv, id, fun g hg => ?_⟩
    exact hg.imp_right fun hg => hg.imp_right fun hg => ⟨hg.1, hwork g hg.2⟩

/-- A worker that holds nothing and has not exited serves what is pending. -/
theorem mem_work_of_serves {x : Worker} {g : PackagedTask} (hrun : ∀ s, x ≠ .running s)
    (hexit : ∀ t, x ≠ .exited t) (h : p.Serves x g) : g ∈ p.work_ := by
  rcases h with ⟨s, hs, -⟩ | ⟨t, ht, -⟩ | ⟨-, hmem⟩
  · exact absurd hs (hrun s)
  · exact absurd ht (hexit t)
  · exact hmem

/-- A step that moves the worker `w` to `awake` or `blocked` and leaves the deque alone. -/
theorem quiet_set {x y : Worker} (hw : p.workers[w]? = some x) (hx : x.isExited = false)
    (hy : y = .awake ∨ y = .blocked) (notifyOnes : ℕ) (completed : List ℕ) :
    Quiet p { p.setWorker w y with notifyOnes := notifyOnes, completed := completed } where
  born := rfl
  fences := rfl
  next := rfl
  queued := rfl
  cancelled := rfl
  work _ hg := hg
  sum := by
    have hyexit : y.isExited = false := by rcases hy with rfl | rfl <;> rfl
    exact congrArg _ (countP_set_not_exited hw hx hyexit)
  length := List.length_set
  worker := by
    refine worker_of_set hw hx rfl (fun _ hg => hg) fun g hg => ?_
    rcases hy with rfl | rfl
    · exact mem_work_of_serves (by simp) (by simp) hg
    · exact mem_work_of_serves (by simp) (by simp) hg

/-- What the steps of the workers and of the notifications have in common. -/
theorem quiet_of_step (hstep : Step p e p') (hcyclic : Cyclic p e) (hstart : e ≠ .start)
    (hqueue : e ≠ .queue) (hfinish : e ≠ .finish) : Quiet p p' := by
  cases hstep with
  | start => exact absurd rfl hstart
  | queue => exact absurd rfl hqueue
  | finish => exact absurd rfl hfinish
  | cancelPending => exact hcyclic.elim
  | abortCancel => exact hcyclic.elim
  | abortFinish => exact hcyclic.elim
  | notifyOne hpending hw => exact quiet_set hw rfl (.inl rfl) _ _
  | notifyNobody =>
    exact ⟨rfl, rfl, rfl, rfl, rfl, fun _ hg => hg, rfl, rfl,
      fun w x' hw => ⟨x', hw, id, fun _ hg => hg⟩⟩
  | notifyAll =>
    refine ⟨rfl, rfl, rfl, rfl, rfl, fun _ hg => hg, ?_, List.length_map _, fun w x' hw => ?_⟩
    · exact congrArg _ (countP_map_wake _)
    · obtain ⟨x, hx, rfl⟩ := Option.map_eq_some_iff.mp (List.getElem?_map.symm.trans hw)
      refine ⟨x, hx, fun hlive => ?_, fun g hg => ?_⟩
      · cases x <;> simp_all [Worker.wake, Worker.isExited]
      · -- a blocked worker serves the deque before and after
        cases x with
        | blocked => exact .inr (.inr ⟨rfl, mem_work_of_serves (by simp [Worker.wake])
            (by simp [Worker.wake]) hg⟩)
        | _ => exact hg
  | block hw => exact quiet_set hw rfl (.inr rfl) _ _
  | @pop w s rest hw hwork =>
    have hrest : ∀ g ∈ rest, g ∈ p.work_ := fun g hg => by simp [hwork, hg]
    refine ⟨rfl, rfl, rfl, rfl, rfl, hrest, ?_, List.length_set,
      worker_of_set hw rfl rfl hrest fun g hg => ?_⟩
    · have hcount : p.exitedCount = (p.setWorker w (.running s)).exitedCount :=
        (countP_set_not_exited hw rfl rfl).symm
      have hstops : p.stopCount = rest.countP fun f => !f.valid := by
        rw [stopCount, hwork, List.countP_cons_of_neg (by simp)]
      rw [hcount, hstops]
      rfl
    · rcases hg with ⟨t, ht, rfl⟩ | ⟨t, ht, -⟩ | ⟨-, hmem⟩
      · simp [hwork, Worker.running.inj ht]
      · cases ht
      · exact hrest g hmem
  | @exit w t rest hw hwork =>
    have hrest : ∀ g ∈ rest, g ∈ p.work_ := fun g hg => by simp [hwork, hg]
    refine ⟨rfl, rfl, rfl, rfl, rfl, hrest, ?_, List.length_set,
      worker_of_set hw rfl rfl hrest fun g hg => ?_⟩
    · -- one stop request less, one exited worker more
      simp only [stopCount, exitedCount, setWorker, countP_set_exited hw rfl, hwork]
      rw [List.countP_cons_of_pos (by rfl)]
      omega
    · rcases hg with ⟨s, hs, -⟩ | ⟨u, hu, rfl⟩ | ⟨hlive, -⟩
      · cases hs
      · simp [hwork, Worker.exited.inj hu]
      · cases hlive
  | complete hw => exact quiet_set hw rfl (.inl rfl) _ _
  | spurious hw => exact quiet_set hw rfl (.inl rfl) _ _

/-- The cycles are the same after a quiet step. -/
theorem Quiet.cycleOf (h : Quiet p p') (s : ℕ) : p'.cycleOf s = p.cycleOf s := by
  rw [Tasks.cycleOf, h.fences, Tasks.cycleOf]

theorem Quiet.cycleOpen (h : Quiet p p') : p'.CycleOpen ↔ p.CycleOpen := by
  rw [CycleOpen, h.fences, h.born, CycleOpen]

theorem Quiet.stopRequest (h : Quiet p p') {t : ℕ} (ht : p'.StopRequest t) :
    p.StopRequest t := by
  rcases ht with ht | ht
  · exact .inl (h.work _ ht)
  · obtain ⟨w, hw⟩ := List.mem_iff_getElem?.mp ht
    obtain ⟨x, hx, -, hserves⟩ := h.worker w _ hw
    rcases hserves (.empty t) (.inr (.inl ⟨t, rfl, rfl⟩)) with
      ⟨s, -, hs⟩ | ⟨u, rfl, hu⟩ | ⟨-, hmem⟩
    · cases hs
    · rw [PackagedTask.empty.inj hu]
      exact .inr (List.mem_of_getElem? hx)
    · exact .inl hmem

theorem InCycles.quiet (h : InCycles p) (hq : Quiet p p') : InCycles p' where
  fence_lt_next := by rw [hq.fences, hq.next]; exact h.fence_lt_next
  born_le_next := by rw [hq.born, hq.next]; exact h.born_le_next
  cancelled := hq.cancelled.trans h.cancelled
  stop_near t ht := by
    rw [hq.fences, hq.born, hq.queued]
    exact h.stop_near t (hq.stopRequest ht)
  home s hs := by
    rw [hq.queued] at hs
    simp only [hq.born, hq.cycleOf]
    exact h.home s hs
  balanced hopen hlen := by
    rw [hq.sum, hq.length]
    rw [hq.cycleOpen] at hopen
    rw [hq.fences] at hlen
    exact h.balanced hopen hlen
  open_work hopen g hg := by
    rw [hq.fences]
    exact h.open_work (hq.cycleOpen.mp hopen) g (hq.work g hg)
  open_live hopen w b x' hb hw hlive := by
    obtain ⟨x, hx, hxlive, -⟩ := hq.worker w x' hw
    rw [hq.born] at hb
    rw [hq.fences]
    exact h.open_live (hq.cycleOpen.mp hopen) w b x hb hx (hxlive hlive)
  own w b x' g hb hw hserves := by
    obtain ⟨x, hx, -, hback⟩ := hq.worker w x' hw
    rw [hq.born] at hb
    have hown := h.own w b x g hb hx (hback g hserves)
    cases g with
    | task s => simpa only [OwnEntry, hq.cycleOf] using hown
    | empty t => exact hown

/-! ## Steps of the client -/

/-- When all workers have exited between two cycles, nothing is left in the deque. -/
theorem InCycles.work_eq_nil (h : InCycles p) (hsound : Sound p) (hopen : ¬ p.CycleOpen)
    (hlen : p.fences.length ≤ 1) (hexited : AllExited p) : p.work_ = [] := by
  have hsum := h.balanced hopen hlen
  rw [exited_eq_length_iff.mpr hexited] at hsum
  -- no stop request: they are all used up
  have hnostop : p.stopCount = 0 := by omega
  refine List.eq_nil_iff_forall_not_mem.mpr fun g hg => ?_
  cases g with
  | empty t => simpa using List.countP_eq_zero.mp hnostop _ hg
  | task s =>
    -- no task: the workers of its cycle have exited
    have hwork : 0 < p.work_.count (.task s) := List.count_pos_iff.mpr hg
    have hs : s ∈ p.queued := by
      rw [← List.count_pos_iff, ← hsound.accounted.places_eq, places]
      omega
    obtain ⟨b, hb, hbs⟩ := h.home s hs
    have hdone := h.executed hsound (hexited.cycleExited hb hbs) hs rfl
    have hone := hsound.accounted.places_eq_one hsound.ordered hs
    rw [places] at hone
    omega

theorem InCycles.startOne (h : InCycles p) (hsound : Sound p)
    (hcyclic : p.CycleOpen ∨ AllExited p) (htwo : p.fences.length < 2) : InCycles p.startOne := by
  have hopen' : p.startOne.CycleOpen := ⟨p.next, by simp [Tasks.startOne], h.fence_lt_next⟩
  have hwork : ∀ g ∈ p.work_, g.valid = true ∧ ∀ f ∈ p.fences, f < g.seq := fun g hg => by
    by_cases hopen : p.CycleOpen
    · exact h.open_work hopen g hg
    · have hnil := h.work_eq_nil hsound hopen (by omega)
        (hcyclic.resolve_left hopen)
      simp [hnil] at hg
  -- a worker of the new state is an old one, or the one that was started
  have hcases : ∀ (w b : ℕ) (x : Worker), p.startOne.born[w]? = some b →
      p.startOne.workers[w]? = some x →
      (p.born[w]? = some b ∧ p.workers[w]? = some x) ∨ (b = p.next ∧ x = .awake) := by
    intro w b x hb hx
    simp only [Tasks.startOne, List.getElem?_append, hsound.sized.births] at hb hx
    split_ifs at hb hx with hlt
    · exact .inl ⟨hb, hx⟩
    · exact .inr ⟨List.mem_singleton.mp (List.mem_of_getElem? hb),
        List.mem_singleton.mp (List.mem_of_getElem? hx)⟩
  exact
    { fence_lt_next := h.fence_lt_next
      born_le_next := fun b hb => by
        rcases List.mem_append.mp hb with hb | hb
        · exact h.born_le_next b hb
        · exact Nat.le_of_eq (List.mem_singleton.mp hb)
      cancelled := h.cancelled
      stop_near := fun t ht => by
        have hstop : p.StopRequest t := by simpa [StopRequest, Tasks.startOne] using ht
        obtain ⟨f, hf, hft, hnear⟩ := h.stop_near t hstop
        refine ⟨f, hf, hft, fun x hx hfx => ?_⟩
        rcases hx with hx | hx
        · rcases List.mem_append.mp hx with hx | hx
          · exact hnear x (.inl hx) hfx
          · rw [List.mem_singleton.mp hx]
            exact hsound.ordered.stop_lt_next hstop
        · exact hnear x (.inr hx) hfx
      home := fun s hs => by
        obtain ⟨b, hb, hbs⟩ := h.home s hs
        exact ⟨b, List.mem_append_left _ hb, hbs⟩
      balanced := fun hclosed => absurd hopen' hclosed
      open_work := fun _ => hwork
      -- a cycle begins when the workers of all earlier ones have exited
      open_live := fun _ w b x hb hx hlive => by
        rcases hcases w b x hb hx with ⟨hb, hx⟩ | ⟨rfl, -⟩
        · by_cases hopen : p.CycleOpen
          · exact h.open_live hopen w b x hb hx hlive
          · have hexited := hcyclic.resolve_left hopen x (List.mem_of_getElem? hx)
            rw [hlive] at hexited
            exact Bool.noConfusion hexited
        · exact h.fence_lt_next
      own := fun w b x g hb hx hserves => by
        rcases hcases w b x hb hx with ⟨hb, hx⟩ | ⟨rfl, rfl⟩
        · exact h.own w b x g hb hx hserves
        · -- what is pending when the worker starts was queued in its cycle
          have hg : g ∈ p.work_ := mem_work_of_serves (by simp) (by simp) hserves
          obtain ⟨hvalid, hlate⟩ := hwork g hg
          cases g with
          | task s =>
            exact (cycleOf_eq_length h.fence_lt_next).trans (cycleOf_eq_length hlate).symm
          | empty t => exact Bool.noConfusion hvalid }

theorem InCycles.queue (h : InCycles p) (hsound : Sound p) (hopen : p.CycleOpen) :
    InCycles p.queue where
  fence_lt_next f hf := Nat.lt_succ_of_lt (h.fence_lt_next f hf)
  born_le_next b hb := Nat.le_succ_of_le (h.born_le_next b hb)
  cancelled := h.cancelled
  stop_near t ht := by
    have hstop : p.StopRequest t := by simpa [StopRequest, Tasks.queue] using ht
    obtain ⟨f, hf, hft, hnear⟩ := h.stop_near t hstop
    refine ⟨f, hf, hft, fun x hx hfx => ?_⟩
    rcases hx with hx | hx
    · exact hnear x (.inl hx) hfx
    · rcases List.mem_append.mp hx with hx | hx
      · exact hnear x (.inr hx) hfx
      · rw [List.mem_singleton.mp hx]
        exact hsound.ordered.stop_lt_next hstop
  home s hs := by
    rcases List.mem_append.mp hs with hs | hs
    · exact h.home s hs
    · obtain rfl := List.mem_singleton.mp hs
      obtain ⟨b, hb, hlate⟩ := hopen
      exact ⟨b, hb, (cycleOf_eq_length hlate).trans (cycleOf_eq_length h.fence_lt_next).symm⟩
  balanced hclosed := absurd hopen hclosed
  open_work _ g hg := by
    rcases List.mem_append.mp hg with hg | hg
    · exact h.open_work hopen g hg
    · obtain rfl := List.mem_singleton.mp hg
      exact ⟨rfl, h.fence_lt_next⟩
  open_live _ := h.open_live hopen
  own w b x g hb hx hserves := by
    rcases hserves with hheld | hexit | ⟨hlive, hg⟩
    · exact h.own w b x g hb hx (.inl hheld)
    · exact h.own w b x g hb hx (.inr (.inl hexit))
    · rcases List.mem_append.mp hg with hg | hg
      · exact h.own w b x g hb hx (.inr (.inr ⟨hlive, hg⟩))
      · -- the new task, and a live worker: both are of the open cycle
        obtain rfl := List.mem_singleton.mp hg
        have hlate := h.open_live hopen w b x hb hx hlive
        exact (cycleOf_eq_length hlate).trans (cycleOf_eq_length h.fence_lt_next).symm

/-- The first `finish()` pushes as many stop requests as there are workers, and there was none
before. -/
theorem sum_finish_of_fences_eq_nil (hsound : Sound p) (hfirst : p.fences = []) :
    p.finish.stopCount + p.finish.exitedCount = p.workers.length := by
  have hnone : ∀ t, ¬ p.StopRequest t := fun t ht => by
    obtain ⟨f, hf, -⟩ := hsound.fenced.exists_fence_le t ht
    simp [hfirst] at hf
  have hexited : p.finish.exitedCount = 0 := by
    refine List.countP_eq_zero.mpr fun x hx hexit => ?_
    cases x with
    | exited t => exact hnone t (.inr hx)
    | _ => cases hexit
  have hold : p.work_.countP (fun f => !f.valid) = 0 := by
    refine List.countP_eq_zero.mpr fun g hg hstop => ?_
    cases g with
    | empty t => exact hnone t (.inl hg)
    | task s => cases hstop
  rw [hexited, stopCount, Tasks.finish, List.countP_append, hold, countP_mapIdx_empty,
    hsound.sized.futures, Nat.zero_add]
  rfl

/-- After a `finish()` a worker serves what it served before, or a request pushed just now. -/
theorem serves_finish {x : Worker} {g : PackagedTask} (h : p.finish.Serves x g) :
    p.Serves x g ∨ ∃ t, g = .empty t ∧ p.next ≤ t := by
  rcases h with hheld | hexit | ⟨hlive, hg⟩
  · exact .inl (.inl hheld)
  · exact .inl (.inr (.inl hexit))
  · rcases List.mem_append.mp hg with hg | hg
    · exact .inl (.inr (.inr ⟨hlive, hg⟩))
    · obtain ⟨i, -, rfl⟩ := List.mem_mapIdx.mp hg
      exact .inr ⟨_, rfl, Nat.le_add_right _ _⟩

theorem InCycles.finish (h : InCycles p) (hsound : Sound p) (hopen : p.CycleOpen) :
    InCycles p.finish := by
  have hpos : 0 < p.finished_.length := by
    obtain ⟨b, hb, -⟩ := hopen
    rw [hsound.sized.futures, ← hsound.sized.births]
    exact List.length_pos_of_mem hb
  have hclosed : ¬ p.finish.CycleOpen := by
    rintro ⟨b, hb, hlate⟩
    have hlt : p.next < b := hlate p.next (by simp [Tasks.finish])
    exact Nat.not_le.mpr hlt (h.born_le_next b hb)
  have hqueued : ∀ s ∈ p.queued, p.finish.cycleOf s = p.cycleOf s := fun s hs =>
    cycleOf_finish (Nat.le_of_lt (hsound.ordered.queued_lt_next s hs))
  exact
    { fence_lt_next := fun f hf => by
        rcases List.mem_append.mp hf with hf | hf
        · exact Nat.lt_add_right _ (h.fence_lt_next f hf)
        · rw [List.mem_singleton.mp hf]
          exact Nat.lt_add_of_pos_right hpos
      born_le_next := fun b hb => Nat.le_add_right_of_le (h.born_le_next b hb)
      cancelled := h.cancelled
      stop_near := fun t ht => by
        rcases stopRequest_finish ht with hstop | hle
        · obtain ⟨f, hf, hft, hnear⟩ := h.stop_near t hstop
          exact ⟨f, List.mem_append_left _ hf, hft, hnear⟩
        · refine ⟨p.next, by simp [Tasks.finish], hle, fun x hx hlt => ?_⟩
          -- nothing was started or queued after this `finish()`
          rcases hx with hx | hx
          · exact absurd (h.born_le_next x hx) (Nat.not_le.mpr hlt)
          · exact absurd (hsound.ordered.queued_lt_next x hx)
              (Nat.not_lt.mpr (Nat.le_of_lt hlt))
      home := fun s hs => by
        obtain ⟨b, hb, hbs⟩ := h.home s hs
        refine ⟨b, hb, ?_⟩
        rw [cycleOf_finish (h.born_le_next b hb), hqueued s hs, hbs]
      balanced := fun _ hlen => by
        have hfirst : p.fences = [] := by
          simp only [Tasks.finish, List.length_append, List.length_singleton] at hlen
          exact List.length_eq_zero_iff.mp (by omega)
        exact sum_finish_of_fences_eq_nil hsound hfirst
      open_work := fun hopen' => absurd hopen' hclosed
      open_live := fun hopen' => absurd hopen' hclosed
      own := fun w b x g hb hx hserves => by
        have hble : b ≤ p.next := h.born_le_next b (List.mem_of_getElem? hb)
        rcases serves_finish hserves with hserves | ⟨t, rfl, hle⟩
        · have hown := h.own w b x g hb hx hserves
          cases g with
          | task s =>
            have hs := hsound.accounted.queued_of_serves (List.mem_of_getElem? hx) hserves
            rw [OwnEntry, cycleOf_finish hble, hqueued s hs]
            exact hown
          | empty t => exact hown
        · exact Nat.le_trans hble hle }

/-- A step of the client or of a worker keeps `InCycles`, in the first two cycles. -/
theorem InCycles.step (h : InCycles p) (hsound : Sound p) (hcyclic : Cyclic p e)
    (htwo : TwoCycles p e) (hstep : Step p e p') : InCycles p' := by
  by_cases hstart : e = .start
  · subst hstart
    cases hstep
    exact h.startOne hsound hcyclic (htwo rfl)
  by_cases hqueue : e = .queue
  · subst hqueue
    cases hstep
    exact h.queue hsound hcyclic
  by_cases hfinish : e = .finish
  · subst hfinish
    cases hstep
    exact h.finish hsound hcyclic
  exact h.quiet (quiet_of_step hstep hcyclic hstart hqueue hfinish)

/-- **Two cycles.** A pool that is used in cycles, and in at most two of them, is reusable in
every state that any interleaving reaches: once the workers of a cycle have exited, every task
of the cycle has been executed once, and no worker returned on a stop request that is older
than itself. -/
theorem two_cycles (h : Reached es p) (hcyclic : Along step Cyclic init es)
    (htwo : Along step TwoCycles init es) : Reusable p := by
  have hinv : Sound p ∧ InCycles p := by
    refine run_invariant_along (fun q => Sound q ∧ InCycles q) ?_ ⟨sound_init, inCycles_init⟩
      (hcyclic.and htwo) h
    intro q e q' ⟨hsound, hin⟩ hC hs
    have hstep := step_eq_some_iff.mp hs
    exact ⟨hsound.step hstep, hin.step hsound hC.1 hC.2 hstep⟩
  exact hinv.2.reusable hinv.1

/-- Two cycles of one worker each: the second worker runs its task and returns, although the
first one left nothing for it but a surplus. -/
theorem two_cycles_two_workers :
    ∃ p, Reached [.start, .finish, .notifyAll, .threadTask 0, .start, .queue, .finish,
      .notifyAll, .threadTask 1, .complete 1 false, .threadTask 1] p ∧ Reusable p :=
  ⟨_, rfl, @two_cycles _ [.start, .finish, .notifyAll, .threadTask 0, .start, .queue, .finish,
    .notifyAll, .threadTask 1, .complete 1 false, .threadTask 1] rfl (by decide) (by decide)⟩

/-- Three cycles of one worker each. The second `finish()` pushes two stop requests, and the
worker of the third cycle returns on the surplus: its task stays in the deque for good. -/
theorem third_cycle_task_lost :
    ∃ es p, Reached es p ∧ Along step Cyclic init es ∧ p.CycleExited 2 ∧
      p.queued = [3] ∧ p.cycleOf 3 = 2 ∧ p.completed = [] ∧
      p.born[2]? = some 3 ∧ p.workers[2]? = some (.exited 2) ∧ ¬ Reusable p := by
  refine ⟨[.start, .finish, .notifyAll, .threadTask 0, .start, .finish, .notifyAll,
    .threadTask 1, .start, .queue, .notifyOne 2, .threadTask 2, .finish, .notifyAll], _, rfl,
    by decide, AllExited.cycleExited (by decide) (b := 3) (by decide) (by decide), rfl,
    by decide, rfl, rfl, rfl, fun h => ?_⟩
  exact absurd (h.own_stop 2 3 2 rfl rfl) (by decide)

end RealtimeUtilities.Tasks
