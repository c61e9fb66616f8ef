import Mathlib.Data.Finset.Basic
import Mathlib.Data.Finset.Card
import RealtimeUtilities.ToMathlib.Routine

/-!
# Accesses that take time

A `Routine` on a memory of cells reads and writes in one atomic step. Here an access copies one cell
at a time, in any order, and the routine holds a lock meanwhile. Calls that access a cell in common
hold the same lock.

`Refines` relates such a system to the one with atomic accesses, in which an access happens when the
lock for it is taken: cells that are still to be written have their new value there already.

## Main results

* `refines_of_run`: every interleaving of the copies is an interleaving of atomic accesses;
* `exists_quiet`: the accesses under way can be completed, and this leaves the memory and the calls
  of the atomic system.
-/

namespace Routine

variable {ι β L M F R : Type}

/-- The routine accesses `cells` only: what it reads elsewhere does not matter, and its writes store
there what does not depend on the memory. -/
def Within (cells : Finset ι) : Routine (ι → β) F R → Prop
  | done _ | abort _ => True
  | read k =>
      (∀ s s', (∀ i ∈ cells, s i = s' i) → k s = k s') ∧ ∀ s, (k s).Within cells
  | write g p =>
      ((∀ s s', ∀ i ∈ cells, g s i = g s' i) ∧ ∀ s, ∀ i ∉ cells, g s i = s i) ∧ p.Within cells

theorem within_of_isEnded {cells : Finset ι} {p : Routine (ι → β) F R} (h : p.isEnded = true) :
    p.Within cells := by
  cases p with
  | done r | abort f => trivial
  | read k | write g p => cases h

/-- Calls of routines that hold a lock for each access. -/
structure Locking (ι β L M F R : Type) where
  /-- What a call runs. -/
  body : L → Routine (ι → β) F R
  /-- The cells that an access of a call copies. -/
  cells : L → Finset ι
  /-- The lock that a call takes. -/
  lock : L → M
  /-- What a call reads into, as it is before. -/
  buffer : L → ι → β
  within : ∀ l, (body l).Within (cells l)

/-- Where a call is. -/
inductive Stage (ι β F R : Type) where
  /-- Between two accesses, or at the end. -/
  | between (p : Routine (ι → β) F R)
  /-- The cells `todo` are still to be copied to `buffer`, and then the call goes on with `k`. -/
  | reading (k : (ι → β) → Routine (ι → β) F R) (buffer : ι → β) (todo : Finset ι)
  /-- The cells `todo` are still to be written as `g` says, and then the call goes on with `p`. -/
  | writing (g : (ι → β) → ι → β) (p : Routine (ι → β) F R) (todo : Finset ι)

namespace Stage

/-- The call holds its lock. -/
def copying : Stage ι β F R → Bool
  | between _ => false
  | reading _ _ _ | writing _ _ _ => true

/-- The cells that a call is still to write. -/
def pending : Stage ι β F R → Finset ι
  | between _ | reading _ _ _ => ∅
  | writing _ _ todo => todo

/-- The copies that a call is still to make, and the release of its lock. -/
def remaining : Stage ι β F R → ℕ
  | between _ => 0
  | reading _ _ todo | writing _ _ todo => todo.card + 1

/-- The start of the next access of a routine, which holds its lock by now. -/
def start (cells : Finset ι) (buffer : ι → β) : Routine (ι → β) F R → Stage ι β F R
  | .read k => reading k buffer cells
  | .write g p => writing g p cells
  | .done r => between (.done r)
  | .abort f => between (.abort f)

end Stage

/-- The memory with the calls made so far, each with its label and where it is. -/
structure Copies (ι β L F R : Type) where
  memory : ι → β
  calls : List (L × Stage ι β F R)

/-- Who moves next. -/
inductive CopyMove (L ι : Type) where
  /-- Some thread calls the routine labelled `l`, runs it to its first access and takes the lock. -/
  | call (l : L)
  /-- The call `c` takes the lock for its next access. -/
  | acquire (c : ℕ)
  /-- The call `c` copies the cell `i`. It may do so more than once. -/
  | copy (c : ℕ) (i : ι)
  /-- The call `c`, which has copied all cells, releases the lock. -/
  | release (c : ℕ)
  deriving DecidableEq

/-- The move of the atomic system: an access happens when the lock is taken. -/
def CopyMove.atomic : CopyMove L ι → Option (Move L)
  | .call l => some (.call l)
  | .acquire c => some (.access c)
  | .copy _ _ | .release _ => none

/-! ## Labels -/

/-- The calls with other labels. -/
def Threads.relabel {S L' : Type} (f : L → L') (v : Threads S L F R) : Threads S L' F R where
  shared := v.shared
  calls := v.calls.map fun y => (f y.1, y.2)

/-- The move with another label. -/
def Move.relabel {L' : Type} (f : L → L') : Move L → Move L'
  | .call l => .call (f l)
  | .access c => .access c

/-- What a call runs is all that matters of its label. -/
theorem Threads.run_relabel {S L' : Type} {f : L → L'} {body : L → Routine S F R}
    {body' : L' → Routine S F R} (hf : ∀ l, body' (f l) = body l) {v v' : Threads S L F R}
    {ms : List (Move L)} (hrun : Execution.run (Threads.step body) v ms = some v') :
    Execution.run (Threads.step body') (v.relabel f) (ms.map (Move.relabel f)) =
      some (v'.relabel f) := by
  induction ms generalizing v with
  | nil =>
    obtain rfl := Option.some.inj hrun
    rfl
  | cons m ms ih =>
    obtain ⟨t, ht, hrest⟩ := Execution.run_cons_eq_some.mp hrun
    refine Execution.run_cons_eq_some.mpr ⟨t.relabel f, ?_, ih hrest⟩
    cases m with
    | call l =>
      obtain rfl := Option.some.inj ht
      simp [Move.relabel, Threads.step, Threads.relabel, hf]
    | access c =>
      obtain ⟨l, p, q, s, hc, hp, rfl⟩ := Threads.step_access ht
      simp [Move.relabel, Threads.step, Threads.relabel, hc, hp, List.map_set]

namespace Copies

section Step

variable [DecidableEq ι] [DecidableEq M] (K : Locking ι β L M F R)
variable {w w' : Copies ι β L F R} {m : CopyMove L ι}

/-- Some call holds the lock `a`. -/
def held (w : Copies ι β L F R) (a : M) : Bool :=
  w.calls.any fun x => x.2.copying && K.lock x.1 = a

/-- One step of the interleaving. -/
def step (w : Copies ι β L F R) : CopyMove L ι → Option (Copies ι β L F R)
  | .call l =>
      if !(K.body l).isEnded && w.held K (K.lock l) then none
      else
        some { w with calls := w.calls ++ [(l, Stage.start (K.cells l) (K.buffer l) (K.body l))] }
  | .acquire c =>
      match w.calls[c]? with
      | some (l, .between p) =>
          if p.isEnded || w.held K (K.lock l) then none
          else some { w with calls := w.calls.set c (l, Stage.start (K.cells l) (K.buffer l) p) }
      | _ => none
  | .copy c i =>
      match w.calls[c]? with
      | some (l, .reading k b todo) =>
          if i ∈ K.cells l then
            some
              { w with
                calls := w.calls.set c
                  (l, .reading k (Function.update b i (w.memory i)) (todo.erase i)) }
          else none
      | some (l, .writing g p todo) =>
          if i ∈ K.cells l then
            some
              { memory := Function.update w.memory i (g w.memory i)
                calls := w.calls.set c (l, .writing g p (todo.erase i)) }
          else none
      | _ => none
  | .release c =>
      match w.calls[c]? with
      | some (l, .reading k b todo) =>
          if todo = ∅ then some { w with calls := w.calls.set c (l, .between (k b)) } else none
      | some (l, .writing _ p todo) =>
          if todo = ∅ then some { w with calls := w.calls.set c (l, .between p) } else none
      | _ => none

variable {K}

/-- What a step can do. -/
inductive Step (K : Locking ι β L M F R) (w : Copies ι β L F R) :
    CopyMove L ι → Copies ι β L F R → Prop
  | call (l : L) (hfree : (K.body l).isEnded = true ∨ w.held K (K.lock l) = false) :
      Step K w (.call l)
        { w with calls := w.calls ++ [(l, Stage.start (K.cells l) (K.buffer l) (K.body l))] }
  | acquire {c : ℕ} {l : L} {p : Routine (ι → β) F R} (hc : w.calls[c]? = some (l, .between p))
      (hpending : p.isEnded = false) (hfree : w.held K (K.lock l) = false) :
      Step K w (.acquire c)
        { w with calls := w.calls.set c (l, Stage.start (K.cells l) (K.buffer l) p) }
  | load {c : ℕ} {l : L} {k b todo} {i : ι} (hc : w.calls[c]? = some (l, .reading k b todo))
      (hi : i ∈ K.cells l) :
      Step K w (.copy c i)
        { w with
          calls := w.calls.set c
            (l, .reading k (Function.update b i (w.memory i)) (todo.erase i)) }
  | store {c : ℕ} {l : L} {g p todo} {i : ι} (hc : w.calls[c]? = some (l, .writing g p todo))
      (hi : i ∈ K.cells l) :
      Step K w (.copy c i)
        { memory := Function.update w.memory i (g w.memory i)
          calls := w.calls.set c (l, .writing g p (todo.erase i)) }
  | endRead {c : ℕ} {l : L} {k b} (hc : w.calls[c]? = some (l, .reading k b ∅)) :
      Step K w (.release c) { w with calls := w.calls.set c (l, .between (k b)) }
  | endWrite {c : ℕ} {l : L} {g p} (hc : w.calls[c]? = some (l, .writing g p ∅)) :
      Step K w (.release c) { w with calls := w.calls.set c (l, .between p) }

theorem step_cases (h : step K w m = some w') : Step K w m w' := by
  cases m with
  | call l =>
    simp only [step] at h
    split_ifs at h with hheld
    rw [← Option.some.inj h]
    exact .call l (by simpa [or_iff_not_imp_left] using hheld)
  | acquire c =>
    simp only [step] at h
    split at h
    · next l p hc =>
      split_ifs at h with hheld
      rw [← Option.some.inj h]
      simp only [Bool.or_eq_true, not_or, Bool.not_eq_true] at hheld
      exact .acquire hc hheld.1 hheld.2
    · cases h
  | copy c i =>
    simp only [step] at h
    split at h
    · next l k b todo hc =>
      split_ifs at h with hi
      rw [← Option.some.inj h]
      exact .load hc hi
    · next l g p todo hc =>
      split_ifs at h with hi
      rw [← Option.some.inj h]
      exact .store hc hi
    · cases h
  | release c =>
    simp only [step] at h
    split at h
    · next l k b todo hc =>
      split_ifs at h with htodo
      subst htodo
      rw [← Option.some.inj h]
      exact .endRead hc
    · next l g p todo hc =>
      split_ifs at h with htodo
      subst htodo
      rw [← Option.some.inj h]
      exact .endWrite hc
    · cases h

end Step

/-! ## The atomic system is ahead -/

section Refinement

variable (K : Locking ι β L M F R)

/-- What the atomic system has left of a call whose label is `l`, when its memory is `s`. -/
def Tracks (s : ι → β) (l : L) (q : Routine (ι → β) F R) : Stage ι β F R → Prop
  | .between p => q = p ∧ p.Within (K.cells l)
  | .reading k b todo =>
      q = k s ∧ (read k).Within (K.cells l) ∧ todo ⊆ K.cells l ∧
        ∀ i ∈ K.cells l, i ∉ todo → b i = s i
  | .writing g p todo =>
      q = p ∧ (write g p).Within (K.cells l) ∧ todo ⊆ K.cells l ∧ ∀ i ∈ K.cells l, g s i = s i

/-- The atomic system is ahead of the copies that are under way. -/
structure Refines (w : Copies ι β L F R) (v : Threads (ι → β) L F R) : Prop where
  length : v.calls.length = w.calls.length
  tracks : ∀ (c : ℕ) l x, w.calls[c]? = some (l, x) →
    ∃ q, v.calls[c]? = some (l, q) ∧ Tracks K v.shared l q x
  exclusive : ∀ (c c' : ℕ) l l' x x', w.calls[c]? = some (l, x) → w.calls[c']? = some (l', x') →
    x.copying = true → x'.copying = true → K.lock l = K.lock l' → c = c'
  memory : ∀ i, (∀ x ∈ w.calls, i ∉ x.2.pending) → w.memory i = v.shared i

/-- Calls that access a cell in common hold the same lock. -/
def Disciplined (U : L → Prop) : Prop :=
  ∀ l l', U l → U l' → K.lock l = K.lock l' ∨ Disjoint (K.cells l) (K.cells l')

variable {K} {w w' : Copies ι β L F R} {v : Threads (ι → β) L F R} {s s' : ι → β} {l : L}
  {p q : Routine (ι → β) F R} {x x' : Stage ι β F R} {c : ℕ}

/-- A call whose lock was just taken is where the atomic system is after the access. -/
theorem tracks_start (hp : p.Within (K.cells l)) (s : ι → β) (b : ι → β) :
    Tracks K (p.start s).2 l (p.start s).1 (Stage.start (K.cells l) b p) := by
  cases p with
  | done r => exact ⟨rfl, trivial⟩
  | abort f => exact ⟨rfl, trivial⟩
  | read k => exact ⟨rfl, hp, subset_rfl, fun i hi hnot => absurd hi hnot⟩
  | write g p => exact ⟨rfl, hp, subset_rfl, hp.1.1 _ _⟩

/-- The access changes the cells that are then to be written. -/
theorem start_shared {cells : Finset ι} {b : ι → β} (hp : p.Within cells) {i : ι}
    (hi : i ∉ (Stage.start cells b p).pending) : (p.start s).2 i = s i := by
  cases p with
  | done r => rfl
  | abort f => rfl
  | read k => rfl
  | write g p => exact hp.1.2 s i hi

theorem pending_start_subset {cells : Finset ι} {b : ι → β} :
    (Stage.start cells b p).pending ⊆ cells := by
  cases p with
  | write g p => exact subset_rfl
  | done r | abort f | read k => exact Finset.empty_subset _

theorem copying_start {cells : Finset ι} {b : ι → β} :
    (Stage.start cells b p).copying = !p.isEnded := by
  cases p <;> rfl

/-- What a call copies is all it relies on. -/
theorem Tracks.frame (h : Tracks K s l q x)
    (hs : x.copying = true → ∀ i ∈ K.cells l, s' i = s i) : Tracks K s' l q x := by
  cases x with
  | between p => exact h
  | reading k b todo =>
    obtain ⟨rfl, hwithin, htodo, hcopied⟩ := h
    refine ⟨hwithin.1 _ _ fun i hi => (hs rfl i hi).symm, hwithin, htodo, fun i hi hnot => ?_⟩
    rw [hs rfl i hi]
    exact hcopied i hi hnot
  | writing g p todo =>
    obtain ⟨rfl, hwithin, htodo, hwritten⟩ := h
    refine ⟨rfl, hwithin, htodo, fun i hi => ?_⟩
    rw [hs rfl i hi, hwithin.1.1 s' s i hi]
    exact hwritten i hi

/-- The call `c` goes on with its access, and the atomic system does nothing. -/
theorem Refines.set (h : Refines K w v) (hc : w.calls[c]? = some (l, x)) {memory : ι → β}
    (htracks : ∀ q, Tracks K v.shared l q x → Tracks K v.shared l q x')
    (hcopying : x'.copying = true → x.copying = true)
    (hmemory : ∀ i, i ∉ x'.pending → (i ∉ x.pending → w.memory i = v.shared i) →
      memory i = v.shared i) :
    Refines K ⟨memory, w.calls.set c (l, x')⟩ v := by
  have hlt := (List.getElem?_eq_some_iff.mp hc).1
  have hcases : ∀ {j : ℕ} {l' : L} {y : Stage ι β F R},
      (w.calls.set c (l, x'))[j]? = some (l', y) →
      (j = c ∧ l' = l ∧ y = x') ∨ (j ≠ c ∧ w.calls[j]? = some (l', y)) := by
    intro j l' y hj
    rcases List.getElem?_set_cases hj with ⟨rfl, hy⟩ | hj
    · obtain ⟨rfl, rfl⟩ := Prod.mk.inj hy
      exact .inl ⟨rfl, rfl, rfl⟩
    · exact .inr hj
  -- who copies now was copying before, under the same lock
  have hbefore : ∀ {j : ℕ} {l' : L} {y : Stage ι β F R},
      (w.calls.set c (l, x'))[j]? = some (l', y) → y.copying = true →
      ∃ y', w.calls[j]? = some (l', y') ∧ y'.copying = true := by
    intro j l' y hj hy
    rcases hcases hj with ⟨rfl, rfl, rfl⟩ | ⟨-, hj⟩
    · exact ⟨x, hc, hcopying hy⟩
    · exact ⟨y, hj, hy⟩
  refine ⟨by rw [h.length, List.length_set], fun j l' y hj => ?_,
    fun j j' l₁ l₂ y₁ y₂ hj hj' h₁ h₂ hlock => ?_, fun i hi => ?_⟩
  · rcases hcases hj with ⟨rfl, rfl, rfl⟩ | ⟨-, hj⟩
    · obtain ⟨q, hq, hx⟩ := h.tracks j l' x hc
      exact ⟨q, hq, htracks q hx⟩
    · exact h.tracks j l' y hj
  · obtain ⟨y₁', hj, h₁⟩ := hbefore hj h₁
    obtain ⟨y₂', hj', h₂⟩ := hbefore hj' h₂
    exact h.exclusive j j' l₁ l₂ y₁' y₂' hj hj' h₁ h₂ hlock
  · refine hmemory i (hi _ (List.mem_of_getElem? (List.getElem?_set_self hlt))) fun hx => ?_
    refine h.memory i fun y hy => ?_
    obtain ⟨j, hj⟩ := List.mem_iff_getElem?.mp hy
    by_cases hjc : j = c
    · subst hjc
      rw [← Option.some.inj (hc.symm.trans hj)]
      exact hx
    · refine hi y (List.mem_of_getElem? (i := j) ?_)
      rw [List.getElem?_set_ne (Ne.symm hjc)]
      exact hj

/-- Nobody writes the cells that a call reads. -/
theorem Refines.memory_of_reading (h : Refines K w v) {k b todo}
    (hc : w.calls[c]? = some (l, .reading k b todo))
    (hdisjoint : ∀ y ∈ w.calls, K.lock y.1 = K.lock l ∨ Disjoint (K.cells y.1) (K.cells l))
    {i : ι} (hi : i ∈ K.cells l) : w.memory i = v.shared i := by
  refine h.memory i ?_
  rintro ⟨l', y⟩ hy hpending
  obtain ⟨j, hj⟩ := List.mem_iff_getElem?.mp hy
  cases y with
  | between p => exact Finset.notMem_empty i hpending
  | reading k b todo => exact Finset.notMem_empty i hpending
  | writing g p todo =>
    obtain ⟨q, -, -, -, htodo, -⟩ := h.tracks j l' _ hj
    rcases hdisjoint _ hy with hlock | hdis
    · obtain rfl := h.exclusive j c l' l _ _ hj hc rfl rfl hlock
      cases hc.symm.trans hj
    · exact Finset.disjoint_left.mp hdis (htodo hpending) hi

variable [DecidableEq M]

/-- Nobody holds a lock that is free. -/
theorem lock_ne_of_held {a : M} (hfree : w.held K a = false) {y : L × Stage ι β F R}
    (hy : y ∈ w.calls) (hcopying : y.2.copying = true) : K.lock y.1 ≠ a := by
  intro ha
  have hheld : w.held K a = true := List.any_eq_true.mpr ⟨y, hy, by simp [hcopying, ha]⟩
  rw [hfree] at hheld
  cases hheld

/-- The call `c` begins an access, and all others stay where they are. -/
theorem Refines.begin (h : Refines K w v) (hp : p.Within (K.cells l))
    (hfree : p.isEnded = true ∨ w.held K (K.lock l) = false)
    (hdisjoint : ∀ y ∈ w.calls, K.lock y.1 = K.lock l ∨ Disjoint (K.cells y.1) (K.cells l))
    {calls : List (L × Stage ι β F R)} {calls' : List (L × Routine (ι → β) F R)}
    (hlength : calls'.length = calls.length)
    (hc : calls[c]? = some (l, Stage.start (K.cells l) (K.buffer l) p))
    (hc' : calls'[c]? = some (l, (p.start v.shared).1))
    (hothers : ∀ j, j ≠ c → calls[j]? = w.calls[j]?)
    (hothers' : ∀ j, j ≠ c → calls'[j]? = v.calls[j]?)
    (hold : ∀ y, w.calls[c]? = some y → y.2.pending = ∅) :
    Refines K { w with calls := calls } ⟨(p.start v.shared).2, calls'⟩ := by
  have hnew : ∀ {l' : L} {x' : Stage ι β F R}, calls[c]? = some (l', x') →
      l' = l ∧ x' = Stage.start (K.cells l) (K.buffer l) p := fun hx =>
    Prod.mk.inj (Option.some.inj (hx.symm.trans hc))
  -- who is copying already works under another lock, elsewhere
  have happart : ∀ {j : ℕ} {l' : L} {x' : Stage ι β F R}, w.calls[j]? = some (l', x') →
      x'.copying = true → p.isEnded = false → K.lock l' ≠ K.lock l := fun hj hcopying hpending =>
    lock_ne_of_held (hfree.resolve_left (by simp [hpending])) (List.mem_of_getElem? hj) hcopying
  refine ⟨hlength, fun j l' x' hj => ?_, fun j j' l₁ l₂ x₁ x₂ hj hj' h₁ h₂ hlock => ?_,
    fun i hi => ?_⟩
  · by_cases hjc : j = c
    · subst hjc
      obtain ⟨rfl, rfl⟩ := hnew hj
      exact ⟨_, hc', tracks_start hp _ _⟩
    · have hjw : w.calls[j]? = some (l', x') := (hothers j hjc).symm.trans hj
      obtain ⟨q, hq, htracks⟩ := h.tracks j l' x' hjw
      refine ⟨q, (hothers' j hjc).trans hq, htracks.frame fun hcopying i hi => ?_⟩
      by_cases hpending : p.isEnded = true
      · rw [Routine.start, access_of_isEnded hpending]
        rfl
      · have hne := happart hjw hcopying (by simpa using hpending)
        have hdis := (hdisjoint _ (List.mem_of_getElem? hjw)).resolve_left hne
        exact start_shared (b := K.buffer l) hp fun hmem =>
          Finset.disjoint_left.mp hdis hi (pending_start_subset hmem)
  · by_cases hjc : j = c
    · by_cases hjc' : j' = c
      · rw [hjc, hjc']
      · subst hjc
        obtain ⟨rfl, rfl⟩ := hnew hj
        rw [copying_start] at h₁
        exact absurd hlock.symm
          (happart ((hothers j' hjc').symm.trans hj') h₂ (by simpa using h₁))
    · by_cases hjc' : j' = c
      · subst hjc'
        obtain ⟨rfl, rfl⟩ := hnew hj'
        rw [copying_start] at h₂
        exact absurd hlock
          (happart ((hothers j hjc).symm.trans hj) h₁ (by simpa using h₂))
      · exact h.exclusive j j' l₁ l₂ x₁ x₂ ((hothers j hjc).symm.trans hj)
          ((hothers j' hjc').symm.trans hj') h₁ h₂ hlock
  · have hstart := start_shared (s := v.shared) hp (hi _ (List.mem_of_getElem? hc))
    refine Eq.trans ?_ hstart.symm
    refine h.memory i fun y hy => ?_
    obtain ⟨j, hj⟩ := List.mem_iff_getElem?.mp hy
    by_cases hjc : j = c
    · rw [hold y (hjc ▸ hj)]
      exact Finset.notMem_empty i
    · exact hi y (List.mem_of_getElem? ((hothers j hjc).trans hj))

variable [DecidableEq ι] {U : L → Prop} {m : CopyMove L ι}

/-- A step of the copies is a step of the atomic system, or none. -/
theorem Refines.step (hU : Disciplined K U) (hcalls : ∀ y ∈ w.calls, U y.1)
    (hm : ∀ l, m = .call l → U l) (h : Refines K w v) (hstep : Copies.step K w m = some w') :
    ∃ v', Execution.run (Threads.step K.body) v m.atomic.toList = some v' ∧ Refines K w' v' := by
  have hdisjoint : ∀ {c : ℕ} {l : L} {x : Stage ι β F R}, w.calls[c]? = some (l, x) → ∀ y ∈ w.calls,
      K.lock y.1 = K.lock l ∨ Disjoint (K.cells y.1) (K.cells l) := fun hc y hy =>
    hU _ _ (hcalls y hy) (hcalls _ (List.mem_of_getElem? hc))
  cases step_cases hstep with
  | call l hfree =>
    refine ⟨⟨((K.body l).start v.shared).2, v.calls ++ [(l, ((K.body l).start v.shared).1)]⟩, rfl,
      h.begin (c := w.calls.length) (K.within l) hfree
        (fun y hy => hU _ _ (hcalls y hy) (hm l rfl)) ?_ List.getElem?_concat_length ?_
        (fun j hj => ?_) (fun j hj => ?_) ?_⟩
    · rw [List.length_append, List.length_append, h.length]
      rfl
    · rw [← h.length]
      exact List.getElem?_concat_length
    · exact List.getElem?_concat_of_ne hj
    · exact List.getElem?_concat_of_ne (h.length ▸ hj)
    · simp
  | @acquire c l p hc hpending hfree =>
    obtain ⟨q, hq, rfl, hp⟩ := h.tracks c l _ hc
    obtain ⟨⟨q', s⟩, haccess⟩ : ∃ y, q.access v.shared = some y := by
      cases q with
      | done r | abort f => cases hpending
      | read k | write g p => exact ⟨_, rfl⟩
    have hstart : q.start v.shared = (q', s) := by rw [Routine.start, haccess]; rfl
    have hlt := (List.getElem?_eq_some_iff.mp hc).1
    refine ⟨⟨(q.start v.shared).2, v.calls.set c (l, (q.start v.shared).1)⟩, ?_,
      h.begin hp (.inr hfree) (hdisjoint hc) ?_ (List.getElem?_set_self hlt)
        (List.getElem?_set_self (h.length ▸ hlt)) (fun j hj => List.getElem?_set_ne hj.symm)
        (fun j hj => List.getElem?_set_ne hj.symm) ?_⟩
    · simp [CopyMove.atomic, Threads.step, hq, haccess, hstart]
    · rw [List.length_set, List.length_set, h.length]
    · intro y hy
      rw [← Option.some.inj (hc.symm.trans hy)]
      rfl
  | @load c l k b todo i hc hi =>
    refine ⟨v, rfl, h.set hc (fun q hq => ?_) (fun _ => rfl) fun i _ hmem =>
      hmem (Finset.notMem_empty i)⟩
    obtain ⟨hk, hwithin, htodo, hcopied⟩ := hq
    refine ⟨hk, hwithin, (Finset.erase_subset i todo).trans htodo, fun j hj hnot => ?_⟩
    by_cases hji : j = i
    · subst hji
      rw [Function.update_self]
      exact h.memory_of_reading hc (hdisjoint hc) hj
    · rw [Function.update_of_ne hji]
      exact hcopied j hj fun hmem => hnot (Finset.mem_erase.mpr ⟨hji, hmem⟩)
  | @store c l g p todo i hc hi =>
    obtain ⟨q, -, -, hwithin, -, hwritten⟩ := h.tracks c l _ hc
    refine ⟨v, rfl, h.set hc (fun q hq => ?_) (fun _ => rfl) fun j hnot hmem => ?_⟩
    · exact ⟨hq.1, hq.2.1, (Finset.erase_subset i todo).trans hq.2.2.1, hq.2.2.2⟩
    · by_cases hji : j = i
      · subst hji
        rw [Function.update_self, hwithin.1.1 _ v.shared j hi]
        exact hwritten j hi
      · rw [Function.update_of_ne hji]
        exact hmem fun htodo => hnot (Finset.mem_erase.mpr ⟨hji, htodo⟩)
  | @endRead c l k b hc =>
    refine ⟨v, rfl, h.set hc (fun q hq => ?_) (fun hx => by cases hx) fun i _ hmem =>
      hmem (Finset.notMem_empty i)⟩
    -- all that the call relies on was copied
    obtain ⟨rfl, hwithin, -, hcopied⟩ := hq
    have hb : k b = k v.shared := hwithin.1 _ _ fun i hi => hcopied i hi (Finset.notMem_empty i)
    exact ⟨hb.symm, hb ▸ hwithin.2 v.shared⟩
  | @endWrite c l g p hc =>
    exact ⟨v, rfl, h.set hc (fun q hq => ⟨hq.1, hq.2.1.2⟩) (fun hx => by cases hx) fun i _ hmem =>
      hmem (Finset.notMem_empty i)⟩

/-- The labels of the calls are those of the moves that made them. -/
theorem labels_step (hcalls : ∀ y ∈ w.calls, U y.1) (hm : ∀ l, m = .call l → U l)
    (hstep : Copies.step K w m = some w') : ∀ y ∈ w'.calls, U y.1 := by
  have hset : ∀ {c : ℕ} {l : L} {x : Stage ι β F R} (x' : Stage ι β F R),
      w.calls[c]? = some (l, x) → ∀ y ∈ w.calls.set c (l, x'), U y.1 := by
    intro c l x x' hc y hy
    rcases List.mem_or_eq_of_mem_set hy with hy | rfl
    · exact hcalls y hy
    · exact hcalls (l, x) (List.mem_of_getElem? hc)
  cases step_cases hstep with
  | call l hfree =>
    intro y hy
    rcases List.mem_append.mp hy with hy | hy
    · exact hcalls y hy
    · rw [List.mem_singleton.mp hy]
      exact hm l rfl
  | acquire hc | load hc | store hc | endRead hc | endWrite hc => exact hset _ hc

/-- **Locked copies are atomic.** If the calls that access a cell in common hold the same lock,
every interleaving of their copies is ahead of no access and behind none: it is the interleaving of
atomic accesses in which an access happens when its lock is taken. -/
theorem refines_of_run {ms : List (CopyMove L ι)} (hU : Disciplined K fun l => .call l ∈ ms)
    (hrun : Execution.run (Copies.step K) ⟨s, []⟩ ms = some w) :
    ∃ v, Execution.run (Threads.step K.body) ⟨s, []⟩ (ms.filterMap CopyMove.atomic) = some v ∧
      Refines K w v ∧ ∀ y ∈ w.calls, .call y.1 ∈ ms := by
  refine Execution.run_refines
    (fun w v => Refines K w v ∧ ∀ y ∈ w.calls, .call y.1 ∈ ms) CopyMove.atomic
    (fun w m w' v hmem h hstep => ?_) ⟨?_, by simp⟩ hrun
  · have hm : ∀ l, m = .call l → .call l ∈ ms := fun l hl => hl ▸ hmem
    obtain ⟨v', hv', hrefines⟩ := h.1.step hU h.2 hm hstep
    exact ⟨v', hv', hrefines, labels_step h.2 hm hstep⟩
  · exact ⟨rfl, by simp, by simp, fun i _ => rfl⟩

/-! ## Quiet states -/

/-- Nobody holds a lock. -/
def Quiet (w : Copies ι β L F R) : Prop :=
  ∀ y ∈ w.calls, y.2.copying = false

omit [DecidableEq M] [DecidableEq ι] in
theorem Refines.shared_of_quiet (h : Refines K w v) (hquiet : w.Quiet) : v.shared = w.memory := by
  refine funext fun i => (h.memory i fun y hy => ?_).symm
  have hy := hquiet y hy
  cases hstage : y.2 with
  | between p | reading k b todo => exact Finset.notMem_empty i
  | writing g p todo =>
    rw [hstage] at hy
    cases hy

omit [DecidableEq M] [DecidableEq ι] in
/-- A call that is not copying is where it is in the atomic system. -/
theorem Refines.getElem?_of_between (h : Refines K w v)
    (hc : w.calls[c]? = some (l, .between p)) : v.calls[c]? = some (l, p) := by
  obtain ⟨q, hq, rfl, -⟩ := h.tracks c l _ hc
  exact hq

omit [DecidableEq M] [DecidableEq ι] in
theorem Refines.getElem?_iff_of_quiet (h : Refines K w v) (hquiet : w.Quiet) :
    v.calls[c]? = some (l, q) ↔ w.calls[c]? = some (l, .between q) := by
  refine ⟨fun hv => ?_, h.getElem?_of_between⟩
  have hlt : c < w.calls.length := h.length ▸ (List.getElem?_eq_some_iff.mp hv).1
  obtain ⟨⟨l', x⟩, hc⟩ : ∃ y, w.calls[c]? = some y := ⟨_, List.getElem?_eq_getElem hlt⟩
  cases x with
  | between p =>
    obtain ⟨rfl, rfl⟩ := Prod.mk.inj (Option.some.inj (hv.symm.trans (h.getElem?_of_between hc)))
    exact hc
  | reading k b todo | writing g p todo => cases hquiet _ (List.mem_of_getElem? hc)

/-- Somebody who copies has a cell to copy, or the lock to release. -/
theorem exists_copy (hU : Disciplined K U) (hcalls : ∀ y ∈ w.calls, U y.1) (h : Refines K w v)
    (hbusy : ¬ w.Quiet) : ∃ m w', CopyMove.atomic m = none ∧ Copies.step K w m = some w' ∧
      ((∀ y ∈ w'.calls, U y.1) ∧ Refines K w' v) ∧
      (w'.calls.map fun y => y.2.remaining).sum < (w.calls.map fun y => y.2.remaining).sum := by
  obtain ⟨⟨l, x⟩, hy, hx⟩ : ∃ y ∈ w.calls, y.2.copying = true := by
    simpa [Quiet] using hbusy
  obtain ⟨c, hc⟩ := List.mem_iff_getElem?.mp hy
  have hnext : ∃ m w', CopyMove.atomic m = none ∧ Copies.step K w m = some w' ∧
      ∃ x', w'.calls = w.calls.set c (l, x') ∧ x'.remaining < x.remaining := by
    obtain ⟨q, -, htracks⟩ := h.tracks c l x hc
    cases x with
    | between p => cases hx
    | reading k b todo =>
      rcases todo.eq_empty_or_nonempty with rfl | ⟨i, hi⟩
      · exact ⟨.release c, _, rfl, by simp [Copies.step, hc]; rfl, _, rfl,
          by simp [Stage.remaining]⟩
      · refine ⟨.copy c i, _, rfl, by simp [Copies.step, hc, htracks.2.2.1 hi]; rfl, _, rfl, ?_⟩
        simpa [Stage.remaining] using Finset.card_erase_lt_of_mem hi
    | writing g p todo =>
      rcases todo.eq_empty_or_nonempty with rfl | ⟨i, hi⟩
      · exact ⟨.release c, _, rfl, by simp [Copies.step, hc]; rfl, _, rfl,
          by simp [Stage.remaining]⟩
      · refine ⟨.copy c i, _, rfl, by simp [Copies.step, hc, htracks.2.2.1 hi]; rfl, _, rfl, ?_⟩
        simpa [Stage.remaining] using Finset.card_erase_lt_of_mem hi
  obtain ⟨m, w', hm, hstep, x', hset, hlt⟩ := hnext
  have hlabels : ∀ l, m = .call l → U l := by
    rintro l rfl
    cases hm
  obtain ⟨v', hv', hrefines⟩ := h.step hU hcalls hlabels hstep
  rw [hm] at hv'
  obtain rfl := Option.some.inj hv'
  refine ⟨m, w', hm, hstep, ⟨labels_step hcalls hlabels hstep, hrefines⟩, ?_⟩
  have hsum := List.sum_map_set (fun y : L × Stage ι β F R => y.2.remaining) hc (l, x')
  simp only at hsum
  rw [hset]
  omega

/-- **Accesses can be completed.** Nobody waits for a lock while holding one, so the copies under
way come to their end. Then the memory and the calls are those of the atomic system. -/
theorem exists_quiet (hU : Disciplined K U) (hcalls : ∀ y ∈ w.calls, U y.1)
    (h : Refines K w v) : ∃ ms w', (∀ m ∈ ms, CopyMove.atomic m = none) ∧
      Execution.run (Copies.step K) w ms = some w' ∧ Refines K w' v ∧ w'.Quiet := by
  obtain ⟨ms, w', hms, hrun, ⟨-, hrefines⟩, hquiet⟩ := Execution.exists_run_of_measure
    (fun w : Copies ι β L F R => (w.calls.map fun y => y.2.remaining).sum)
    (fun w => (∀ y ∈ w.calls, U y.1) ∧ Refines K w v) Quiet (fun m => CopyMove.atomic m = none)
    (fun w hw hbusy => exists_copy hU hw.1 hw.2 hbusy) ⟨hcalls, h⟩
  exact ⟨ms, w', hms, hrun, hrefines, hquiet⟩

end Refinement

end Copies

end Routine
