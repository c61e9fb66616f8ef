import Mathlib.Control.Basic
import RealtimeUtilities.ToMathlib.Execution
import RealtimeUtilities.ToMathlib.Lists

/-!
# Routines on shared memory

A routine runs on private data and accesses a shared state `S` by atomic reads and writes; it
ends with a result, or is aborted. `exec` runs a routine without interruption, `observe`
runs it on whatever it finds at its accesses, and `step` interleaves the accesses of any number
of calls.

The second half is about routines that take one snapshot of the shared state, edit it and
write it back whole. The view `view s` of the shared state is made of fields, and a call owns
some of them. Between its two accesses a call holds a snapshot that others may make stale, and
then its write takes their changes back. `Fresh` says that no pending write would do so.

## Main results

* `fresh_step`: steps that meet `NoConflict` keep the pending writes fresh;
* `frame_step`: a fresh write changes nothing but the fields its call owns;
* `kept_of_run`: what every edit keeps holds of the view in every interleaving, stale snapshots or
  not.
-/

/-- A routine with atomic accesses to a shared state `S`, which ends with an `R` or is aborted
with an `F`. -/
inductive Routine (S F R : Type) where
  | done (r : R)
  | abort (f : F)
  | read (k : S → Routine S F R)
  | write (g : S → S) (k : Routine S F R)

namespace Routine

variable {S F R R' : Type}

/-- Run `p`, then go on with its result. -/
protected def bind : Routine S F R → (R → Routine S F R') → Routine S F R'
  | done r, h => h r
  | abort f, _ => abort f
  | read k, h => read fun s => (k s).bind h
  | write g k, h => write g (k.bind h)

instance : Monad (Routine S F) where
  pure := done
  bind := Routine.bind

@[simp]
theorem done_bind (r : R) (h : R → Routine S F R') : (done r >>= h) = h r := rfl

@[simp]
theorem read_bind (k : S → Routine S F R) (h : R → Routine S F R') :
    (read k >>= h) = read fun s => k s >>= h := rfl

theorem bind_assoc {R'' : Type} (p : Routine S F R) (h : R → Routine S F R')
    (h' : R' → Routine S F R'') : (p >>= h >>= h') = p >>= fun r => h r >>= h' := by
  induction p with
  | done r => rfl
  | abort f => rfl
  | read k ih => exact congrArg read (funext ih)
  | write g k ih => exact congrArg (write g) ih

/-- Run a routine without interruption. -/
def exec : Routine S F R → S → Except F R × S
  | done r, s => (.ok r, s)
  | abort f, s => (.error f, s)
  | read k, s => (k s).exec s
  | write g k, s => k.exec (g s)

@[simp]
theorem exec_read (k : S → Routine S F R) (s : S) : (read k).exec s = (k s).exec s := rfl

/-- A routine that ends with `r` goes on from there. -/
theorem exec_bind_ok {p : Routine S F R} {s s' : S} {r : R} (h : p.exec s = (.ok r, s'))
    (g : R → Routine S F R') : (p >>= g).exec s = (g r).exec s' := by
  induction p generalizing s with
  | done r' =>
    obtain ⟨hr, rfl⟩ := Prod.mk.inj h
    rw [Except.ok.inj hr]
    rfl
  | abort f => cases (Prod.mk.inj h).1
  | read k ih => exact ih s h
  | write g' k ih => exact ih h

/-- The end of a routine that finds the shared state `seen i` at its access number `i`. -/
def observe : Routine S F R → (ℕ → S) → Except F R
  | done r, _ => .ok r
  | abort f, _ => .error f
  | read k, seen => (k (seen 0)).observe fun i => seen (i + 1)
  | write _ k, seen => k.observe fun i => seen (i + 1)

/-- Every result of the routine meets `P`, whatever the routine finds. -/
def Ends (P : R → Prop) : Routine S F R → Prop
  | done r => P r
  | abort _ => True
  | read k => ∀ s, (k s).Ends P
  | write _ k => k.Ends P

theorem ends_true (p : Routine S F R) : p.Ends fun _ => True := by
  induction p with
  | done r => trivial
  | abort f => trivial
  | read k ih => exact ih
  | write g k ih => exact ih

theorem Ends.imp {P Q : R → Prop} {p : Routine S F R} (hp : p.Ends P) (h : ∀ r, P r → Q r) :
    p.Ends Q := by
  induction p with
  | done r => exact h r hp
  | abort f => trivial
  | read k ih => exact fun s => ih s (hp s)
  | write g k ih => exact ih hp

theorem Ends.and {P Q : R → Prop} {p : Routine S F R} (hp : p.Ends P) (hq : p.Ends Q) :
    p.Ends fun r => P r ∧ Q r := by
  induction p with
  | done r => exact ⟨hp, hq⟩
  | abort f => trivial
  | read k ih => exact fun s => ih s (hp s) (hq s)
  | write g k ih => exact ih hp hq

theorem Ends.bind {P : R → Prop} {Q : R' → Prop} {p : Routine S F R} {h : R → Routine S F R'}
    (hp : p.Ends P) (hh : ∀ r, P r → (h r).Ends Q) : (p >>= h).Ends Q := by
  induction p with
  | done r => exact hh r hp
  | abort f => trivial
  | read k ih => exact fun s => ih s (hp s)
  | write g k ih => exact ih hp

theorem Ends.observe {P : R → Prop} {p : Routine S F R} (hp : p.Ends P) {seen : ℕ → S} {r : R}
    (h : p.observe seen = .ok r) : P r := by
  induction p generalizing seen with
  | done r' => exact Except.ok.inj h ▸ hp
  | abort f => cases h
  | read k ih => exact ih _ (hp _) h
  | write g k ih => exact ih hp h

theorem Ends.exec {P : R → Prop} {p : Routine S F R} (hp : p.Ends P) {s s' : S} {r : R}
    (h : p.exec s = (.ok r, s')) : P r := by
  induction p generalizing s with
  | done r' => exact Except.ok.inj (Prod.mk.inj h).1 ▸ hp
  | abort f => cases (Prod.mk.inj h).1
  | read k ih => exact ih s (hp s) h
  | write g k ih => exact ih hp h

/-- The routine has no access left. -/
def isEnded : Routine S F R → Bool
  | done _ | abort _ => true
  | read _ | write _ _ => false

/-- The next access of a routine, nothing if it has ended. -/
def access : Routine S F R → S → Option (Routine S F R × S)
  | done _, _ | abort _, _ => none
  | read k, s => some (k s, s)
  | write g k, s => some (k, g s)

/-- The first access of a routine, if it has any: what is left of it, and the shared state. -/
def start (p : Routine S F R) (s : S) : Routine S F R × S :=
  (p.access s).getD (p, s)

theorem access_of_isEnded {p : Routine S F R} (h : p.isEnded = true) (s : S) :
    p.access s = none := by
  cases p with
  | done r => rfl
  | abort f => rfl
  | read k => cases h
  | write g k => cases h

/-- The shared state with the calls made so far, each with its label and what is left of it. -/
structure Threads (S L F R : Type) where
  /-- What the calls access. -/
  shared : S
  /-- The calls in the order they were made. -/
  calls : List (L × Routine S F R)

/-- Who moves next. -/
inductive Move (L : Type) where
  /-- Some thread calls the routine labelled `l` and runs it to its first access. -/
  | call (l : L)
  /-- The call `c` runs its next access. -/
  | access (c : ℕ)
  deriving DecidableEq

namespace Threads

variable {L : Type} {body : L → Routine S F R} {w w' : Threads S L F R} {m : Move L}

/-- One step of the interleaving. -/
def step (body : L → Routine S F R) (w : Threads S L F R) : Move L → Option (Threads S L F R)
  | .call l =>
      some
        { shared := ((body l).start w.shared).2
          calls := w.calls ++ [(l, ((body l).start w.shared).1)] }
  | .access c =>
      match w.calls[c]? with
      | some (l, p) =>
          match p.access w.shared with
          | some (q, s) => some { shared := s, calls := w.calls.set c (l, q) }
          | none => none
      | none => none

/-- What an access of the call `c` does. -/
theorem step_access (h : step body w (.access c) = some w') :
    ∃ l p q s, w.calls[c]? = some (l, p) ∧ p.access w.shared = some (q, s) ∧
      w' = { shared := s, calls := w.calls.set c (l, q) } := by
  simp only [step] at h
  split at h
  · next l p hc =>
    split at h
    · next q s hp => exact ⟨l, p, q, s, hc, hp, (Option.some.inj h).symm⟩
    · cases h
  · cases h

/-- An access runs while all other calls have ended. -/
def Solo (w : Threads S L F R) : Move L → Prop
  | .call _ => True
  | .access c => ∀ x ∈ w.calls.eraseIdx c, x.2.isEnded = true

instance (w : Threads S L F R) : (m : Move L) → Decidable (Solo w m)
  | .call _ => .isTrue trivial
  | .access c => inferInstanceAs (Decidable (∀ x ∈ w.calls.eraseIdx c, x.2.isEnded = true))

theorem Solo.isEnded {c c' : ℕ} {l : L} {q : Routine S F R} (h : Solo w (.access c))
    (hne : c' ≠ c) (hc' : w.calls[c']? = some (l, q)) : q.isEnded = true :=
  h (l, q) (List.mem_eraseIdx_iff_getElem?.mpr ⟨c', hne, hc'⟩)

/-- A call that has ended stays as it is. -/
theorem getElem?_of_isEnded {c : ℕ} {l : L} {q : Routine S F R} (hc : w.calls[c]? = some (l, q))
    (hq : q.isEnded = true) (hstep : step body w m = some w') :
    w'.calls[c]? = some (l, q) := by
  cases m with
  | call l' =>
    obtain rfl := Option.some.inj hstep
    exact List.getElem?_concat_of_some hc
  | access c' =>
    obtain ⟨l', p, q', s, hc', hp, rfl⟩ := step_access hstep
    -- a call that has ended does not move
    have hne : c' ≠ c := by
      rintro rfl
      obtain ⟨rfl, rfl⟩ := Prod.mk.inj (Option.some.inj (hc.symm.trans hc'))
      rw [access_of_isEnded hq] at hp
      cases hp
    rw [List.getElem?_set_ne hne]
    exact hc

/-- A call that was made was made in some state, and is as its first access left it if it ended
with that. -/
theorem exists_call {s : S} {ms : List (Move L)} {c : ℕ} {l : L} {q : Routine S F R}
    (hrun : Execution.run (step body) ⟨s, []⟩ ms = some w) (hc : w.calls[c]? = some (l, q)) :
    ∃ pre post w₀, ms = pre ++ .call l :: post ∧
      Execution.run (step body) ⟨s, []⟩ pre = some w₀ ∧
      (((body l).start w₀.shared).1.isEnded = true → q = ((body l).start w₀.shared).1) := by
  induction ms using List.reverseRecOn generalizing w q with
  | nil =>
    obtain rfl := Option.some.inj hrun
    cases hc
  | append_singleton ms m ih =>
    obtain ⟨t, ht, hlast⟩ := Execution.run_concat_eq_some.mp hrun
    -- the call was there before the last step, as it is now or with an access left
    have hearlier : ∀ q₀, t.calls[c]? = some (l, q₀) → (q₀.isEnded = true → q = q₀) →
        ∃ pre post w₀, ms ++ [m] = pre ++ .call l :: post ∧
          Execution.run (step body) ⟨s, []⟩ pre = some w₀ ∧
          (((body l).start w₀.shared).1.isEnded = true → q = ((body l).start w₀.shared).1) := by
      intro q₀ hc₀ hsame
      obtain ⟨pre, post, w₀, rfl, hpre, hstart⟩ := ih ht hc₀
      refine ⟨pre, post ++ [m], w₀, by simp, hpre, fun hended => ?_⟩
      obtain rfl := hstart hended
      exact hsame hended
    cases m with
    | call l' =>
      obtain rfl := Option.some.inj hlast
      rcases List.getElem?_concat_cases hc with hc | ⟨-, hq⟩
      · exact hearlier q hc fun _ => rfl
      · obtain ⟨rfl, rfl⟩ := Prod.mk.inj hq
        exact ⟨ms, [], t, rfl, ht, fun _ => rfl⟩
    | access c' =>
      obtain ⟨l', p, q', s', hc', hp, rfl⟩ := step_access hlast
      rcases List.getElem?_set_cases hc with ⟨rfl, hq⟩ | ⟨-, hc⟩
      · obtain ⟨rfl, rfl⟩ := Prod.mk.inj hq
        refine hearlier p hc' fun hended => ?_
        rw [access_of_isEnded hended] at hp
        cases hp
      · exact hearlier q hc fun _ => rfl

/-- A property of what is left of a call holds of all calls, if it holds after the first access
and every later access keeps it. -/
theorem calls_step {Q : L → Routine S F R → Prop} (hstart : ∀ l s, Q l ((body l).start s).1)
    (haccess : ∀ l p s q s', Q l p → p.access s = some (q, s') → Q l q)
    (h : ∀ (c : ℕ) l q, w.calls[c]? = some (l, q) → Q l q) (hstep : step body w m = some w') :
    ∀ (c : ℕ) l q, w'.calls[c]? = some (l, q) → Q l q := by
  intro c l q hc
  cases m with
  | call l' =>
    obtain rfl := Option.some.inj hstep
    rcases List.getElem?_concat_cases hc with hc | ⟨-, hq⟩
    · exact h c l q hc
    · obtain ⟨rfl, rfl⟩ := Prod.mk.inj hq
      exact hstart l w.shared
  | access c' =>
    obtain ⟨l', p, q', s, hc', hp, rfl⟩ := step_access hstep
    rcases List.getElem?_set_cases hc with ⟨-, hq⟩ | ⟨-, hc⟩
    · obtain ⟨rfl, rfl⟩ := Prod.mk.inj hq
      exact haccess l p w.shared q s (h c' l p hc') hp
    · exact h c l q hc

/-! ## Snapshots that are edited and written back -/

section WriteBack

variable {P φ : Type} {V : φ → Type} (view : S → P) (field : (f : φ) → P → V f)
  (owns : L → φ → Prop)

/-- What is left of a call is to write back the view `v`, whatever the shared state is by
then. -/
def WritesBack (q : Routine S F R) (v : P) : Prop :=
  ∃ g r, q = .write g (.done r) ∧ ∀ s, view (g s) = v

/-- A routine takes a snapshot and is then ready to write it back with the fields in `own`
edited, if it does not end instead. -/
def Snapshots (own : φ → Prop) (p : Routine S F R) : Prop :=
  p.isEnded = true ∨ ∃ k, p = .read k ∧ ∀ s, (k s).isEnded = true ∨
    ∃ v, WritesBack view (k s) v ∧ ∀ f, ¬ own f → field f v = field f (view s)

/-- Every pending write agrees with the shared state outside the fields its call owns. -/
def Fresh (w : Threads S L F R) : Prop :=
  ∀ (c : ℕ) (l : L) (q : Routine S F R), w.calls[c]? = some (l, q) → q.isEnded = true ∨
    ∃ v, WritesBack view q v ∧ ∀ f, ¬ owns l f → field f v = field f (view w.shared)

/-- An access changes a field only while no other call that does not own the field is between
its snapshot and its write. -/
def NoConflict (w : Threads S L F R) : Move L → Prop
  | .call _ => True
  | .access c => ∀ (s : S) (l : L) (p q : Routine S F R), w.calls[c]? = some (l, p) →
      p.access w.shared = some (q, s) → ∀ (c' : ℕ) (l' : L) (q' : Routine S F R), c' ≠ c →
      w.calls[c']? = some (l', q') → q'.isEnded = false →
      ∀ f, ¬ owns l' f → field f (view s) = field f (view w.shared)

variable {view field owns}

/-- A fresh write changes no field that its call does not own. -/
theorem frame_step (h : Fresh view field owns w) {c : ℕ} {l : L} {p : Routine S F R}
    (hc : w.calls[c]? = some (l, p)) (hstep : step body w (.access c) = some w') {f : φ}
    (hf : ¬ owns l f) : field f (view w'.shared) = field f (view w.shared) := by
  obtain ⟨l', p', q, s, hc', hp, rfl⟩ := step_access hstep
  obtain ⟨rfl, rfl⟩ := Prod.mk.inj (Option.some.inj (hc.symm.trans hc'))
  rcases h c l p hc with hended | ⟨v, ⟨g, r, rfl, hg⟩, hframe⟩
  · rw [access_of_isEnded hended] at hp
    cases hp
  · obtain ⟨rfl, rfl⟩ := Prod.mk.inj (Option.some.inj hp)
    show field f (view (g w.shared)) = field f (view w.shared)
    rw [hg, hframe f hf]

/-- The first access of a routine that takes snapshots leaves the shared state alone, and what
is left is to end or to write back. -/
theorem Snapshots.start {own : φ → Prop} {p : Routine S F R} (h : Snapshots view field own p)
    (s : S) : (p.start s).2 = s ∧ ((p.start s).1.isEnded = true ∨
      ∃ v, WritesBack view (p.start s).1 v ∧ ∀ f, ¬ own f → field f v = field f (view s)) := by
  rcases h with hended | ⟨k, rfl, hk⟩
  · rw [Routine.start, access_of_isEnded hended]
    exact ⟨rfl, .inl hended⟩
  · exact ⟨rfl, hk s⟩

/-- Steps without conflict keep the pending writes fresh. -/
theorem fresh_step (hbody : ∀ l, Snapshots view field (owns l) (body l))
    (h : Fresh view field owns w) (hm : NoConflict view field owns w m)
    (hstep : step body w m = some w') : Fresh view field owns w' := by
  intro c' l' q' hc'
  cases m with
  | call l =>
    obtain rfl := Option.some.inj hstep
    obtain ⟨hshared, hstart⟩ := (hbody l).start w.shared
    show q'.isEnded = true ∨ ∃ v, _ ∧ ∀ f, _ → _ = field f (view ((body l).start w.shared).2)
    rw [hshared]
    rcases List.getElem?_concat_cases hc' with hc' | ⟨-, hq⟩
    · exact h c' l' q' hc'
    · -- the new call has a snapshot of the current state
      obtain ⟨rfl, rfl⟩ := Prod.mk.inj hq
      exact hstart
  | access c =>
    obtain ⟨l, p, q, s, hc, hp, rfl⟩ := step_access hstep
    rcases List.getElem?_set_cases hc' with ⟨rfl, hq⟩ | ⟨hne, hc'⟩
    · -- the call that moved has written back and ended
      obtain ⟨rfl, rfl⟩ := Prod.mk.inj hq
      rcases h c' l' p hc with hended | ⟨v, ⟨g, r, rfl, -⟩, -⟩
      · rw [access_of_isEnded hended] at hp
        cases hp
      · obtain ⟨rfl, rfl⟩ := Prod.mk.inj (Option.some.inj hp)
        exact .inl rfl
    · -- another call is pending, and its snapshot is not disturbed
      rcases h c' l' q' hc' with hended | ⟨v, hback, hframe⟩
      · exact .inl hended
      · refine .inr ⟨v, hback, fun f hf => ?_⟩
        have hpending : q'.isEnded = false := by
          obtain ⟨g, r, rfl, -⟩ := hback
          rfl
        rw [hframe f hf]
        exact (hm s l p q hc hp c' l' q' hne hc' hpending f hf).symm

/-! ### What every edit keeps -/

section Kept

variable (view) (I : P → Prop)

/-- A routine writes back a view with the property `I`, if the snapshot it takes has it. -/
def Keeps (p : Routine S F R) : Prop :=
  p.isEnded = true ∨ ∃ k, p = .read k ∧ ∀ s, I (view s) →
    (k s).isEnded = true ∨ ∃ v, WritesBack view (k s) v ∧ I v

/-- The shared state has the property `I`, and so has what is still to be written back. -/
structure Kept (w : Threads S L F R) : Prop where
  shared : I (view w.shared)
  pending : ∀ (c : ℕ) (l : L) (q : Routine S F R), w.calls[c]? = some (l, q) →
    q.isEnded = true ∨ ∃ v, WritesBack view q v ∧ I v

variable {view I}

theorem kept_step (h : Kept view I w) (hm : ∀ l, m = .call l → Keeps view I (body l))
    (hstep : step body w m = some w') : Kept view I w' := by
  cases m with
  | call l =>
    obtain rfl := Option.some.inj hstep
    have hstart : ((body l).start w.shared).2 = w.shared ∧
        (((body l).start w.shared).1.isEnded = true ∨
          ∃ v, WritesBack view ((body l).start w.shared).1 v ∧ I v) := by
      rcases hm l rfl with hended | ⟨k, hk, hkeeps⟩
      · rw [Routine.start, access_of_isEnded hended]
        exact ⟨rfl, .inl hended⟩
      · rw [hk]
        exact ⟨rfl, hkeeps w.shared h.shared⟩
    refine ⟨by rw [hstart.1]; exact h.shared, fun c l' q hc => ?_⟩
    rcases List.getElem?_concat_cases hc with hc | ⟨-, hq⟩
    · exact h.pending c l' q hc
    · obtain ⟨rfl, rfl⟩ := Prod.mk.inj hq
      exact hstart.2
  | access c =>
    obtain ⟨l, p, q, s, hc, hp, rfl⟩ := step_access hstep
    rcases h.pending c l p hc with hended | ⟨v, ⟨g, r, rfl, hg⟩, hv⟩
    · rw [access_of_isEnded hended] at hp
      cases hp
    · obtain ⟨rfl, rfl⟩ := Prod.mk.inj (Option.some.inj hp)
      refine ⟨by rw [hg]; exact hv, fun c' l' q' hc' => ?_⟩
      rcases List.getElem?_set_cases hc' with ⟨-, hq⟩ | ⟨-, hc'⟩
      · obtain ⟨rfl, rfl⟩ := Prod.mk.inj hq
        exact .inl rfl
      · exact h.pending c' l' q' hc'

/-- A property that the edits of all calls keep holds of the view after every interleaving. -/
theorem kept_of_run {s : S} {ms : List (Move L)} (hinit : I (view s))
    (hcalls : ∀ l, .call l ∈ ms → Keeps view I (body l))
    (hrun : Execution.run (step body) ⟨s, []⟩ ms = some w) : Kept view I w := by
  have halong : Execution.Along (step body) (fun _ m => ∀ l, m = .call l → Keeps view I (body l))
      ⟨s, []⟩ ms :=
    Execution.along_of_forall_mem fun m hm l hl => hcalls l (hl ▸ hm)
  exact Execution.run_invariant_along (Kept view I) (fun _ _ _ hI hm hs => kept_step hI hm hs)
    ⟨hinit, by simp⟩ halong hrun

end Kept

end WriteBack

end Threads

end Routine
