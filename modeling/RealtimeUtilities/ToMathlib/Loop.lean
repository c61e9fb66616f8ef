import Mathlib.Data.Nat.Notation
import Mathlib.Data.Option.Basic
import Mathlib.Tactic.SplitIfs

/-!
# Loops

`while` and `do … while` loops over a state. The body may fail, as the body of a loop does that
contains another loop. A loop is given up after `fuel` turns, so that one that does not end has
no result for any fuel.

* `whileDo_mono` and `doWhile_mono`: a loop that has ended does not depend on the turns that are
  left;
* `whileDo_invariant` and `doWhile_invariant`: what the body keeps holds of the result;
* `exists_whileDo` and `exists_doWhile`: a loop ends if a measure decreases with every turn.
-/

namespace Loop

variable {σ : Type} {cond : σ → Bool} {body : σ → Option σ} {s s' : σ}

/-- `while (cond) body`. -/
def whileDo (cond : σ → Bool) (body : σ → Option σ) : ℕ → σ → Option σ
  | 0, _ => none
  | fuel + 1, s => if cond s then (body s).bind (whileDo cond body fuel) else some s

/-- `do body while (cond)`. -/
def doWhile (body : σ → Option σ) (cond : σ → Bool) (fuel : ℕ) (s : σ) : Option σ :=
  (body s).bind (whileDo cond body fuel)

/-- More turns than a loop needs do not change its result. -/
theorem whileDo_mono {fuel fuel' : ℕ} (h : whileDo cond body fuel s = some s')
    (hle : fuel ≤ fuel') : whileDo cond body fuel' s = some s' := by
  induction fuel generalizing s fuel' with
  | zero => cases h
  | succ fuel ih =>
    obtain ⟨more, rfl⟩ := Nat.exists_eq_add_of_le' (Nat.le_trans (Nat.le_add_left 1 fuel) hle)
    rw [whileDo] at h ⊢
    split_ifs at h ⊢ with hcond
    · obtain ⟨t, ht, hrest⟩ := Option.bind_eq_some_iff.mp h
      exact Option.bind_eq_some_iff.mpr ⟨t, ht, ih hrest (Nat.le_of_succ_le_succ hle)⟩
    · exact h

/-- A body that has a result in more states does not change that of the loop. -/
theorem whileDo_mono_body {body' : σ → Option σ}
    (hbody : ∀ s s', body s = some s' → body' s = some s') {fuel : ℕ}
    (h : whileDo cond body fuel s = some s') : whileDo cond body' fuel s = some s' := by
  induction fuel generalizing s with
  | zero => cases h
  | succ fuel ih =>
    rw [whileDo] at h ⊢
    split_ifs at h ⊢ with hcond
    · obtain ⟨t, ht, hrest⟩ := Option.bind_eq_some_iff.mp h
      exact Option.bind_eq_some_iff.mpr ⟨t, hbody s t ht, ih hrest⟩
    · exact h

/-- The rule for `do … while`, whose body may contain a loop with the same number of turns. -/
theorem doWhile_mono {body' : σ → Option σ}
    (hbody : ∀ s s', body s = some s' → body' s = some s') {fuel fuel' : ℕ}
    (h : doWhile body cond fuel s = some s') (hle : fuel ≤ fuel') :
    doWhile body' cond fuel' s = some s' := by
  obtain ⟨t, ht, hrest⟩ := Option.bind_eq_some_iff.mp h
  exact Option.bind_eq_some_iff.mpr
    ⟨t, hbody s t ht, whileDo_mono (whileDo_mono_body hbody hrest) hle⟩

/-- An invariant of the body holds of the result, and the condition of the loop does not. -/
theorem whileDo_invariant (I : σ → Prop)
    (hbody : ∀ s s', I s → cond s = true → body s = some s' → I s') {fuel : ℕ} (hI : I s)
    (h : whileDo cond body fuel s = some s') : I s' ∧ cond s' = false := by
  induction fuel generalizing s with
  | zero => cases h
  | succ fuel ih =>
    rw [whileDo] at h
    split_ifs at h with hcond
    · obtain ⟨t, ht, hrest⟩ := Option.bind_eq_some_iff.mp h
      exact ih (hbody s t hI hcond ht) hrest
    · obtain rfl := Option.some.inj h
      exact ⟨hI, eq_false_of_ne_true hcond⟩

/-- The rule for `do … while`: the invariant holds from the end of the first turn on. -/
theorem doWhile_invariant (I : σ → Prop) (hfirst : ∀ t, body s = some t → I t)
    (hbody : ∀ s s', I s → cond s = true → body s = some s' → I s') {fuel : ℕ}
    (h : doWhile body cond fuel s = some s') : I s' ∧ cond s' = false := by
  obtain ⟨t, ht, hrest⟩ := Option.bind_eq_some_iff.mp h
  exact whileDo_invariant I hbody (hfirst t ht) hrest

/-- A loop ends if its body keeps an invariant and decreases a measure. -/
theorem exists_whileDo (I : σ → Prop) (measure : σ → ℕ)
    (hbody : ∀ s, I s → cond s = true →
      ∃ s', body s = some s' ∧ I s' ∧ measure s' < measure s) {fuel : ℕ} (hI : I s)
    (hfuel : measure s < fuel) : ∃ s', whileDo cond body fuel s = some s' := by
  induction fuel generalizing s with
  | zero => exact absurd hfuel (Nat.not_lt_zero _)
  | succ fuel ih =>
    rw [whileDo]
    split_ifs with hcond
    · obtain ⟨t, ht, hIt, hlt⟩ := hbody s hI hcond
      obtain ⟨s', hs'⟩ := ih hIt (Nat.lt_of_lt_of_le hlt (Nat.le_of_lt_succ hfuel))
      exact ⟨s', Option.bind_eq_some_iff.mpr ⟨t, ht, hs'⟩⟩
    · exact ⟨s, rfl⟩

/-- The rule for `do … while`: the measure counts from the end of the first turn on. -/
theorem exists_doWhile (I : σ → Prop) (measure : σ → ℕ) {fuel : ℕ}
    (hfirst : ∃ t, body s = some t ∧ I t ∧ measure t < fuel)
    (hbody : ∀ s, I s → cond s = true →
      ∃ s', body s = some s' ∧ I s' ∧ measure s' < measure s) :
    ∃ s', doWhile body cond fuel s = some s' := by
  obtain ⟨t, ht, hI, hlt⟩ := hfirst
  obtain ⟨s', hs'⟩ := exists_whileDo I measure hbody hI hlt
  exact ⟨s', Option.bind_eq_some_iff.mpr ⟨t, ht, hs'⟩⟩

end Loop
