import Mathlib.Data.Option.Basic

/-!
# Invariants of stateful programs

A program that reads and writes a state and may end without a result is a `StateT σ Option α`.
`Maintains I m` says that the result of `m` is reached in a state with `I`, if `m` starts in one.
There is a rule for each way to put programs together.
-/

/-- The program keeps the invariant, if it has a result. -/
def Maintains {σ α : Type} (I : σ → Prop) (m : StateT σ Option α) : Prop :=
  ∀ s a s', I s → m.run s = some (a, s') → I s'

namespace Maintains

variable {σ α β : Type} {I : σ → Prop}

theorem pure (a : α) : Maintains I (Pure.pure a : StateT σ Option α) := by
  intro s b s' hs h
  cases h
  exact hs

theorem bind {m : StateT σ Option α} {f : α → StateT σ Option β} (hm : Maintains I m)
    (hf : ∀ a, Maintains I (f a)) : Maintains I (m >>= f) := by
  intro s b s' hs h
  rw [StateT.run_bind, Option.bind_eq_bind, Option.bind_eq_some_iff] at h
  obtain ⟨⟨a, t⟩, ha, hb⟩ := h
  exact hf a t b s' (hm s a t hs ha) hb

theorem ite {c : Prop} [Decidable c] {m m' : StateT σ Option α} (hm : Maintains I m)
    (hm' : Maintains I m') : Maintains I (if c then m else m') := by
  by_cases h : c
  · rwa [if_pos h]
  · rwa [if_neg h]

/-- A run that leaves only its last state. -/
theorem of_map_run {m : StateT σ Option α} (hm : Maintains I m) {s s' : σ} (hs : I s)
    (h : (m.run s).map Prod.snd = some s') : I s' := by
  obtain ⟨⟨a, t⟩, ht, rfl⟩ := Option.map_eq_some_iff.mp h
  exact hm s a t hs ht

end Maintains

variable {σ α : Type} {I : σ → Prop}

/-- A program that only changes the state. -/
theorem maintains_modify {f : σ → σ} (hf : ∀ s, I s → I (f s)) :
    Maintains I (modify f : StateT σ Option PUnit) := by
  intro s a s' hs h
  cases h
  exact hf s hs

/-- A program that does not use the state. -/
theorem maintains_liftM (m : Option α) : Maintains I (liftM m : StateT σ Option α) := by
  intro s a s' hs h
  cases m with
  | none => cases h
  | some b =>
    cases h
    exact hs

/-- A program that has no result. -/
theorem maintains_failure : Maintains I (failure : StateT σ Option α) := by
  intro s a s' _ h
  cases h
