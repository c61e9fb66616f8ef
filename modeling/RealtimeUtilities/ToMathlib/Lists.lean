import Mathlib.Algebra.Ring.Nat
import Mathlib.Data.List.Basic
import Mathlib.Tactic.SplitIfs

/-!
# Lists that are changed in one place

What is found at an index after one entry was appended (`getElem?_concat_cases`) or replaced
(`getElem?_set_cases`), what a sum over the entries makes of it, and how a list with one more entry
splits.
-/

namespace List

variable {α β : Type} {l : List α} {a b c : α} {i j : ℕ}

/-! ## One more entry -/

/-- An entry of a list with one more is an old one, or the new one. -/
theorem getElem?_concat_cases (h : (l ++ [a])[j]? = some b) :
    l[j]? = some b ∨ (j = l.length ∧ b = a) := by
  rw [getElem?_append] at h
  split_ifs at h with hlt
  · exact .inl h
  · have hmem := mem_singleton.mp (mem_of_getElem? h)
    obtain ⟨hlt', -⟩ := getElem?_eq_some_iff.mp h
    rw [length_singleton] at hlt'
    exact .inr ⟨by omega, hmem⟩

/-- The old entries are still there. -/
theorem getElem?_concat_of_some (h : l[j]? = some b) : (l ++ [a])[j]? = some b := by
  rw [getElem?_append_left (getElem?_eq_some_iff.mp h).1, h]

theorem getElem?_concat_of_ne (h : j ≠ l.length) : (l ++ [a])[j]? = l[j]? := by
  rcases Nat.lt_or_gt_of_ne h with hlt | hgt
  · exact getElem?_append_left hlt
  · rw [getElem?_eq_none (by simp; omega), getElem?_eq_none (by omega)]

/-- The entries of a list of which some are missing. -/
theorem join_getElem?_concat (l : List (Option β)) (x : Option β) (j : ℕ) :
    (l ++ [x])[j]?.join = if j = l.length then x else l[j]?.join := by
  split_ifs with hj
  · rw [hj, getElem?_concat_length, Option.join_some]
  · rw [getElem?_concat_of_ne hj]

/-- The last entry of a list is the one that was split off, or comes after it. -/
theorem concat_eq_append_cons {l₁ l₂ : List α} (h : l ++ [a] = l₁ ++ b :: l₂) :
    (l₂ = [] ∧ l = l₁ ∧ a = b) ∨ ∃ l₃, l₂ = l₃ ++ [a] ∧ l = l₁ ++ b :: l₃ := by
  rcases eq_nil_or_concat l₂ with rfl | ⟨l₃, c, rfl⟩
  · obtain ⟨hl, hlast⟩ := append_inj' h rfl
    exact .inl ⟨rfl, hl, singleton_inj.mp hlast⟩
  · rw [concat_eq_append] at h ⊢
    have hassoc : l ++ [a] = (l₁ ++ b :: l₃) ++ [c] := by simpa using h
    obtain ⟨hl, hlast⟩ := append_inj' hassoc rfl
    exact .inr ⟨l₃, by rw [singleton_inj.mp hlast], hl⟩

/-! ## Another entry at an index -/

/-- An entry after the one at `i` was replaced: the new one, or one at another index. -/
theorem getElem?_set_cases (h : (l.set i b)[j]? = some c) :
    (j = i ∧ c = b) ∨ (j ≠ i ∧ l[j]? = some c) := by
  by_cases hj : i = j
  · subst hj
    obtain ⟨hlt, hc⟩ := getElem?_eq_some_iff.mp h
    rw [getElem_set_self] at hc
    exact .inl ⟨rfl, hc.symm⟩
  · rw [getElem?_set_ne hj] at h
    exact .inr ⟨Ne.symm hj, h⟩

/-- What has become of the entry at `j`. -/
theorem getElem?_set_of_some (h : l[j]? = some b) :
    (l.set i c)[j]? = some (if j = i then c else b) := by
  split_ifs with hj
  · rw [← hj, getElem?_set_self (getElem?_eq_some_iff.mp h).1]
  · rw [getElem?_set_ne (Ne.symm hj), h]

/-- One entry gives another share to a sum over them. -/
theorem sum_map_set (f : α → ℕ) (h : l[i]? = some a) (b : α) :
    ((l.set i b).map f).sum + f a = (l.map f).sum + f b := by
  induction l generalizing i with
  | nil => cases h
  | cons c l ih =>
    cases i with
    | zero =>
      obtain rfl := Option.some.inj h
      simp only [set_cons_zero, map_cons, sum_cons]
      omega
    | succ i =>
      have htail := ih h
      simp only [set_cons_succ, map_cons, sum_cons]
      omega

/-! ## A function that fails on some entries -/

end List
