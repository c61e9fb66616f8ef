import Mathlib.Data.Nat.Notation
import Mathlib.Logic.Function.Basic
import RealtimeUtilities.ToMathlib.Lists

/-!
# Names that their makers take away

Parties make numbered things and give them names. A name that is taken is refused, so a party makes
a thing only under a free name, and a party takes a name away only while its own thing has it.

`Making.Sound` says that the table of names is the one that the parties have made. It is kept by the
three things that can happen to a table (`Sound.keep`, `Sound.create` and `Sound.remove`), however
the parties take turns.
-/

/-- What the parties have to do with a table of names. -/
structure Making (π ν : Type) where
  /-- The name that a party works under. -/
  name : π → ν
  /-- The number of the thing that a party has made. -/
  made : π → Option ℕ
  /-- The thing that a party has made and whose name it has not taken away. -/
  named : π → Option ℕ
  made_of_named : ∀ {p k}, named p = some k → made p = some k

namespace Making

variable {π ν : Type} {C : Making π ν} {parties : List π} {table : ν → Option ℕ} {count i j : ℕ}
  {p p' q : π} {k : ℕ}

/-- The names of the table are those of the things that the parties have made, `count` of them. -/
structure Sound (C : Making π ν) (parties : List π) (table : ν → Option ℕ) (count : ℕ) : Prop where
  lt : ∀ (i : ℕ) p k, parties[i]? = some p → C.made p = some k → k < count
  unique : ∀ (i j : ℕ) p q k, parties[i]? = some p → parties[j]? = some q → C.made p = some k →
    C.made q = some k → i = j
  named : ∀ (i : ℕ) p k, parties[i]? = some p → C.named p = some k → table (C.name p) = some k
  owner : ∀ n k, table n = some k →
    ∃ (i : ℕ) (p : π), parties[i]? = some p ∧ C.name p = n ∧ C.named p = some k

/-- Before anybody has come. -/
theorem sound_nil : C.Sound [] (fun _ => none) 0 := by
  constructor <;> simp

/-- At most one party has a name. -/
theorem Sound.unique_name (h : C.Sound parties table count) (hi : parties[i]? = some p)
    (hj : parties[j]? = some q) {l : ℕ} (hp : C.named p = some k) (hq : C.named q = some l)
    (hname : C.name p = C.name q) : i = j := by
  have hk := h.named i p k hi hp
  rw [hname, h.named j q l hj hq] at hk
  obtain rfl := Option.some.inj hk
  exact h.unique i j p q l hi hj (C.made_of_named hp) (C.made_of_named hq)

/-- One more party, which has made nothing yet. -/
theorem Sound.append (h : C.Sound parties table count) (hmade : C.made p = none) :
    C.Sound (parties ++ [p]) table count := by
  have hold : ∀ {i : ℕ} {q : π} {k : ℕ}, (parties ++ [p])[i]? = some q → C.made q = some k →
      parties[i]? = some q := by
    intro i q k hi hq
    refine (List.getElem?_concat_cases hi).resolve_right ?_
    rintro ⟨-, rfl⟩
    rw [hmade] at hq
    cases hq
  refine ⟨fun i q k hi hq => h.lt i q k (hold hi hq) hq,
    fun i j q r k hi hj hq hr => h.unique i j q r k (hold hi hq) (hold hj hr) hq hr,
    fun i q k hi hq => h.named i q k (hold hi (C.made_of_named hq)) hq, fun n k hn => ?_⟩
  obtain ⟨i, q, hi, hq⟩ := h.owner n k hn
  exact ⟨i, q, List.getElem?_concat_of_some hi, hq⟩

/-- The party `i` does something else. -/
theorem Sound.keep (h : C.Sound parties table count) (hi : parties[i]? = some p)
    (hname : C.name p' = C.name p) (hmade : C.made p' = C.made p)
    (hnamed : C.named p' = C.named p) : C.Sound (parties.set i p') table count := by
  -- everybody is as before to the table
  have hold : ∀ {j : ℕ} {q : π}, (parties.set i p')[j]? = some q → ∃ r, parties[j]? = some r ∧
      C.name q = C.name r ∧ C.made q = C.made r ∧ C.named q = C.named r := by
    intro j q hj
    rcases List.getElem?_set_cases hj with ⟨rfl, rfl⟩ | ⟨-, hj⟩
    · exact ⟨p, hi, hname, hmade, hnamed⟩
    · exact ⟨q, hj, rfl, rfl, rfl⟩
  refine ⟨fun j q k hj hq => ?_, fun j l q r k hj hl hq hr => ?_, fun j q k hj hq => ?_,
    fun n k hn => ?_⟩
  · obtain ⟨q', hj, -, hq', -⟩ := hold hj
    exact h.lt j q' k hj (hq' ▸ hq)
  · obtain ⟨q', hj, -, hq', -⟩ := hold hj
    obtain ⟨r', hl, -, hr', -⟩ := hold hl
    exact h.unique j l q' r' k hj hl (hq' ▸ hq) (hr' ▸ hr)
  · obtain ⟨q', hj, hqname, -, hq'⟩ := hold hj
    rw [hqname]
    exact h.named j q' k hj (hq' ▸ hq)
  · obtain ⟨j, q, hj, hq, hqk⟩ := h.owner n k hn
    refine ⟨j, _, List.getElem?_set_of_some hj, ?_⟩
    by_cases hji : j = i
    · subst hji
      obtain rfl := Option.some.inj (hi.symm.trans hj)
      rw [if_pos rfl]
      exact ⟨hname.trans hq, hnamed.trans hqk⟩
    · rw [if_neg hji]
      exact ⟨hq, hqk⟩

variable [DecidableEq ν]

/-- The party `i` makes a thing under a free name. -/
theorem Sound.create (h : C.Sound parties table count) (hi : parties[i]? = some p)
    (hname : C.name p' = C.name p) (hfree : table (C.name p) = none)
    (hnamed : C.named p' = some count) :
    C.Sound (parties.set i p') (Function.update table (C.name p) (some count)) (count + 1) := by
  have hmade : C.made p' = some count := C.made_of_named hnamed
  refine ⟨fun j q k hj hq => ?_, fun j l q r k hj hl hq hr => ?_, fun j q k hj hq => ?_,
    fun n k hn => ?_⟩
  · rcases List.getElem?_set_cases hj with ⟨rfl, rfl⟩ | ⟨-, hj⟩
    · rw [hmade] at hq
      exact Option.some.inj hq ▸ Nat.lt_succ_self _
    · exact Nat.lt_succ_of_lt (h.lt j q k hj hq)
  · -- the new thing is nobody else's
    rcases List.getElem?_set_cases hj with ⟨rfl, rfl⟩ | ⟨-, hj'⟩ <;>
      rcases List.getElem?_set_cases hl with ⟨rfl, rfl⟩ | ⟨-, hl'⟩
    · rfl
    · obtain rfl := Option.some.inj (hmade.symm.trans hq)
      exact absurd (h.lt l r count hl' hr) (Nat.lt_irrefl _)
    · obtain rfl := Option.some.inj (hmade.symm.trans hr)
      exact absurd (h.lt j q count hj' hq) (Nat.lt_irrefl _)
    · exact h.unique j l q r k hj' hl' hq hr
  · rcases List.getElem?_set_cases hj with ⟨rfl, rfl⟩ | ⟨-, hj⟩
    · rw [hname, Function.update_self]
      exact hnamed.symm.trans hq
    · have hne : C.name q ≠ C.name p := fun heq =>
        absurd ((h.named j q k hj hq).symm.trans (heq ▸ hfree)) (by simp)
      rw [Function.update_of_ne hne]
      exact h.named j q k hj hq
  · by_cases hnp : n = C.name p
    · subst hnp
      rw [Function.update_self] at hn
      exact ⟨i, p', List.getElem?_set_self (List.getElem?_eq_some_iff.mp hi).1, hname,
        hnamed.trans hn⟩
    · rw [Function.update_of_ne hnp] at hn
      obtain ⟨j, q, hj, hq, hqk⟩ := h.owner n k hn
      have hji : j ≠ i := by
        rintro rfl
        obtain rfl := Option.some.inj (hi.symm.trans hj)
        exact hnp hq.symm
      refine ⟨j, q, ?_, hq, hqk⟩
      rw [List.getElem?_set_ne (Ne.symm hji), hj]

/-- The party `i` takes its name away. -/
theorem Sound.remove (h : C.Sound parties table count) (hi : parties[i]? = some p)
    (hname : C.name p' = C.name p) (hmade : C.made p' = C.made p) (hp : C.named p = some k)
    (hnone : C.named p' = none) :
    C.Sound (parties.set i p') (Function.update table (C.name p) none) count := by
  refine ⟨fun j q k hj hq => ?_, fun j l q r k hj hl hq hr => ?_, fun j q k hj hq => ?_,
    fun n k hn => ?_⟩
  · rcases List.getElem?_set_cases hj with ⟨rfl, rfl⟩ | ⟨-, hj⟩
    · exact h.lt j p k hi (hmade ▸ hq)
    · exact h.lt j q k hj hq
  · rcases List.getElem?_set_cases hj with ⟨rfl, rfl⟩ | ⟨-, hj'⟩ <;>
      rcases List.getElem?_set_cases hl with ⟨rfl, rfl⟩ | ⟨-, hl'⟩
    · rfl
    · exact h.unique j l p r k hi hl' (hmade ▸ hq) hr
    · exact h.unique j l q p k hj' hi hq (hmade ▸ hr)
    · exact h.unique j l q r k hj' hl' hq hr
  · rcases List.getElem?_set_cases hj with ⟨rfl, rfl⟩ | ⟨hji, hj⟩
    · rw [hnone] at hq
      cases hq
    · -- nobody else had the name
      have hne : C.name q ≠ C.name p := fun heq => hji (h.unique_name hj hi hq hp heq)
      rw [Function.update_of_ne hne]
      exact h.named j q k hj hq
  · have hnp : n ≠ C.name p := by
      rintro rfl
      rw [Function.update_self] at hn
      cases hn
    rw [Function.update_of_ne hnp] at hn
    obtain ⟨j, q, hj, hq, hqk⟩ := h.owner n k hn
    have hji : j ≠ i := by
      rintro rfl
      obtain rfl := Option.some.inj (hi.symm.trans hj)
      exact hnp hq.symm
    refine ⟨j, q, ?_, hq, hqk⟩
    rw [List.getElem?_set_ne (Ne.symm hji), hj]

end Making
