import Mathlib.Algebra.Order.BigOperators.Group.List
import Mathlib.Algebra.Order.Field.Basic
import Mathlib.Tactic.Linarith
import RealtimeUtilities.TimeSpan.Tracker

/-!
# The statistics of a window

`mean`, `max` and `min` of a buffer, with its elements read as exact rationals, which a tracker
reports of the time spans in its window. The two extrema start from zero, so that `max` is the
greatest of zero and the elements, and `min` the least.

## Main definition

* `Describes`: what the least value, the mean and the greatest value of some samples are.

## Main results

* `max_spec` and `min_spec`: what the two extrema compute;
* `describes_iff`: the three functions describe the elements of the buffer exactly if these do not
  all have the same strict sign.
-/

namespace RealtimeUtilities

/-- `least` and `greatest` are the extrema of the samples, and `mean` lies between them. -/
structure Describes {α : Type} [LE α] (samples : List α) (least mean greatest : α) : Prop where
  least_mem : least ∈ samples
  greatest_mem : greatest ∈ samples
  least_le : ∀ x ∈ samples, least ≤ x
  le_greatest : ∀ x ∈ samples, x ≤ greatest
  least_le_mean : least ≤ mean
  mean_le_greatest : mean ≤ greatest

namespace circ_buffer

variable {cb : BoundedQueue ℚ}

/-- `max` is the greatest of zero and the elements. -/
theorem max_spec (cb : BoundedQueue ℚ) :
    (max cb = 0 ∨ max cb ∈ cb.items) ∧ 0 ≤ max cb ∧ ∀ x ∈ cb.items, x ≤ max cb := by
  have hfold : max cb = cb.items.foldl Max.max 0 := by
    rw [max]
    congr 1
    funext ret element
    rw [max_def]
    simp only [Double.lt, decide_eq_true_eq]
    split_ifs <;> linarith
  have hmax : (0 :: cb.items).max? = some (max cb) := by rw [List.max?_cons', hfold]
  obtain ⟨hmem, hle⟩ := List.max?_eq_some_iff.mp hmax
  exact ⟨List.mem_cons.mp hmem, hle 0 List.mem_cons_self,
    fun x hx => hle x (List.mem_cons_of_mem 0 hx)⟩

/-- `min` is the least of zero and the elements. -/
theorem min_spec (cb : BoundedQueue ℚ) :
    (min cb = 0 ∨ min cb ∈ cb.items) ∧ min cb ≤ 0 ∧ ∀ x ∈ cb.items, min cb ≤ x := by
  have hfold : min cb = cb.items.foldl Min.min 0 := by
    rw [min]
    congr 1
    funext ret element
    rw [min_def]
    simp only [Double.lt, decide_eq_true_eq]
    split_ifs <;> linarith
  have hmin : (0 :: cb.items).min? = some (min cb) := by rw [List.min?_cons', hfold]
  obtain ⟨hmem, hle⟩ := List.min?_eq_some_iff.mp hmin
  exact ⟨List.mem_cons.mp hmem, hle 0 List.mem_cons_self,
    fun x hx => hle x (List.mem_cons_of_mem 0 hx)⟩

/-- The mean of a window that is not empty. -/
theorem mean_eq (hne : cb.items ≠ []) : mean cb = cb.items.sum / cb.items.length := by
  rw [mean, if_neg (mt List.length_eq_zero_iff.mp hne)]
  show cb.items.foldl (· + ·) 0 / _ = _
  rw [List.sum_eq_foldl]
  rfl

/-- Between bounds of the elements there is their mean. -/
theorem mean_between (hne : cb.items ≠ []) {a b : ℚ} (ha : ∀ x ∈ cb.items, a ≤ x)
    (hb : ∀ x ∈ cb.items, x ≤ b) : a ≤ mean cb ∧ mean cb ≤ b := by
  have hpos : (0 : ℚ) < cb.items.length := by exact_mod_cast List.length_pos_of_ne_nil hne
  have hlower := List.card_nsmul_le_sum cb.items a ha
  have hupper := List.sum_le_card_nsmul cb.items b hb
  rw [nsmul_eq_mul, mul_comm] at hlower hupper
  rw [mean_eq hne]
  exact ⟨(le_div_iff₀ hpos).mpr hlower, (div_le_iff₀ hpos).mpr hupper⟩

/-- An element that is not negative makes the greatest of zero and the elements one of these. -/
theorem max_mem_iff : max cb ∈ cb.items ↔ ∃ x ∈ cb.items, 0 ≤ x := by
  obtain ⟨hmem, hnonneg, hle⟩ := max_spec cb
  refine ⟨fun h => ⟨max cb, h, hnonneg⟩, ?_⟩
  rintro ⟨x, hx, hpos⟩
  rcases hmem with hzero | hmem
  · -- then zero is not greater than `x`
    have heq : x = max cb := le_antisymm (hle x hx) (hzero ▸ hpos)
    exact heq ▸ hx
  · exact hmem

/-- An element that is not positive makes the least of zero and the elements one of these. -/
theorem min_mem_iff : min cb ∈ cb.items ↔ ∃ x ∈ cb.items, x ≤ 0 := by
  obtain ⟨hmem, hnonpos, hle⟩ := min_spec cb
  refine ⟨fun h => ⟨min cb, h, hnonpos⟩, ?_⟩
  rintro ⟨x, hx, hneg⟩
  rcases hmem with hzero | hmem
  · have heq : min cb = x := le_antisymm (hle x hx) (hzero ▸ hneg)
    exact heq ▸ hx
  · exact hmem

/-- **The statistics describe a window exactly if its elements do not all have the same strict
sign**: an extremum that starts from zero stays there otherwise. So it is with what a tracker
reports of its window. -/
theorem describes_iff (hne : cb.items ≠ []) :
    (Describes cb.items (min cb) (mean cb) (max cb) ↔
      (∃ x ∈ cb.items, x ≤ 0) ∧ ∃ x ∈ cb.items, 0 ≤ x) ∧
    ∀ s : TimeSpanTracker ℚ, s.buffer_.cb = cb →
      (Describes cb.items s.getMin s.getMean s.getMax ↔
        (∃ x ∈ cb.items, x ≤ 0) ∧ ∃ x ∈ cb.items, 0 ≤ x) := by
  obtain ⟨-, -, hle⟩ := max_spec cb
  obtain ⟨-, -, hge⟩ := min_spec cb
  obtain ⟨hmean, hmean'⟩ := mean_between hne hge hle
  -- the bounds hold of every window, so what is left is that the extrema are elements
  have hiff : Describes cb.items (min cb) (mean cb) (max cb) ↔
      (∃ x ∈ cb.items, x ≤ 0) ∧ ∃ x ∈ cb.items, 0 ≤ x := by
    rw [← min_mem_iff, ← max_mem_iff]
    exact ⟨fun h => ⟨h.least_mem, h.greatest_mem⟩,
      fun h => ⟨h.1, h.2, hge, hle, hmean, hmean'⟩⟩
  refine ⟨hiff, ?_⟩
  rintro s rfl
  exact hiff

/-- A window with elements of both signs. -/
def mixedWindow : BoundedQueue ℚ where
  capacity := 3
  items := [1 / 2, -1 / 4]
  length_le := by decide

theorem describes_iff_mixed :
    Describes mixedWindow.items (min mixedWindow) (mean mixedWindow) (max mixedWindow) := by
  refine (describes_iff (List.cons_ne_nil _ _)).1.mpr ?_
  norm_num [mixedWindow]

/-- Two cycles of one and two milliseconds. -/
def cycleWindow : BoundedQueue ℚ where
  capacity := 3
  items := [1 / 1000, 2 / 1000]
  length_le := by decide

/-- The least of two cycle times is said to be zero. -/
theorem min_of_cycles :
    min cycleWindow = 0 ∧ ¬ Describes cycleWindow.items (min cycleWindow) (mean cycleWindow)
      (max cycleWindow) := by
  have hpos : ¬ ∃ x ∈ cycleWindow.items, x ≤ 0 := by norm_num [cycleWindow]
  refine ⟨?_, fun h => hpos (min_mem_iff.mp h.least_mem)⟩
  exact (min_spec cycleWindow).1.resolve_right fun h => hpos (min_mem_iff.mp h)

end circ_buffer

end RealtimeUtilities
