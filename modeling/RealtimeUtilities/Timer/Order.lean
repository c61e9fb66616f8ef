import RealtimeUtilities.Timer.Difference

/-!
# The order of times

`timer_greater_than()` compares the members of two times, `timer_difference_ns()` and
`timer_to_ns()` compute with `1e9` as a `double`. Here the two expressions are rounded once, as a
compiler does that contracts the product and the sum, so the loss is the least possible.

The sign of the difference is always right. Nanoseconds since a start that lies more than
`2 ^ 53` of them back, which are a hundred and four days, are rounded, and times that no midpoint
separates are then the same.

## Main definitions

* `Contracted`: a `double` expression that is rounded when it is converted;
* `OrdersAgree A B`: the three functions order the times in the same way.

## Main result

* `ordersAgree_iff`: the times for which they do.
-/

namespace RealtimeUtilities

/-- The exact value of an expression of type `double`. -/
structure Contracted where
  val : ℚ

namespace Contracted

instance : Double Contracted where
  ofRat q := ⟨q⟩
  add x y := ⟨x.val + y.val⟩
  sub x y := ⟨x.val - y.val⟩
  mul x y := ⟨x.val * y.val⟩
  div x y := ⟨x.val / y.val⟩
  fabs x := ⟨|x.val|⟩
  lt x y := decide (x.val < y.val)
  beq x y := decide (x.val = y.val)

/-- The value is rounded to a `double` before it is converted. -/
instance : DoubleToInt Contracted where
  toInt x := DoubleToInt.toInt (Double.ofRat x.val : Binary64)

end Contracted

/-- `timer_greater_than(A, B)`, `timer_difference_ns(A, B) > 0` and
`timer_to_ns(A) > timer_to_ns(B)` agree. -/
def OrdersAgree (τ : Type) [Double τ] [DoubleToInt τ] (A B : timespec) : Prop :=
  (timer_greater_than A B = true ↔ 0 < timer_difference_ns τ A B) ∧
    (0 < timer_difference_ns τ A B ↔ timer_to_ns τ B < timer_to_ns τ A)

variable {A B : timespec}

/-- Normalised times are compared by their members. -/
theorem timer_greater_than_iff (hA : A.Normalised) (hB : B.Normalised) :
    timer_greater_than A B = true ↔ B.total < A.total := by
  obtain ⟨hA0, hA1⟩ := hA
  obtain ⟨hB0, hB1⟩ := hB
  simp only [timer_greater_than, timespec.total]
  split_ifs with hsec heq
  · exact iff_of_true rfl (by omega)
  · rw [decide_eq_true_iff]
    omega
  · exact iff_of_false (by decide) (by omega)

/-- The difference is rounded once. -/
theorem timer_difference_ns_contracted (h : (A.total - B.total).natAbs < 2 ^ 64) :
    timer_difference_ns Contracted A B =
      (A.total - B.total).sign * Binary64.nearest (A.total - B.total).natAbs := by
  rw [← Binary64.toInt_ofRat h]
  simp only [timer_difference_ns, DoubleToInt.toInt, Double.add, Double.mul, Double.ofRat,
    timespec.total]
  push_cast
  ring_nf

/-- Its sign is the right one. -/
theorem timer_difference_ns_pos_iff (h : (A.total - B.total).natAbs < 2 ^ 64) :
    0 < timer_difference_ns Contracted A B ↔ B.total < A.total := by
  rw [timer_difference_ns_contracted h]
  constructor
  · intro hpos
    have := Int.sign_pos_iff.mp (pos_of_mul_pos_left hpos (Int.natCast_nonneg _))
    omega
  · intro hlt
    have hnearest := Binary64.nearest_lt_of_lt (b := 0) (by norm_num)
      (show 0 < (A.total - B.total).natAbs by omega)
    rw [Int.sign_eq_one_of_pos (by omega), one_mul]
    omega

/-- So are the nanoseconds. -/
theorem timer_to_ns_contracted (hnonneg : 0 ≤ A.total) (hlt : A.total < 2 ^ 64) :
    timer_to_ns Contracted A = Binary64.nearest A.total.toNat := by
  have hnat : A.total.natAbs = A.total.toNat := by omega
  have hrounded := Binary64.toInt_ofRat (n := A.total) (by omega)
  rw [hnat] at hrounded
  -- no sign is lost, since the time is not before the epoch
  have hsign : A.total.sign * (Binary64.nearest A.total.toNat : ℤ) =
      Binary64.nearest A.total.toNat := by
    rcases hnonneg.eq_or_lt with hzero | hpos
    · rw [← hzero, Int.toNat_zero, Binary64.nearest_of_lt (by norm_num)]
      rfl
    · rw [Int.sign_eq_one_of_pos hpos, one_mul]
  rw [← hsign, ← hrounded]
  simp only [timer_to_ns, DoubleToInt.toInt, Double.add, Double.mul, Double.ofRat, timespec.total]
  push_cast
  ring_nf

/-- Times up to the year 2242 are below `2 ^ 63` nanoseconds. -/
theorem timespec.Normalised.total_bounds (hA : A.Normalised) (hnonneg : 0 ≤ A.tv_sec)
    (hlt : A.tv_sec < 2 ^ 33) : 0 ≤ A.total ∧ A.total < 2 ^ 63 := by
  obtain ⟨hA0, hA1⟩ := hA
  simp only [timespec.total]
  omega

/-- The three functions agree if the first time is not the later one, or the second is before
`2 ^ 53` nanoseconds, or a midpoint between two neighbouring values of a `double` separates them.

This is exact for a single rounding. A compiler that rounds the product first and then the sum, as
for x86-64, computes the same while the product is exact, which it is up to `2 ^ 53 / 5 ^ 9`
seconds, about 4.6e9, and may order later times otherwise. -/
theorem ordersAgree_iff (hA : A.Normalised) (hB : B.Normalised) (hA0 : 0 ≤ A.tv_sec)
    (hA1 : A.tv_sec < 2 ^ 33) (hB0 : 0 ≤ B.tv_sec) (hB1 : B.tv_sec < 2 ^ 33) :
    OrdersAgree Contracted A B ↔
      A.total ≤ B.total ∨ B.total < 2 ^ 53 ∨
        Binary64.Separated B.total.toNat A.total.toNat := by
  obtain ⟨ha, ha'⟩ := hA.total_bounds hA0 hA1
  obtain ⟨hb, hb'⟩ := hB.total_bounds hB0 hB1
  unfold OrdersAgree
  rw [timer_greater_than_iff hA hB, timer_difference_ns_pos_iff (by omega),
    timer_to_ns_contracted ha (by omega), timer_to_ns_contracted hb (by omega), Nat.cast_lt]
  rcases le_or_gt A.total B.total with hle | hlt
  · -- rounding keeps the order
    have hmono := Binary64.nearest_mono (Int.toNat_le_toNat hle)
    simp only [hle, true_or, iff_true, true_and]
    exact iff_of_false (not_lt.mpr hle) (not_lt.mpr hmono)
  · simp only [hlt, not_le.mpr hlt, true_and, true_iff, false_or, iff_self]
    rcases lt_or_ge B.total (2 ^ 53) with hsmall | hlarge
    · have hnearest := Binary64.nearest_lt_of_lt (b := B.total.toNat) (a := A.total.toNat)
        (by omega) (by omega)
      exact iff_of_true hnearest (.inl hsmall)
    · rw [Binary64.nearest_lt_iff (by omega), or_iff_right (not_lt.mpr hlarge)]

/-- Two times of a clock that was started a day ago. -/
theorem ordersAgree_iff_uptime :
    OrdersAgree Contracted ⟨86400, 1⟩ ⟨86400, 0⟩ ↔
      (⟨86400, 1⟩ : timespec).total ≤ (⟨86400, 0⟩ : timespec).total ∨
        (⟨86400, 0⟩ : timespec).total < 2 ^ 53 ∨
          Binary64.Separated (⟨86400, 0⟩ : timespec).total.toNat
            (⟨86400, 1⟩ : timespec).total.toNat :=
  ordersAgree_iff (by decide) (by decide) (by decide) (by decide) (by decide) (by decide)

/-- A nanosecond after a second of the year 2023 is later, but as a number of nanoseconds it is
the same. -/
theorem not_ordersAgree_wall_clock :
    timer_greater_than ⟨1700000000, 1⟩ ⟨1700000000, 0⟩ = true ∧
      timer_difference_ns Contracted ⟨1700000000, 1⟩ ⟨1700000000, 0⟩ = 1 ∧
      timer_to_ns Contracted ⟨1700000000, 1⟩ = timer_to_ns Contracted ⟨1700000000, 0⟩ ∧
      ¬ OrdersAgree Contracted ⟨1700000000, 1⟩ ⟨1700000000, 0⟩ := by
  have hdifference : timer_difference_ns Contracted ⟨1700000000, 1⟩ ⟨1700000000, 0⟩ = 1 := by
    decide +kernel
  have hns : timer_to_ns Contracted ⟨1700000000, 1⟩ = timer_to_ns Contracted ⟨1700000000, 0⟩ := by
    decide +kernel
  refine ⟨by decide, hdifference, hns, ?_⟩
  rintro ⟨-, hagree⟩
  rw [hdifference, hns] at hagree
  exact absurd (hagree.mp one_pos) (lt_irrefl _)

end RealtimeUtilities
