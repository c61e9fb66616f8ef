import RealtimeUtilities.Double.Rounding
import RealtimeUtilities.Timer.Deadline

/-!
# Differences of times

`timer_difference_ns()` and `timer_to_ns()` compute nanoseconds as integers, but on the way they
multiply by the `double` literal `1e9`, so the seconds pass through a `double`. As long as all
numbers have at most 53 bits nothing is lost there, and a difference takes back what `timer_add()`
has added.

## Main definitions

* `timer_difference_ns`, `timer_to_ns` and `timer_greater_than`.

## Main results

* `timer_difference_ns_eq`: the difference of near times is exact;
* `timer_add_inverse`: adding and subtracting, for addends up to `2 ^ 52`.
-/

namespace RealtimeUtilities

/-- `timer_difference_ns`. -/
def timer_difference_ns (τ : Type) [Double τ] [DoubleToInt τ] (timeA_p timeB_p : timespec) : ℤ :=
  let ret := timeA_p.tv_nsec - timeB_p.tv_nsec
  -- the sum is a `double`, and converted when it is assigned
  DoubleToInt.toInt (Double.add (Double.ofRat ret)
    (Double.mul (Double.ofRat 1000000000)
      (Double.ofRat ((timeA_p.tv_sec - timeB_p.tv_sec : ℤ) : ℚ))) : τ)

/-- `timer_to_ns`. -/
def timer_to_ns (τ : Type) [Double τ] [DoubleToInt τ] (timeA_p : timespec) : ℤ :=
  DoubleToInt.toInt (Double.add (Double.mul (Double.ofRat 1000000000)
    (Double.ofRat timeA_p.tv_sec)) (Double.ofRat timeA_p.tv_nsec) : τ)

/-- `timer_greater_than`. -/
def timer_greater_than (timeA_p timeB_p : timespec) : Bool :=
  if timeA_p.tv_sec > timeB_p.tv_sec then true
  else if timeA_p.tv_sec = timeB_p.tv_sec then timeA_p.tv_nsec > timeB_p.tv_nsec
  else false

/-- With every intermediate number below `2 ^ 53`, the difference is exact. -/
theorem timer_difference_ns_eq {A B : timespec} (hnsec : |A.tv_nsec - B.tv_nsec| < 2 ^ 53)
    (hsec : |1000000000 * (A.tv_sec - B.tv_sec)| < 2 ^ 53)
    (htotal : |A.total - B.total| < 2 ^ 53) :
    timer_difference_ns Binary64 A B = A.total - B.total := by
  have hsum : A.total - B.total =
      A.tv_nsec - B.tv_nsec + 1000000000 * (A.tv_sec - B.tv_sec) := by
    simp only [timespec.total]
    ring
  have hseconds : |A.tv_sec - B.tv_sec| < 2 ^ 53 := by
    rw [abs_lt] at hsec ⊢
    omega
  have hfactor : Binary64.Represents (Double.ofRat 1000000000) 1000000000 :=
    Binary64.represents_ofRat (by norm_num)
  -- nothing is rounded in the product, nor then in the sum
  have hproduct := Binary64.represents_mul hfactor (Binary64.represents_ofRat hseconds) hsec
  rw [hsum] at htotal ⊢
  exact (Binary64.represents_add (Binary64.represents_ofRat hnsec) hproduct htotal).toInt

/-- `timer_add()` leaves the nanoseconds within three seconds. -/
theorem abs_tv_nsec_timer_add {ts : timespec} (hnsec : |ts.tv_nsec| < 2 * 10 ^ 9) (a : ℤ) :
    |(timer_add ts a).tv_nsec| < 3 * 10 ^ 9 := by
  have hlower := Int.lt_tmod_of_pos a (show (0 : ℤ) < 1000000000 by decide)
  have hupper := Int.tmod_lt_of_pos a (show (0 : ℤ) < 1000000000 by decide)
  rw [abs_lt] at hnsec
  simp only [timer_add]
  split_ifs with hcarry
  · -- the rest of a positive sum
    have hpos : 0 ≤ (ts.tv_nsec + a.tmod 1000000000).tmod 1000000000 :=
      Int.tmod_nonneg _ (by omega)
    have hrest := Int.tmod_lt_of_pos (ts.tv_nsec + a.tmod 1000000000)
      (show (0 : ℤ) < 1000000000 by decide)
    simp only [abs_lt]
    omega
  · simp only [abs_lt]
    omega

/-- The difference to the time before `timer_add()` is the addend. -/
theorem timer_difference_ns_timer_add {ts : timespec} {a : ℤ} (hnsec : |ts.tv_nsec| < 2 * 10 ^ 9)
    (ha : |a| ≤ 2 ^ 52) : timer_difference_ns Binary64 (timer_add ts a) ts = a := by
  have hadded := abs_tv_nsec_timer_add hnsec a
  have htotal := total_timer_add ts a
  -- the seconds differ by the addend, up to what the nanoseconds differ by
  have hseconds : 1000000000 * ((timer_add ts a).tv_sec - ts.tv_sec) =
      a - ((timer_add ts a).tv_nsec - ts.tv_nsec) := by
    simp only [timespec.total] at htotal
    omega
  rw [abs_lt] at hadded hnsec
  rw [abs_le] at ha
  have hdifference : (timer_add ts a).total - ts.total = a := by
    rw [htotal]
    ring
  rw [timer_difference_ns_eq, hdifference]
  · rw [abs_lt]
    omega
  · rw [hseconds, abs_lt]
    omega
  · rw [hdifference, abs_lt]
    omega

/-- Adding and then taking the difference gives the addend. Adding twice is adding the sum, and
adding a number and its negative leaves the time where it was. -/
theorem timer_add_inverse {ts : timespec} {a : ℤ} (hnsec : |ts.tv_nsec| < 2 * 10 ^ 9)
    (ha : |a| ≤ 2 ^ 52) (b : ℤ) :
    timer_difference_ns Binary64 (timer_add ts a) ts = a ∧
      (timer_add (timer_add ts a) b).total = (timer_add ts (a + b)).total ∧
      (timer_add (timer_add ts a) (-a)).total = ts.total := by
  refine ⟨timer_difference_ns_timer_add hnsec ha, ?_, ?_⟩
  · rw [total_timer_add, total_timer_add, total_timer_add]
    ring
  · rw [total_timer_add, total_timer_add]
    ring

/-- A correction by more than a second back, and a smaller one forward. -/
theorem timer_add_inverse_corrections :
    timer_difference_ns Binary64 (timer_add ⟨7, 999999999⟩ (-1500000000)) ⟨7, 999999999⟩ =
        -1500000000 ∧
      (timer_add (timer_add ⟨7, 999999999⟩ (-1500000000)) 400000000).total =
        (timer_add ⟨7, 999999999⟩ (-1500000000 + 400000000)).total ∧
      (timer_add (timer_add ⟨7, 999999999⟩ (-1500000000)) (- -1500000000)).total =
        (⟨7, 999999999⟩ : timespec).total :=
  timer_add_inverse (by decide) (by decide) 400000000

end RealtimeUtilities
