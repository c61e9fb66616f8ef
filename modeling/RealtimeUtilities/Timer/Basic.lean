import RealtimeUtilities.Double

/-!
# Times

`struct timespec`, and the conversions of `realtime_utilities.cpp` that other parts use.
-/

namespace RealtimeUtilities

/-- `struct timespec`. -/
structure timespec where
  tv_sec : ℤ
  tv_nsec : ℤ
  deriving DecidableEq, Repr

/-- `timer_to_s`: seconds as a `double`. -/
def timer_to_s {τ : Type} [Double τ] (timeA_p : timespec) : τ :=
  Double.add (Double.ofRat timeA_p.tv_sec)
    (Double.div (Double.ofRat timeA_p.tv_nsec) (Double.ofRat 1000000000))

/-- Full seconds are read exactly. -/
theorem timer_to_s_sec (sec : ℤ) : (timer_to_s ⟨sec, 0⟩ : ℚ) = sec := by
  simp [timer_to_s, Double.add, Double.div, Double.ofRat]

end RealtimeUtilities
