import RealtimeUtilities.Double.Error
import RealtimeUtilities.Timer.Order

/-!
# Differences in seconds

`timer_difference_s()` divides the nanoseconds by `1e9` and adds the seconds, with two roundings of
a `double`. The errors are small against the nanosecond by which two times differ at least, so the
sign of the difference is the right one, and for twelve days its nanoseconds are, too.

`timer_inc_period(pinfo, offest_time_ns)` takes the difference of the deadline before the call and
the one after it. It reads no clock, so what it returns says nothing of deadlines that were missed:
it is zero unless the call moves the deadline back.

## Main results

* `near_timer_difference_s`: the error of the difference;
* `timer_difference_s_order`: the difference in seconds orders times as `timer_greater_than()` does;
* `timer_inc_period_offset_ret`: what the call returns;
* `timer_inc_period_offset_silent`: a thread that keeps moving its deadline on is never told that
  it has missed one.
-/

namespace RealtimeUtilities

open Binary64

variable {A B : timespec}

/-- A number of nanoseconds that is not zero is far from the subnormal numbers in seconds, and one
of the code is not too large. -/
theorem normal_of_nanoseconds {n : ℤ} (hn : n ≠ 0) (hlt : |n| < 2 ^ 96) {v ε : ℚ}
    (hε : ε ≤ |(n : ℚ)| / 1000000000 / 2) (hv : |v - n / 1000000000| ≤ ε) : Normal v := by
  have hone : (1 : ℚ) ≤ |(n : ℚ)| := by exact_mod_cast Int.one_le_abs hn
  have hlt' : |(n : ℚ)| < 2 ^ 96 := by exact_mod_cast hlt
  have habs : |(n : ℚ) / 1000000000| = |(n : ℚ)| / 1000000000 := by
    rw [abs_div, abs_of_pos (by norm_num : (0 : ℚ) < 1000000000)]
  refine Normal.of_bounds hv ?_ ?_
  · have hsmall : (2 : ℚ) ^ (-1022 : ℤ) ≤ 2 ^ (-34 : ℤ) :=
      zpow_le_zpow_right₀ (by norm_num) (by norm_num)
    rw [habs]
    refine (add_le_add_left hsmall ε).trans ?_
    norm_num
    linarith
  · have hlarge : (2 : ℚ) ^ (96 : ℤ) < 2 ^ (1023 : ℤ) :=
      zpow_lt_zpow_right₀ (by norm_num) (by norm_num)
    refine lt_trans ?_ hlarge
    rw [habs]
    norm_num at hlt' ⊢
    linarith

/-- The nanoseconds, converted to seconds. -/
theorem near_nanoseconds {n : ℤ} (hn : |n| < 2 ^ 32) :
    Near (Double.div (Double.ofRat n) (Double.ofRat 1000000000)) (n / 1000000000) (5 / 2 ^ 53) := by
  have hn' : |(n : ℚ)| < 2 ^ 32 := by exact_mod_cast hn
  have hfactor : Represents (Double.ofRat ((1000000000 : ℤ) : ℚ)) 1000000000 :=
    represents_ofRat (by norm_num)
  have hnormal : Normal ((n : ℚ) / (1000000000 : ℤ)) := by
    by_cases hzero : n = 0
    · exact .inl (by simp [hzero])
    · exact normal_of_nanoseconds hzero (hn.trans (by norm_num)) (by positivity : (0 : ℚ) ≤ _)
        (by simp)
  have hdiv := near_div (represents_ofRat (hn.trans (by norm_num))) hfactor (by norm_num) hnormal
  push_cast at hdiv
  refine hdiv.mono ?_
  rw [abs_div, abs_of_pos (by norm_num : (0 : ℚ) < 1000000000), div_div,
    div_le_div_iff₀ (by norm_num) (by norm_num)]
  linarith

/-- The seconds are converted with the relative error of one rounding. -/
theorem near_seconds {n : ℤ} (hn : |n| < 2 ^ 63) :
    Near (Double.ofRat n) n (|(n : ℚ)| / 2 ^ 53) := by
  refine near_round (fun _ => rfl) ?_
  by_cases hzero : n = 0
  · exact .inl (by simp [hzero])
  · have hlt : |n * 1000000000| < 2 ^ 96 := by
      rw [abs_lt] at hn ⊢
      omega
    refine normal_of_nanoseconds (mul_ne_zero hzero (by norm_num)) hlt
      (by positivity : (0 : ℚ) ≤ _) ?_
    rw [Int.cast_mul, Int.cast_ofNat, mul_div_cancel_right₀ _ (by norm_num), sub_self, abs_zero]

/-- The seconds are what two times differ by, up to what their nanoseconds differ by. -/
theorem abs_seconds_le (hnsec : |A.tv_nsec - B.tv_nsec| < 2 ^ 32) :
    |((A.tv_sec - B.tv_sec : ℤ) : ℚ)| ≤ |((A.total - B.total : ℤ) : ℚ)| / 1000000000 + 5 := by
  have hbound : |A.tv_sec - B.tv_sec| * 1000000000 ≤ |A.total - B.total| + 5 * 1000000000 := by
    simp only [timespec.total, Int.abs_eq_natAbs] at hnsec ⊢
    omega
  have hbound' : |((A.tv_sec - B.tv_sec : ℤ) : ℚ)| * 1000000000 ≤
      |((A.total - B.total : ℤ) : ℚ)| + 5 * 1000000000 := by
    exact_mod_cast hbound
  linarith

/-- The difference in seconds is nearly that of the times. Equal times have the difference zero. -/
theorem near_timer_difference_s (hnsec : |A.tv_nsec - B.tv_nsec| < 2 ^ 32)
    (hsec : |A.tv_sec - B.tv_sec| < 2 ^ 63) :
    ∃ ε : ℚ, Near (timer_difference_s A B) ((A.total - B.total : ℤ) / 1000000000) ε ∧
      (A.total = B.total → ε = 0) ∧
      ε ≤ 12 / 2 ^ 53 + |((A.total - B.total : ℤ) : ℚ)| / 1000000000 * 3 / 2 ^ 53 := by
  have hsum : ((A.total - B.total : ℤ) : ℚ) / 1000000000 =
      ((A.tv_nsec - B.tv_nsec : ℤ) : ℚ) / 1000000000 + (A.tv_sec - B.tv_sec : ℤ) := by
    simp only [timespec.total]
    push_cast
    ring
  have hdifference : (timer_difference_s A B : Binary64) =
      Double.add (Double.div (Double.ofRat ((A.tv_nsec - B.tv_nsec : ℤ) : ℚ))
        (Double.ofRat 1000000000)) (Double.ofRat ((A.tv_sec - B.tv_sec : ℤ) : ℚ)) := by
    simp only [timer_difference_s]
    push_cast
    rfl
  rw [hdifference]
  by_cases hzero : A.total - B.total = 0
  · -- then the nanoseconds make up full seconds, which are exact
    have hnsec' : A.tv_nsec - B.tv_nsec = -(A.tv_sec - B.tv_sec) * 1000000000 := by
      simp only [timespec.total] at hzero
      omega
    have hfew : |A.tv_sec - B.tv_sec| < 2 ^ 53 := by
      rw [abs_lt] at hnsec ⊢
      omega
    have hdividend : Represents (Double.ofRat ((A.tv_nsec - B.tv_nsec : ℤ) : ℚ))
        (-(A.tv_sec - B.tv_sec) * 1000000000) := by
      rw [← hnsec']
      exact represents_ofRat (hnsec.trans (by norm_num))
    have hfactor : Represents (Double.ofRat ((1000000000 : ℤ) : ℚ)) 1000000000 :=
      represents_ofRat (by norm_num)
    have hquotient := represents_div hdividend hfactor (by norm_num) (by rwa [abs_neg])
    have hadd := (represents_add hquotient (represents_ofRat hfew) (by simp)).near
    rw [neg_add_cancel, Int.cast_zero] at hadd
    refine ⟨0, ?_, fun _ => rfl, by positivity⟩
    rw [hzero, Int.cast_zero, zero_div]
    exact_mod_cast hadd
  · have hlt : |A.total - B.total| < 2 ^ 96 := by
      rw [abs_lt] at hnsec hsec ⊢
      simp only [timespec.total]
      omega
    have habs : |((A.total - B.total : ℤ) : ℚ) / 1000000000| =
        |((A.total - B.total : ℤ) : ℚ)| / 1000000000 := by
      rw [abs_div, abs_of_pos (by norm_num : (0 : ℚ) < 1000000000)]
    have hone : (1 : ℚ) ≤ |((A.total - B.total : ℤ) : ℚ)| := by
      exact_mod_cast Int.one_le_abs hzero
    have hseconds := abs_seconds_le hnsec
    have hbounds : 5 / 2 ^ 53 + |((A.tv_sec - B.tv_sec : ℤ) : ℚ)| / 2 ^ 53 ≤
        10 / 2 ^ 53 + |((A.total - B.total : ℤ) : ℚ)| / 1000000000 / 2 ^ 53 := by
      linarith
    have hadd := (near_nanoseconds hnsec).add (near_seconds hsec) fun v hv =>
      normal_of_nanoseconds hzero hlt ?_ (hsum ▸ hv)
    · rw [← hsum] at hadd
      refine ⟨_, hadd, fun h => absurd (sub_eq_zero.mpr h) hzero, ?_⟩
      have hnonneg : 0 ≤ |((A.total - B.total : ℤ) : ℚ)| / 1000000000 := by positivity
      rw [habs]
      generalize |((A.total - B.total : ℤ) : ℚ)| / 1000000000 = z at hbounds hnonneg ⊢
      generalize (5 : ℚ) / 2 ^ 53 + |((A.tv_sec - B.tv_sec : ℤ) : ℚ)| / 2 ^ 53 = e at hbounds ⊢
      norm_num at hbounds ⊢
      linarith
    · refine hbounds.trans ?_
      generalize |((A.total - B.total : ℤ) : ℚ)| = d at hone ⊢
      norm_num
      linarith

/-- So its sign is the right one. -/
theorem timer_difference_s_pos_iff (hnsec : |A.tv_nsec - B.tv_nsec| < 2 ^ 32)
    (hsec : |A.tv_sec - B.tv_sec| < 2 ^ 63) :
    Double.lt (Double.ofRat 0) (timer_difference_s A B : Binary64) = true ↔ B.total < A.total := by
  obtain ⟨ε, hnear, hzero, hε⟩ := near_timer_difference_s hnsec hsec
  have hscale : (0 : ℚ) < 1000000000 := by norm_num
  rw [hnear.zero_lt_iff]
  · rw [div_pos_iff_of_pos_right hscale, Int.cast_pos, sub_pos]
  · intro h
    refine hzero ?_
    have hcast := (div_eq_zero_iff.mp h).resolve_right hscale.ne'
    have := Int.cast_eq_zero.mp hcast
    omega
  · intro h
    -- the times differ by a nanosecond at least
    have hone : (1 : ℚ) ≤ |((A.total - B.total : ℤ) : ℚ)| := by
      have hne : A.total - B.total ≠ 0 := fun heq => h (by rw [heq, Int.cast_zero, zero_div])
      exact_mod_cast Int.one_le_abs hne
    rw [abs_div, abs_of_pos hscale]
    refine hε.trans_lt ?_
    generalize |((A.total - B.total : ℤ) : ℚ)| = d at hone ⊢
    norm_num
    linarith

/-- **The difference in seconds orders times as `timer_greater_than()` does**, whatever times they
are, as long as the difference of their seconds is an `int64_t`. Up to `2 ^ 20` seconds, which are
twelve days, the nearest number of nanoseconds is the difference of the times. -/
theorem timer_difference_s_order (hA : A.Normalised) (hB : B.Normalised)
    (hsec : |A.tv_sec - B.tv_sec| < 2 ^ 63) :
    (Double.lt (Double.ofRat 0) (timer_difference_s A B : Binary64) = true ↔
      timer_greater_than A B = true) ∧
    (|A.total - B.total| ≤ 2 ^ 20 * 1000000000 →
      ∃ negative v, (timer_difference_s A B : Binary64).value = .finite negative v ∧
        |v * 1000000000 - (A.total - B.total : ℤ)| < 1 / 2) := by
  have hnsec : |A.tv_nsec - B.tv_nsec| < 2 ^ 32 := by
    obtain ⟨hA0, hA1⟩ := hA
    obtain ⟨hB0, hB1⟩ := hB
    rw [abs_lt]
    omega
  refine ⟨?_, fun htotal => ?_⟩
  · rw [timer_difference_s_pos_iff hnsec hsec, timer_greater_than_iff hA hB]
  · obtain ⟨ε, ⟨negative, v, hvalue, hv, -⟩, -, hε⟩ := near_timer_difference_s hnsec hsec
    refine ⟨negative, v, hvalue, ?_⟩
    have htotal' : |((A.total - B.total : ℤ) : ℚ)| ≤ 2 ^ 20 * 1000000000 := by exact_mod_cast htotal
    generalize ((A.total - B.total : ℤ) : ℚ) = d at hv hε htotal' ⊢
    calc |v * 1000000000 - d| = |v - d / 1000000000| * 1000000000 := by
          rw [← abs_of_pos (by norm_num : (0 : ℚ) < 1000000000), ← abs_mul,
            abs_of_pos (by norm_num : (0 : ℚ) < 1000000000), sub_mul,
            div_mul_cancel₀ _ (by norm_num : (1000000000 : ℚ) ≠ 0)]
      _ ≤ ε * 1000000000 := mul_le_mul_of_nonneg_right hv (by norm_num)
      _ < 1 / 2 := by
          norm_num at hε htotal' ⊢
          linarith

/-- A nanosecond around a full second. -/
theorem timer_difference_s_order_carry :
    Double.lt (Double.ofRat 0) (timer_difference_s ⟨8, 0⟩ ⟨7, 999999999⟩ : Binary64) = true :=
  ((timer_difference_s_order (by decide) (by decide) (by decide)).1).mpr (by decide)

/-! ## `timer_inc_period` with an offset -/

/-- `timer_add()` leaves the nanoseconds of a deadline within a second, a full one included. -/
theorem tv_nsec_timer_add {ts : timespec} (hnonneg : 0 ≤ ts.tv_nsec)
    (hle : ts.tv_nsec ≤ 1000000000) (a : ℤ) :
    -1000000000 < (timer_add ts a).tv_nsec ∧ (timer_add ts a).tv_nsec ≤ 1000000000 ∧
      (0 ≤ a → 0 ≤ (timer_add ts a).tv_nsec) := by
  have hlower := Int.lt_tmod_of_pos a (show (0 : ℤ) < 1000000000 by decide)
  have hupper := Int.tmod_lt_of_pos a (show (0 : ℤ) < 1000000000 by decide)
  have hsign : 0 ≤ a → 0 ≤ a.tmod 1000000000 := fun ha => Int.tmod_nonneg _ ha
  simp only [timer_add]
  split_ifs with hcarry
  · -- the rest of a positive sum
    have hpos : 0 ≤ (ts.tv_nsec + a.tmod 1000000000).tmod 1000000000 :=
      Int.tmod_nonneg _ (by omega)
    have hrest := Int.tmod_lt_of_pos (ts.tv_nsec + a.tmod 1000000000)
      (show (0 : ℤ) < 1000000000 by decide)
    dsimp only
    exact ⟨by omega, by omega, fun _ => hpos⟩
  · dsimp only
    exact ⟨by omega, by omega, fun ha => by have := hsign ha; omega⟩

variable {pinfo : period_info} {offest_time_ns : ℤ}

/-- The deadline of the call before and after it, as near as the difference in seconds wants it. -/
theorem offset_bounds (hnonneg : 0 ≤ pinfo.next_period.tv_nsec)
    (hle : pinfo.next_period.tv_nsec ≤ 1000000000)
    (hlt : |pinfo.period_ns + offest_time_ns| < 2 ^ 63) :
    let next_period := timer_add pinfo.next_period (pinfo.period_ns + offest_time_ns)
    |pinfo.next_period.tv_nsec - next_period.tv_nsec| < 2 ^ 32 ∧
      |pinfo.next_period.tv_sec - next_period.tv_sec| < 2 ^ 63 := by
  obtain ⟨hlower, hupper, -⟩ :=
    tv_nsec_timer_add hnonneg hle (pinfo.period_ns + offest_time_ns)
  have htotal := total_timer_add pinfo.next_period (pinfo.period_ns + offest_time_ns)
  simp only [timespec.total, abs_lt] at htotal hlt ⊢
  omega

/-- A call that does not move the deadline back returns zero. -/
theorem timer_inc_period_offset_of_nonneg (hnonneg : 0 ≤ pinfo.next_period.tv_nsec)
    (hle : pinfo.next_period.tv_nsec ≤ 1000000000)
    (hlt : |pinfo.period_ns + offest_time_ns| < 2 ^ 63)
    (hforward : 0 ≤ pinfo.period_ns + offest_time_ns) :
    (timer_inc_period_offset Binary64 pinfo offest_time_ns).1 = 0 := by
  obtain ⟨hnsec, hsec⟩ := offset_bounds hnonneg hle hlt
  have hsign := timer_difference_s_pos_iff hnsec hsec
  rw [total_timer_add] at hsign
  have hnot : ¬ Double.lt (Double.ofRat 0) (timer_difference_s pinfo.next_period
      (timer_add pinfo.next_period (pinfo.period_ns + offest_time_ns)) : Binary64) = true :=
    fun h => absurd (hsign.mp h) (by omega)
  simp only [timer_inc_period_offset, if_neg hnot]

/-- **What `timer_inc_period(pinfo, offest_time_ns)` returns.** It is zero if the call does not move
the deadline back. Otherwise it is the number of whole periods by which the deadline was moved back,
or by which a nanosecond less would have moved it: two roundings and the conversion to an integer
may lose this nanosecond. -/
theorem timer_inc_period_offset_ret (hnonneg : 0 ≤ pinfo.next_period.tv_nsec)
    (hle : pinfo.next_period.tv_nsec ≤ 1000000000) (hperiod : 0 < pinfo.period_ns)
    (hlong : pinfo.period_ns < 2 ^ 63) (hlt : |pinfo.period_ns + offest_time_ns| ≤ 2 ^ 50) :
    let back := -(pinfo.period_ns + offest_time_ns)
    let ret := (timer_inc_period_offset Binary64 pinfo offest_time_ns).1
    (back ≤ 0 → ret = 0) ∧
      (0 < back → ret = (back - 1) / pinfo.period_ns % 2 ^ 32 ∨
        ret = back / pinfo.period_ns % 2 ^ 32) := by
  intro back ret
  have hlt' : |pinfo.period_ns + offest_time_ns| < 2 ^ 63 := hlt.trans_lt (by norm_num)
  refine ⟨fun hforward => timer_inc_period_offset_of_nonneg hnonneg hle hlt' (by omega),
    fun hback => ?_⟩
  obtain ⟨hnsec, hsec⟩ := offset_bounds hnonneg hle hlt'
  have hsign := timer_difference_s_pos_iff hnsec hsec
  obtain ⟨ε, hnear, -, hε⟩ := near_timer_difference_s hnsec hsec
  have hdifference : pinfo.next_period.total -
      (timer_add pinfo.next_period (pinfo.period_ns + offest_time_ns)).total = back := by
    rw [total_timer_add]
    omega
  rw [hdifference] at hnear hε
  -- the error is still less than a nanosecond after the product
  have hone : (1 : ℚ) ≤ back := by exact_mod_cast hback
  have hle' : (back : ℚ) ≤ 2 ^ 50 := by
    have hback' : back ≤ 2 ^ 50 := by
      rw [abs_le] at hlt
      omega
    exact_mod_cast hback'
  rw [abs_of_pos (by linarith)] at hε
  have hnanoseconds : ε * 1000000000 ≤ 2 / 5 * back ∧ ε * 1000000000 ≤ 2 / 5 := by
    norm_num at hε hle'
    constructor
    · linarith
    · linarith
  have hfactor : Represents (Double.ofRat ((1000000000 : ℤ) : ℚ)) 1000000000 :=
    represents_ofRat (by norm_num)
  have hproduct := hnear.mul hfactor (by norm_num) fun v hv => ?_
  · rw [Int.cast_ofNat, div_mul_cancel₀ _ (by norm_num : (1000000000 : ℚ) ≠ 0),
      abs_of_pos (by linarith)] at hproduct
    have htoInt := hproduct.toInt hback (by norm_num at hle' ⊢; linarith)
    have hpos := hsign.mpr (by omega)
    have hperiod' : pinfo.period_ns % 2 ^ 64 = pinfo.period_ns := by omega
    have hret : ret = DoubleToInt.toInt (Double.mul (timer_difference_s pinfo.next_period
        (timer_add pinfo.next_period (pinfo.period_ns + offest_time_ns)) : Binary64)
        (Double.ofRat 1000000000)) / pinfo.period_ns % 2 ^ 32 := by
      simp only [ret, timer_inc_period_offset, if_pos hpos, hperiod']
    rw [hret]
    exact htoInt.imp (fun h => by rw [h]) fun h => by rw [h]
  · have hlarge : |back * 1000000000| < 2 ^ 96 := by
      have hbound : back ≤ 2 ^ 50 := by exact_mod_cast hle'
      rw [abs_of_pos (by omega)]
      omega
    have hv' : |v - ((back * 1000000000 : ℤ) : ℚ) / 1000000000| ≤ ε * 1000000000 := by
      rw [Int.cast_ofNat, div_mul_cancel₀ _ (by norm_num : (1000000000 : ℚ) ≠ 0)] at hv
      rw [Int.cast_mul, Int.cast_ofNat, mul_div_cancel_right₀ _ (by norm_num)]
      exact hv
    refine normal_of_nanoseconds (mul_ne_zero hback.ne' (by norm_num)) hlarge ?_ hv'
    rw [Int.cast_mul, Int.cast_ofNat, abs_of_pos (by linarith),
      mul_div_cancel_right₀ _ (by norm_num)]
    linarith

/-- A deadline is moved back by a period and a half, with an offset of two and a half periods. -/
theorem timer_inc_period_offset_ret_back :
    (timer_inc_period_offset Binary64 ⟨⟨7, 0⟩, 1000000⟩ (-2500000)).1 = 1 := by
  rcases (@timer_inc_period_offset_ret ⟨⟨7, 0⟩, 1000000⟩ (-2500000) (by decide) (by decide)
    (by decide) (by decide) (by decide)).2 (by decide) with h | h
  · exact h
  · exact h

/-- The calls with the given offsets, one after the other: what they return, and the deadline after
them. -/
def offsetCalls (τ : Type) [Double τ] [DoubleToInt τ] :
    period_info → List ℤ → List ℤ × period_info
  | pinfo, [] => ([], pinfo)
  | pinfo, offest_time_ns :: offsets =>
      let call := timer_inc_period_offset τ pinfo offest_time_ns
      let calls := offsetCalls τ call.2 offsets
      (call.1 :: calls.1, calls.2)

/-- **A thread that keeps moving its deadline on is never told that it has missed one.** Whatever
offsets the calls have, as long as none is so far back that it takes a whole period away: every call
returns zero, at whatever time it is made, and all calls together move the deadline by their
periods and offsets. -/
theorem timer_inc_period_offset_silent (hnormalised : pinfo.next_period.Normalised)
    {offsets : List ℤ} (hforward : ∀ o ∈ offsets, 0 ≤ pinfo.period_ns + o)
    (hlt : ∀ o ∈ offsets, pinfo.period_ns + o < 2 ^ 63) :
    (∀ ret ∈ (offsetCalls Binary64 pinfo offsets).1, ret = 0) ∧
      (offsetCalls Binary64 pinfo offsets).2.next_period.total =
        pinfo.next_period.total + offsets.length * pinfo.period_ns + offsets.sum := by
  obtain ⟨hnonneg, hlt1⟩ := hnormalised
  have hle : pinfo.next_period.tv_nsec ≤ 1000000000 := hlt1.le
  clear hlt1
  induction offsets generalizing pinfo with
  | nil => simp [offsetCalls]
  | cons o offsets ih =>
    have hfirst := hforward o List.mem_cons_self
    have hfirst' := hlt o List.mem_cons_self
    -- the full second that `timer_add()` may leave does no harm here
    obtain ⟨-, hupper, hnonneg'⟩ := tv_nsec_timer_add hnonneg hle (pinfo.period_ns + o)
    have hrest := @ih (timer_inc_period_offset Binary64 pinfo o).2
      (fun o ho => hforward o (List.mem_cons_of_mem _ ho))
      (fun o ho => hlt o (List.mem_cons_of_mem _ ho)) (hnonneg' hfirst) hupper
    have hret : (timer_inc_period_offset Binary64 pinfo o).1 = 0 :=
      timer_inc_period_offset_of_nonneg hnonneg hle (by rw [abs_of_nonneg hfirst]; exact hfirst')
        hfirst
    refine ⟨fun ret hmem => ?_, ?_⟩
    · rcases List.mem_cons.mp hmem with rfl | hmem
      · exact hret
      · exact hrest.1 ret hmem
    · have hmoved : (timer_inc_period_offset Binary64 pinfo o).2.next_period.total =
          pinfo.next_period.total + (pinfo.period_ns + o) := total_timer_add _ _
      have hperiod : (timer_inc_period_offset Binary64 pinfo o).2.period_ns = pinfo.period_ns := rfl
      simp only [offsetCalls, hrest.2, hmoved, hperiod, List.length_cons, List.sum_cons]
      push_cast
      ring

/-- A deadline of a thousand seconds ago, moved on twice. -/
theorem timer_inc_period_offset_silent_late :
    (offsetCalls Binary64 ⟨⟨7, 999999999⟩, 1000000⟩ [-300, 500]).2.next_period.total =
      7999999999 + 2 * 1000000 + 200 :=
  (@timer_inc_period_offset_silent ⟨⟨7, 999999999⟩, 1000000⟩ (by decide) [-300, 500] (by decide)
    (by decide)).2

end RealtimeUtilities
