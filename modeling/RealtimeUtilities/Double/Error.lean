import RealtimeUtilities.Double.Rounding

/-!
# The error of a rounding

A rational in the range of the normal numbers is rounded with a relative error of at most
`2 ^ (-53)`. `Near x q ε` says that the value of a `double` is within `ε` of a rational, and the
operations of the code add to the distance of their operands the error of one rounding.

## Main definitions

* `Normal q`: `q` is zero or in the range of the normal numbers;
* `Near x q ε`: the value of `x` is within `ε` of `q`;
* `rounded q`: what a nonnegative number is rounded to.

## Main results

* `near_round`: the error of a rounding;
* `near_div`, `Near.add` and `Near.mul`: the errors of the operations;
* `Near.zero_lt_iff` and `Near.toInt`: comparisons with zero and conversions to an integer type;
* `rounded_mono`: rounding keeps the order.
-/

namespace RealtimeUtilities

namespace Binary64

/-! ## The exponent -/

/-- The exponent of a positive rational. -/
theorem exponentOf_spec {q : ℚ} (hq : 0 < q) :
    (2 : ℚ) ^ exponentOf q ≤ q ∧ q < 2 ^ (exponentOf q + 1) := by
  have hnum : 0 < q.num := Rat.num_pos.mpr hq
  have hcast : (q.num.toNat : ℚ) = q.num := by
    rw [← Int.cast_natCast, Int.toNat_of_nonneg hnum.le]
  have hq' : q * q.den = q.num.toNat := by rw [hcast, Rat.mul_den_eq_num]
  -- the powers of two around numerator and denominator
  have hnum_le : (2 : ℚ) ^ q.num.toNat.log2 ≤ q.num.toNat := by
    exact_mod_cast Nat.log2_self_le (by omega)
  have hnum_lt : (q.num.toNat : ℚ) < 2 ^ (q.num.toNat.log2 + 1) := by
    exact_mod_cast Nat.lt_log2_self
  have hden_le : (2 : ℚ) ^ q.den.log2 ≤ q.den := by
    exact_mod_cast Nat.log2_self_le q.den_nz
  have hden_lt : (q.den : ℚ) < 2 ^ (q.den.log2 + 1) := by
    exact_mod_cast Nat.lt_log2_self
  have hcases : exponentOf q =
      if (2 : ℚ) ^ ((q.num.toNat.log2 : ℤ) - q.den.log2) ≤ q then
        (q.num.toNat.log2 : ℤ) - q.den.log2
      else q.num.toNat.log2 - q.den.log2 - 1 := rfl
  generalize q.num.toNat.log2 = a at hnum_le hnum_lt hcases
  generalize q.den.log2 = b at hden_le hden_lt hcases
  have hlt : q < 2 ^ ((a : ℤ) - b + 1) := by
    have hscale : (2 : ℚ) ^ ((a : ℤ) - b + 1) * 2 ^ b = 2 ^ (a + 1) := by
      rw [← zpow_natCast, ← zpow_natCast, ← zpow_add₀ (by norm_num)]
      congr 1
      push_cast
      ring
    have hle := mul_le_mul_of_nonneg_left hden_le hq.le
    exact lt_of_mul_lt_mul_right (by linarith) (show (0 : ℚ) ≤ 2 ^ b by positivity)
  have hle : (2 : ℚ) ^ ((a : ℤ) - b - 1) ≤ q := by
    have hscale : (2 : ℚ) ^ ((a : ℤ) - b - 1) * 2 ^ (b + 1) = 2 ^ a := by
      rw [← zpow_natCast, ← zpow_natCast, ← zpow_add₀ (by norm_num)]
      congr 1
      push_cast
      ring
    have hlt := mul_lt_mul_of_pos_left hden_lt hq
    exact le_of_mul_le_mul_right (by linarith) (show (0 : ℚ) < 2 ^ (b + 1) by positivity)
  rw [hcases]
  split_ifs with h
  · exact ⟨h, hlt⟩
  · rw [sub_add_cancel]
    exact ⟨hle, not_le.mp h⟩

/-! ## One rounding -/

/-- A number is rounded by at most one half. -/
theorem abs_roundHalfEven_sub_le {q : ℚ} (hq : 0 ≤ q) : |(roundHalfEven q : ℚ) - q| ≤ 1 / 2 := by
  have hupper : ¬ roundHalfEven q < roundHalfEven q := lt_irrefl _
  rw [lt_roundHalfEven_iff hq, not_or] at hupper
  rw [abs_le]
  refine ⟨by linarith [not_lt.mp hupper.1], ?_⟩
  -- the number below is not the nearest one
  cases hr : roundHalfEven q with
  | zero =>
    push_cast
    linarith
  | succ m =>
    have hlower : m < roundHalfEven q := by omega
    push_cast
    rcases (lt_roundHalfEven_iff hq).mp hlower with h | ⟨h, -⟩
    · linarith
    · linarith

/-- `q` is zero or in the range of the normal numbers, up to the last power of two. -/
def Normal (q : ℚ) : Prop :=
  q = 0 ∨ ((2 : ℚ) ^ (-1022 : ℤ) ≤ |q| ∧ |q| < 2 ^ (1023 : ℤ))

/-- The exponent of a normal number. -/
theorem exponentOf_bounds {q : ℚ} (hlow : (2 : ℚ) ^ (-1022 : ℤ) ≤ q) (hhigh : q < 2 ^ (1023 : ℤ)) :
    -1022 ≤ exponentOf q ∧ exponentOf q ≤ 1022 := by
  have hpos : 0 < q := lt_of_lt_of_le (zpow_pos (by norm_num) _) hlow
  obtain ⟨hle, hlt⟩ := exponentOf_spec hpos
  have hlower := (zpow_lt_zpow_iff_right₀ (by norm_num : (1 : ℚ) < 2)).mp (hlow.trans_lt hlt)
  have hupper := (zpow_lt_zpow_iff_right₀ (by norm_num : (1 : ℚ) < 2)).mp (hle.trans_lt hhigh)
  omega

/-- The significand of a positive rational has 53 bits, or is rounded up to `2 ^ 53`. -/
theorem significand_bounds_of_pos {q : ℚ} (hq : 0 < q) :
    2 ^ 52 ≤ roundHalfEven (q / 2 ^ (exponentOf q - 52)) ∧
      roundHalfEven (q / 2 ^ (exponentOf q - 52)) ≤ 2 ^ 53 := by
  obtain ⟨hle, hlt⟩ := exponentOf_spec hq
  have hunit : (0 : ℚ) < 2 ^ (exponentOf q - 52) := zpow_pos (by norm_num) _
  have hscale : ∀ k : ℕ, (2 : ℚ) ^ k * 2 ^ (exponentOf q - 52) = 2 ^ (exponentOf q + k - 52) := by
    intro k
    rw [← zpow_natCast, ← zpow_add₀ (by norm_num)]
    congr 1
    ring
  constructor
  · apply le_roundHalfEven
    rw [le_div_iff₀ hunit, Nat.cast_pow, Nat.cast_ofNat, hscale]
    simpa using hle
  · apply roundHalfEven_le (div_nonneg hq.le hunit.le)
    rw [div_le_iff₀ hunit, Nat.cast_pow, Nat.cast_ofNat, hscale,
      show exponentOf q + (53 : ℕ) - 52 = exponentOf q + 1 by push_cast; ring]
    exact hlt.le

/-- A normal number is rounded to a multiple of the unit of its last bit. -/
theorem value_round_of_normal (negative : Bool) {q : ℚ} (hlow : (2 : ℚ) ^ (-1022 : ℤ) ≤ |q|)
    (hhigh : |q| < 2 ^ (1023 : ℤ)) :
    (round negative q).value = .finite negative (signed negative
      (roundHalfEven (|q| / 2 ^ (exponentOf |q| - 52)) * 2 ^ (exponentOf |q| - 52))) := by
  have hpos : 0 < |q| := lt_of_lt_of_le (zpow_pos (by norm_num) _) hlow
  obtain ⟨hlower, hupper⟩ := exponentOf_bounds hlow hhigh
  obtain ⟨hr, hr'⟩ := significand_bounds_of_pos hpos
  obtain ⟨k, hk⟩ := Int.eq_ofNat_of_zero_le (show 0 ≤ exponentOf |q| + 1022 by omega)
  have hexponentOf : exponentOf |q| - 52 = (k : ℤ) - 1074 := by omega
  rw [hexponentOf] at hr hr' ⊢
  generalize hrounded : roundHalfEven (|q| / 2 ^ ((k : ℤ) - 1074)) = r at hr hr'
  have hunit : max (-1074) ((k : ℤ) - 1074) = k - 1074 := by omega
  have htoNat : ((k : ℤ) - 1074 + 1074).toNat = k := by omega
  have hfinite : ¬ 2047 * 2 ^ 52 ≤ k * 2 ^ 52 + r := by omega
  simp only [round, if_neg (abs_pos.mp hpos), hexponentOf, hunit, hrounded, htoNat, if_neg hfinite]
  rcases hr'.lt_or_eq with hlt53 | rfl
  · obtain ⟨fraction, rfl⟩ := Nat.exists_eq_add_of_le hr
    have hexponent : ((k + 1 : ℕ) : ℤ) - 1075 = k - 1074 := by
      push_cast
      ring
    rw [show k * 2 ^ 52 + (2 ^ 52 + fraction) = (k + 1) * 2 ^ 52 + fraction by ring,
      value_pack negative (by omega) (by omega) (by omega), hexponent]
    simp only [Nat.cast_add, Nat.cast_pow, Nat.cast_ofNat]
  · -- the carry into the exponent
    have hexponent : ((k + 2 : ℕ) : ℤ) - 1075 = 1 + (k - 1074) := by
      push_cast
      ring
    have hcarry : (2 ^ 52 + ((0 : ℕ) : ℚ)) * (2 * 2 ^ ((k : ℤ) - 1074)) =
        ((2 ^ 53 : ℕ) : ℚ) * 2 ^ ((k : ℤ) - 1074) := by
      push_cast
      ring
    rw [show k * 2 ^ 52 + 2 ^ 53 = (k + 2) * 2 ^ 52 + 0 by ring,
      value_pack negative (by omega) (by omega) (by omega), hexponent,
      zpow_one_add₀ (by norm_num), hcarry]

/-- The value of `x` is within `ε` of `q`. The sign bit of a zero is open. -/
def Near (x : Binary64) (q ε : ℚ) : Prop :=
  ∃ negative v, x.value = .finite negative v ∧ |v - q| ≤ ε ∧ (v ≠ 0 → negative = decide (v < 0))

/-- The significand of a positive rational is that of its nearest value. -/
theorem abs_significand_sub_le {q : ℚ} (hq : 0 < q) :
    |(roundHalfEven (q / 2 ^ (exponentOf q - 52)) : ℚ) * 2 ^ (exponentOf q - 52) - q| ≤
      q / 2 ^ 53 := by
  have hunit : (0 : ℚ) < 2 ^ (exponentOf q - 52) := zpow_pos (by norm_num) _
  have hround := abs_roundHalfEven_sub_le (div_nonneg hq.le hunit.le)
  obtain ⟨hle, -⟩ := exponentOf_spec hq
  have hsplit : (2 : ℚ) ^ exponentOf q = 2 ^ (exponentOf q - 52) * 2 ^ 52 := by
    rw [← zpow_natCast, ← zpow_add₀ (by norm_num)]
    congr 1
    push_cast
    ring
  rw [hsplit] at hle
  generalize (2 : ℚ) ^ (exponentOf q - 52) = u at *
  calc |(roundHalfEven (q / u) : ℚ) * u - q| = |(roundHalfEven (q / u) : ℚ) - q / u| * u := by
        rw [← abs_of_pos hunit, ← abs_mul, abs_of_pos hunit, sub_mul, div_mul_cancel₀ _ hunit.ne']
    _ ≤ 1 / 2 * u := mul_le_mul_of_nonneg_right hround hunit.le
    _ ≤ q / 2 ^ 53 := by linarith

/-- A rounding has a relative error of at most `2 ^ (-53)`. -/
theorem near_round {negative : Bool} {q : ℚ} (hsign : q ≠ 0 → negative = decide (q < 0))
    (hnormal : Normal q) : Near (round negative q) q (|q| / 2 ^ 53) := by
  rcases hnormal with rfl | ⟨hlow, hhigh⟩
  · refine ⟨negative, 0, ?_, by simp, fun h => absurd rfl h⟩
    rw [round, if_pos rfl, value_pack_zero]
  · have hpos : 0 < |q| := lt_of_lt_of_le (zpow_pos (by norm_num) _) hlow
    have herror := abs_significand_sub_le hpos
    refine ⟨negative, _, value_round_of_normal negative hlow hhigh, ?_⟩
    have hvalue : (0 : ℚ) ≤ roundHalfEven (|q| / 2 ^ (exponentOf |q| - 52)) *
        2 ^ (exponentOf |q| - 52) := mul_nonneg (Nat.cast_nonneg _) (zpow_pos (by norm_num) _).le
    generalize (roundHalfEven (|q| / 2 ^ (exponentOf |q| - 52)) : ℚ) *
      2 ^ (exponentOf |q| - 52) = v at herror hvalue ⊢
    rw [hsign (abs_pos.mp hpos)]
    rcases lt_or_ge q 0 with hneg | hnonneg
    · rw [abs_of_neg hneg] at herror
      rw [decide_eq_true hneg, signed, if_pos rfl, abs_of_neg hneg]
      refine ⟨?_, fun hne => (decide_eq_true ?_).symm⟩
      · rw [show -v - q = -(v - -q) by ring, abs_neg]
        exact herror
      · exact lt_of_le_of_ne (neg_nonpos.mpr hvalue) hne
    · rw [abs_of_nonneg hnonneg] at herror
      rw [decide_eq_false (not_lt.mpr hnonneg), signed, if_neg (by decide), abs_of_nonneg hnonneg]
      exact ⟨herror, fun _ => (decide_eq_false (not_lt.mpr hvalue)).symm⟩

/-! ## The operations -/

theorem Represents.near {x : Binary64} {n : ℤ} (hx : Represents x n) : Near x n 0 := by
  obtain ⟨negative, hvalue, hsign⟩ := hx
  refine ⟨negative, n, hvalue, by simp, fun hne => ?_⟩
  rw [hsign (by exact_mod_cast hne)]
  simp only [Int.cast_lt_zero]

theorem Near.mono {x : Binary64} {q ε δ : ℚ} (hx : Near x q ε) (h : ε ≤ δ) : Near x q δ := by
  obtain ⟨negative, v, hvalue, herror, hsign⟩ := hx
  exact ⟨negative, v, hvalue, herror.trans h, hsign⟩

/-- A number that is not smaller than the least normal one, nor too large, is normal. -/
theorem Normal.of_bounds {q ε : ℚ} {v : ℚ} (hv : |v - q| ≤ ε)
    (hlow : (2 : ℚ) ^ (-1022 : ℤ) + ε ≤ |q|) (hhigh : |q| + ε < 2 ^ (1023 : ℤ)) : Normal v := by
  have h₁ := abs_sub_abs_le_abs_sub q v
  have h₂ := abs_sub_abs_le_abs_sub v q
  rw [abs_sub_comm q v] at h₁
  exact .inr ⟨by linarith, by linarith⟩

/-- The sign bit of a quotient. -/
theorem xor_decide_neg {m n : ℤ} (hm : m ≠ 0) (hn : n ≠ 0) :
    (decide (m < 0) ^^ decide (n < 0)) = decide ((m : ℚ) / n < 0) := by
  rcases hm.lt_or_gt with hm | hm <;> rcases hn.lt_or_gt with hn | hn
  · have hm' : (m : ℚ) < 0 := by exact_mod_cast hm
    have hn' : (n : ℚ) < 0 := by exact_mod_cast hn
    simp [hm, hn, (div_pos_of_neg_of_neg hm' hn').not_gt]
  · have hm' : (m : ℚ) < 0 := by exact_mod_cast hm
    have hn' : (0 : ℚ) < n := by exact_mod_cast hn
    simp [hm, hn.not_gt, div_neg_of_neg_of_pos hm' hn']
  · have hm' : (0 : ℚ) < m := by exact_mod_cast hm
    have hn' : (n : ℚ) < 0 := by exact_mod_cast hn
    simp [hm.not_gt, hn, div_neg_of_pos_of_neg hm' hn']
  · have hm' : (0 : ℚ) < m := by exact_mod_cast hm
    have hn' : (0 : ℚ) < n := by exact_mod_cast hn
    simp [hm.not_gt, hn.not_gt, (div_pos hm' hn').not_gt]

/-- A quotient is the rounding of the quotient of the values. -/
theorem div_eq_round {x y : Binary64} {m n : ℤ} (hx : Represents x m) (hy : Represents y n)
    (hn : n ≠ 0) : ∃ negative, Double.div x y = round negative ((m : ℚ) / n) ∧
      ((m : ℚ) / n ≠ 0 → negative = decide ((m : ℚ) / n < 0)) := by
  obtain ⟨s, hx, hs⟩ := hx
  obtain ⟨t, hy, ht⟩ := hy
  have hn' : (n : ℚ) ≠ 0 := by exact_mod_cast hn
  refine ⟨s ^^ t, by simp only [Double.div, div, hx, hy, if_neg hn'], fun hne => ?_⟩
  have hm : m ≠ 0 := by
    rintro rfl
    simp at hne
  rw [hs hm, ht hn, xor_decide_neg hm hn]

/-- The quotient of two integers has a relative error. -/
theorem near_div {x y : Binary64} {m n : ℤ} (hx : Represents x m) (hy : Represents y n)
    (hn : n ≠ 0) (hnormal : Normal ((m : ℚ) / n)) :
    Near (Double.div x y) (m / n) (|(m : ℚ) / n| / 2 ^ 53) := by
  obtain ⟨negative, hdiv, hsign⟩ := div_eq_round hx hy hn
  rw [hdiv]
  exact near_round hsign hnormal

/-- A quotient that is an integer is exact. -/
theorem represents_div {x y : Binary64} {k n : ℤ} (hx : Represents x (k * n))
    (hy : Represents y n) (hn : n ≠ 0) (hk : |k| < 2 ^ 53) : Represents (Double.div x y) k := by
  obtain ⟨negative, hdiv, hsign⟩ := div_eq_round hx hy hn
  have hn' : (n : ℚ) ≠ 0 := by exact_mod_cast hn
  have hquotient : ((k * n : ℤ) : ℚ) / n = k := by
    rw [Int.cast_mul, mul_div_cancel_right₀ _ hn']
  rw [hquotient] at hdiv hsign
  rw [hdiv]
  refine represents_round (fun hne => ?_) hk
  rw [hsign (by exact_mod_cast hne)]
  simp only [Int.cast_lt_zero]

/-- A number that is within `δ` of what is within `ε` of `q`. -/
theorem abs_sub_le_of_near {q v w ε : ℚ} (hv : |v - q| ≤ ε) (hw : |w - v| ≤ |v| / 2 ^ 53) :
    |w - q| ≤ ε + (|q| + ε) / 2 ^ 53 := by
  have htriangle := abs_sub_le w v q
  have hbound : |v| ≤ |q| + ε := by
    have := abs_sub_abs_le_abs_sub v q
    linarith
  linarith

/-- A sum has the errors of its operands, and that of its rounding. -/
theorem Near.add {x y : Binary64} {p q ε δ : ℚ} (hx : Near x p ε) (hy : Near y q δ)
    (hnormal : ∀ v, |v - (p + q)| ≤ ε + δ → Normal v) :
    Near (Double.add x y) (p + q) (ε + δ + (|p + q| + (ε + δ)) / 2 ^ 53) := by
  obtain ⟨s, v, hx, hv, -⟩ := hx
  obtain ⟨t, w, hy, hw, -⟩ := hy
  have hsum : |v + w - (p + q)| ≤ ε + δ := by
    rw [add_sub_add_comm]
    exact (abs_add_le _ _).trans (add_le_add hv hw)
  have hadd : Double.add x y = if v + w = 0 then pack (s && t) 0
      else round (decide (v + w < 0)) (v + w) := by
    simp only [Double.add, Binary64.add, hx, hy]
  rw [hadd]
  split_ifs with hzero
  · refine ⟨s && t, 0, value_pack_zero _, ?_, fun h => absurd rfl h⟩
    exact abs_sub_le_of_near (hzero ▸ hsum) (by simp)
  · obtain ⟨negative, z, hvalue, hz, hsign⟩ := near_round (fun _ => rfl) (hnormal _ hsum)
    exact ⟨negative, z, hvalue, abs_sub_le_of_near hsum hz, hsign⟩

/-- So does a product with a positive integer. -/
theorem Near.mul {x y : Binary64} {p ε : ℚ} {n : ℤ} (hx : Near x p ε) (hy : Represents y n)
    (hn : 0 < n) (hnormal : ∀ v, |v - p * n| ≤ ε * n → Normal v) :
    Near (Double.mul x y) (p * n) (ε * n + (|p * n| + ε * n) / 2 ^ 53) := by
  obtain ⟨s, v, hx, hv, hs⟩ := hx
  obtain ⟨t, hy, ht⟩ := hy
  have hpos : (0 : ℚ) < n := by exact_mod_cast hn
  have hproduct : |v * n - p * n| ≤ ε * n := by
    rw [← sub_mul, abs_mul, abs_of_pos hpos]
    exact mul_le_mul_of_nonneg_right hv hpos.le
  have hmul : Double.mul x y = round s (v * n) := by
    simp only [Double.mul, Binary64.mul, hx, hy, ht hn.ne', decide_eq_false hn.not_gt,
      Bool.xor_false]
  have hsign : v * n ≠ 0 → s = decide (v * n < 0) := by
    intro hne
    rw [hs (left_ne_zero_of_mul hne), decide_eq_decide]
    simp [mul_neg_iff, hpos, hpos.not_gt]
  rw [hmul]
  obtain ⟨negative, z, hvalue, hz, hsign'⟩ := near_round hsign (hnormal _ hproduct)
  exact ⟨negative, z, hvalue, abs_sub_le_of_near hproduct hz, hsign'⟩

/-! ## What follows for comparisons and conversions -/

/-- A number that is closer to `q` than zero has the sign of `q`. -/
theorem Near.zero_lt_iff {x : Binary64} {q ε : ℚ} (hx : Near x q ε) (h : q = 0 → ε = 0)
    (hε : q ≠ 0 → ε < |q|) : Double.lt (Double.ofRat 0) x = true ↔ 0 < q := by
  obtain ⟨negative, v, hvalue, herror, -⟩ := hx
  have hlt : Double.lt (Double.ofRat 0) x = decide (0 < v) := by
    have hzero : (ofRat 0).value = .finite false 0 := by
      rw [ofRat, round, if_pos rfl, value_pack_zero]
      rfl
    simp only [Double.lt, Double.ofRat, lt, hzero, hvalue]
  rw [hlt, decide_eq_true_iff]
  rw [abs_le] at herror
  rcases lt_trichotomy q 0 with hneg | rfl | hpos
  · have hsmall := hε hneg.ne
    rw [abs_of_neg hneg] at hsmall
    exact iff_of_false (by linarith) hneg.not_gt
  · rw [h rfl] at herror
    exact iff_of_false (by linarith) (lt_irrefl _)
  · have hsmall := hε hpos.ne'
    rw [abs_of_pos hpos] at hsmall
    exact iff_of_true (by linarith) hpos

/-- The conversion of a number near a positive integer gives this integer or the one below. -/
theorem Near.toInt {x : Binary64} {n : ℤ} {ε : ℚ} (hx : Near x n ε) (hn : 0 < n) (hε : ε < 1) :
    DoubleToInt.toInt x = n - 1 ∨ DoubleToInt.toInt x = n := by
  obtain ⟨negative, v, hvalue, herror, -⟩ := hx
  have htoInt : DoubleToInt.toInt x = v.num.tdiv v.den := by
    simp only [DoubleToInt.toInt, hvalue]
  rw [abs_le] at herror
  have hone : (1 : ℚ) ≤ n := by exact_mod_cast hn
  have hnonneg : 0 ≤ v := by linarith
  have hfloor : DoubleToInt.toInt x = ⌊v⌋ := by
    rw [htoInt, Int.tdiv_eq_ediv_of_nonneg (Rat.num_nonneg.mpr hnonneg), Rat.floor_def']
  rw [hfloor]
  have hlower : n - 1 ≤ ⌊v⌋ := by
    rw [Int.le_floor]
    push_cast
    linarith
  have hupper : ⌊v⌋ < n + 1 := by
    rw [Int.floor_lt]
    push_cast
    linarith
  omega

/-! ## Rounding keeps the order -/

theorem roundHalfEven_mono {p q : ℚ} (hp : 0 ≤ p) (h : p ≤ q) :
    roundHalfEven p ≤ roundHalfEven q := by
  by_contra hlt
  have hlower : roundHalfEven q < roundHalfEven p := not_le.mp hlt
  have hupper : ¬ roundHalfEven q < roundHalfEven q := lt_irrefl _
  rw [lt_roundHalfEven_iff hp] at hlower
  rw [lt_roundHalfEven_iff (hp.trans h), not_or] at hupper
  obtain ⟨hbelow, htie⟩ := hupper
  rcases hlower with hlower | ⟨hlower, hodd⟩
  · exact hbelow (hlower.trans_le h)
  · -- the midpoint is `p`, so it is `q`
    exact htie ⟨le_antisymm (not_lt.mp hbelow) (hlower ▸ h), hodd⟩

/-- What a nonnegative number is rounded to if it is normal. -/
def rounded (q : ℚ) : ℚ :=
  roundHalfEven (q / 2 ^ (exponentOf q - 52)) * 2 ^ (exponentOf q - 52)

@[simp]
theorem rounded_zero : rounded 0 = 0 := by
  rw [rounded, zero_div, ← Nat.cast_zero, roundHalfEven_natCast, Nat.cast_zero, zero_mul]

theorem rounded_nonneg (q : ℚ) : 0 ≤ rounded q :=
  mul_nonneg (Nat.cast_nonneg _) (zpow_pos (by norm_num) _).le

theorem value_round_of_nonneg {q : ℚ} (hq : 0 ≤ q) (hnormal : Normal q) :
    (round false q).value = .finite false (rounded q) := by
  rcases hnormal with rfl | ⟨hlow, hhigh⟩
  · rw [round, if_pos rfl, value_pack_zero, rounded_zero]
  · rw [value_round_of_normal false hlow hhigh, abs_of_nonneg hq]
    rfl

/-- A number that is neither very small nor very large is normal. -/
theorem normal_of_le {q : ℚ} (hlow : 1 / 2 ^ 64 ≤ q) (hhigh : q ≤ 2 ^ 64) : Normal q := by
  have hsmall : (2 : ℚ) ^ (-1022 : ℤ) ≤ 2 ^ (-(64 : ℕ) : ℤ) :=
    zpow_le_zpow_right₀ (by norm_num) (by norm_num)
  have hlarge : (2 : ℚ) ^ ((64 : ℕ) : ℤ) < 2 ^ (1023 : ℤ) :=
    zpow_lt_zpow_right₀ (by norm_num) (by norm_num)
  rw [zpow_neg (2 : ℚ) ((64 : ℕ) : ℤ), zpow_natCast, ← one_div] at hsmall
  rw [zpow_natCast] at hlarge
  rw [Normal, abs_of_pos ((by positivity : (0 : ℚ) < 1 / 2 ^ 64).trans_le hlow)]
  exact .inr ⟨hsmall.trans hlow, hhigh.trans_lt hlarge⟩

theorem normal_intCast {n : ℤ} (hn : 0 ≤ n) (hlt : n < 2 ^ 53) : Normal (n : ℚ) := by
  rcases hn.eq_or_lt with rfl | hpos
  · exact .inl Int.cast_zero
  · have hone : (1 : ℚ) ≤ n := by exact_mod_cast hpos
    have hsmall : (n : ℚ) ≤ 2 ^ 53 := by exact_mod_cast hlt.le
    exact normal_of_le (by linarith) (by linarith)

/-- An integer is not rounded. -/
theorem rounded_intCast {n : ℤ} (hn : 0 ≤ n) (hlt : n < 2 ^ 53) : rounded n = n := by
  have habs : |n| < 2 ^ 53 := by rwa [abs_of_nonneg hn]
  obtain ⟨_, hvalue, -⟩ := @represents_round false n
    (fun _ => (decide_eq_false (not_lt.mpr hn)).symm) habs
  rw [value_round_of_nonneg (by exact_mod_cast hn) (normal_intCast hn hlt)] at hvalue
  injection hvalue

theorem abs_rounded_sub_le {q : ℚ} (hq : 0 ≤ q) : |rounded q - q| ≤ q / 2 ^ 53 := by
  rcases hq.eq_or_lt with rfl | hpos
  · simp
  · exact abs_significand_sub_le hpos

/-- A larger number is not rounded to a smaller one. -/
theorem rounded_mono {p q : ℚ} (hp : 0 ≤ p) (h : p ≤ q) : rounded p ≤ rounded q := by
  rcases hp.eq_or_lt with rfl | hpos
  · rw [rounded_zero]
    exact rounded_nonneg q
  · obtain ⟨hple, -⟩ := exponentOf_spec hpos
    obtain ⟨-, hqlt⟩ := exponentOf_spec (hpos.trans_le h)
    have hexponent : exponentOf p < exponentOf q + 1 :=
      (zpow_lt_zpow_iff_right₀ (by norm_num : (1 : ℚ) < 2)).mp ((hple.trans h).trans_lt hqlt)
    rcases (Int.lt_add_one_iff.mp hexponent).lt_or_eq with hlt | heq
    · -- the next power of two lies between the values
      obtain ⟨-, hupper⟩ := significand_bounds_of_pos hpos
      obtain ⟨hlower, -⟩ := significand_bounds_of_pos (hpos.trans_le h)
      have hupper' : (roundHalfEven (p / 2 ^ (exponentOf p - 52)) : ℚ) ≤ 2 ^ 53 := by
        exact_mod_cast hupper
      have hlower' : (2 ^ 52 : ℚ) ≤ roundHalfEven (q / 2 ^ (exponentOf q - 52)) := by
        exact_mod_cast hlower
      calc rounded p ≤ 2 ^ 53 * 2 ^ (exponentOf p - 52) :=
            mul_le_mul_of_nonneg_right hupper' (zpow_pos (by norm_num) _).le
        _ = 2 ^ 52 * 2 ^ (exponentOf p + 1 - 52) := by
            rw [show exponentOf p + 1 - 52 = exponentOf p - 52 + 1 by ring,
              zpow_add_one₀ (by norm_num)]
            ring
        _ ≤ 2 ^ 52 * 2 ^ (exponentOf q - 52) :=
            mul_le_mul_of_nonneg_left (zpow_le_zpow_right₀ (by norm_num) (by omega)) (by norm_num)
        _ ≤ rounded q := mul_le_mul_of_nonneg_right hlower' (zpow_pos (by norm_num) _).le
    · have hunit : (0 : ℚ) < 2 ^ (exponentOf q - 52) := zpow_pos (by norm_num) _
      rw [rounded, rounded, heq]
      refine mul_le_mul_of_nonneg_right ?_ hunit.le
      exact_mod_cast roundHalfEven_mono (div_nonneg hp hunit.le)
        (div_le_div_of_nonneg_right h hunit.le)

/-! ## Nonnegative numbers -/

theorem value_ofRat_of_nonneg {q : ℚ} (hq : 0 ≤ q) (hnormal : Normal q) :
    (Double.ofRat q : Binary64).value = .finite false (rounded q) := by
  have hofRat : (Double.ofRat q : Binary64) = round false q := by
    simp only [Double.ofRat, ofRat, decide_eq_false (not_lt.mpr hq)]
  rw [hofRat, value_round_of_nonneg hq hnormal]

theorem value_add_of_nonneg {x y : Binary64} {p q : ℚ} (hx : x.value = .finite false p)
    (hy : y.value = .finite false q) (hp : 0 ≤ p) (hq : 0 ≤ q) (hnormal : Normal (p + q)) :
    (Double.add x y).value = .finite false (rounded (p + q)) := by
  have hadd : Double.add x y = if p + q = 0 then pack (false && false) 0
      else round (decide (p + q < 0)) (p + q) := by
    simp only [Double.add, add, hx, hy]
  rw [hadd]
  split_ifs with hzero
  · rw [hzero, rounded_zero]
    exact value_pack_zero false
  · rw [decide_eq_false (not_lt.mpr (add_nonneg hp hq))]
    exact value_round_of_nonneg (add_nonneg hp hq) hnormal

theorem value_div_of_nonneg {x y : Binary64} {p q : ℚ} (hx : x.value = .finite false p)
    (hy : y.value = .finite false q) (hp : 0 ≤ p) (hq : 0 < q) (hnormal : Normal (p / q)) :
    (Double.div x y).value = .finite false (rounded (p / q)) := by
  have hdiv : Double.div x y = round false (p / q) := by
    simp only [Double.div, div, hx, hy, if_neg hq.ne', Bool.xor_false]
  rw [hdiv, value_round_of_nonneg (div_nonneg hp hq.le) hnormal]

theorem lt_iff_of_value {x y : Binary64} {s t : Bool} {p q : ℚ} (hx : x.value = .finite s p)
    (hy : y.value = .finite t q) : Double.lt x y = true ↔ p < q := by
  simp only [Double.lt, lt, hx, hy, decide_eq_true_iff]

end Binary64

end RealtimeUtilities
