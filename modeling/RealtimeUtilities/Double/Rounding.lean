import Mathlib.Algebra.Order.Field.Basic
import Mathlib.Tactic.FieldSimp
import Mathlib.Tactic.Linarith
import Mathlib.Tactic.Positivity
import Mathlib.Tactic.Ring
import RealtimeUtilities.Double

/-!
# Integers in a `double`

What becomes of an integer that is converted to `Binary64`, and of the sums and products of such.
Up to `2 ^ 53` nothing is lost. Beyond, an integer is rounded to a multiple of a power of two, and
two integers are rounded to different values exactly if one of the midpoints between neighbouring
values lies between them.

## Main definitions

* `nearest n`: the natural number `n`, rounded to 53 significant bits, ties to even;
* `Separated a b`: a midpoint lies between two natural numbers;
* `Represents x n`: the value of `x` is the integer `n`.

## Main results

* `value_round`: the `double` that an integer is rounded to;
* `represents_ofRat`, `represents_add` and `represents_mul`: small integers are exact;
* `nearest_lt_iff`: different numbers are rounded to different values if they are separated;
* `toInt_ofRat`: the conversion to `double` and back.
-/

namespace RealtimeUtilities

namespace Binary64

/-! ## Rounding to an integer -/

/-- The midpoint above a number has to be passed, or reached if the number is odd. -/
theorem lt_roundHalfEven_iff {q : ℚ} (hq : 0 ≤ q) {m : ℕ} :
    m < roundHalfEven q ↔ (m : ℚ) + 1 / 2 < q ∨ (q = m + 1 / 2 ∧ m % 2 = 1) := by
  obtain ⟨n, hn⟩ := Int.eq_ofNat_of_zero_le (Int.floor_nonneg.mpr hq)
  have hfloor : (n : ℚ) ≤ q := by
    have := Int.floor_le q
    rw [hn] at this
    exact_mod_cast this
  have hlt : q < n + 1 := by
    have := Int.lt_floor_add_one q
    rw [hn] at this
    exact_mod_cast this
  have hround : roundHalfEven q = if q - n < 1 / 2 then n else if 1 / 2 < q - n then n + 1
      else if n % 2 = 0 then n else n + 1 := by
    simp only [roundHalfEven, hn, Int.toNat_natCast]
  -- comparisons of the two integers
  have hbelow : m < n ↔ (m : ℚ) + 1 ≤ n := by exact_mod_cast Nat.lt_iff_add_one_le
  have habove : m < n + 1 ↔ (m : ℚ) < n + 1 := by exact_mod_cast Iff.rfl
  rw [hround]
  split_ifs with hlow hhigh heven
  · rw [hbelow]
    constructor
    · intro h
      left
      linarith
    · rintro (h | ⟨h, -⟩)
      · exact hbelow.mp (by exact_mod_cast (by linarith : (m : ℚ) < n))
      · exact hbelow.mp (by exact_mod_cast (by linarith : (m : ℚ) < n))
  · rw [habove]
    constructor
    · intro h
      have hle : (m : ℚ) ≤ n := by exact_mod_cast Nat.lt_succ_iff.mp (by exact_mod_cast h)
      left
      linarith
    · rintro (h | ⟨h, -⟩)
      · linarith
      · linarith
  · -- a tie, and the lower number is even
    have htie : q = n + 1 / 2 := by linarith
    constructor
    · intro h
      have hle := hbelow.mp h
      left
      linarith
    · rintro (h | ⟨h, hodd⟩)
      · exact_mod_cast (by linarith : (m : ℚ) < n)
      · have heq : m = n := by exact_mod_cast (by linarith : (m : ℚ) = n)
        omega
  · have htie : q = n + 1 / 2 := by linarith
    constructor
    · intro h
      rcases Nat.lt_succ_iff_lt_or_eq.mp h with hlt' | rfl
      · have hle := hbelow.mp hlt'
        left
        linarith
      · exact .inr ⟨htie, by omega⟩
    · rintro (h | ⟨h, -⟩)
      · exact habove.mpr (by linarith)
      · exact habove.mpr (by linarith)

theorem le_roundHalfEven {q : ℚ} {m : ℕ} (h : (m : ℚ) ≤ q) : m ≤ roundHalfEven q := by
  cases m with
  | zero => exact Nat.zero_le _
  | succ m =>
    have hq : 0 ≤ q := le_trans (Nat.cast_nonneg _) h
    push_cast at h
    exact (lt_roundHalfEven_iff hq).mpr (.inl (by linarith))

theorem roundHalfEven_le {q : ℚ} (hq : 0 ≤ q) {m : ℕ} (h : q ≤ m) : roundHalfEven q ≤ m := by
  by_contra hlt
  rcases (lt_roundHalfEven_iff hq).mp (not_le.mp hlt) with h' | ⟨h', -⟩
  · linarith
  · linarith

/-- An integer is not rounded. -/
theorem roundHalfEven_natCast (n : ℕ) : roundHalfEven (n : ℚ) = n :=
  le_antisymm (roundHalfEven_le (Nat.cast_nonneg n) le_rfl) (le_roundHalfEven le_rfl)

/-! ## The bits of a `double` -/

/-- The value of a normal number. -/
theorem value_pack (negative : Bool) {exponent fraction : ℕ} (hpos : 0 < exponent)
    (hlt : exponent < 2047) (hfraction : fraction < 2 ^ 52) :
    (pack negative (exponent * 2 ^ 52 + fraction)).value =
      .finite negative (signed negative ((2 ^ 52 + fraction) * 2 ^ ((exponent : ℤ) - 1075))) := by
  have hbits : (pack negative (exponent * 2 ^ 52 + fraction)).bits.toNat =
      (if negative then 2 ^ 63 else 0) + (exponent * 2 ^ 52 + fraction) := by
    rw [pack, BitVec.toNat_ofNat]
    apply Nat.mod_eq_of_lt
    split_ifs <;> omega
  -- the three fields of the bits
  have hsign : (pack negative (exponent * 2 ^ 52 + fraction)).bits.getLsbD 63 = negative := by
    rw [BitVec.getLsbD, hbits, Nat.testBit_eq_decide_div_mod_eq]
    cases negative
    · simp only [Bool.false_eq_true, if_false]
      exact decide_eq_false (by omega)
    · simp only [if_true]
      exact decide_eq_true (by omega)
  have hexponent : ((pack negative (exponent * 2 ^ 52 + fraction)).bits.extractLsb' 52 11).toNat =
      exponent := by
    rw [BitVec.extractLsb'_toNat, hbits, Nat.shiftRight_eq_div_pow]
    split_ifs <;> omega
  have hfrac : ((pack negative (exponent * 2 ^ 52 + fraction)).bits.extractLsb' 0 52).toNat =
      fraction := by
    rw [BitVec.extractLsb'_toNat, hbits, Nat.shiftRight_eq_div_pow]
    split_ifs <;> omega
  simp only [value, hsign, hexponent, hfrac, if_neg hlt.ne, if_neg hpos.ne']

/-! ## The nearest value -/

/-- `n`, rounded to 53 significant bits, ties to even. -/
def nearest (n : ℕ) : ℕ :=
  roundHalfEven ((n : ℚ) / 2 ^ (n.log2 - 52)) * 2 ^ (n.log2 - 52)

theorem exponentOf_natCast {n : ℕ} (hn : n ≠ 0) : exponentOf (n : ℚ) = n.log2 := by
  have hle : (2 : ℚ) ^ (n.log2 : ℤ) ≤ n := by
    rw [zpow_natCast]
    exact_mod_cast Nat.log2_self_le hn
  have hone : Nat.log2 1 = 0 := by decide
  simp only [exponentOf, Rat.num_natCast, Rat.den_natCast, Int.toNat_natCast, hone,
    Nat.cast_zero, sub_zero, if_pos hle]

/-- The significand of a positive integer has 53 bits, or is rounded up to `2 ^ 53`. -/
theorem significand_bounds {n : ℕ} (hn : n ≠ 0) :
    2 ^ 52 ≤ roundHalfEven ((n : ℚ) / 2 ^ ((n.log2 : ℤ) - 52)) ∧
      roundHalfEven ((n : ℚ) / 2 ^ ((n.log2 : ℤ) - 52)) ≤ 2 ^ 53 := by
  have hunit : (0 : ℚ) < 2 ^ ((n.log2 : ℤ) - 52) := zpow_pos (by norm_num) _
  -- the bounds in the unit of the significand
  have hscale : ∀ k : ℕ, (2 : ℚ) ^ k * 2 ^ ((n.log2 : ℤ) - 52) =
      2 ^ ((n.log2 : ℤ) + k - 52) := by
    intro k
    rw [← zpow_natCast, ← zpow_add₀ (by norm_num)]
    congr 1
    ring
  have hlow : (2 : ℚ) ^ (n.log2 : ℤ) ≤ n := by
    rw [zpow_natCast]
    exact_mod_cast Nat.log2_self_le hn
  have hhigh : (n : ℚ) ≤ 2 ^ ((n.log2 : ℤ) + 1) := by
    exact_mod_cast (Nat.lt_log2_self (n := n)).le
  constructor
  · apply le_roundHalfEven
    rw [le_div_iff₀ hunit, Nat.cast_pow, Nat.cast_ofNat, hscale]
    simpa using hlow
  · apply roundHalfEven_le (div_nonneg (Nat.cast_nonneg _) hunit.le)
    rw [div_le_iff₀ hunit, Nat.cast_pow, Nat.cast_ofNat, hscale]
    rw [show (n.log2 : ℤ) + (53 : ℕ) - 52 = n.log2 + 1 by push_cast; ring]
    exact hhigh

/-- An integer of 53 bits is its own nearest value. -/
theorem nearest_eq_self {n : ℕ} (hn : n.log2 ≤ 52) : nearest n = n := by
  rw [nearest, Nat.sub_eq_zero_of_le hn, pow_zero, div_one, roundHalfEven_natCast, pow_zero,
    mul_one]

theorem nearest_of_lt {n : ℕ} (hn : n < 2 ^ 53) : nearest n = n := by
  apply nearest_eq_self
  by_cases hzero : n = 0
  · simp [hzero]
  · exact Nat.lt_succ_iff.mp ((Nat.log2_lt hzero).mpr hn)

/-- The nearest value, as the code computes it from the exponent. -/
theorem nearest_cast {n : ℕ} :
    (nearest n : ℚ) =
      roundHalfEven ((n : ℚ) / 2 ^ ((n.log2 : ℤ) - 52)) * 2 ^ ((n.log2 : ℤ) - 52) := by
  rcases le_total n.log2 52 with hle | hge
  · -- the unit divides the integer
    have hsplit : (n : ℚ) / 2 ^ ((n.log2 : ℤ) - 52) = (n * 2 ^ (52 - n.log2) : ℕ) := by
      push_cast
      rw [div_eq_mul_inv, ← zpow_neg, ← zpow_natCast]
      congr 2
      omega
    rw [nearest_eq_self hle, hsplit, roundHalfEven_natCast, ← hsplit]
    exact (div_mul_cancel₀ _ (zpow_ne_zero _ (by norm_num))).symm
  · have hunit : (2 : ℚ) ^ ((n.log2 : ℤ) - 52) = 2 ^ (n.log2 - 52) := by
      rw [← zpow_natCast]
      congr 1
      omega
    rw [nearest, hunit]
    push_cast
    rfl

/-- An integer is rounded to the nearest value. -/
theorem value_round (negative : Bool) {q : ℚ} {n : ℕ} (hq : |q| = n) (hn : n ≠ 0)
    (hlt : n < 2 ^ 64) :
    (round negative q).value = .finite negative (signed negative (nearest n)) := by
  have hlog : n.log2 < 64 := (Nat.log2_lt hn).mpr hlt
  have hq0 : q ≠ 0 := by
    rintro rfl
    simp only [abs_zero] at hq
    exact hn (by exact_mod_cast hq.symm)
  obtain ⟨hlow, hhigh⟩ := significand_bounds hn
  rw [nearest_cast]
  generalize hr : roundHalfEven ((n : ℚ) / 2 ^ ((n.log2 : ℤ) - 52)) = r at hlow hhigh
  have hunit : max (-1074) (exponentOf (n : ℚ) - 52) = (n.log2 : ℤ) - 52 := by
    rw [exponentOf_natCast hn]
    omega
  have htoNat : ((n.log2 : ℤ) - 52 + 1074).toNat = n.log2 + 1022 := by omega
  have hfinite : ¬ 2047 * 2 ^ 52 ≤ (n.log2 + 1022) * 2 ^ 52 + r := by omega
  simp only [round, if_neg hq0, hq, hunit, hr, htoNat, if_neg hfinite]
  rcases hhigh.lt_or_eq with hlt53 | rfl
  · obtain ⟨fraction, rfl⟩ := Nat.exists_eq_add_of_le hlow
    have hexponent : ((n.log2 + 1023 : ℕ) : ℤ) - 1075 = n.log2 - 52 := by
      push_cast
      ring
    rw [show (n.log2 + 1022) * 2 ^ 52 + (2 ^ 52 + fraction) = (n.log2 + 1023) * 2 ^ 52 + fraction
      by ring, value_pack negative (by omega) (by omega) (by omega), hexponent]
    simp only [Nat.cast_add, Nat.cast_pow, Nat.cast_ofNat]
  · -- the carry into the exponent
    have hexponent : ((n.log2 + 1024 : ℕ) : ℤ) - 1075 = 1 + (n.log2 - 52) := by
      push_cast
      ring
    have hcarry : (2 ^ 52 + ((0 : ℕ) : ℚ)) * (2 * 2 ^ ((n.log2 : ℤ) - 52)) =
        ((2 ^ 53 : ℕ) : ℚ) * 2 ^ ((n.log2 : ℤ) - 52) := by
      push_cast
      ring
    rw [show (n.log2 + 1022) * 2 ^ 52 + 2 ^ 53 = (n.log2 + 1024) * 2 ^ 52 + 0 by ring,
      value_pack negative (by omega) (by omega) (by omega), hexponent,
      zpow_one_add₀ (by norm_num), hcarry]

/-! ## Small integers -/

/-- The value of `x` is the integer `n`. The sign bit of a zero is open. -/
def Represents (x : Binary64) (n : ℤ) : Prop :=
  ∃ negative, x.value = .finite negative n ∧ (n ≠ 0 → negative = decide (n < 0))

theorem value_pack_zero (negative : Bool) : (pack negative 0).value = .finite negative 0 := by
  have hexponent : ((pack negative 0).bits.extractLsb' 52 11).toNat = 0 := by
    cases negative <;> decide
  have hfraction : ((pack negative 0).bits.extractLsb' 0 52).toNat = 0 := by
    cases negative <;> decide
  have hsign : (pack negative 0).bits.getLsbD 63 = negative := by
    cases negative <;> decide
  simp only [value, hexponent, hfraction, hsign]
  cases negative <;> simp [signed]

theorem represents_round {negative : Bool} {n : ℤ} (hsign : n ≠ 0 → negative = decide (n < 0))
    (hn : |n| < 2 ^ 53) : Represents (round negative n) n := by
  refine ⟨negative, ?_, hsign⟩
  by_cases hzero : n = 0
  · rw [hzero, Int.cast_zero, round, if_pos rfl, value_pack_zero]
  · have habs : |(n : ℚ)| = n.natAbs := by
      rw [Nat.cast_natAbs, Int.cast_abs]
    have hnat : n.natAbs ≠ 0 := by omega
    have hlt : n.natAbs < 2 ^ 53 := by
      rw [Int.abs_eq_natAbs] at hn
      exact_mod_cast hn
    rw [value_round negative habs hnat (by omega), nearest_of_lt hlt, ← habs, hsign hzero]
    -- the sign and the magnitude make up the integer
    rcases lt_or_ge n 0 with hneg | hpos
    · have : (n : ℚ) < 0 := by exact_mod_cast hneg
      rw [decide_eq_true hneg, signed, if_pos rfl, abs_of_neg this, neg_neg]
    · have : (0 : ℚ) ≤ n := by exact_mod_cast hpos
      rw [decide_eq_false (not_lt.mpr hpos), signed, if_neg (by decide), abs_of_nonneg this]

theorem represents_ofRat {n : ℤ} (hn : |n| < 2 ^ 53) : Represents (Double.ofRat (n : ℚ)) n := by
  apply represents_round _ hn
  intro _
  simp only [Int.cast_lt_zero]

theorem represents_add {x y : Binary64} {m n : ℤ} (hx : Represents x m) (hy : Represents y n)
    (hsum : |m + n| < 2 ^ 53) : Represents (Double.add x y) (m + n) := by
  obtain ⟨s, hx, -⟩ := hx
  obtain ⟨t, hy, -⟩ := hy
  have hadd : Double.add x y = if (m : ℚ) + n = 0 then pack (s && t) 0
      else round (decide ((m : ℚ) + n < 0)) (m + n) := by
    simp only [Double.add, add, hx, hy]
  rw [hadd]
  split_ifs with hzero
  · have hzero' : m + n = 0 := by exact_mod_cast hzero
    refine ⟨s && t, ?_, fun h => absurd hzero' h⟩
    rw [value_pack_zero, hzero', Int.cast_zero]
  · have hround : Represents (round (decide (m + n < 0)) ((m + n : ℤ) : ℚ)) (m + n) :=
      represents_round (fun _ => rfl) hsum
    convert hround using 2
    · norm_cast
    · push_cast
      rfl

theorem represents_mul {x y : Binary64} {m n : ℤ} (hx : Represents x m) (hy : Represents y n)
    (hproduct : |m * n| < 2 ^ 53) : Represents (Double.mul x y) (m * n) := by
  obtain ⟨s, hx, hs⟩ := hx
  obtain ⟨t, hy, ht⟩ := hy
  have hmul : Double.mul x y = round (s ^^ t) ((m * n : ℤ) : ℚ) := by
    simp only [Double.mul, mul, hx, hy]
    push_cast
    rfl
  rw [hmul]
  apply represents_round _ hproduct
  -- the sign bit of a product that is not zero
  intro hne
  have hm : m ≠ 0 := left_ne_zero_of_mul hne
  have hn : n ≠ 0 := right_ne_zero_of_mul hne
  rw [hs hm, ht hn]
  rcases hm.lt_or_gt with hm | hm <;> rcases hn.lt_or_gt with hn | hn
  · simp [hm, hn, (mul_pos_of_neg_of_neg hm hn).not_gt]
  · simp [hm, hn.not_gt, mul_neg_of_neg_of_pos hm hn]
  · simp [hm.not_gt, hn, mul_neg_of_pos_of_neg hm hn]
  · simp [hm.not_gt, hn.not_gt, (mul_pos hm hn).not_gt]

/-- A conversion back to an integer type gives the integer. -/
theorem Represents.toInt {x : Binary64} {n : ℤ} (hx : Represents x n) :
    DoubleToInt.toInt x = n := by
  obtain ⟨s, hx, -⟩ := hx
  simp only [DoubleToInt.toInt, hx, Rat.num_intCast, Rat.den_intCast, Nat.cast_one, Int.tdiv_one]

/-! ## Large integers -/

/-- `n` is rounded to more than `m * 2 ^ (j + 1)`: it is above the midpoint between this value and
the next, or on it if `m` is odd. -/
def Passes (m j n : ℕ) : Prop :=
  if m % 2 = 0 then (2 * m + 1) * 2 ^ j < n else (2 * m + 1) * 2 ^ j ≤ n

/-- A midpoint between two neighbouring values lies between `b` and `a`. -/
def Separated (b a : ℕ) : Prop :=
  ∃ m j, 2 ^ 52 ≤ m ∧ m < 2 ^ 53 ∧ ¬ Passes m j b ∧ Passes m j a

theorem Passes.mono {m j b a : ℕ} (h : Passes m j b) (hle : b ≤ a) : Passes m j a := by
  unfold Passes at h ⊢
  split_ifs at h ⊢ <;> omega

/-- The midpoint between two significands. -/
theorem lt_significand_iff {m j n : ℕ} :
    m < roundHalfEven ((n : ℚ) / 2 ^ (j + 1)) ↔ Passes m j n := by
  have hpow : (0 : ℚ) < 2 ^ j := by positivity
  -- half of the number in units of `2 ^ j`, in which the midpoint is odd
  have hquot : (n : ℚ) / 2 ^ (j + 1) = n / 2 ^ j / 2 := by
    rw [pow_succ, div_mul_eq_div_div]
  have hless : (m : ℚ) + 1 / 2 < n / 2 ^ j / 2 ↔ (2 * m + 1) * 2 ^ j < n := by
    have : ((2 * m + 1) * 2 ^ j : ℚ) < n ↔ (2 * m + 1) * 2 ^ j < n := by exact_mod_cast Iff.rfl
    rw [← this, ← lt_div_iff₀ hpow]
    constructor
    · intro h
      linarith
    · intro h
      linarith
  have htie : (n : ℚ) / 2 ^ j / 2 = m + 1 / 2 ↔ n = (2 * m + 1) * 2 ^ j := by
    have : (n : ℚ) = (2 * m + 1) * 2 ^ j ↔ n = (2 * m + 1) * 2 ^ j := by exact_mod_cast Iff.rfl
    rw [← this, ← div_eq_iff hpow.ne']
    constructor
    · intro h
      linarith
    · intro h
      linarith
  rw [lt_roundHalfEven_iff (by positivity), hquot, hless, htie]
  unfold Passes
  split_ifs <;> omega

/-- A number has at most 53 bits in the unit of its significand. -/
theorem le_unit (n : ℕ) : n ≤ 2 ^ 53 * 2 ^ (n.log2 - 52) := by
  rw [← pow_add]
  exact (Nat.lt_log2_self (n := n)).le.trans (Nat.pow_le_pow_right (by decide) (by omega))

/-- A number has at least 53 bits in the unit of its significand, if it has as many at all. -/
theorem unit_le {n : ℕ} (hn : 52 ≤ n.log2) : 2 ^ 52 * 2 ^ (n.log2 - 52) ≤ n := by
  have hne : n ≠ 0 := by
    rintro rfl
    simp at hn
  rw [← pow_add, Nat.add_sub_cancel' hn]
  exact Nat.log2_self_le hne

theorem nearest_le (n : ℕ) : nearest n ≤ 2 ^ 53 * 2 ^ (n.log2 - 52) := by
  rw [nearest]
  apply Nat.mul_le_mul_right
  apply roundHalfEven_le (by positivity)
  rw [div_le_iff₀ (by positivity)]
  exact_mod_cast le_unit n

theorem le_nearest {n : ℕ} (hn : 52 ≤ n.log2) : 2 ^ 52 * 2 ^ (n.log2 - 52) ≤ nearest n := by
  rw [nearest]
  apply Nat.mul_le_mul_right
  apply le_roundHalfEven
  rw [le_div_iff₀ (by positivity)]
  exact_mod_cast unit_le hn

/-- The values above which a number is rounded, by the midpoints that it passes. -/
theorem lt_nearest_iff {m j n : ℕ} (hlow : 2 ^ 52 ≤ m) (hhigh : m < 2 ^ 53) :
    m * 2 ^ (j + 1) < nearest n ↔ Passes m j n := by
  rcases lt_trichotomy (n.log2 - 52) (j + 1) with hlt | heq | hgt
  · -- the number has fewer bits
    have hscale : 2 ^ 53 * 2 ^ (n.log2 - 52) ≤ 2 ^ 53 * 2 ^ j :=
      Nat.mul_le_mul_left _ (Nat.pow_le_pow_right (by decide) (by omega))
    have hvalue : 2 ^ 53 * 2 ^ j ≤ m * 2 ^ (j + 1) := by
      rw [pow_succ' 2 j, ← mul_assoc]
      exact Nat.mul_le_mul_right _ (by omega)
    have hmidpoint : m * 2 ^ (j + 1) < (2 * m + 1) * 2 ^ j := by
      rw [pow_succ' 2 j, ← mul_assoc]
      exact Nat.mul_lt_mul_of_pos_right (by omega) (by positivity)
    have hnumber := le_unit n
    have hnearest := nearest_le n
    unfold Passes
    split_ifs <;> omega
  · -- the significands are compared
    rw [nearest, heq, Nat.mul_lt_mul_right (by positivity)]
    exact lt_significand_iff
  · -- the number has more bits
    have hscale : 2 ^ 53 * 2 ^ (j + 1) ≤ 2 ^ 52 * 2 ^ (n.log2 - 52) := by
      rw [← pow_add, ← pow_add]
      exact Nat.pow_le_pow_right (by decide) (by omega)
    have hvalue : m * 2 ^ (j + 1) < 2 ^ 53 * 2 ^ (j + 1) :=
      Nat.mul_lt_mul_of_pos_right hhigh (by positivity)
    have hmidpoint : (2 * m + 1) * 2 ^ j < 2 ^ 53 * 2 ^ (j + 1) := by
      rw [pow_succ' 2 j, ← mul_assoc]
      exact Nat.mul_lt_mul_of_pos_right (by omega) (by positivity)
    have hnumber := unit_le (n := n) (by omega)
    have hnearest := le_nearest (n := n) (by omega)
    unfold Passes
    split_ifs <;> omega

theorem le_nearest_of_le {n : ℕ} (hn : 2 ^ 53 ≤ n) : 2 ^ 53 ≤ nearest n := by
  have hlog : 53 ≤ n.log2 := (Nat.le_log2 (by omega)).mpr hn
  have hpow : 2 ^ 1 ≤ 2 ^ (n.log2 - 52) := Nat.pow_le_pow_right (by decide) (by omega)
  have := le_nearest (n := n) (by omega)
  omega

/-- A value from `2 ^ 53` on is a significand of 53 bits in units of at least two. -/
theorem exists_nearest_eq {n : ℕ} (hn : 2 ^ 53 ≤ n) :
    ∃ m j, 2 ^ 52 ≤ m ∧ m < 2 ^ 53 ∧ nearest n = m * 2 ^ (j + 1) := by
  have hlog : 53 ≤ n.log2 := (Nat.le_log2 (by omega)).mpr hn
  obtain ⟨j, hj⟩ := Nat.exists_eq_add_of_le hlog
  have hunit : n.log2 - 52 = j + 1 := by omega
  have hlow := le_nearest (n := n) (by omega)
  have hhigh := nearest_le n
  rw [nearest, hunit] at hlow hhigh ⊢
  have hlow' := Nat.le_of_mul_le_mul_right hlow (by positivity)
  rcases (Nat.le_of_mul_le_mul_right hhigh (by positivity)).lt_or_eq with hlt | heq
  · exact ⟨_, j, hlow', hlt, rfl⟩
  · exact ⟨2 ^ 52, j + 1, le_rfl, by norm_num, by rw [heq]; ring⟩

theorem nearest_mono {b a : ℕ} (hle : b ≤ a) : nearest b ≤ nearest a := by
  rcases lt_or_ge a (2 ^ 53) with hsmall | hlarge
  · rw [nearest_of_lt hsmall, nearest_of_lt (by omega)]
    exact hle
  · obtain ⟨m, j, hlow, hhigh, heq⟩ := exists_nearest_eq hlarge
    by_contra hlt
    rw [not_le, heq, lt_nearest_iff hlow hhigh] at hlt
    have := (lt_nearest_iff hlow hhigh).mpr (hlt.mono hle)
    omega

/-- Different numbers are rounded to different values if a midpoint separates them. -/
theorem nearest_lt_iff {b a : ℕ} (hb : 2 ^ 53 ≤ b) : nearest b < nearest a ↔ Separated b a := by
  constructor
  · intro h
    obtain ⟨m, j, hlow, hhigh, heq⟩ := exists_nearest_eq hb
    refine ⟨m, j, hlow, hhigh, ?_, ?_⟩
    · rw [← lt_nearest_iff hlow hhigh]
      omega
    · rw [← lt_nearest_iff hlow hhigh]
      omega
  · rintro ⟨m, j, hlow, hhigh, hbelow, habove⟩
    rw [← lt_nearest_iff hlow hhigh] at hbelow habove
    omega

/-- Below `2 ^ 53` no two numbers have the same value. -/
theorem nearest_lt_of_lt {b a : ℕ} (hb : b < 2 ^ 53) (hlt : b < a) : nearest b < nearest a := by
  rw [nearest_of_lt hb]
  rcases lt_or_ge a (2 ^ 53) with hsmall | hlarge
  · rw [nearest_of_lt hsmall]
    exact hlt
  · exact lt_of_lt_of_le hb (le_nearest_of_le hlarge)

/-- An integer that is converted to `double` and back is rounded on the way. -/
theorem toInt_ofRat {n : ℤ} (hn : n.natAbs < 2 ^ 64) :
    DoubleToInt.toInt (Double.ofRat (n : ℚ) : Binary64) = n.sign * nearest n.natAbs := by
  have hofRat : (Double.ofRat (n : ℚ) : Binary64) = round (decide (n < 0)) n := by
    simp only [Double.ofRat, ofRat, Int.cast_lt_zero]
  rw [hofRat]
  by_cases hzero : n = 0
  · subst hzero
    simp [DoubleToInt.toInt, round, value_pack_zero]
  · have habs : |(n : ℚ)| = n.natAbs := by
      rw [Nat.cast_natAbs, Int.cast_abs]
    have hvalue := value_round (decide (n < 0)) habs (by omega) hn
    simp only [DoubleToInt.toInt, hvalue]
    rcases lt_or_gt_of_ne hzero with hneg | hpos
    · rw [decide_eq_true hneg, signed, if_pos rfl, Int.sign_eq_neg_one_of_neg hneg]
      simp
    · rw [decide_eq_false hpos.not_gt, signed, if_neg (by decide), Int.sign_eq_one_of_pos hpos]
      simp

end Binary64

end RealtimeUtilities
