import Mathlib.Data.Nat.ModEq
import Mathlib.Data.Set.Basic

/-!
# Blocks and strides

The natural numbers are cut into blocks of `p` numbers each. A range that starts at `a` and has
`n` numbers meets the blocks `blocks p a n`, and the numbers `a`, `a + p`, `a + 2 * p`, … of it are
in the blocks `samples p a n`. A stride of one block visits consecutive blocks, but a range may
reach one block further (`blocks_subset_samples_iff`).
-/

namespace Stride

variable {p a n q : ℕ}

/-- The blocks that contain a number of the range. -/
def blocks (p a n : ℕ) : Set ℕ :=
  {q | ∃ i < n, (a + i) / p = q}

/-- The blocks that contain a number of the range at a multiple of `p` from its start. -/
def samples (p a n : ℕ) : Set ℕ :=
  {q | ∃ k, k * p < n ∧ (a + k * p) / p = q}

theorem mem_blocks_iff (hp : 0 < p) :
    q ∈ blocks p a n ↔ 0 < n ∧ a / p ≤ q ∧ q ≤ (a + (n - 1)) / p := by
  constructor
  · rintro ⟨i, hi, rfl⟩
    exact ⟨by omega, Nat.div_le_div_right (by omega), Nat.div_le_div_right (by omega)⟩
  · rintro ⟨hn, hlow, hhigh⟩
    rcases hlow.eq_or_lt with rfl | hlt
    · exact ⟨0, hn, rfl⟩
    · -- the block starts within the range
      have hstart : a < q * p := (Nat.div_lt_iff_lt_mul hp).mp hlt
      have hend : q * p ≤ a + (n - 1) := (Nat.le_div_iff_mul_le hp).mp hhigh
      refine ⟨q * p - a, by omega, ?_⟩
      rw [Nat.add_sub_cancel' hstart.le, Nat.mul_div_cancel q hp]

theorem mem_samples_iff (hp : 0 < p) :
    q ∈ samples p a n ↔ 0 < n ∧ a / p ≤ q ∧ q ≤ a / p + (n - 1) / p := by
  have hcount : ∀ k, k * p < n ↔ 0 < n ∧ k ≤ (n - 1) / p := by
    intro k
    rw [Nat.le_div_iff_mul_le hp]
    omega
  constructor
  · rintro ⟨k, hk, rfl⟩
    obtain ⟨hn, hle⟩ := (hcount k).mp hk
    rw [Nat.add_mul_div_right _ _ hp]
    exact ⟨hn, by omega, by omega⟩
  · rintro ⟨hn, hlow, hhigh⟩
    refine ⟨q - a / p, (hcount _).mpr ⟨hn, by omega⟩, ?_⟩
    rw [Nat.add_mul_div_right _ _ hp]
    omega

/-- **The samples reach all blocks exactly if the range does not reach a block further.** The
offset of its start in the first block and the part of its length beyond whole blocks say whether
it does. -/
theorem blocks_subset_samples_iff (hp : 0 < p) :
    blocks p a n ⊆ samples p a n ↔ a % p + (n - 1) % p < p := by
  constructor
  · intro hsubset
    by_contra! hle
    have hoffset := Nat.mod_lt a hp
    have hn : 0 < n := by
      by_contra! hzero
      rw [Nat.sub_eq_zero_of_le (hzero.trans (Nat.zero_le 1)), Nat.zero_mod] at hle
      omega
    -- the last block is one more than the samples reach
    have hlast := Nat.add_div_eq_of_le_mod_add_mod hle hp
    have hblock : (a + (n - 1)) / p ∈ blocks p a n :=
      (mem_blocks_iff hp).mpr ⟨hn, Nat.div_le_div_right (Nat.le_add_right _ _), le_rfl⟩
    have hsample := ((mem_samples_iff hp).mp (hsubset hblock)).2.2
    omega
  · intro hlt q hq
    obtain ⟨hn, hlow, hhigh⟩ := (mem_blocks_iff hp).mp hq
    rw [Nat.add_div_eq_of_add_mod_lt hlt] at hhigh
    exact (mem_samples_iff hp).mpr ⟨hn, hlow, hhigh⟩

end Stride
