import Mathlib.Data.Int.ModEq
import Mathlib.Data.List.Forall2
import Mathlib.Data.List.Induction
import Mathlib.Tactic.Linarith
import Mathlib.Tactic.Ring

/-!
# The offset of a synchronised clock

`timer_calc_sync_offset()` is called once a cycle with the reference time of the other clock. It
takes the distance of that time from a synchronisation point of its own cycle, counts how often
the distance was ahead and how often it was behind, and computes a correction from the two.

The distance to the nearest synchronisation point is `phase`. The code takes the remainder of C,
which is negative for a reference time before the first synchronisation point, and folds only what
is more than half a cycle ahead.

## Main definitions

* `timer_calc_sync_offset`, with its `static` variable as a parameter, and `offsets`, what a
  sequence of calls computes;
* `UsesNearest`: the correction that belongs to the nearest synchronisation points;
* `Folds`: the code finds the nearest synchronisation point of a reference time.

## Main result

* `usesNearest_iff`: the one holds of a sequence and its continuations exactly if the other holds
  of its reference times.
-/

namespace RealtimeUtilities

/-- `timer_calc_sync_offset`: the `static` variable `integral` after the call, and
`*offsettime`. -/
def timer_calc_sync_offset (integral reftime cycletime : ℤ) : ℤ × ℤ :=
  let delta := (reftime - 50000).tmod cycletime
  let delta := if delta > cycletime.tdiv 2 then delta - cycletime else delta
  let integral := if delta > 0 then integral + 1 else integral
  let integral := if delta < 0 then integral - 1 else integral
  (integral, -(delta.tdiv 100) - integral.tdiv 20)

/-- What the calls write to `*offsettime`, from a value of `integral` on. -/
def offsets (cycletime : ℤ) : ℤ → List ℤ → List ℤ
  | _, [] => []
  | integral, reftime :: reftimes =>
      let call := timer_calc_sync_offset integral reftime cycletime
      call.2 :: offsets cycletime call.1 reftimes

/-- The `static` variable after the calls. -/
def integralAfter (cycletime integral : ℤ) (reftimes : List ℤ) : ℤ :=
  reftimes.foldl (fun integral reftime => (timer_calc_sync_offset integral reftime cycletime).1)
    integral

/-- The distance of `x` from the nearest multiple of a cycle, from the earlier one of two. -/
def phase (cycletime x : ℤ) : ℤ :=
  if cycletime < 2 * (x % cycletime) then x % cycletime - cycletime else x % cycletime

/-- How often the reference times were ahead of the nearest synchronisation point, less how often
they were behind. -/
def balance (cycletime : ℤ) (reftimes : List ℤ) : ℤ :=
  reftimes.countP (fun r => 0 < phase cycletime (r - 50000)) -
    reftimes.countP (fun r => phase cycletime (r - 50000) < 0)

/-- Every call corrects by the distance from the nearest synchronisation point. -/
def UsesNearest (cycletime : ℤ) (reftimes : List ℤ) : Prop :=
  ∀ pre r post, reftimes = pre ++ r :: post →
    (offsets cycletime 0 reftimes)[pre.length]? =
      some (-((phase cycletime (r - 50000)).tdiv 100) -
        (balance cycletime (pre ++ [r])).tdiv 20)

/-- The reference time is not before the first synchronisation point, or is less than half a cycle
before one. -/
def Folds (cycletime r : ℤ) : Prop :=
  50000 ≤ r ∨ 2 * ((50000 - r) % cycletime) < cycletime

instance (cycletime r : ℤ) : Decidable (Folds cycletime r) := by
  unfold Folds
  infer_instance

variable {cycletime : ℤ}

/-! ## One call -/

/-- The distance from the nearest multiple is the one that is congruent to `x` and at most half a
cycle. -/
theorem phase_eq_iff (hc : 0 < cycletime) {x d : ℤ} :
    phase cycletime x = d ↔ d ≡ x [ZMOD cycletime] ∧ -cycletime < 2 * d ∧ 2 * d ≤ cycletime := by
  have hnonneg := Int.emod_nonneg x hc.ne'
  have hlt := Int.emod_lt_of_pos x hc
  have hphase : phase cycletime x ≡ x [ZMOD cycletime] ∧
      -cycletime < 2 * phase cycletime x ∧ 2 * phase cycletime x ≤ cycletime := by
    unfold phase
    split_ifs
    · exact ⟨by simp [Int.ModEq], by omega, by omega⟩
    · exact ⟨by simp [Int.ModEq], by omega, by omega⟩
  constructor
  · rintro rfl
    exact hphase
  · rintro ⟨hmod, hlower, hupper⟩
    -- two such distances differ by less than a cycle
    have hdvd : cycletime ∣ phase cycletime x - d := (hphase.1.trans hmod.symm).symm.dvd
    have hsmall : |phase cycletime x - d| < cycletime := by
      rw [abs_lt]
      omega
    have := Int.eq_zero_of_abs_lt_dvd hdvd hsmall
    omega

/-- `delta` in a call. -/
def syncDelta (cycletime r : ℤ) : ℤ :=
  let delta := (r - 50000).tmod cycletime
  if delta > cycletime.tdiv 2 then delta - cycletime else delta

/-- A call counts the sign of `delta`. -/
theorem timer_calc_sync_offset_eq (integral r : ℤ) :
    timer_calc_sync_offset integral r cycletime =
      (integral + (syncDelta cycletime r).sign, -((syncDelta cycletime r).tdiv 100) -
        (integral + (syncDelta cycletime r).sign).tdiv 20) := by
  have hcount : ∀ delta : ℤ,
      (if delta < 0 then (if delta > 0 then integral + 1 else integral) - 1
        else if delta > 0 then integral + 1 else integral) = integral + delta.sign := by
    intro delta
    rcases lt_trichotomy delta 0 with h | rfl | h
    · rw [if_pos h, if_neg (not_lt.mpr h.le), Int.sign_eq_neg_one_of_neg h]
      rfl
    · simp
    · rw [if_neg (not_lt.mpr h.le), if_pos h, Int.sign_eq_one_of_pos h]
  simp only [timer_calc_sync_offset, ← hcount, syncDelta]

/-- The code folds half of the circle. -/
theorem syncDelta_eq (hc : 2 ≤ cycletime) (r : ℤ) :
    syncDelta cycletime r =
      if Folds cycletime r then phase cycletime (r - 50000)
      else phase cycletime (r - 50000) - cycletime := by
  have hhalf : cycletime.tdiv 2 = cycletime / 2 := Int.tdiv_eq_ediv_of_nonneg (by omega)
  simp only [syncDelta, hhalf]
  by_cases hle : 50000 ≤ r
  · -- the remainder is not negative
    have hmod : (r - 50000).tmod cycletime = (r - 50000) % cycletime :=
      Int.tmod_eq_emod_of_nonneg (by omega)
    rw [if_pos (show Folds cycletime r from .inl hle), hmod, phase]
    split_ifs <;> omega
  · -- the remainder is that of the time up to the first synchronisation point
    have hmod : (r - 50000).tmod cycletime = -((50000 - r) % cycletime) := by
      rw [← Int.neg_sub, Int.neg_tmod, Int.tmod_eq_emod_of_nonneg (by omega)]
    have hnonneg := Int.emod_nonneg (50000 - r) (show cycletime ≠ 0 by omega)
    have hlt := Int.emod_lt_of_pos (50000 - r) (show 0 < cycletime by omega)
    have hcongr : -((50000 - r) % cycletime) ≡ r - 50000 [ZMOD cycletime] := by
      rw [← Int.neg_sub 50000 r]
      exact (Int.mod_modEq _ _).neg
    rw [hmod, if_neg (by omega)]
    by_cases hfolds : Folds cycletime r
    · have hnear := hfolds.resolve_left hle
      rw [if_pos hfolds]
      exact ((phase_eq_iff (by omega)).mpr ⟨hcongr, by omega, by omega⟩).symm
    · have hfar : cycletime ≤ 2 * ((50000 - r) % cycletime) :=
        not_lt.mp fun h => hfolds (.inr h)
      have hphase : phase cycletime (r - 50000) = cycletime - (50000 - r) % cycletime := by
        refine (phase_eq_iff (by omega)).mpr ⟨?_, by omega, by omega⟩
        refine Int.ModEq.trans ?_ hcongr
        simp [Int.ModEq, sub_eq_add_neg]
      rw [if_neg hfolds, hphase]
      omega

/-- Where the code does not find the nearest synchronisation point, it is behind a later one
instead of ahead of that. -/
theorem sign_syncDelta (hc : 2 ≤ cycletime) (r : ℤ) :
    (syncDelta cycletime r).sign = (phase cycletime (r - 50000)).sign -
      if Folds cycletime r then 0 else 2 := by
  rw [syncDelta_eq hc]
  by_cases hfolds : Folds cycletime r
  · rw [if_pos hfolds, if_pos hfolds, sub_zero]
  · have hdelta := syncDelta_eq hc r
    rw [if_neg hfolds] at hdelta
    obtain ⟨hmod, -, hupper⟩ :=
      (phase_eq_iff (show 0 < cycletime by omega)).mp (rfl : phase cycletime (r - 50000) = _)
    have hpos : 0 < phase cycletime (r - 50000) := by
      by_contra hle
      -- `delta` is a remainder of C, so it is not below a full cycle
      have hlower := Int.lt_tmod_of_pos (r - 50000) (show 0 < cycletime by omega)
      have hhalf : cycletime.tdiv 2 = cycletime / 2 := Int.tdiv_eq_ediv_of_nonneg (by omega)
      simp only [syncDelta, hhalf] at hdelta
      split_ifs at hdelta with hfold <;> omega
    rw [if_neg hfolds, if_neg hfolds, Int.sign_eq_one_of_pos hpos,
      Int.sign_eq_neg_one_of_neg (by omega)]
    rfl

/-! ## Sequences of calls -/

theorem offsets_append (integral : ℤ) (pre post : List ℤ) :
    offsets cycletime integral (pre ++ post) = offsets cycletime integral pre ++
      offsets cycletime (integralAfter cycletime integral pre) post := by
  induction pre generalizing integral with
  | nil => rfl
  | cons r pre ih => simp only [List.cons_append, offsets, integralAfter, List.foldl_cons, ih]

theorem length_offsets (integral : ℤ) (reftimes : List ℤ) :
    (offsets cycletime integral reftimes).length = reftimes.length := by
  induction reftimes generalizing integral with
  | nil => rfl
  | cons r reftimes ih => rw [offsets, List.length_cons, List.length_cons, ih]

theorem integralAfter_concat (integral : ℤ) (pre : List ℤ) (r : ℤ) :
    integralAfter cycletime integral (pre ++ [r]) =
      (timer_calc_sync_offset (integralAfter cycletime integral pre) r cycletime).1 := by
  rw [integralAfter, List.foldl_append]
  rfl

/-- What the call with the reference time `r` writes. -/
theorem getElem?_offsets (integral : ℤ) (pre : List ℤ) (r : ℤ) (post : List ℤ) :
    (offsets cycletime integral (pre ++ r :: post))[pre.length]? =
      some (-((syncDelta cycletime r).tdiv 100) -
        (integralAfter cycletime integral (pre ++ [r])).tdiv 20) := by
  rw [integralAfter_concat, offsets_append, ← length_offsets integral pre,
    List.getElem?_append_right le_rfl, Nat.sub_self]
  rfl

theorem balance_append (pre post : List ℤ) :
    balance cycletime (pre ++ post) = balance cycletime pre + balance cycletime post := by
  simp only [balance, List.countP_append, Nat.cast_add]
  ring

theorem balance_concat (pre : List ℤ) (r : ℤ) :
    balance cycletime (pre ++ [r]) =
      balance cycletime pre + (phase cycletime (r - 50000)).sign := by
  rw [balance_append]
  congr 1
  simp only [balance, List.countP_singleton, decide_eq_true_eq]
  rcases lt_trichotomy (phase cycletime (r - 50000)) 0 with h | h | h
  · rw [if_neg (not_lt.mpr h.le), if_pos h, Int.sign_eq_neg_one_of_neg h]
    rfl
  · simp [h]
  · rw [if_pos h, if_neg (not_lt.mpr h.le), Int.sign_eq_one_of_pos h]
    rfl

/-- The counter loses two for every reference time whose nearest synchronisation point is not
found. -/
theorem integralAfter_eq (hc : 2 ≤ cycletime) (reftimes : List ℤ) :
    integralAfter cycletime 0 reftimes =
      balance cycletime reftimes - 2 * reftimes.countP (fun r => ¬ Folds cycletime r) := by
  induction reftimes using List.reverseRecOn with
  | nil => rfl
  | append_singleton pre r ih =>
    -- where the nearest point is not found, the sign is `-1` in place of `1`
    rw [integralAfter_concat, timer_calc_sync_offset_eq, balance_concat, sign_syncDelta hc, ih,
      List.countP_append, List.countP_singleton]
    by_cases hfolds : Folds cycletime r
    · simp only [hfolds, not_true_eq_false, decide_false, if_true, Bool.false_eq_true, if_false]
      push_cast
      ring
    · simp only [hfolds, not_false_eq_true, decide_true, if_true, if_false]
      push_cast
      ring

/-- If the nearest synchronisation points are found, they are used. -/
theorem usesNearest_of_folds (hc : 2 ≤ cycletime) {reftimes : List ℤ}
    (h : ∀ r ∈ reftimes, Folds cycletime r) : UsesNearest cycletime reftimes := by
  rintro pre r post rfl
  have hnone : (pre ++ [r]).countP (fun r => ¬ Folds cycletime r) = 0 := by
    rw [List.countP_eq_zero]
    intro x hx
    have hfolds : Folds cycletime x := h x (by simp at hx ⊢; tauto)
    simp [hfolds]
  have hr : Folds cycletime r := h r (by simp)
  rw [getElem?_offsets, integralAfter_eq hc, hnone, syncDelta_eq hc, if_pos hr, Nat.cast_zero,
    mul_zero, sub_zero]

/-- A reference time one nanosecond after the first synchronisation point. -/
theorem phase_ahead (hc : 2 ≤ cycletime) : phase cycletime (50001 - 50000) = 1 :=
  (phase_eq_iff (by omega)).mpr ⟨rfl, by omega, by omega⟩

theorem balance_replicate (hc : 2 ≤ cycletime) (n : ℕ) :
    balance cycletime (List.replicate n 50001) = n := by
  induction n with
  | zero => rfl
  | succ n ih =>
    rw [List.replicate_succ', balance_concat, ih, phase_ahead hc]
    simp

/-- The quotient of C is below a positive number whose multiple is not reached. -/
theorem tdiv_lt {a b t : ℤ} (hb : 0 < b) (ht : 0 < t) (h : a < b * t) : a.tdiv b < t := by
  rcases le_or_gt 0 a with hnonneg | hneg
  · rw [Int.tdiv_eq_ediv_of_nonneg hnonneg]
    exact Int.ediv_lt_of_lt_mul hb (by rwa [mul_comm])
  · have hle := Int.tdiv_le_tdiv hb hneg.le
    rw [Int.zero_tdiv] at hle
    exact lt_of_le_of_lt hle ht

/-- A counter that has lost something gives a wrong correction sooner or later. -/
theorem exists_not_usesNearest (hc : 2 ≤ cycletime) {reftimes : List ℤ}
    (h : ¬ ∀ r ∈ reftimes, Folds cycletime r) :
    ∃ n, ¬ UsesNearest cycletime (reftimes ++ List.replicate n 50001) := by
  have hlost : 0 < reftimes.countP (fun r => ¬ Folds cycletime r) := by
    rw [List.countP_pos_iff]
    push Not at h
    simpa using h
  -- the right count reaches a multiple of twenty, which the other one does not
  let t : ℤ := |balance cycletime reftimes| + 1
  obtain ⟨n, hn⟩ := Int.eq_ofNat_of_zero_le
    (show 0 ≤ 20 * t - balance cycletime reftimes - 1 by
      have := le_abs_self (balance cycletime reftimes)
      have := abs_nonneg (balance cycletime reftimes)
      omega)
  have hfolds : Folds cycletime 50001 := .inl (by decide)
  have hnone : (List.replicate (n + 1) 50001).countP (fun r => ¬ Folds cycletime r) = 0 := by
    rw [List.countP_eq_zero]
    intro x hx
    rw [(List.mem_replicate.mp hx).2]
    simp [hfolds]
  have hbalance : balance cycletime (reftimes ++ List.replicate (n + 1) 50001) = 20 * t := by
    rw [balance_append, balance_replicate hc]
    push_cast
    omega
  -- the reference times that are added lose nothing
  have hintegral := integralAfter_eq hc (reftimes ++ List.replicate (n + 1) 50001)
  rw [hbalance, List.countP_append, hnone, Nat.add_zero] at hintegral
  have hlast : reftimes ++ List.replicate (n + 1) 50001 =
      (reftimes ++ List.replicate n 50001) ++ [50001] := by
    rw [List.replicate_succ', List.append_assoc]
  refine ⟨n + 1, fun huses => ?_⟩
  have hoffset := huses (reftimes ++ List.replicate n 50001) 50001 [] hlast
  rw [hlast, getElem?_offsets, ← hlast, hbalance, hintegral, syncDelta_eq hc, if_pos hfolds,
    Int.mul_tdiv_cancel_left t (by decide)] at hoffset
  have hquotient := Option.some.inj hoffset
  -- a smaller number than `20 * t` has a smaller quotient, since `t` is positive
  have hpos : 0 < t := by
    have := abs_nonneg (balance cycletime reftimes)
    omega
  have hless := tdiv_lt (a := 20 * t - 2 * (reftimes.countP (fun r => ¬ Folds cycletime r) + 0 : ℕ))
    (show (0 : ℤ) < 20 by decide) hpos (by omega)
  omega

/-- Whole cycles do not matter where the nearest synchronisation points are found. -/
theorem offsets_congr (hc : 2 ≤ cycletime) (integral : ℤ) {reftimes reftimes' : List ℤ}
    (hmod : List.Forall₂ (· ≡ · [ZMOD cycletime]) reftimes reftimes')
    (h : ∀ r ∈ reftimes, Folds cycletime r) (h' : ∀ r ∈ reftimes', Folds cycletime r) :
    offsets cycletime integral reftimes' = offsets cycletime integral reftimes := by
  induction hmod generalizing integral with
  | nil => rfl
  | @cons r r' reftimes reftimes' hr _ ih =>
    have hphase : phase cycletime (r' - 50000) = phase cycletime (r - 50000) := by
      have hrest : (r' - 50000) % cycletime = (r - 50000) % cycletime :=
        (hr.sub_right 50000).symm
      simp only [phase, hrest]
    -- the phase error and the counter after the call are the same, whatever the counter was
    have hdelta : syncDelta cycletime r' = syncDelta cycletime r := by
      rw [syncDelta_eq hc, syncDelta_eq hc, if_pos (h' r' (by simp)), if_pos (h r (by simp)),
        hphase]
    simp only [offsets, timer_calc_sync_offset_eq, hdelta]
    rw [ih _ (fun x hx => h x (by simp [hx])) (fun x hx => h' x (by simp [hx]))]

/-- **The correction uses the nearest synchronisation points exactly if every reference time is
past the first one or less than half a cycle before one.** In a sequence of such calls it does,
however the sequence goes on with such calls, and whole cycles that are added to the reference
times do not matter. In any other sequence it does not, or will not in a continuation. -/
theorem usesNearest_iff (hc : 2 ≤ cycletime) (reftimes : List ℤ) :
    ((∀ r ∈ reftimes, Folds cycletime r) ↔ ∀ more, (∀ r ∈ more, Folds cycletime r) →
      UsesNearest cycletime (reftimes ++ more)) ∧
    ((∀ r ∈ reftimes, Folds cycletime r) → ∀ reftimes',
      List.Forall₂ (· ≡ · [ZMOD cycletime]) reftimes reftimes' →
      (∀ r ∈ reftimes', Folds cycletime r) →
      offsets cycletime 0 reftimes' = offsets cycletime 0 reftimes) := by
  refine ⟨⟨fun h more hmore => ?_, fun h => ?_⟩,
    fun h reftimes' hmod h' => offsets_congr hc 0 hmod h h'⟩
  · refine usesNearest_of_folds hc fun r hr => ?_
    rcases List.mem_append.mp hr with hr | hr
    · exact h r hr
    · exact hmore r hr
  · by_contra hnot
    -- the continuation that shows the loss consists of calls that meet the condition
    obtain ⟨n, hn⟩ := exists_not_usesNearest hc hnot
    refine hn (h _ fun r hr => ?_)
    rw [(List.mem_replicate.mp hr).2]
    exact .inl (by decide)

/-- Cycles of one millisecond, the first two with a reference time before the synchronisation
point. -/
theorem usesNearest_iff_millisecond : UsesNearest 1000000 [20, 40000, 2050120] :=
  ((usesNearest_iff (by decide) [20, 40000, 2050120]).1.mp (by decide)) [] (by simp)

/-- With cycles of sixty microseconds, the reference time zero is ten of them ahead of a
synchronisation point. It is taken to be fifty behind the next one. -/
theorem offset_before_first :
    phase 60000 (0 - 50000) = 10000 ∧ offsets 60000 0 [0] = [500] ∧
      offsets 60000 0 [60000] = [-100] ∧ ¬ UsesNearest 60000 [0] := by
  refine ⟨by decide, by decide, by decide, fun h => ?_⟩
  exact absurd (h [] 0 [] rfl) (by decide)

end RealtimeUtilities
