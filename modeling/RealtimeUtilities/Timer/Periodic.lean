import RealtimeUtilities.Double.Error
import RealtimeUtilities.Timer.CatchUp
import RealtimeUtilities.Timer.Schedule

/-!
# The periodic thread

A periodic thread calls `timer_inc_period(pinfo)` and then `timer_wait_rest_of_period()` with its
deadline, over and over. `timer_inc_period(pinfo)` compares the deadline and the clock as seconds in
a `double`, which are rounded. The roundings keep the order of times, so no deadline is skipped that
has not passed. The other way round, the clock may be ahead of the deadline by what the roundings
lose, which is less than half a microsecond in the first sixty-eight years of the clock.

Errors of the comparison do not add up: the deadlines of the thread are those of its schedule,
and its cycles and the deadlines that it missed make up the periods since its start. Sleeps that are
interrupted let the thread run ahead of the clock, by a period each, and do not change that.

## Main results

* `timer_inc_period_double`: what `timer_inc_period(pinfo)` does with a `double`;
* `periods_accounted`: cycles and missed deadlines make up the periods that have passed.
-/

namespace RealtimeUtilities

open Execution Binary64

namespace timespec

/-- The time is not before the start of the clock, and less than `2 ^ 53` seconds after it. -/
structure InRange (ts : timespec) : Prop where
  normalised : ts.Normalised
  nonneg : 0 ≤ ts.tv_sec
  lt : ts.tv_sec < 2 ^ 53

/-- The value of `timer_to_s`. -/
def seconds (ts : timespec) : ℚ :=
  rounded (ts.tv_sec + rounded (ts.tv_nsec / 1000000000))

end timespec

variable {a b : timespec}

/-- A normalised time is compared with others by its nanoseconds. -/
theorem timespec.InRange.of_total (h : a.Normalised) (hnonneg : 0 ≤ a.total)
    (hlt : a.total < 2 ^ 53 * 1000000000) : a.InRange := by
  obtain ⟨hnsec, hnsec'⟩ := id h
  simp only [timespec.total] at hnonneg hlt
  exact ⟨h, by omega, by omega⟩

/-! ## Seconds in a `double` -/

/-- The nanoseconds, as a fraction of a second. -/
theorem nanoseconds_bounds (h : a.InRange) :
    0 ≤ (a.tv_nsec : ℚ) / 1000000000 ∧ (a.tv_nsec : ℚ) / 1000000000 ≤ 1 ∧
      (a.tv_nsec ≠ 0 → 1 / 1000000000 ≤ (a.tv_nsec : ℚ) / 1000000000) := by
  obtain ⟨hnonneg, hlt⟩ := h.normalised
  have hnonneg' : (0 : ℚ) ≤ a.tv_nsec := by exact_mod_cast hnonneg
  have hlt' : (a.tv_nsec : ℚ) < 1000000000 := by exact_mod_cast hlt
  refine ⟨by positivity, by linarith, fun hne => ?_⟩
  have hone : (1 : ℚ) ≤ a.tv_nsec := by exact_mod_cast (show 1 ≤ a.tv_nsec by omega)
  linarith

theorem normal_nanoseconds (h : a.InRange) : Normal ((a.tv_nsec : ℚ) / 1000000000) := by
  obtain ⟨-, hle, hlow⟩ := nanoseconds_bounds h
  by_cases hzero : a.tv_nsec = 0
  · exact .inl (by rw [hzero, Int.cast_zero, zero_div])
  · have := hlow hzero
    exact normal_of_le (by linarith) (by linarith)

/-- A fraction of a second is not rounded to more than a second. -/
theorem rounded_nanoseconds_le_one (h : a.InRange) :
    rounded ((a.tv_nsec : ℚ) / 1000000000) ≤ 1 := by
  obtain ⟨hnonneg, hle, -⟩ := nanoseconds_bounds h
  refine (rounded_mono hnonneg hle).trans ?_
  exact_mod_cast (rounded_intCast (n := 1) (by decide) (by decide)).le

theorem normal_seconds (h : a.InRange) :
    Normal ((a.tv_sec : ℚ) + rounded ((a.tv_nsec : ℚ) / 1000000000)) := by
  have hle := rounded_nanoseconds_le_one h
  have hnonneg := rounded_nonneg ((a.tv_nsec : ℚ) / 1000000000)
  have hsec : (a.tv_sec : ℚ) < 2 ^ 53 := by exact_mod_cast h.lt
  by_cases hzero : a.tv_sec = 0
  · by_cases hzero' : a.tv_nsec = 0
    · exact .inl (by rw [hzero, hzero', Int.cast_zero, zero_div, rounded_zero, add_zero])
    · -- half of a nanosecond is left at least
      obtain ⟨hx, -, hlow⟩ := nanoseconds_bounds h
      have herror := abs_rounded_sub_le hx
      rw [abs_le] at herror
      have := hlow hzero'
      rw [hzero, Int.cast_zero, zero_add]
      exact normal_of_le (by linarith) (by linarith)
  · have hone : (1 : ℚ) ≤ a.tv_sec := by
      have := h.nonneg
      exact_mod_cast (show 1 ≤ a.tv_sec by omega)
    exact normal_of_le (by linarith) (by linarith)

/-- The value of `timer_to_s`. -/
theorem value_timer_to_s (h : a.InRange) :
    (timer_to_s a : Binary64).value = .finite false a.seconds := by
  obtain ⟨hx, -, -⟩ := nanoseconds_bounds h
  have hinteger : ∀ n : ℤ, 0 ≤ n → n < 2 ^ 53 →
      (Double.ofRat (n : ℚ) : Binary64).value = .finite false n := by
    intro n hn hlt
    have hvalue := value_ofRat_of_nonneg (by exact_mod_cast hn) (normal_intCast hn hlt)
    rwa [rounded_intCast hn hlt] at hvalue
  have hnsec := hinteger a.tv_nsec h.normalised.1 (h.normalised.2.trans (by norm_num))
  have hfactor := hinteger 1000000000 (by decide) (by decide)
  have hsec := hinteger a.tv_sec h.nonneg h.lt
  have hdiv := value_div_of_nonneg hnsec hfactor (by exact_mod_cast h.normalised.1) (by norm_num)
    (by exact_mod_cast normal_nanoseconds h)
  exact value_add_of_nonneg hsec hdiv (by exact_mod_cast h.nonneg) (rounded_nonneg _)
    (normal_seconds h)

/-- A later time is not read as fewer seconds. -/
theorem seconds_mono (ha : a.InRange) (hb : b.InRange) (h : a.total ≤ b.total) :
    a.seconds ≤ b.seconds := by
  have hsec : (0 : ℚ) ≤ a.tv_sec := by exact_mod_cast ha.nonneg
  refine rounded_mono (add_nonneg hsec (rounded_nonneg _)) ?_
  obtain ⟨hnonneg, hlt⟩ := hb.normalised
  have hle := ha.normalised.2
  have := ha.normalised.1
  simp only [timespec.total] at h
  rcases (show a.tv_sec ≤ b.tv_sec by omega).lt_or_eq with hless | heq
  · -- a second is more than what the nanoseconds are rounded to
    have hnext : (a.tv_sec : ℚ) + 1 ≤ b.tv_sec := by exact_mod_cast hless
    have := rounded_nanoseconds_le_one ha
    have := rounded_nonneg ((b.tv_nsec : ℚ) / 1000000000)
    linarith
  · have hnsec : (a.tv_nsec : ℚ) ≤ b.tv_nsec := by
      exact_mod_cast (show a.tv_nsec ≤ b.tv_nsec by omega)
    rw [heq, add_le_add_iff_left]
    exact rounded_mono (nanoseconds_bounds ha).1
      (div_le_div_of_nonneg_right hnsec (by norm_num))

/-- What two roundings lose of a time. -/
theorem abs_seconds_sub_le (h : a.InRange) :
    |a.seconds - a.total / 1000000000| ≤ (a.total / 1000000000 + 1) / 2 ^ 53 := by
  obtain ⟨hx, -, -⟩ := nanoseconds_bounds h
  have hsec : (0 : ℚ) ≤ a.tv_sec := by exact_mod_cast h.nonneg
  have hle := rounded_nanoseconds_le_one h
  have hnsec := abs_rounded_sub_le hx
  have hsum := abs_rounded_sub_le (add_nonneg hsec (rounded_nonneg ((a.tv_nsec : ℚ) / 1000000000)))
  have htotal : (a.total : ℚ) / 1000000000 = a.tv_sec + (a.tv_nsec : ℚ) / 1000000000 := by
    simp only [timespec.total]
    push_cast
    ring
  rw [htotal, timespec.seconds]
  rw [abs_le] at hnsec hsum ⊢
  constructor
  · linarith
  · linarith

/-- **What a comparison of seconds says of two times.** If it says that the first is the earlier
one, this is so. If it does not, the first is not earlier by half a microsecond, in the first
`2 ^ 31` seconds. -/
theorem timer_to_s_lt (ha : a.InRange) (hb : b.InRange) :
    (Double.lt (timer_to_s a : Binary64) (timer_to_s b) = true → a.total < b.total) ∧
      (Double.lt (timer_to_s a : Binary64) (timer_to_s b) = false → b.tv_sec < 2 ^ 31 →
        b.total ≤ a.total + 477) := by
  have hlt := lt_iff_of_value (value_timer_to_s ha) (value_timer_to_s hb)
  refine ⟨fun h => ?_, fun h hsec => ?_⟩
  · by_contra hle
    exact absurd (hlt.mp h) (not_lt.mpr (seconds_mono hb ha (not_lt.mp hle)))
  · by_contra hearly
    have hle : b.seconds ≤ a.seconds :=
      not_lt.mp fun hless => absurd (hlt.mpr hless) (by rw [h]; decide)
    have hbound : b.total < 2 ^ 31 * 1000000000 := by
      have := hb.normalised.2
      simp only [timespec.total]
      omega
    have hbound' : (b.total : ℚ) < 2 ^ 31 * 1000000000 := by exact_mod_cast hbound
    have hearly' : (a.total : ℚ) + 478 ≤ b.total := by
      exact_mod_cast (show a.total + 478 ≤ b.total by omega)
    have ha' := abs_seconds_sub_le ha
    have hb' := abs_seconds_sub_le hb
    rw [abs_le] at ha' hb'
    linarith

/-! ## `timer_inc_period` with a `double` -/

/-- A time in the first sixty-eight years of the clock. -/
structure timespec.Reading (ts : timespec) : Prop where
  normalised : ts.Normalised
  nonneg : 0 ≤ ts.tv_sec
  lt : ts.tv_sec < 2 ^ 31

theorem timespec.Reading.inRange (h : a.Reading) : a.InRange :=
  ⟨h.normalised, h.nonneg, h.lt.trans (by norm_num)⟩

theorem timespec.Reading.total_bounds (h : a.Reading) :
    0 ≤ a.total ∧ a.total < 2 ^ 31 * 1000000000 := by
  obtain ⟨hnonneg, hlt⟩ := h.normalised
  have := h.nonneg
  have := h.lt
  simp only [timespec.total]
  omega

/-- More turns than the loops need do not change what a call returns. -/
theorem timer_inc_period_mono {τ : Type} [Double τ] {fuel fuel' : ℕ} {act_time : timespec}
    {pinfo : period_info} {x : ℤ × period_info}
    (h : timer_inc_period τ fuel act_time pinfo = some x) (hle : fuel ≤ fuel') :
    timer_inc_period τ fuel' act_time pinfo = some x := by
  refine Loop.doWhile_mono (fun y y' hy => ?_) h hle
  obtain ⟨ts, hts, rfl⟩ := Option.map_eq_some_iff.mp hy
  exact Option.map_eq_some_iff.mpr ⟨ts, Loop.whileDo_mono hts hle, rfl⟩

/-- The deadline is the first one after the old deadline, or after `missed` ones that had passed,
and it is not before `act_time` by half a microsecond. -/
structure NearlyCaughtUp (pinfo : period_info) (act_time : timespec) (missed : ℤ)
    (pinfo' : period_info) : Prop where
  normalised : pinfo'.next_period.Normalised
  period : pinfo'.period_ns = pinfo.period_ns
  nonneg : 0 ≤ missed
  total : pinfo'.next_period.total = pinfo.next_period.total + (missed + 1) * pinfo.period_ns
  passed : 0 < missed → pinfo.next_period.total + missed * pinfo.period_ns < act_time.total
  not_early : act_time.total ≤ pinfo'.next_period.total + 477

section Call

variable {pinfo p₁ p₂ : period_info} {act_time : timespec} {fuel : ℕ} {m₁ m₂ : ℤ}

/-- What the outer loop keeps: it has only skipped what had passed. -/
structure Skips (pinfo : period_info) (act_time : timespec) (x : ℤ × period_info) : Prop
    extends Progress pinfo x where
  nonneg : 0 ≤ x.1
  passed : 0 < x.1 → pinfo.next_period.total + x.1 * pinfo.period_ns < act_time.total

/-- The deadlines that the loop compares are in the range in which this is right. -/
theorem Skips.inRange {x : ℤ × period_info} (h : Skips pinfo act_time x)
    (hdeadline : pinfo.next_period.Reading) (hact : act_time.Reading)
    (hperiod : 0 < pinfo.period_ns) (hlong : pinfo.period_ns < 2 ^ 63) :
    x.2.next_period.InRange := by
  obtain ⟨hnonneg, hlt⟩ := hdeadline.total_bounds
  obtain ⟨-, hlt'⟩ := hact.total_bounds
  have htotal : x.2.next_period.total =
      pinfo.next_period.total + x.1 * pinfo.period_ns + pinfo.period_ns := by
    rw [h.total]
    ring
  have hskipped : 0 ≤ x.1 * pinfo.period_ns := mul_nonneg h.nonneg hperiod.le
  refine .of_total h.normalised (by omega) ?_
  rcases h.nonneg.eq_or_lt with hzero | hpos
  · rw [← hzero, zero_mul] at htotal
    omega
  · have := h.passed hpos
    omega

/-- One turn, after the first or after a comparison. -/
theorem Skips.catchUp {x x' : ℤ × period_info} (h : Skips pinfo act_time x)
    (hperiod : 0 < pinfo.period_ns) (hlate : x.2.next_period.total < act_time.total)
    (hturn : catchUp fuel x = some x') : Skips pinfo act_time x' := by
  obtain ⟨hprogress, hcount⟩ := h.toProgress.catchUp hperiod hturn
  have hnonneg := h.nonneg
  refine ⟨hprogress, by omega, fun _ => ?_⟩
  rw [hcount, ← h.total]
  exact hlate

theorem skips_first {x : ℤ × period_info} (hnormalised : pinfo.next_period.Normalised)
    (hperiod : 0 < pinfo.period_ns) (hturn : catchUp fuel (-1, pinfo) = some x) :
    Skips pinfo act_time x := by
  obtain ⟨hprogress, hcount⟩ := (progress_init hnormalised).catchUp hperiod hturn
  exact ⟨hprogress, by simp [hcount], fun hpos => by simp [hcount] at hpos⟩

/-- What a call with a `double` returns. -/
theorem nearlyCaughtUp_of_timer_inc_period {x : ℤ × period_info}
    (hdeadline : pinfo.next_period.Reading) (hact : act_time.Reading)
    (hperiod : 0 < pinfo.period_ns) (hlong : pinfo.period_ns < 2 ^ 63)
    (h : timer_inc_period Binary64 fuel act_time pinfo = some x) :
    NearlyCaughtUp pinfo act_time x.1 x.2 := by
  obtain ⟨hskips, hend⟩ := Loop.doWhile_invariant (Skips pinfo act_time)
    (fun y hy => skips_first hdeadline.normalised hperiod hy)
    (fun y y' hy hcond hturn => hy.catchUp hperiod
      ((timer_to_s_lt (hy.inRange hdeadline hact hperiod hlong) hact.inRange).1 hcond) hturn) h
  have hrange := hskips.inRange hdeadline hact hperiod hlong
  exact ⟨hskips.normalised, hskips.period, hskips.nonneg, hskips.total, hskips.passed,
    (timer_to_s_lt hrange hact.inRange).2 hend hact.lt⟩

/-- The outer loop ends: every turn takes a period from the lateness. -/
theorem exists_timer_inc_period_double (hdeadline : pinfo.next_period.Reading)
    (hact : act_time.Reading) (hperiod : 0 < pinfo.period_ns) (hlong : pinfo.period_ns < 2 ^ 63)
    (hturn : (1000000000 + pinfo.period_ns).toNat < fuel)
    (hfuel : (act_time.total - pinfo.next_period.total).toNat < fuel) :
    ∃ x, timer_inc_period Binary64 fuel act_time pinfo = some x := by
  refine Loop.exists_doWhile (Skips pinfo act_time)
    (fun y => (act_time.total - y.2.next_period.total).toNat) ?_ fun y hy hcond => ?_
  · -- the measure is how late the deadline still is
    obtain ⟨y, hy⟩ := (progress_init hdeadline.normalised).exists_catchUp hturn
    have hskips : Skips pinfo act_time y := skips_first hdeadline.normalised hperiod hy
    have hskipped : 0 ≤ (y.1 + 1) * pinfo.period_ns :=
      mul_nonneg (by have := hskips.nonneg; omega) hperiod.le
    refine ⟨y, hy, hskips, lt_of_le_of_lt (Int.toNat_le_toNat ?_) hfuel⟩
    rw [hskips.total]
    omega
  · have hlate := (timer_to_s_lt (hy.inRange hdeadline hact hperiod hlong) hact.inRange).1 hcond
    obtain ⟨y', hy'⟩ := hy.exists_catchUp hturn
    obtain ⟨hprogress, hcount⟩ := hy.toProgress.catchUp hperiod hy'
    have hmove : y'.2.next_period.total = y.2.next_period.total + pinfo.period_ns := by
      rw [hprogress.total, hy.total, hcount]
      ring
    refine ⟨y', hy', hy.catchUp hperiod hlate hy', ?_⟩
    show (act_time.total - y'.2.next_period.total).toNat < _
    omega

/-- With a `double` no more deadlines are skipped than with times read exactly, and with a period of
half a microsecond at most one less. -/
theorem NearlyCaughtUp.exact (h₁ : NearlyCaughtUp pinfo act_time m₁ p₁)
    (h₂ : CaughtUp pinfo act_time m₂ p₂) (hperiod : 0 < pinfo.period_ns) :
    m₁ ≤ m₂ ∧ (477 ≤ pinfo.period_ns → m₂ ≤ m₁ + 1) ∧
      (m₁ = m₂ ∨ p₁.next_period.total < act_time.total) := by
  have hnonneg₁ := h₁.nonneg
  have hnonneg₂ := h₂.nonneg
  have htotal₁ := h₁.total
  have htotal₂ := h₂.total
  have hnear := h₁.not_early
  have hexact := h₂.not_early
  -- a skipped deadline is before the first one that has not passed
  have hle : m₁ ≤ m₂ := by
    by_contra hlt
    have hpassed := h₁.passed (by omega)
    have hmul : (m₂ + 1) * pinfo.period_ns ≤ m₁ * pinfo.period_ns :=
      mul_le_mul_of_nonneg_right (by omega) hperiod.le
    omega
  refine ⟨hle, fun hlong => ?_, ?_⟩
  · by_contra hlt
    have hpassed := h₂.minimal (by omega)
    have hmul : (m₁ + 1 + 1) * pinfo.period_ns ≤ m₂ * pinfo.period_ns :=
      mul_le_mul_of_nonneg_right (by omega) hperiod.le
    have hsplit : (m₁ + 1 + 1) * pinfo.period_ns =
        (m₁ + 1) * pinfo.period_ns + pinfo.period_ns := by ring
    omega
  · rcases hle.eq_or_lt with heq | hlt
    · exact .inl heq
    · right
      have hpassed := h₂.minimal (by omega)
      have hmul : (m₁ + 1) * pinfo.period_ns ≤ m₂ * pinfo.period_ns :=
        mul_le_mul_of_nonneg_right (by omega) hperiod.le
      omega

/-- A call that is late by at most `2 ^ 31` periods counts no more than an `int` holds. -/
theorem count_lt {missed : ℤ} (hperiod : 0 < pinfo.period_ns)
    (hint : act_time.total ≤ pinfo.next_period.total + 2 ^ 31 * pinfo.period_ns)
    (hpassed : 0 < missed →
      pinfo.next_period.total + missed * pinfo.period_ns < act_time.total) :
    missed < 2 ^ 31 := by
  by_contra hlt
  have hlast := hpassed (by omega)
  have hmul : 2 ^ 31 * pinfo.period_ns ≤ missed * pinfo.period_ns :=
    mul_le_mul_of_nonneg_right (not_lt.mp hlt) hperiod.le
  omega

/-- **`timer_inc_period(pinfo)` with a `double`.** For every deadline and every current time in the
first sixty-eight years of the clock, and every positive period, as long as no integer of the call
overflows, the call returns. It has skipped no deadline that had not passed, and the new deadline
is not before the current time by half a microsecond. No more deadlines are counted as missed than
with times read exactly, which an `int` can count. If the period is not shorter than this half of a
microsecond, at most one is not counted, and then the new deadline has just passed. -/
theorem timer_inc_period_double (hdeadline : pinfo.next_period.Reading) (hact : act_time.Reading)
    (hperiod : 0 < pinfo.period_ns) (hlong : pinfo.period_ns ≤ 2 ^ 63 - 1000000000)
    (hint : act_time.total ≤ pinfo.next_period.total + 2 ^ 31 * pinfo.period_ns) :
    ∃ missed pinfo' exact pinfo'' n,
      (∀ fuel ≥ n, timer_inc_period Binary64 fuel act_time pinfo = some (missed, pinfo') ∧
        timer_inc_period ℚ fuel act_time pinfo = some (exact, pinfo'')) ∧
      NearlyCaughtUp pinfo act_time missed pinfo' ∧ missed ≤ exact ∧ exact < 2 ^ 31 ∧
      (477 ≤ pinfo.period_ns → exact ≤ missed + 1) ∧
      (missed = exact ∨ pinfo'.next_period.total < act_time.total) := by
  -- enough turns for the loops of both calls
  let n := (1000000000 + pinfo.period_ns).toNat +
    (act_time.total - pinfo.next_period.total).toNat + 1
  obtain ⟨⟨missed, pinfo'⟩, hx⟩ := exists_timer_inc_period_double hdeadline hact hperiod
    (by omega) (show _ < n by omega) (by omega)
  obtain ⟨⟨exact, pinfo''⟩, hy⟩ := exists_timer_inc_period hdeadline.normalised hperiod act_time
    (show _ < n by omega) (by omega)
  have hnear := nearlyCaughtUp_of_timer_inc_period hdeadline hact hperiod (by omega) hx
  have hexact := caughtUp_of_timer_inc_period hdeadline.normalised hperiod hy
  obtain ⟨hle, hone, hpassed⟩ := hnear.exact hexact hperiod
  exact ⟨missed, pinfo', exact, pinfo'', n,
    fun fuel hfuel => ⟨timer_inc_period_mono hx hfuel, timer_inc_period_mono hy hfuel⟩,
    hnear, hle, count_lt hperiod hint hexact.minimal, hone, hpassed⟩

/-- A thread that is two periods and a half late, in the sixty-fourth year of the clock. -/
theorem timer_inc_period_double_late :
    ∃ missed pinfo' exact pinfo'' n,
      (∀ fuel ≥ n, timer_inc_period Binary64 fuel ⟨2000000000, 2500000⟩
          ⟨⟨2000000000, 0⟩, 1000000⟩ = some (missed, pinfo') ∧
        timer_inc_period ℚ fuel ⟨2000000000, 2500000⟩ ⟨⟨2000000000, 0⟩, 1000000⟩ =
          some (exact, pinfo'')) ∧
      NearlyCaughtUp ⟨⟨2000000000, 0⟩, 1000000⟩ ⟨2000000000, 2500000⟩ missed pinfo' ∧
      missed ≤ exact ∧ exact < 2 ^ 31 ∧ ((477 : ℤ) ≤ 1000000 → exact ≤ missed + 1) ∧
      (missed = exact ∨ pinfo'.next_period.total < (⟨2000000000, 2500000⟩ : timespec).total) :=
  timer_inc_period_double ⟨by decide, by decide, by decide⟩ ⟨by decide, by decide, by decide⟩
    (by decide) (by decide) (by decide)

/-- A deadline that passed a nanosecond ago may not be counted. -/
example : timer_inc_period Binary64 2 ⟨2000000000, 100000001⟩ ⟨⟨2000000000, 99000000⟩, 1000000⟩ =
    some (0, ⟨⟨2000000000, 100000000⟩, 1000000⟩) := by
  decide +kernel

end Call

/-! ## Cycle after cycle -/

/-- What a periodic thread finds in a cycle. -/
structure Cycle where
  /-- The clock reading of `timer_inc_period(pinfo)`. -/
  act_time : timespec
  fuel : ℕ
  clock_nanosleep : timespec → SleepError
  /-- The time, in nanoseconds, when `timer_wait_rest_of_period()` returns. -/
  wake : ℤ

/-- A thread that calls `timer_inc_period(pinfo)` and `timer_wait_rest_of_period()`. -/
structure PeriodicThread where
  pinfo : period_info
  /-- The time, in nanoseconds, up to which the thread has come. -/
  clock : ℤ
  cycles : ℤ
  /-- The sum of what `timer_inc_period(pinfo)` has returned. -/
  missed : ℤ
  /-- How many sleeps in a row have failed, the last one among them. -/
  failed : ℤ
  deriving DecidableEq

namespace PeriodicThread

/-- After `timer_periodic_init`, with the clock reading `now`. -/
def start (period_ns : ℤ) (now : timespec) : PeriodicThread where
  pinfo := timer_periodic_init period_ns now
  clock := now.total
  cycles := 0
  missed := 0
  failed := 0

/-- One cycle. The clock does not go back, and a `clock_nanosleep()` that slept does not return
before its deadline. -/
def step (t : PeriodicThread) (c : Cycle) : Option PeriodicThread :=
  if t.clock ≤ c.act_time.total then
    (timer_inc_period Binary64 c.fuel c.act_time t.pinfo).bind fun (missed, pinfo) =>
      let err := (timer_wait_rest_of_period c.clock_nanosleep pinfo.next_period).1
      if c.act_time.total ≤ c.wake ∧ (err = .other 0 → pinfo.next_period.total ≤ c.wake) then
        some
          { pinfo
            clock := c.wake
            cycles := t.cycles + 1
            -- `timer_inc_period(pinfo)` returns a `uint32_t`
            missed := t.missed + missed % 2 ^ 32
            failed := if err = .other 0 then 0 else t.failed + 1 }
      else none
  else none

/-- The thread begins the cycle in the first sixty-eight years of the clock, with its deadline in
them too, and is not later than an `int` can count. -/
structure Fits (t : PeriodicThread) (c : Cycle) : Prop where
  deadline : t.pinfo.next_period.tv_sec < 2 ^ 31
  act_time : c.act_time.Reading
  int : c.act_time.total ≤ t.pinfo.next_period.total + 2 ^ 31 * t.pinfo.period_ns

/-- The deadline is one of the schedule, and all deadlines up to it are accounted for. The thread
has waited for it, except where sleeps have failed. -/
structure OnSchedule (period_ns : ℤ) (now : timespec) (t : PeriodicThread) : Prop where
  normalised : t.pinfo.next_period.Normalised
  period : t.pinfo.period_ns = period_ns
  cycles_nonneg : 0 ≤ t.cycles
  missed_nonneg : 0 ≤ t.missed
  failed_nonneg : 0 ≤ t.failed
  total : t.pinfo.next_period.total = now.total + (t.cycles + t.missed) * period_ns
  waited : t.pinfo.next_period.total ≤ t.clock + t.failed * period_ns

variable {period_ns : ℤ} {now : timespec} {t t' : PeriodicThread} {c : Cycle}

theorem onSchedule_start (hnow : now.Reading) : OnSchedule period_ns now (start period_ns now) where
  normalised := hnow.normalised
  period := rfl
  cycles_nonneg := le_rfl
  missed_nonneg := le_rfl
  failed_nonneg := le_rfl
  total := by simp [start, timer_periodic_init]
  waited := by simp [start, timer_periodic_init]

/-- The deadlines of the schedule are not before the start of the clock. -/
theorem OnSchedule.reading (h : OnSchedule period_ns now t) (hnow : now.Reading)
    (hperiod : 0 < period_ns) (hfits : t.Fits c) : t.pinfo.next_period.Reading := by
  obtain ⟨hnonneg, -⟩ := hnow.total_bounds
  have hperiods : 0 ≤ (t.cycles + t.missed) * period_ns :=
    mul_nonneg (add_nonneg h.cycles_nonneg h.missed_nonneg) hperiod.le
  have htotal := h.total
  obtain ⟨hnsec, hnsec'⟩ := h.normalised
  simp only [timespec.total] at htotal hnonneg
  exact ⟨h.normalised, by omega, hfits.deadline⟩

/-- What the call of a cycle counts fits an `int`, so that the `uint32_t` is the same number. -/
theorem Fits.count {missed : ℤ} {pinfo : period_info} (hfits : t.Fits c)
    (hperiod : 0 < t.pinfo.period_ns) (hnear : NearlyCaughtUp t.pinfo c.act_time missed pinfo) :
    missed % 2 ^ 32 = missed := by
  have hlt := count_lt hperiod hfits.int hnear.passed
  exact Int.emod_eq_of_lt hnear.nonneg (by omega)

/-- A cycle moves the deadline to the next one of the schedule that has not passed, or nearly so. -/
theorem OnSchedule.step (h : OnSchedule period_ns now t) (hnow : now.Reading)
    (hperiod : 0 < period_ns) (hlong : period_ns ≤ 2 ^ 63 - 1000000000) (hfits : t.Fits c)
    (hstep : t.step c = some t') :
    OnSchedule period_ns now t' ∧ c.act_time.total ≤ t'.pinfo.next_period.total + 477 ∧
      t'.pinfo.next_period.total ≤ c.act_time.total + (t.failed + 1) * period_ns := by
  simp only [PeriodicThread.step] at hstep
  split_ifs at hstep with hclock
  obtain ⟨⟨missed, pinfo⟩, hinc, hwait⟩ := Option.bind_eq_some_iff.mp hstep
  obtain ⟨⟨hact, hslept⟩, hnext⟩ := Option.ite_none_right_eq_some.mp hwait
  obtain rfl := Option.some.inj hnext
  obtain rfl := h.period
  have hreading := h.reading hnow hperiod hfits
  have hnear : NearlyCaughtUp t.pinfo c.act_time missed pinfo :=
    nearlyCaughtUp_of_timer_inc_period hreading hfits.act_time hperiod (by omega) hinc
  have hnonneg := hnear.nonneg
  have htotal := hnear.total
  have hwaited := h.waited
  have hfailed : 0 ≤ t.failed * t.pinfo.period_ns := mul_nonneg h.failed_nonneg hperiod.le
  have hmove : (missed + 1) * t.pinfo.period_ns =
      missed * t.pinfo.period_ns + t.pinfo.period_ns := by ring
  have hmore : (t.failed + 1) * t.pinfo.period_ns =
      t.failed * t.pinfo.period_ns + t.pinfo.period_ns := by ring
  -- a deadline that was skipped had passed, and the thread was ahead of the others before
  have hahead : pinfo.next_period.total ≤
      c.act_time.total + (t.failed + 1) * t.pinfo.period_ns := by
    rcases hnonneg.eq_or_lt with hzero | hpos
    · have hnone : missed * t.pinfo.period_ns = 0 := by rw [← hzero, zero_mul]
      omega
    · have := hnear.passed hpos
      omega
  simp only [hfits.count hperiod hnear]
  refine ⟨⟨hnear.normalised, hnear.period, ?_, ?_, ?_, ?_, ?_⟩, hnear.not_early, hahead⟩
  · exact add_nonneg h.cycles_nonneg zero_le_one
  · exact add_nonneg h.missed_nonneg hnonneg
  · show 0 ≤ ite _ _ _
    split_ifs
    · exact le_rfl
    · exact add_nonneg h.failed_nonneg zero_le_one
  · show pinfo.next_period.total = now.total + (t.cycles + 1 + (t.missed + missed)) * _
    rw [htotal, h.total]
    ring
  · show pinfo.next_period.total ≤ c.wake + ite _ _ _ * _
    split_ifs with herr
    · rw [zero_mul, add_zero]
      exact hslept herr
    · omega

/-- **Cycles and missed deadlines make up the periods that have passed.** In every run of a thread
with a positive period in the first sixty-eight years of the clock, in which no integer overflows,
and whether its sleeps are interrupted or not: the deadline after a cycle is the one of the schedule
that its cycles and the deadlines that it missed count up to. At the clock reading of the cycle it
had not passed by half a microsecond, and was at most one period ahead, and one more for each sleep
that has failed since one that has not. The roundings of all the cycles before have left no
trace. -/
theorem periods_accounted (hnow : now.Reading) (hperiod : 0 < period_ns)
    (hlong : period_ns ≤ 2 ^ 63 - 1000000000) {cycles : List Cycle}
    (hfits : Along PeriodicThread.step Fits (start period_ns now) cycles)
    (hrun : run PeriodicThread.step (start period_ns now) cycles = some t) (hfit : t.Fits c)
    (hstep : t.step c = some t') :
    t'.pinfo.next_period.Normalised ∧ 0 ≤ t'.missed ∧
      t'.pinfo.next_period.total = now.total + (t'.cycles + t'.missed) * period_ns ∧
      c.act_time.total ≤ now.total + (t'.cycles + t'.missed) * period_ns + 477 ∧
      now.total + (t'.cycles + t'.missed) * period_ns ≤
        c.act_time.total + (t.failed + 1) * period_ns := by
  have hbefore : OnSchedule period_ns now t := by
    refine run_invariant_along (OnSchedule period_ns now) ?_ (onSchedule_start hnow) hfits hrun
    intro r c' r' hr hc' hstep'
    exact (hr.step hnow hperiod hlong hc' hstep').1
  obtain ⟨hafter, hnear, hahead⟩ := hbefore.step hnow hperiod hlong hfit hstep
  rw [hafter.total] at hnear hahead
  exact ⟨hafter.normalised, hafter.missed_nonneg, hafter.total, hnear, hahead⟩

/-- The first sleep of a thread is interrupted, and it misses three deadlines in its second
cycle. -/
theorem periods_accounted_late :
    ∃ t t', run PeriodicThread.step (start 1000000 ⟨7, 0⟩)
        [⟨⟨7, 100⟩, 5, fun _ => .EINTR, 7000000200⟩] = some t ∧
      t.step ⟨⟨7, 4500000⟩, 5, fun _ => .other 0, 7005000000⟩ = some t' ∧
      (t'.cycles, t'.missed) = (2, 3) ∧
      t'.pinfo.next_period.total =
        (⟨7, 0⟩ : timespec).total + (t'.cycles + t'.missed) * 1000000 := by
  have hrun : run PeriodicThread.step (start 1000000 ⟨7, 0⟩)
      [⟨⟨7, 100⟩, 5, fun _ => .EINTR, 7000000200⟩] =
      some ⟨⟨⟨7, 1000000⟩, 1000000⟩, 7000000200, 1, 0, 1⟩ := by
    decide +kernel
  have hstep : PeriodicThread.step ⟨⟨⟨7, 1000000⟩, 1000000⟩, 7000000200, 1, 0, 1⟩
      ⟨⟨7, 4500000⟩, 5, fun _ => .other 0, 7005000000⟩ =
      some ⟨⟨⟨7, 5000000⟩, 1000000⟩, 7005000000, 2, 3, 0⟩ := by
    decide +kernel
  refine ⟨_, _, hrun, hstep, rfl, (periods_accounted ⟨by decide, by decide, by decide⟩ (by decide)
    (by decide) ?_ hrun ⟨by decide, ⟨by decide, by decide, by decide⟩, by decide⟩ hstep).2.2.1⟩
  exact ⟨⟨by decide, ⟨by decide, by decide, by decide⟩, by decide⟩, fun _ _ => trivial⟩

end PeriodicThread

end RealtimeUtilities
