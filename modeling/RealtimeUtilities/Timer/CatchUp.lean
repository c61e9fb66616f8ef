import RealtimeUtilities.Timer.Deadline

/-!
# Catching up

A thread that is late calls `timer_inc_period(pinfo)`, which skips the deadlines that have passed
and counts them. With times read exactly, the call returns, with the first deadline of the
schedule after the old one that has not passed (`timer_inc_period_catches_up`).
-/

namespace RealtimeUtilities

/-- Read exactly, seconds compare as nanoseconds do. -/
theorem timer_to_s_lt_iff {a b : timespec} :
    (timer_to_s a : ℚ) < timer_to_s b ↔ a.total < b.total := by
  have hseconds : ∀ c : timespec, (timer_to_s c : ℚ) = (c.total : ℚ) / 1000000000 := by
    intro c
    simp only [timer_to_s, Double.add, Double.div, Double.ofRat, timespec.total]
    push_cast
    ring
  rw [hseconds, hseconds, div_lt_div_iff_of_pos_right (by norm_num), Int.cast_lt]

/-- The deadline is the first one after the old deadline that is not before `act_time`, and
`missed` counts the deadlines that were skipped. -/
structure CaughtUp (pinfo : period_info) (act_time : timespec) (missed : ℤ)
    (pinfo' : period_info) : Prop where
  normalised : pinfo'.next_period.Normalised
  period : pinfo'.period_ns = pinfo.period_ns
  nonneg : 0 ≤ missed
  total : pinfo'.next_period.total = pinfo.next_period.total + (missed + 1) * pinfo.period_ns
  not_early : act_time.total ≤ pinfo'.next_period.total
  minimal : 0 < missed → pinfo.next_period.total + missed * pinfo.period_ns < act_time.total

variable {pinfo p₁ p₂ : period_info} {act_time : timespec} {fuel : ℕ} {m₁ m₂ : ℤ}

/-- The first deadline that has not passed is not after another one. -/
theorem CaughtUp.le (h₁ : CaughtUp pinfo act_time m₁ p₁) (h₂ : CaughtUp pinfo act_time m₂ p₂)
    (hperiod : 0 < pinfo.period_ns) : m₁ ≤ m₂ := by
  by_contra hlt
  have hlate := h₁.minimal (by have := h₂.nonneg; omega)
  have hle : (m₂ + 1) * pinfo.period_ns ≤ m₁ * pinfo.period_ns :=
    mul_le_mul_of_nonneg_right (by omega) hperiod.le
  have := h₂.not_early
  have := h₂.total
  omega

/-- There is one first deadline. -/
theorem CaughtUp.unique (h₁ : CaughtUp pinfo act_time m₁ p₁) (h₂ : CaughtUp pinfo act_time m₂ p₂)
    (hperiod : 0 < pinfo.period_ns) : m₁ = m₂ ∧ p₁ = p₂ := by
  obtain rfl := le_antisymm (h₁.le h₂ hperiod) (h₂.le h₁ hperiod)
  refine ⟨rfl, ?_⟩
  obtain ⟨⟨sec₁, nsec₁⟩, period₁⟩ := p₁
  obtain ⟨⟨sec₂, nsec₂⟩, period₂⟩ := p₂
  -- a normalised time is determined by its nanoseconds
  have htotal := h₁.total.trans h₂.total.symm
  have hperiods := h₁.period.trans h₂.period.symm
  obtain ⟨hnonneg₁, hlt₁⟩ := h₁.normalised
  obtain ⟨hnonneg₂, hlt₂⟩ := h₂.normalised
  simp only [timespec.total] at htotal hnonneg₁ hlt₁ hnonneg₂ hlt₂ hperiods
  obtain rfl : sec₁ = sec₂ := by omega
  obtain rfl : nsec₁ = nsec₂ := by omega
  rw [hperiods]

/-- What the call returns is the first deadline. -/
theorem caughtUp_of_timer_inc_period {x : ℤ × period_info}
    (hnormalised : pinfo.next_period.Normalised) (hperiod : 0 < pinfo.period_ns)
    (h : timer_inc_period ℚ fuel act_time pinfo = some x) :
    CaughtUp pinfo act_time x.1 x.2 := by
  obtain ⟨hprogress, hnonneg⟩ := timer_inc_period_progress hnormalised hperiod h
  -- a deadline that was counted had passed
  have hturn : ∀ y y' : ℤ × period_info,
      Progress pinfo y ∧
        (0 < y.1 → pinfo.next_period.total + y.1 * pinfo.period_ns < act_time.total) →
      decide ((timer_to_s y.2.next_period : ℚ) < timer_to_s act_time) = true →
      catchUp fuel y = some y' →
      Progress pinfo y' ∧
        (0 < y'.1 → pinfo.next_period.total + y'.1 * pinfo.period_ns < act_time.total) := by
    rintro y y' ⟨hy, -⟩ hcond hturn
    obtain ⟨hy', hcount⟩ := hy.catchUp hperiod hturn
    have hpassed := timer_to_s_lt_iff.mp (of_decide_eq_true hcond)
    rw [hy.total, ← hcount] at hpassed
    exact ⟨hy', fun _ => hpassed⟩
  -- after the first turn none is counted
  have hfirst : ∀ y, catchUp fuel (-1, pinfo) = some y → Progress pinfo y ∧
      (0 < y.1 → pinfo.next_period.total + y.1 * pinfo.period_ns < act_time.total) := by
    intro y hy
    obtain ⟨hy', hcount⟩ := (progress_init hnormalised).catchUp hperiod hy
    exact ⟨hy', fun hpos => by simp [hcount] at hpos⟩
  obtain ⟨⟨-, hminimal⟩, hend⟩ := Loop.doWhile_invariant _ hfirst hturn h
  refine ⟨hprogress.normalised, hprogress.period, hnonneg, hprogress.total, ?_, hminimal⟩
  exact not_lt.mp fun hlt => of_decide_eq_false hend (timer_to_s_lt_iff.mpr hlt)

/-- The outer loop ends: every turn takes a period from the lateness. -/
theorem exists_timer_inc_period (hnormalised : pinfo.next_period.Normalised)
    (hperiod : 0 < pinfo.period_ns) (act_time : timespec)
    (hturn : (1000000000 + pinfo.period_ns).toNat < fuel)
    (hfuel : (act_time.total - pinfo.next_period.total).toNat < fuel) :
    ∃ x, timer_inc_period ℚ fuel act_time pinfo = some x := by
  refine Loop.exists_doWhile (Progress pinfo)
    (fun y => (act_time.total - y.2.next_period.total).toNat) ?_ fun y hy hcond => ?_
  · -- the measure is how late the deadline still is
    obtain ⟨y, hy⟩ := (progress_init hnormalised).exists_catchUp hturn
    obtain ⟨hprogress, hcount⟩ := (progress_init hnormalised).catchUp hperiod hy
    refine ⟨y, hy, hprogress, lt_of_le_of_lt (Int.toNat_le_toNat ?_) hfuel⟩
    rw [hprogress.total, hcount]
    simp only [neg_add_cancel, zero_add, one_mul]
    omega
  · obtain ⟨y', hy'⟩ := hy.exists_catchUp hturn
    obtain ⟨hprogress, hcount⟩ := hy.catchUp hperiod hy'
    have hpassed : y.2.next_period.total < act_time.total :=
      timer_to_s_lt_iff.mp (of_decide_eq_true hcond)
    have hmove : y'.2.next_period.total = y.2.next_period.total + pinfo.period_ns := by
      rw [hprogress.total, hy.total, hcount]
      ring
    refine ⟨y', hy', hprogress, ?_⟩
    show (act_time.total - y'.2.next_period.total).toNat < _
    omega

/-- **`timer_inc_period(pinfo)` catches up.** For every normalised deadline, every positive period
and every current time the loops end, with one and the same result however many turns they are
given: the deadline is moved by one period more than the count of missed deadlines, it is
normalised and not before the current time, and no fewer periods would do. -/
theorem timer_inc_period_catches_up (hnormalised : pinfo.next_period.Normalised)
    (hperiod : 0 < pinfo.period_ns) (act_time : timespec) :
    ∃ missed pinfo' n, (∀ fuel ≥ n,
        timer_inc_period ℚ fuel act_time pinfo = some (missed, pinfo')) ∧
      CaughtUp pinfo act_time missed pinfo' := by
  let n := (1000000000 + pinfo.period_ns).toNat +
    (act_time.total - pinfo.next_period.total).toNat + 1
  have hreturns : ∀ fuel ≥ n, ∃ x, timer_inc_period ℚ fuel act_time pinfo = some x ∧
      CaughtUp pinfo act_time x.1 x.2 := by
    intro fuel hfuel
    obtain ⟨x, hx⟩ := exists_timer_inc_period hnormalised hperiod act_time
      (show _ < fuel by omega) (by omega)
    exact ⟨x, hx, caughtUp_of_timer_inc_period hnormalised hperiod hx⟩
  -- all of these numbers of turns give the one first deadline
  obtain ⟨⟨missed, pinfo'⟩, -, hcaught⟩ := hreturns n le_rfl
  refine ⟨missed, pinfo', n, fun fuel hfuel => ?_, hcaught⟩
  obtain ⟨x, hx, hcaught'⟩ := hreturns fuel hfuel
  obtain ⟨rfl, rfl⟩ := hcaught.unique hcaught' hperiod
  exact hx

/-- A thread that is three and a half periods late skips three deadlines. -/
theorem timer_inc_period_catches_up_late :
    ∃ missed pinfo' n, (∀ fuel ≥ n, timer_inc_period ℚ fuel ⟨2, 400000000⟩
        (timer_periodic_init 400000000 ⟨0, 999999999⟩) = some (missed, pinfo')) ∧
      CaughtUp (timer_periodic_init 400000000 ⟨0, 999999999⟩) ⟨2, 400000000⟩ missed pinfo' :=
  timer_inc_period_catches_up (by decide) (by decide) ⟨2, 400000000⟩

end RealtimeUtilities
