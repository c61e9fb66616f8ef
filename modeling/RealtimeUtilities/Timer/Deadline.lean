import Mathlib.Tactic.Linarith
import RealtimeUtilities.Timer.Basic
import RealtimeUtilities.ToMathlib.Loop

/-!
# Deadlines

The deadline of a periodic thread is a `timespec` that `timer_inc_period()` and `timer_add()`
move on, and that `timer_wait_rest_of_period()` hands to `clock_nanosleep()`.

The signed integers of the code are integers here: where one of them overflows, the code is
undefined. The reading of `CLOCK_MONOTONIC` is an argument.

## Main definitions

* `period_info`, `timer_add`, `timer_inc_period` with its two overloads, and
  `timer_wait_rest_of_period`;
* `timespec.Normalised` and `timespec.total`, the time in nanoseconds.

## Main results

* `total_timer_add`: `timer_add()` moves the time by its addend;
* `normalised_timer_add_iff`: when it leaves a normalised time normalised;
* `timer_inc_period_progress`: `timer_inc_period(pinfo)` keeps the phase and the normal form.
-/

namespace RealtimeUtilities

/-- `struct period_info`. -/
structure period_info where
  next_period : timespec
  period_ns : ℤ
  deriving DecidableEq, Repr

/-- `timer_periodic_init`, with the clock reading `now`. -/
def timer_periodic_init (period_ns : ℤ) (now : timespec) : period_info where
  next_period := now
  period_ns := period_ns

/-- `timer_add`. The remainder and the quotient of C round towards zero. -/
def timer_add (ts : timespec) (addtime : ℤ) : timespec :=
  let nsec := addtime.tmod 1000000000
  let sec := (addtime - nsec).tdiv 1000000000
  let tv_sec := ts.tv_sec + sec
  let tv_nsec := ts.tv_nsec + nsec
  -- a sum of exactly one second, or one below zero, is left as it is
  if tv_nsec > 1000000000 then
    let nsec := tv_nsec.tmod 1000000000
    { tv_sec := tv_sec + (tv_nsec - nsec).tdiv 1000000000, tv_nsec := nsec }
  else { tv_sec := tv_sec, tv_nsec := tv_nsec }

/-- `timer_difference_s`. -/
def timer_difference_s {τ : Type} [Double τ] (timeA_p timeB_p : timespec) : τ :=
  let ret : τ :=
    Double.div (Double.ofRat (timeA_p.tv_nsec - timeB_p.tv_nsec)) (Double.ofRat 1000000000)
  Double.add ret (Double.ofRat (timeA_p.tv_sec - timeB_p.tv_sec))

/-- The inner loop of `timer_inc_period`: the overflow of the nanoseconds. -/
def carry (fuel : ℕ) (ts : timespec) : Option timespec :=
  Loop.whileDo (fun ts => 1000000000 ≤ ts.tv_nsec)
    (fun ts => some { tv_sec := ts.tv_sec + 1, tv_nsec := ts.tv_nsec - 1000000000 }) fuel ts

/-- One turn of the outer loop of `timer_inc_period`, on `missed_deadlines` and `*pinfo`. -/
def catchUp (fuel : ℕ) (x : ℤ × period_info) : Option (ℤ × period_info) :=
  let missed_deadlines := x.1 + 1
  let next_period := { x.2.next_period with tv_nsec := x.2.next_period.tv_nsec + x.2.period_ns }
  (carry fuel next_period).map fun next_period =>
    (missed_deadlines, { x.2 with next_period := next_period })

/-- `timer_inc_period(pinfo)`, with the clock reading `act_time`: `missed_deadlines` and `*pinfo`
after the call. The `int` is an integer here, and the conversion to `uint32_t` is left to the
caller: it keeps a count that an `int` can hold, and what the code returns beyond that is undefined.
Neither loop takes more than `fuel` turns. -/
def timer_inc_period (τ : Type) [Double τ] (fuel : ℕ) (act_time : timespec)
    (pinfo : period_info) : Option (ℤ × period_info) :=
  let at_ : τ :=
    Double.add (Double.ofRat act_time.tv_sec)
      (Double.div (Double.ofRat act_time.tv_nsec) (Double.ofRat 1000000000))
  -- the loop compares `double`s, also when it has just added to the integers
  let nt (x : ℤ × period_info) : τ :=
    Double.add (Double.ofRat x.2.next_period.tv_sec)
      (Double.div (Double.ofRat x.2.next_period.tv_nsec) (Double.ofRat 1000000000))
  Loop.doWhile (catchUp fuel) (fun x => Double.lt (nt x) at_) fuel (-1, pinfo)

/-- `timer_inc_period(pinfo, offest_time_ns)`: the return value and `*pinfo` after the call. -/
def timer_inc_period_offset (τ : Type) [Double τ] [DoubleToInt τ] (pinfo : period_info)
    (offest_time_ns : ℤ) : ℤ × period_info :=
  let before := pinfo.next_period
  let next_period := timer_add pinfo.next_period (pinfo.period_ns + offest_time_ns)
  let d : τ := timer_difference_s before next_period
  let ret :=
    if Double.lt (Double.ofRat 0) d then
      -- `uint64_t` divided by `long` is a division of `uint64_t`, and the result is `uint32_t`
      DoubleToInt.toInt (Double.mul d (Double.ofRat 1000000000)) / (pinfo.period_ns % 2 ^ 64) %
        2 ^ 32
    else 0
  (ret, { pinfo with next_period := next_period })

/-- What `clock_nanosleep()` returns: an error number, `0` if it slept. -/
inductive SleepError where
  | EFAULT
  | EINTR
  | EINVAL
  | ENOTSUP
  | other (err : ℤ)
  deriving DecidableEq, Repr

/-- `timer_wait_rest_of_period`: the error number, and what it printed. -/
def timer_wait_rest_of_period (clock_nanosleep : timespec → SleepError) (ts : timespec) :
    SleepError × List String :=
  let err := clock_nanosleep ts
  match err with
  | .EFAULT => (err, ["request or remain specified an invalid address.\n"])
  | .EINTR => (err, ["The sleep was interrupted by a signal handler; see signal(7)\n"])
  | .EINVAL =>
      (err, ["The value in the tv_nsec field was not in the range 0 to 999999999 or tv_sec " ++
        "was negative.\n"])
  | .ENOTSUP =>
      (err, ["clock_id was invalid.  (CLOCK_THREAD_CPUTIME_ID is not a supported"])
  | .other _ => (err, [])

namespace timespec

/-- What `clock_nanosleep()` asks of `tv_nsec`. -/
def Normalised (ts : timespec) : Prop :=
  0 ≤ ts.tv_nsec ∧ ts.tv_nsec < 1000000000

instance (ts : timespec) : Decidable ts.Normalised := by
  unfold Normalised
  infer_instance

/-- The time in nanoseconds. -/
def total (ts : timespec) : ℤ :=
  ts.tv_sec * 1000000000 + ts.tv_nsec

/-- The nanoseconds of `addtime` neither borrow from the seconds of `ts` nor fill one exactly. -/
def Carries (ts : timespec) (addtime : ℤ) : Prop :=
  0 ≤ ts.tv_nsec + addtime.tmod 1000000000 ∧ ts.tv_nsec + addtime.tmod 1000000000 ≠ 1000000000

instance (ts : timespec) (addtime : ℤ) : Decidable (ts.Carries addtime) := by
  unfold Carries
  infer_instance

end timespec

/-! ## `timer_add` -/

/-- What the quotient and the remainder of C leave of a number of nanoseconds. -/
theorem tdiv_sub_tmod (a : ℤ) : (a - a.tmod 1000000000).tdiv 1000000000 = a.tdiv 1000000000 := by
  have hdivide : a - a.tmod 1000000000 = 1000000000 * a.tdiv 1000000000 := by
    have := Int.tmod_add_mul_tdiv a 1000000000
    omega
  rw [hdivide, Int.mul_tdiv_cancel_left _ (by decide)]

/-- `timer_add()` moves the time by its addend, whatever the time and the addend are. -/
theorem total_timer_add (ts : timespec) (addtime : ℤ) :
    (timer_add ts addtime).total = ts.total + addtime := by
  have hadd := Int.tmod_add_mul_tdiv addtime 1000000000
  have hcarry :=
    Int.tmod_add_mul_tdiv (ts.tv_nsec + addtime.tmod 1000000000) 1000000000
  simp only [timer_add, tdiv_sub_tmod]
  -- quotient and remainder make up the addend, and the carry makes up the sum
  split_ifs
  · simp only [timespec.total]
    omega
  · simp only [timespec.total]
    omega

/-- `timer_add()` leaves a normalised time normalised unless the nanoseconds become negative or
exactly one second. -/
theorem normalised_timer_add_iff {ts : timespec} (h : ts.Normalised) (addtime : ℤ) :
    (timer_add ts addtime).Normalised ↔ ts.Carries addtime := by
  obtain ⟨hnonneg, hlt⟩ := h
  have hlower := Int.lt_tmod_of_pos addtime (show (0 : ℤ) < 1000000000 by decide)
  have hupper := Int.tmod_lt_of_pos addtime (show (0 : ℤ) < 1000000000 by decide)
  unfold timespec.Carries
  simp only [timer_add]
  split_ifs with hcarry
  · -- the carry takes the remainder of a positive number
    have hpos : 0 ≤ (ts.tv_nsec + addtime.tmod 1000000000).tmod 1000000000 :=
      Int.tmod_nonneg _ (by omega)
    have hrest := Int.tmod_lt_of_pos (ts.tv_nsec + addtime.tmod 1000000000)
      (show (0 : ℤ) < 1000000000 by decide)
    exact iff_of_true ⟨hpos, hrest⟩ ⟨by omega, by omega⟩
  · -- without a carry the sum is left as it is
    simp only [timespec.Normalised]
    omega

/-! ## `timer_inc_period` -/

/-- The inner loop normalises a time that is not before its own second, and does not change it. -/
theorem carry_spec {fuel : ℕ} {ts ts' : timespec} (hnonneg : 0 ≤ ts.tv_nsec)
    (h : carry fuel ts = some ts') : ts'.Normalised ∧ ts'.total = ts.total := by
  -- a turn moves a second from the nanoseconds to the seconds
  have hbody : ∀ s s' : timespec, (0 ≤ s.tv_nsec ∧ s.total = ts.total) →
      decide (1000000000 ≤ s.tv_nsec) = true →
      some { tv_sec := s.tv_sec + 1, tv_nsec := s.tv_nsec - 1000000000 } = some s' →
      0 ≤ s'.tv_nsec ∧ s'.total = ts.total := by
    rintro s s' ⟨-, htotal⟩ hcond hs'
    obtain rfl := Option.some.inj hs'
    have hle := of_decide_eq_true hcond
    refine ⟨by simpa using hle, ?_⟩
    rw [← htotal]
    simp only [timespec.total]
    omega
  obtain ⟨⟨hnonneg', htotal⟩, hend⟩ :=
    Loop.whileDo_invariant (fun s => 0 ≤ s.tv_nsec ∧ s.total = ts.total) hbody ⟨hnonneg, rfl⟩ h
  exact ⟨⟨hnonneg', not_le.mp (of_decide_eq_false hend)⟩, htotal⟩

/-- The inner loop ends: every turn takes a second from the nanoseconds. -/
theorem exists_carry {fuel : ℕ} {ts : timespec} (hfuel : ts.tv_nsec.toNat < fuel) :
    ∃ ts', carry fuel ts = some ts' := by
  refine Loop.exists_whileDo (fun _ => True) (fun ts => ts.tv_nsec.toNat) ?_ trivial hfuel
  intro s _ hcond
  have hle := of_decide_eq_true hcond
  refine ⟨_, rfl, trivial, ?_⟩
  show (s.tv_nsec - 1000000000).toNat < s.tv_nsec.toNat
  omega

/-- `x` is what the outer loop makes of `pinfo` in `x.1 + 1` turns. -/
structure Progress (pinfo : period_info) (x : ℤ × period_info) : Prop where
  normalised : x.2.next_period.Normalised
  period : x.2.period_ns = pinfo.period_ns
  total : x.2.next_period.total = pinfo.next_period.total + (x.1 + 1) * pinfo.period_ns

variable {fuel : ℕ} {pinfo : period_info} {x x' : ℤ × period_info}

/-- Before the first turn `missed_deadlines` is `-1`. -/
theorem progress_init (hnormalised : pinfo.next_period.Normalised) :
    Progress pinfo (-1, pinfo) where
  normalised := hnormalised
  period := rfl
  total := by simp

/-- One turn moves the deadline by a period and counts it. -/
theorem Progress.catchUp (h : Progress pinfo x) (hperiod : 0 < pinfo.period_ns)
    (hturn : catchUp fuel x = some x') : Progress pinfo x' ∧ x'.1 = x.1 + 1 := by
  obtain ⟨ts, hcarry, rfl⟩ := Option.map_eq_some_iff.mp hturn
  have hnonneg := h.normalised.1
  rw [h.period] at hcarry
  obtain ⟨hnormalised, htotal⟩ := carry_spec (by show 0 ≤ _ + _; omega) hcarry
  refine ⟨⟨hnormalised, h.period, ?_⟩, rfl⟩
  calc ts.total = x.2.next_period.total + pinfo.period_ns := by
        rw [htotal, timespec.total, timespec.total]
        ring
    _ = pinfo.next_period.total + (x.1 + 1 + 1) * pinfo.period_ns := by
        rw [h.total]
        ring

/-- A turn ends. -/
theorem Progress.exists_catchUp (h : Progress pinfo x)
    (hfuel : (1000000000 + pinfo.period_ns).toNat < fuel) :
    ∃ x', RealtimeUtilities.catchUp fuel x = some x' := by
  have hlt := h.normalised.2
  have hnsec : (x.2.next_period.tv_nsec + x.2.period_ns).toNat < fuel := by
    rw [h.period]
    omega
  obtain ⟨ts, hts⟩ : ∃ ts, carry fuel { x.2.next_period with
      tv_nsec := x.2.next_period.tv_nsec + x.2.period_ns } = some ts := exists_carry hnsec
  exact ⟨_, Option.map_eq_some_iff.mpr ⟨ts, hts, rfl⟩⟩

/-- `timer_inc_period(pinfo)` moves the deadline by one period more than it counts as missed, and
leaves it normalised, whatever the `double` comparisons of its loop say. -/
theorem timer_inc_period_progress {τ : Type} [Double τ] {act_time : timespec}
    (hnormalised : pinfo.next_period.Normalised) (hperiod : 0 < pinfo.period_ns)
    (h : timer_inc_period τ fuel act_time pinfo = some x) : Progress pinfo x ∧ 0 ≤ x.1 := by
  refine (Loop.doWhile_invariant (fun x => Progress pinfo x ∧ 0 ≤ x.1) ?_ ?_ h).1
  · -- the first turn counts up to zero
    intro t ht
    obtain ⟨hprogress, hcount⟩ := (progress_init hnormalised).catchUp hperiod ht
    exact ⟨hprogress, by simp [hcount]⟩
  · rintro s s' ⟨hs, hnonneg⟩ - hs'
    obtain ⟨hprogress, hcount⟩ := hs.catchUp hperiod hs'
    exact ⟨hprogress, by omega⟩

end RealtimeUtilities
