import RealtimeUtilities.Timer.Deadline
import RealtimeUtilities.ToMathlib.Execution

/-!
# Sequences of calls on one deadline

A thread moves its deadline on with `timer_add()` and the two `timer_inc_period()`, in any order.
`deadlines_valid_iff` says in which sequences the deadline stays normalised: in those in which
every addend carries (`timespec.Carries`). `timer_inc_period(pinfo)`, which tests for a full
second with `>=`, does no harm.
-/

namespace RealtimeUtilities

open Execution

/-- A call that moves a deadline on, with its clock reading. -/
inductive TimerCall where
  | timer_add (addtime : ℤ)
  | timer_inc_period (act_time : timespec) (fuel : ℕ)
  | timer_inc_period_offset (offest_time_ns : ℤ)
  deriving DecidableEq, Repr

/-- The deadline after a call. -/
def period_info.step (τ : Type) [Double τ] [DoubleToInt τ] (pinfo : period_info) :
    TimerCall → Option period_info
  | .timer_add addtime => some { pinfo with next_period := timer_add pinfo.next_period addtime }
  | .timer_inc_period act_time fuel => (timer_inc_period τ fuel act_time pinfo).map Prod.snd
  | .timer_inc_period_offset offest_time_ns =>
      some (timer_inc_period_offset τ pinfo offest_time_ns).2

/-- What the call adds to the deadline in one piece carries. -/
def AddendCarries (pinfo : period_info) : TimerCall → Prop
  | .timer_add addtime => pinfo.next_period.Carries addtime
  | .timer_inc_period _ _ => True
  | .timer_inc_period_offset offest_time_ns =>
      pinfo.next_period.Carries (pinfo.period_ns + offest_time_ns)

instance (pinfo : period_info) (call : TimerCall) : Decidable (AddendCarries pinfo call) := by
  cases call <;> unfold AddendCarries <;> infer_instance

/-- In every state of the sequence the deadline is normalised, so that `clock_nanosleep()`, which
refuses a time with `EINVAL` only if it is not normalised or negative, does not refuse it, and
every `timer_add()` moves the deadline by its addend. -/
structure DeadlinesValid (τ : Type) [Double τ] [DoubleToInt τ] (pinfo : period_info)
    (calls : List TimerCall) : Prop where
  normalised : ∀ pre post t, calls = pre ++ post → run (period_info.step τ) pinfo pre = some t →
    t.next_period.Normalised
  sleeps : ∀ clock_nanosleep : timespec → SleepError,
    (∀ ts, clock_nanosleep ts = .EINVAL → ¬ ts.Normalised ∨ ts.tv_sec < 0) →
    ∀ pre post t, calls = pre ++ post → run (period_info.step τ) pinfo pre = some t →
      0 ≤ t.next_period.tv_sec →
      (timer_wait_rest_of_period clock_nanosleep t.next_period).1 ≠ .EINVAL
  moves : ∀ pre addtime post t, calls = pre ++ .timer_add addtime :: post →
    run (period_info.step τ) pinfo pre = some t →
    ∃ t', t.step τ (.timer_add addtime) = some t' ∧
      t'.next_period.total = t.next_period.total + addtime

/-- The error number is that of `clock_nanosleep()`. -/
theorem timer_wait_rest_of_period_fst (clock_nanosleep : timespec → SleepError) (ts : timespec) :
    (timer_wait_rest_of_period clock_nanosleep ts).1 = clock_nanosleep ts := by
  unfold timer_wait_rest_of_period
  cases clock_nanosleep ts <;> rfl

variable {τ : Type} [Double τ] [DoubleToInt τ] {pinfo pinfo' : period_info} {call : TimerCall}

/-- `timer_inc_period(pinfo)` keeps the normal form, another call exactly if its addend carries,
and no call changes the period. -/
theorem normalised_step_iff (hperiod : 0 < pinfo.period_ns)
    (hnormalised : pinfo.next_period.Normalised) (h : pinfo.step τ call = some pinfo') :
    (pinfo'.next_period.Normalised ↔ AddendCarries pinfo call) ∧
      pinfo'.period_ns = pinfo.period_ns := by
  cases call with
  | timer_add addtime =>
    obtain rfl := Option.some.inj h
    exact ⟨normalised_timer_add_iff hnormalised addtime, rfl⟩
  | timer_inc_period act_time fuel =>
    obtain ⟨x, hx, rfl⟩ := Option.map_eq_some_iff.mp h
    obtain ⟨hprogress, -⟩ := timer_inc_period_progress hnormalised hperiod hx
    exact ⟨iff_of_true hprogress.normalised trivial, hprogress.period⟩
  | timer_inc_period_offset offest_time_ns =>
    obtain rfl := Option.some.inj h
    exact ⟨normalised_timer_add_iff hnormalised _, rfl⟩

/-- Every state of the sequence is normalised exactly as long as the addends carry. -/
theorem normalised_run_iff (hnormalised : pinfo.next_period.Normalised)
    (hperiod : 0 < pinfo.period_ns) (calls : List TimerCall) :
    Along (period_info.step τ) AddendCarries pinfo calls ↔ ∀ pre post t, calls = pre ++ post →
      run (period_info.step τ) pinfo pre = some t → t.next_period.Normalised := by
  refine along_iff_prefix (fun t : period_info => 0 < t.period_ns)
    (fun t : period_info => t.next_period.Normalised) ?_ ?_ ?_
    hperiod hnormalised
  · rintro t (_ | _ | _) - - hnone
    -- only the loops can be short of turns
    · cases hnone
    · trivial
    · cases hnone
  · -- no call changes the period
    exact fun t call t' ht hn ht' _ => (normalised_step_iff ht hn ht').2 ▸ ht
  · exact fun t call t' ht hn ht' => (normalised_step_iff ht hn ht').1

/-- **The deadlines stay valid exactly as long as the addends carry.** For every normalised
deadline, every positive period and every sequence of calls: the deadline is normalised in every
state, and every `timer_add()` moves it by its addend, if and only if no `timer_add()` and no
`timer_inc_period(pinfo, offest_time_ns)` makes the nanoseconds negative or exactly one second. -/
theorem deadlines_valid_iff (hnormalised : pinfo.next_period.Normalised)
    (hperiod : 0 < pinfo.period_ns) (calls : List TimerCall) :
    DeadlinesValid τ pinfo calls ↔ Along (period_info.step τ) AddendCarries pinfo calls := by
  rw [normalised_run_iff hnormalised hperiod]
  constructor
  · exact DeadlinesValid.normalised
  · intro h
    refine ⟨h, ?_, fun pre addtime post t _ _ => ⟨_, rfl, total_timer_add _ _⟩⟩
    intro clock_nanosleep hsleep pre post t hcalls ht hsec
    rw [timer_wait_rest_of_period_fst]
    intro hinval
    -- the two times that are refused do not occur
    rcases hsleep _ hinval with hnot | hneg
    · exact hnot (h pre post t hcalls ht)
    · exact absurd hneg (not_lt.mpr hsec)

/-- A deadline of the first half of a second, moved on by four tenths and back by one. -/
theorem deadlines_valid_iff_tenths :
    DeadlinesValid ℚ (timer_periodic_init 1000000 ⟨7, 500000000⟩)
      [.timer_add 400000000, .timer_add (-100000000)] :=
  (deadlines_valid_iff (by decide) (by decide) _).mpr (by decide)

/-- One nanosecond before a full second, one nanosecond is added. -/
theorem timer_add_full_second :
    ∃ t, run (period_info.step ℚ) (timer_periodic_init 1000000 ⟨7, 999999999⟩)
        [.timer_add 1] = some t ∧ t.next_period = ⟨7, 1000000000⟩ ∧
      ¬ DeadlinesValid ℚ (timer_periodic_init 1000000 ⟨7, 999999999⟩) [.timer_add 1] := by
  refine ⟨_, rfl, by decide, fun h => ?_⟩
  exact absurd (h.normalised [.timer_add 1] [] _ rfl rfl) (by decide)

end RealtimeUtilities
