import Mathlib.Tactic.Linarith
import RealtimeUtilities.CircBuffer.Basic
import RealtimeUtilities.ToMathlib.Execution

/-!
# Stamps

A `circ_buffer_stamped` pushes every element with the local time of the push, as text and as a
number. The number is the field `seconds` of the time of day, which starts again with every
minute.

## Main definitions

* `circ_buffer_stamped.push_back`: a push at a local time;
* `Stamping`: a buffer with everything that was pushed to it;
* `FollowsTime`: the stamps of the buffer follow the times of the pushes.

## Main result

* `followsTime_iff`: they do at every point of a run exactly if no push of a later minute falls on
  a second of that minute that is too early.
-/

namespace RealtimeUtilities

open Execution

/-- `boost::posix_time::ptime` in full seconds, as `second_clock` gives it. -/
structure ptime where
  /-- The date, as the number of a day. -/
  date : ℕ
  /-- The seconds since midnight. -/
  time_of_day : ℕ
  deriving DecidableEq, Repr

namespace ptime

/-- `time_of_day().seconds()`: the field after hours and minutes. -/
def seconds (t : ptime) : ℕ :=
  t.time_of_day % 60

/-- The minutes since midnight. -/
def minute (t : ptime) : ℕ :=
  t.time_of_day / 60

end ptime

/-- `circ_buffer_stamped<T>`. -/
abbrev circ_buffer_stamped (τ T : Type) :=
  circ_buffer (String × τ × T)

namespace circ_buffer_stamped

variable {τ T : Type} [Double τ]

/-- The tuple that `push_back(error)` makes at the local time `now`. What the text is made by is a
parameter. -/
def entry (to_simple_string : ptime → String) (now : ptime) (error : T) : String × τ × T :=
  (to_simple_string now, Double.ofRat now.seconds, error)

/-- `push_back(error)`, at the local time `now`. -/
def push_back (to_simple_string : ptime → String) (b : circ_buffer_stamped τ T) (now : ptime)
    (error : T) : circ_buffer_stamped τ T :=
  circ_buffer.push_back b (entry to_simple_string now error)

end circ_buffer_stamped

/-- An entry that was pushed, with the local time. -/
structure Pushed (T : Type) where
  now : ptime
  entry : String × ℚ × T

/-- The numeric stamp. -/
def Pushed.stamp {T : Type} (x : Pushed T) : ℚ :=
  x.entry.2.1

/-- A buffer with everything that was pushed to it. -/
structure Stamping (T : Type) where
  buffer : circ_buffer_stamped ℚ T
  pushed : List (Pushed T)

namespace Stamping

variable {T : Type}

/-- A new buffer. -/
def init (capacity : ℕ) : Stamping T where
  buffer := .construct capacity
  pushed := []

/-- The local time is on the day of the pushes before, and not earlier. -/
def Later (s : Stamping T) (now : ptime) : Prop :=
  ∀ x ∈ s.pushed, x.now.date = now.date ∧ x.now.time_of_day ≤ now.time_of_day

instance (s : Stamping T) (now : ptime) : Decidable (s.Later now) := by
  unfold Later
  infer_instance

/-- A push of `error` at the local time `now`. -/
def step (to_simple_string : ptime → String) (s : Stamping T) (push : ptime × T) :
    Option (Stamping T) :=
  if s.Later push.1 then
    some {
      buffer := circ_buffer_stamped.push_back to_simple_string s.buffer push.1 push.2
      pushed := s.pushed ++
        [⟨push.1, circ_buffer_stamped.entry to_simple_string push.1 push.2⟩] }
  else none

/-- The stamps in the buffer do not decrease from front to back, and of all entries that were
pushed, those of different seconds have different stamps. -/
structure FollowsTime (s : Stamping T) : Prop where
  sorted : (s.buffer.cb.items.map fun x => x.2.1).Pairwise (· ≤ ·)
  distinct : s.pushed.Pairwise fun x y => x.now ≠ y.now → x.stamp ≠ y.stamp

/-- With the entries of earlier minutes, the push falls on a later second of its minute, or on a
different one if there is no room for two entries. -/
def InTurn (s : Stamping T) (push : ptime × T) : Prop :=
  s.Later push.1 → ∀ x ∈ s.pushed, x.now.minute < push.1.minute →
    if 2 ≤ s.buffer.cb.capacity then x.now.seconds < push.1.seconds
    else x.now.seconds ≠ push.1.seconds

instance (s : Stamping T) (push : ptime × T) : Decidable (s.InTurn push) := by
  unfold InTurn
  infer_instance

/-- What the buffer holds of what was pushed, in a run that has followed time so far. -/
structure Keeps (s : Stamping T) : Prop where
  held : s.buffer.cb.items = (s.pushed.map Pushed.entry).rtake s.buffer.cb.capacity
  stamp : ∀ x ∈ s.pushed, x.stamp = x.now.seconds
  sorted : 2 ≤ s.buffer.cb.capacity → s.pushed.Pairwise fun x y => x.stamp ≤ y.stamp

variable {to_simple_string : ptime → String} {s s' : Stamping T} {push : ptime × T}

/-- Later times of one day have later minutes, or later seconds in one minute. -/
theorem seconds_le_of_minute_eq {a b : ptime} (hle : a.time_of_day ≤ b.time_of_day)
    (h : a.minute = b.minute) : a.seconds ≤ b.seconds := by
  unfold ptime.minute at h
  unfold ptime.seconds
  omega

theorem seconds_ne_of_minute_eq {a b : ptime} (hdate : a.date = b.date) (hne : a ≠ b)
    (h : a.minute = b.minute) : a.seconds ≠ b.seconds := by
  intro hseconds
  refine hne ?_
  obtain ⟨date, a⟩ := a
  obtain ⟨_, b⟩ := b
  simp only [ptime.minute, ptime.seconds] at h hseconds
  dsimp only at hdate
  rw [hdate, show a = b by omega]

/-- The buffer and the list of pushes after a push. -/
theorem step_eq_some_iff : step to_simple_string s push = some s' ↔ s.Later push.1 ∧
    s' =
      { buffer := circ_buffer_stamped.push_back to_simple_string s.buffer push.1 push.2
        pushed := s.pushed ++
          [⟨push.1, circ_buffer_stamped.entry to_simple_string push.1 push.2⟩] } := by
  rw [step]
  split_ifs with hlater
  · simp [hlater, eq_comm]
  · simp [hlater]

/-- A push goes to the end of what the buffer may hold. -/
theorem Keeps.held_step (h : Keeps s) (hs' : step to_simple_string s push = some s') :
    s'.buffer.cb.items = (s'.pushed.map Pushed.entry).rtake s'.buffer.cb.capacity := by
  obtain ⟨-, rfl⟩ := step_eq_some_iff.mp hs'
  rw [List.map_append]
  exact BoundedQueue.items_push_back_of_rtake _ h.held

/-- The stamps in the buffer. -/
theorem stamps_of_held
    (h : s.buffer.cb.items = (s.pushed.map Pushed.entry).rtake s.buffer.cb.capacity) :
    (s.buffer.cb.items.map fun x => x.2.1) =
      (s.pushed.map Pushed.stamp).rtake s.buffer.cb.capacity := by
  rw [h, List.rtake, List.rtake, List.map_drop, List.map_map, List.length_map, List.length_map]
  rfl

/-- If the stamps in a buffer with room for two do not decrease, the last push has the greatest
stamp of all. -/
theorem Keeps.stamp_le (h : Keeps s) (hs' : step to_simple_string s push = some s')
    (hroom : 2 ≤ s.buffer.cb.capacity)
    (hsorted : (s'.buffer.cb.items.map fun x => x.2.1).Pairwise (· ≤ ·)) {x : Pushed T}
    (hx : x ∈ s.pushed) : x.stamp ≤ push.1.seconds := by
  rw [stamps_of_held (h.held_step hs')] at hsorted
  obtain ⟨-, rfl⟩ := step_eq_some_iff.mp hs'
  -- the push before is still in the buffer
  obtain ⟨init, last, hpushed⟩ :=
    (List.eq_nil_or_concat s.pushed).resolve_left (List.ne_nil_of_mem hx)
  obtain ⟨n, hn⟩ := Nat.exists_eq_add_of_le' hroom
  have hlast : last.stamp ≤ push.1.seconds := by
    rw [List.concat_eq_append] at hpushed
    simp only [hpushed, List.map_append, List.map_singleton] at hsorted
    rw [show (circ_buffer_stamped.push_back to_simple_string s.buffer push.1 push.2).cb.capacity =
      n + 1 + 1 from hn, List.rtake_concat_succ, List.rtake_concat_succ] at hsorted
    exact (List.pairwise_append.mp hsorted).2.2 _ (by simp) _ (List.mem_singleton_self _)
  refine le_trans ?_ hlast
  have hpairs := h.sorted hroom
  rw [hpushed, List.concat_eq_append] at hpairs hx
  rcases List.mem_append.mp hx with hx | hx
  · exact (List.pairwise_append.mp hpairs).2.2 x hx last (List.mem_singleton_self _)
  · rw [List.mem_singleton.mp hx]

/-- A push after which the buffer follows time keeps what is known about the buffer. -/
theorem Keeps.step (h : Keeps s) (hs' : Stamping.step to_simple_string s push = some s')
    (hfollows : FollowsTime s') : Keeps s' := by
  refine ⟨h.held_step hs', ?_, fun hroom => ?_⟩
  · obtain ⟨-, rfl⟩ := step_eq_some_iff.mp hs'
    intro x hx
    rcases List.mem_append.mp hx with hx | hx
    · exact h.stamp x hx
    · rw [List.mem_singleton.mp hx]
      rfl
  · -- the new stamp is the last of a sorted buffer, and so the greatest of all
    have hle := fun x hx => h.stamp_le (x := x) hs' (by
      obtain ⟨-, rfl⟩ := step_eq_some_iff.mp hs'
      exact hroom) hfollows.sorted hx
    obtain ⟨-, rfl⟩ := step_eq_some_iff.mp hs'
    refine List.pairwise_append.mpr ⟨h.sorted hroom, List.pairwise_singleton _ _, ?_⟩
    intro x hx y hy
    rw [List.mem_singleton.mp hy]
    exact hle x hx

/-- A push in turn has the greatest stamp of all, if there is room for two entries. -/
theorem Keeps.le_of_inTurn (h : Keeps s) (hlater : s.Later push.1) (hturn : s.InTurn push)
    (hroom : 2 ≤ s.buffer.cb.capacity) {x : Pushed T} (hx : x ∈ s.pushed) :
    x.stamp ≤ push.1.seconds := by
  rw [h.stamp x hx]
  norm_cast
  have hminute : x.now.minute ≤ push.1.minute := Nat.div_le_div_right (hlater x hx).2
  rcases hminute.lt_or_eq with hlt | heq
  · have hseconds := hturn hlater x hx hlt
    rw [if_pos hroom] at hseconds
    exact hseconds.le
  · exact seconds_le_of_minute_eq (hlater x hx).2 heq

/-- A push in turn leaves the stamps in the buffer sorted. -/
theorem Keeps.sorted_of_inTurn (h : Keeps s)
    (hs' : Stamping.step to_simple_string s push = some s') (hturn : s.InTurn push) :
    (s'.buffer.cb.items.map fun x => x.2.1).Pairwise (· ≤ ·) := by
  have hlength : (s'.buffer.cb.items.map fun x => x.2.1).length ≤ s'.buffer.cb.capacity := by
    rw [List.length_map]
    exact s'.buffer.cb.length_le
  rw [stamps_of_held (h.held_step hs')] at hlength ⊢
  obtain ⟨hlater, rfl⟩ := step_eq_some_iff.mp hs'
  by_cases hroom : 2 ≤ s.buffer.cb.capacity
  · refine List.Pairwise.sublist (List.drop_sublist _ _) (List.pairwise_map.mpr ?_)
    refine List.pairwise_append.mpr ⟨h.sorted hroom, List.pairwise_singleton _ _, ?_⟩
    intro x hx y hy
    rw [List.mem_singleton.mp hy]
    exact h.le_of_inTurn hlater hturn hroom hx
  · -- there is at most one entry
    generalize List.rtake _ _ = stamps at hlength ⊢
    have hcapacity : (circ_buffer_stamped.push_back to_simple_string s.buffer push.1
      push.2).cb.capacity = s.buffer.cb.capacity := rfl
    rcases stamps with _ | ⟨x, _ | ⟨y, stamps⟩⟩
    · exact List.Pairwise.nil
    · exact List.pairwise_singleton _ _
    · simp only [List.length_cons] at hlength
      omega

/-- A push in turn has another stamp than the pushes of other seconds. -/
theorem Keeps.distinct_of_inTurn (h : Keeps s) (hlater : s.Later push.1) (hturn : s.InTurn push)
    {x : Pushed T} (hx : x ∈ s.pushed) (hne : x.now ≠ push.1) : x.stamp ≠ push.1.seconds := by
  have hseconds : x.now.seconds ≠ push.1.seconds := by
    have hminute : x.now.minute ≤ push.1.minute := Nat.div_le_div_right (hlater x hx).2
    rcases hminute.lt_or_eq with hlt | heq
    · have hseconds := hturn hlater x hx hlt
      split_ifs at hseconds
      · exact hseconds.ne
      · exact hseconds
    · exact seconds_ne_of_minute_eq (hlater x hx).1 hne heq
  rw [h.stamp x hx]
  exact fun heq => hseconds (Nat.cast_injective heq)

/-- If the stamps follow time after a push, it came in turn. -/
theorem Keeps.inTurn (h : Keeps s) (hs' : Stamping.step to_simple_string s push = some s')
    (hfollows : FollowsTime s') : s.InTurn push := by
  intro _ x hx hminute
  -- a different minute, and so a different stamp
  have hne : x.now.seconds ≠ push.1.seconds := by
    have hdistinct := hfollows.distinct
    rw [(step_eq_some_iff.mp hs').2] at hdistinct
    have hstamp := (List.pairwise_append.mp hdistinct).2.2 x hx _ (List.mem_singleton_self _)
      fun hnow => absurd (congrArg ptime.minute hnow) hminute.ne
    rw [h.stamp x hx] at hstamp
    exact fun heq => hstamp (congrArg Nat.cast heq)
  split_ifs with hroom
  · have hle := h.stamp_le hs' hroom hfollows.sorted hx
    rw [h.stamp x hx] at hle
    exact lt_of_le_of_ne (by exact_mod_cast hle) hne
  · exact hne

/-- **A push keeps the stamps in the order of time exactly if it comes in turn.** -/
theorem Keeps.followsTime_step_iff (h : Keeps s) (hfollows : FollowsTime s)
    (hs' : Stamping.step to_simple_string s push = some s') :
    FollowsTime s' ↔ s.InTurn push := by
  refine ⟨h.inTurn hs', fun hturn => ⟨h.sorted_of_inTurn hs' hturn, ?_⟩⟩
  obtain ⟨hlater, rfl⟩ := step_eq_some_iff.mp hs'
  refine List.pairwise_append.mpr ⟨hfollows.distinct, List.pairwise_singleton _ _, ?_⟩
  intro x hx y hy hne
  rw [List.mem_singleton.mp hy] at hne ⊢
  exact h.distinct_of_inTurn hlater hturn hx hne

/-- **The stamps follow time exactly as long as every push comes in turn.** For every capacity and
every sequence of pushes on one day, at local times that do not go back: at every point the stamps
in the buffer do not decrease, and pushes of different seconds have different stamps, if and only
if every push falls on a later second of its minute than the pushes of earlier minutes, or on
another one if there is no room for two entries. -/
theorem followsTime_iff (to_simple_string : ptime → String) (capacity : ℕ)
    (pushes : List (ptime × T)) :
    Along (Stamping.step to_simple_string) InTurn (init capacity) pushes ↔
      ∀ pre post s, pushes = pre ++ post →
        run (Stamping.step to_simple_string) (init capacity) pre = some s → FollowsTime s := by
  refine along_iff_prefix Keeps FollowsTime ?_ ?_ ?_ ?_ ?_
  · intro s push _ _ hnone hlater
    rw [Stamping.step, if_pos hlater] at hnone
    cases hnone
  · exact fun s push s' h _ hs' hfollows => h.step hs' hfollows
  · exact fun s push s' h hfollows hs' => h.followsTime_step_iff hfollows hs'
  · exact ⟨by simp [init, circ_buffer.construct], fun x hx => absurd hx List.not_mem_nil,
      fun _ => List.Pairwise.nil⟩
  · exact ⟨List.Pairwise.nil, List.Pairwise.nil⟩

/-- Two errors, one in the last second of a minute and one in the first of the next. -/
theorem stamp_of_next_minute :
    let pushes : List (ptime × Unit) := [(⟨1, 36059⟩, ()), (⟨1, 36060⟩, ())]
    ∃ s, run (Stamping.step fun _ => "") (init 8) pushes = some s ∧
      (s.buffer.cb.items.map fun x => x.2.1) = [59, 0] ∧ ¬ FollowsTime s := by
  have hstamps : ∀ s, run (Stamping.step fun _ => "") (init 8)
      [((⟨1, 36059⟩ : ptime), ()), (⟨1, 36060⟩, ())] = some s →
      (s.buffer.cb.items.map fun x => x.2.1) = [59, 0] := by
    rintro s hs
    obtain rfl := Option.some.inj hs
    rfl
  refine ⟨_, rfl, hstamps _ rfl, fun h => ?_⟩
  have hsorted := h.sorted
  rw [hstamps _ rfl] at hsorted
  norm_num at hsorted

end Stamping

end RealtimeUtilities
