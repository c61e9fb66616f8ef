import Mathlib.Algebra.Order.Archimedean.Basic
import RealtimeUtilities.IPC.Watchdog

/-!
# Which stall verdicts are justified

A server whose client has stopped writing finds the same stamp again and again. It takes the
clock reading of the first time for the beginning of the stall, `start_watchdog_time_`, and
returns `WATCHDOG` when that is too long ago.

Only acceptable data resets `start_watchdog_time_`. Data that comes too late, or exactly at a
threshold, a `flush()` that finds the bond broken, and a bond that is broken and made again
between two calls of `flush()` end the stall, too. They leave the timer running, so that a later
stall is taken for a longer one.

## Main definitions

* `Stretch`: a server with what has happened to it, whatever packets its calls of `flush()` see;
* `IdleSince`: the flushes from some call on were bonded, without new data, in one bond;
* `VerdictsJustified`: a stall verdict of the next `flush()` has such a stall behind it;
* `Timed`: after the event no timer runs that was started before the current stall.

## Main result

* `verdictsJustified_iff`: the one holds at every point of a run exactly if the other holds along
  it.
-/

namespace RealtimeUtilities

open DataPacket Execution

/-- Something that happened to a server. -/
inductive Mark where
  | flush (x : FlushCall)
  | breakBond

/-- A server, its last clock reading, and what has happened to it. -/
structure Stretch where
  endpoint : RealTimeIPC ℚ
  clock : ℚ
  marks : List Mark

/-- A `flush()` of the right size that sees the packet `shmem`, or somebody breaks the bond. -/
inductive StretchEvent where
  | flush (obuffer : Memory) (flush_ts : timespec) (shmem : DataPacket ℚ)
  | breakBond

namespace FlushCall

/-- It saw a bonded packet with no new data. -/
def Idle (x : FlushCall) : Prop :=
  x.Bonded ∧ x.flushed.latency_time < 1 / 100000

/-- It returned `WATCHDOG` although its stamp was not too far ahead. -/
def StallVerdict (watchdog : ℚ) (x : FlushCall) : Prop :=
  x.flushed.code = .WATCHDOG ∧ x.flushed.latency_time ≤ watchdog

end FlushCall

/-- From the call `x` on there were only idle calls of `flush()`, in one bond. -/
def IdleSince (marks : List Mark) (x : FlushCall) : Prop :=
  ∃ (pre : List Mark) (mid : List FlushCall),
    marks = pre ++ .flush x :: mid.map .flush ∧ x.Idle ∧ ∀ y ∈ mid, y.Idle

/-- One more idle call. -/
theorem IdleSince.concat {marks : List Mark} {x z : FlushCall} (h : IdleSince marks x)
    (hz : z.Idle) : IdleSince (marks ++ [.flush z]) x := by
  obtain ⟨pre, mid, rfl, hx, hmid⟩ := h
  refine ⟨pre, mid ++ [z], by simp, hx, fun y hy => ?_⟩
  rcases List.mem_append.mp hy with hy | hy
  · exact hmid y hy
  · rw [List.mem_singleton.mp hy]
    exact hz

/-- An idle call is the first one of a stall. -/
theorem idleSince_concat {marks : List Mark} {z : FlushCall} (hz : z.Idle) :
    IdleSince (marks ++ [.flush z]) z :=
  ⟨marks, [], rfl, hz, by simp⟩

/-- What happened last was an idle call. -/
theorem IdleSince.last {marks : List Mark} {m : Mark} {x : FlushCall}
    (h : IdleSince (marks ++ [m]) x) : ∃ z, m = .flush z ∧ z.Idle := by
  obtain ⟨pre, mid, hmarks, hx, hmid⟩ := h
  rcases List.concat_eq_append_cons hmarks with ⟨-, -, rfl⟩ | ⟨mid', hmid', -⟩
  · exact ⟨x, rfl, hx⟩
  · obtain ⟨init, z, rfl⟩ := (List.eq_nil_or_concat mid).resolve_left (by rintro rfl; simp at hmid')
    rw [List.concat_eq_append] at hmid' hmid
    rw [List.map_append, List.map_singleton] at hmid'
    have hz := List.singleton_inj.mp (List.append_inj' hmid' rfl).2
    exact ⟨z, hz.symm, hmid z (by simp)⟩

namespace Stretch

/-- A server that was just constructed. -/
def init (identifier : String) (watchdog : ℚ) (d : ℕ) (ndebug : Bool) : Stretch where
  endpoint := .server identifier watchdog d ndebug
  clock := 0
  marks := []

/-- The `flush()` that sees `shmem`. -/
def call (s : Stretch) (obuffer : Memory) (flush_ts : timespec) (shmem : DataPacket ℚ) :
    FlushCall where
  packet := shmem
  clock := timer_to_s flush_ts
  flushed := (s.endpoint.flushPacket obuffer flush_ts shmem).ret

/-- One event. The clock does not go back. -/
def step (s : Stretch) : StretchEvent → Option Stretch
  | .flush obuffer flush_ts shmem =>
      if s.clock ≤ timer_to_s flush_ts then
        some {
          endpoint := (s.endpoint.flushPacket obuffer flush_ts shmem).self
          clock := timer_to_s flush_ts
          marks := s.marks ++ [.flush (s.call obuffer flush_ts shmem)] }
      else none
  | .breakBond => some { s with marks := s.marks ++ [.breakBond] }

/-- The step is what an attached server does with the packet that it sees in the segment. -/
theorem step_of_observe [DoubleBytes ℚ] {s : Stretch} {d : ℕ} (h : s.endpoint.Attached d)
    (seen : ℕ → Memory) (obuffer : Memory) (time latency_time : ℚ) {flush_ts : timespec}
    (hclock : s.clock ≤ timer_to_s flush_ts) :
    ∃ self f printed,
      ((Request.flush obuffer time latency_time d flush_ts).access s.endpoint).observe seen =
        .ok ⟨.flushed f, self, printed⟩ ∧
      s.step (.flush obuffer flush_ts (view d (seen 0))) = some ⟨self, timer_to_s flush_ts,
        s.marks ++ [.flush ⟨view d (seen 0), timer_to_s flush_ts, f⟩]⟩ :=
  ⟨_, _, _, h.observe_flush seen obuffer time latency_time flush_ts, if_pos hclock⟩

/-- If the next `flush()` returns `WATCHDOG` although its stamp is not too far ahead, it ends a
stall that has lasted for longer than `watchdog_`. -/
def VerdictsJustified (s : Stretch) : Prop :=
  ∀ obuffer flush_ts shmem, s.clock ≤ timer_to_s flush_ts →
    let z := s.call obuffer flush_ts shmem
    z.StallVerdict s.endpoint.watchdog_ →
      ∃ x, IdleSince s.marks x ∧ z.Idle ∧ s.endpoint.watchdog_ < z.clock - x.clock

/-- While the timer runs, the bond is not broken, and the call of `flush()` is idle, or finds
acceptable data, which stops the timer. -/
def Timed (s : Stretch) : StretchEvent → Prop
  | .flush obuffer flush_ts shmem =>
      let z := s.call obuffer flush_ts shmem
      s.clock ≤ timer_to_s flush_ts → s.endpoint.start_watchdog_time_ ≠ -1 →
        z.Bonded ∧ (z.flushed.latency_time < 1 / 100000 ∨
          (1 / 100000 < z.flushed.latency_time ∧
            z.flushed.latency_time < s.endpoint.watchdog_))
  | .breakBond => s.endpoint.start_watchdog_time_ = -1

/-- A timer that runs was started by the first call of the current stall, or by a later one. -/
structure FollowsStall (s : Stretch) : Prop where
  server : s.endpoint.access_mode_ = .SHMEM_SERVER
  start : s.endpoint.start_watchdog_time_ ≠ -1 →
    ∃ x, IdleSince s.marks x ∧ s.endpoint.start_watchdog_time_ = x.clock

variable {s s' : Stretch} {obuffer : Memory} {flush_ts : timespec} {shmem : DataPacket ℚ}

/-- The latency of a bonded call. -/
theorem latency_call (hbond : (s.call obuffer flush_ts shmem).Bonded) :
    (s.call obuffer flush_ts shmem).flushed.latency_time =
      shmem.header_.time_ - s.endpoint.data_time_prev_ :=
  RealTimeIPC.flushPacket_latency_of_bonded hbond

/-- The timer after a bonded call. -/
theorem start_flush (hserver : s.endpoint.access_mode_ = .SHMEM_SERVER)
    (hbond : (s.call obuffer flush_ts shmem).Bonded) :
    (s.endpoint.flushPacket obuffer flush_ts shmem).self.start_watchdog_time_ =
      if (s.call obuffer flush_ts shmem).flushed.latency_time < s.endpoint.watchdog_ ∧
        1 / 100000 < (s.call obuffer flush_ts shmem).flushed.latency_time then -1
      else if (s.call obuffer flush_ts shmem).flushed.latency_time ≤ s.endpoint.watchdog_ ∧
        (s.call obuffer flush_ts shmem).flushed.latency_time < 1 / 100000 ∧
        s.endpoint.start_watchdog_time_ = -1 then timer_to_s flush_ts
      else s.endpoint.start_watchdog_time_ := by
  have hflag : shmem.header_.bond_flag_ = 1 := hbond
  rw [RealTimeIPC.flushPacket_start_of_bonded hserver hflag, RealTimeIPC.checkWatchdog_start_eq,
    latency_call hbond]

/-- The timer after a call that is not bonded. -/
theorem start_flush_of_not_bonded (hbond : ¬ (s.call obuffer flush_ts shmem).Bonded) :
    (s.endpoint.flushPacket obuffer flush_ts shmem).self.start_watchdog_time_ =
      s.endpoint.start_watchdog_time_ :=
  RealTimeIPC.flushPacket_start_of_not_bonded hbond

/-- A stall verdict is one of a timer that runs. -/
theorem stallVerdict_iff (hserver : s.endpoint.access_mode_ = .SHMEM_SERVER) :
    (s.call obuffer flush_ts shmem).StallVerdict s.endpoint.watchdog_ ↔
      (s.call obuffer flush_ts shmem).Idle ∧ (s.call obuffer flush_ts shmem).Hard ∧
        (s.call obuffer flush_ts shmem).flushed.latency_time ≤ s.endpoint.watchdog_ ∧
        s.endpoint.start_watchdog_time_ ≠ -1 ∧
        s.endpoint.watchdog_ < timer_to_s flush_ts - s.endpoint.start_watchdog_time_ := by
  have hcode : (s.call obuffer flush_ts shmem).flushed.code = .WATCHDOG ↔ _ :=
    RealTimeIPC.flushPacket_code_iff hserver
  rw [FlushCall.StallVerdict, hcode]
  constructor
  · rintro ⟨⟨hbond, hhard, hcheck⟩, hle⟩
    have hlatency : (s.call obuffer flush_ts shmem).flushed.latency_time = _ := latency_call hbond
    rw [hlatency] at hle
    obtain ⟨hidle, htimer⟩ := (RealTimeIPC.checkWatchdog_stall_iff hle).mp hcheck
    rw [FlushCall.Idle, hlatency]
    exact ⟨⟨hbond, hidle⟩, hhard, hle, htimer⟩
  · rintro ⟨⟨hbond, hidle⟩, hhard, hle, htimer⟩
    have hlatency := latency_call hbond
    rw [hlatency] at hidle hle
    rw [hlatency]
    exact ⟨⟨hbond, hhard, (RealTimeIPC.checkWatchdog_stall_iff hle).mpr ⟨hidle, htimer⟩⟩, hle⟩

/-- If the timer follows the stall, stall verdicts are justified. -/
theorem FollowsStall.verdictsJustified (h : FollowsStall s) : s.VerdictsJustified := by
  intro obuffer flush_ts shmem hclock z hverdict
  obtain ⟨hidle, -, -, hrunning, hlong⟩ := (stallVerdict_iff h.server).mp hverdict
  obtain ⟨x, hx, hstart⟩ := h.start hrunning
  refine ⟨x, hx, hidle, ?_⟩
  rw [hstart] at hlong
  exact hlong

/-- **An event that ends no stall while the timer runs keeps the timer with the stall.** -/
theorem FollowsStall.step (h : FollowsStall s) {e : StretchEvent} (htimed : s.Timed e)
    (hs' : s.step e = some s') : FollowsStall s' := by
  cases e with
  | flush obuffer flush_ts shmem =>
    rw [Stretch.step] at hs'
    split_ifs at hs' with hclock
    obtain rfl := Option.some.inj hs'
    refine ⟨RealTimeIPC.flushPacket_access_mode.trans h.server, fun hrunning => ?_⟩
    dsimp only at hrunning ⊢
    -- a timer that is let be was running before, and follows the stall if that goes on
    have hkept : s.endpoint.start_watchdog_time_ ≠ -1 →
        (s.call obuffer flush_ts shmem).Idle →
        ∃ x, IdleSince (s.marks ++ [.flush (s.call obuffer flush_ts shmem)]) x ∧
          s.endpoint.start_watchdog_time_ = x.clock := fun hstart hidle =>
      (h.start hstart).imp fun x hx => ⟨hx.1.concat hidle, hx.2⟩
    by_cases hbond : (s.call obuffer flush_ts shmem).Bonded
    · rw [start_flush h.server hbond] at hrunning ⊢
      split_ifs at hrunning ⊢ with hok hstarted
      · -- acceptable data stops the timer
        exact absurd rfl hrunning
      · -- the stall begins with this call
        exact ⟨_, idleSince_concat ⟨hbond, hstarted.2.1⟩, rfl⟩
      · refine hkept hrunning ⟨hbond, ?_⟩
        exact (htimed hclock hrunning).2.resolve_right fun h' => hok h'.symm
    · -- the timer would run on while nobody is bonded
      rw [start_flush_of_not_bonded hbond] at hrunning
      exact absurd (htimed hclock hrunning).1 hbond
  | breakBond =>
    obtain rfl := Option.some.inj hs'
    exact ⟨h.server, fun hrunning => absurd htimed hrunning⟩

/-- A timer that runs without a stall behind it is going to give an unjustified verdict. -/
theorem not_verdictsJustified (hserver : s.endpoint.access_mode_ = .SHMEM_SERVER)
    (hrunning : s.endpoint.start_watchdog_time_ ≠ -1)
    (hnone : ∀ x, ¬ IdleSince s.marks x) : ¬ s.VerdictsJustified := by
  intro hjustified
  -- the next `flush()` finds no new data, and comes late enough
  let latency : ℚ := min 0 s.endpoint.watchdog_
  let shmem : DataPacket ℚ := ⟨⟨1, 1, s.endpoint.data_time_prev_ + latency⟩, fun _ => 0⟩
  obtain ⟨sec, hsec⟩ := exists_nat_gt
    (max s.clock (s.endpoint.start_watchdog_time_ + s.endpoint.watchdog_))
  have hclock : (timer_to_s ⟨sec, 0⟩ : ℚ) = sec := timer_to_s_sec sec
  obtain ⟨hafter, hlong⟩ := max_lt_iff.mp hsec
  have hbond : (s.call (fun _ => 0) ⟨sec, 0⟩ shmem).Bonded := rfl
  have hlatency : (s.call (fun _ => 0) ⟨sec, 0⟩ shmem).flushed.latency_time = latency := by
    rw [latency_call hbond]
    exact add_sub_cancel_left _ _
  have hverdict : (s.call (fun _ => 0) ⟨sec, 0⟩ shmem).StallVerdict s.endpoint.watchdog_ := by
    refine (stallVerdict_iff hserver).mpr ⟨⟨hbond, ?_⟩, rfl, ?_, hrunning, ?_⟩
    · rw [hlatency]
      exact lt_of_le_of_lt (min_le_left _ _) (by norm_num)
    · rw [hlatency]
      exact min_le_right _ _
    · rw [hclock]
      linarith
  obtain ⟨x, hx, -⟩ := hjustified _ _ _ (by rw [hclock]; exact hafter.le) hverdict
  exact hnone x hx

/-- After an event that ends a stall while the timer runs, the next verdict need not be
justified. -/
theorem FollowsStall.not_verdictsJustified_step (h : FollowsStall s) {e : StretchEvent}
    (hnot : ¬ s.Timed e) (hs' : s.step e = some s') : ¬ s'.VerdictsJustified := by
  cases e with
  | flush obuffer flush_ts shmem =>
    rw [Timed] at hnot
    push Not at hnot
    obtain ⟨hclock, hrunning, hends⟩ := hnot
    rw [Stretch.step, if_pos hclock] at hs'
    obtain rfl := Option.some.inj hs'
    -- the timer is let be
    have hkept : (s.endpoint.flushPacket obuffer flush_ts shmem).self.start_watchdog_time_ =
        s.endpoint.start_watchdog_time_ := by
      by_cases hbond : (s.call obuffer flush_ts shmem).Bonded
      · obtain ⟨hidle, hok⟩ := hends hbond
        rw [start_flush h.server hbond, if_neg fun h' => absurd h'.1 (not_lt.mpr (hok h'.2)),
          if_neg fun h' => absurd h'.2.1 (not_lt.mpr hidle)]
      · exact start_flush_of_not_bonded hbond
    refine not_verdictsJustified (RealTimeIPC.flushPacket_access_mode.trans h.server) ?_ ?_
    · rw [hkept]
      exact hrunning
    · -- the last call was not idle
      intro x hx
      obtain ⟨z, hz, hidle⟩ := hx.last
      obtain rfl := Mark.flush.inj hz
      exact absurd hidle.2 (not_lt.mpr (hends hidle.1).1)
  | breakBond =>
    obtain rfl := Option.some.inj hs'
    refine not_verdictsJustified h.server hnot fun x hx => ?_
    obtain ⟨z, hz, -⟩ := hx.last
    cases hz

/-- **Stall verdicts are justified if and only if every stall ends with its timer.** In every run
of calls of `flush()` and of broken bonds, whatever the packets and with clock readings that
never go back, each side stands for every point of the run. -/
theorem verdictsJustified_iff (identifier : String) (watchdog : ℚ) (d : ℕ) (ndebug : Bool)
    (es : List StretchEvent) :
    Along step Timed (init identifier watchdog d ndebug) es ↔ ∀ pre post s, es = pre ++ post →
      run step (init identifier watchdog d ndebug) pre = some s → s.VerdictsJustified := by
  have hinit : FollowsStall (init identifier watchdog d ndebug) :=
    ⟨rfl, fun hrunning => absurd rfl hrunning⟩
  have htimed : ∀ s e s', FollowsStall s → step s e = some s' → s'.VerdictsJustified →
      s.Timed e := fun s e s' h hs' hjustified =>
    by_contra fun hnot => h.not_verdictsJustified_step hnot hs' hjustified
  refine along_iff_prefix FollowsStall VerdictsJustified ?_
    (fun s e s' h _ hs' hjustified => h.step (htimed s e s' h hs' hjustified) hs')
    (fun s e s' h _ hs' => ⟨htimed s e s' h hs', fun ht => (h.step ht hs').verdictsJustified⟩)
    hinit hinit.verdictsJustified
  intro s e h _ hnone
  -- only a clock reading that goes back stops an event
  cases e with
  | flush obuffer flush_ts shmem =>
    intro hclock
    rw [Stretch.step, if_pos hclock] at hnone
    cases hnone
  | breakBond => cases hnone

/-! ## A stall that was over -/

/-- A `flush()` at `sec` seconds that finds a bonded packet in hard RT with the given stamp. -/
def hardFlush (sec : ℤ) (stamp : ℚ) : StretchEvent :=
  .flush (fun _ => 255) ⟨sec, 0⟩ ⟨⟨1, 1, stamp⟩, fun _ => 0⟩

/-- What such a `flush()` leaves behind. -/
theorem step_hardFlush (hserver : s.endpoint.access_mode_ = .SHMEM_SERVER) (sec : ℤ) (stamp : ℚ)
    (hclock : s.clock ≤ sec) : ∃ s' x, s.step (hardFlush sec stamp) = some s' ∧
      s'.endpoint.access_mode_ = .SHMEM_SERVER ∧ s'.endpoint.watchdog_ = s.endpoint.watchdog_ ∧
      s'.clock = sec ∧ s'.endpoint.data_time_prev_ = stamp ∧ s'.marks = s.marks ++ [.flush x] ∧
      x.flushed.latency_time = stamp - s.endpoint.data_time_prev_ ∧
      s'.endpoint.start_watchdog_time_ =
        if x.flushed.latency_time < s.endpoint.watchdog_ ∧ 1 / 100000 < x.flushed.latency_time
        then -1
        else if x.flushed.latency_time ≤ s.endpoint.watchdog_ ∧
          x.flushed.latency_time < 1 / 100000 ∧ s.endpoint.start_watchdog_time_ = -1 then (sec : ℚ)
        else s.endpoint.start_watchdog_time_ := by
  have htime : (timer_to_s ⟨sec, 0⟩ : ℚ) = sec := timer_to_s_sec sec
  let shmem : DataPacket ℚ := ⟨⟨1, 1, stamp⟩, fun _ => 0⟩
  have hbond : (s.call (fun _ => 255) ⟨sec, 0⟩ shmem).Bonded := rfl
  have hstamp : (s.endpoint.flushPacket (fun _ => 255) ⟨sec, 0⟩ shmem).ret.time = stamp :=
    RealTimeIPC.flushPacket_time_of_bonded hbond
  refine ⟨_, s.call (fun _ => 255) ⟨sec, 0⟩ shmem, if_pos (by rw [htime]; exact hclock),
    RealTimeIPC.flushPacket_access_mode.trans hserver, RealTimeIPC.flushPacket_watchdog, htime,
    (RealTimeIPC.flushPacket_time hserver).trans hstamp, rfl, latency_call hbond, ?_⟩
  rw [← htime]
  exact start_flush hserver hbond

/-- The client is slow once, between two calls that find no new data. The second of them returns
`WATCHDOG`, although the stall has not begun before it. -/
theorem stall_verdict_unjustified : ∃ s : Stretch,
    run step (init "ipc" 1 1 false) [hardFlush 0 0, hardFlush 1 5] = some s ∧ s.clock = 1 ∧
      (s.call (fun _ => 255) ⟨2, 0⟩ ⟨⟨1, 1, 5⟩, fun _ => 0⟩).StallVerdict s.endpoint.watchdog_ ∧
      (∀ x, ¬ IdleSince s.marks x) ∧ ¬ s.VerdictsJustified := by
  have hserver : (init "ipc" 1 1 false).endpoint.access_mode_ = .SHMEM_SERVER := rfl
  have hwatchdog : (init "ipc" 1 1 false).endpoint.watchdog_ = 1 := rfl
  have hstart : (init "ipc" 1 1 false).endpoint.start_watchdog_time_ = -1 := rfl
  have hprev : (init "ipc" 1 1 false).endpoint.data_time_prev_ = 0 := rfl
  -- the first call starts the timer
  obtain ⟨s₁, x₁, hs₁, hserver₁, hwatchdog₁, hclock₁, hprev₁, -, hlatency₁, hstart₁⟩ :=
    step_hardFlush hserver 0 0 le_rfl
  rw [hprev, sub_self] at hlatency₁
  rw [hwatchdog] at hwatchdog₁
  have hzero₁ : s₁.endpoint.start_watchdog_time_ = 0 := by
    rw [hstart₁, hlatency₁, hwatchdog, hstart]
    norm_num
  -- the second one lets it be
  obtain ⟨s₂, x₂, hs₂, hserver₂, hwatchdog₂, hclock₂, hprev₂, hmarks₂, hlatency₂, hstart₂⟩ :=
    step_hardFlush hserver₁ 1 5 (by rw [hclock₁]; norm_num)
  rw [hprev₁, sub_zero] at hlatency₂
  rw [hwatchdog₁] at hwatchdog₂
  have hzero₂ : s₂.endpoint.start_watchdog_time_ = 0 := by
    rw [hstart₂, hlatency₂, hwatchdog₁, hzero₁]
    norm_num
  have hnone : ∀ x, ¬ IdleSince s₂.marks x := by
    intro x hx
    rw [hmarks₂] at hx
    obtain ⟨z, hz, -, hidle⟩ := hx.last
    obtain rfl := Mark.flush.inj hz
    rw [hlatency₂] at hidle
    norm_num at hidle
  refine ⟨s₂, run_cons_eq_some.mpr ⟨s₁, hs₁, run_cons_eq_some.mpr ⟨s₂, hs₂, run_nil s₂⟩⟩,
    by rw [hclock₂]; norm_num, ?_, hnone, ?_⟩
  · have hbond : (s₂.call (fun _ => 255) ⟨2, 0⟩ ⟨⟨1, 1, 5⟩, fun _ => 0⟩).Bonded := rfl
    refine (stallVerdict_iff hserver₂).mpr ⟨⟨hbond, ?_⟩, rfl, ?_, ?_, ?_⟩
    · rw [latency_call hbond, hprev₂]
      norm_num
    · rw [latency_call hbond, hprev₂, hwatchdog₂]
      norm_num
    · rw [hzero₂]
      norm_num
    · rw [hzero₂, hwatchdog₂, timer_to_s_sec]
      norm_num
  · refine not_verdictsJustified hserver₂ ?_ hnone
    rw [hzero₂]
    norm_num

end Stretch

end RealtimeUtilities
