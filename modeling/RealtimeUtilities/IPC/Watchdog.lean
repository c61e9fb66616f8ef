import Mathlib.Tactic.Linarith
import RealtimeUtilities.IPC.Register

/-!
# The watchdog of a server

A server looks out for a client that has stopped writing. `flush()` compares the stamp it finds
with the one it returned before, and `start_watchdog_time_` remembers since when the stamp has
not moved, `-1` if it has moved.

`Watched.step` is a server's life: it runs one operation after the other, of any kind, and at
every access the segment is what the other endpoints have made of it. Its calls of `flush()` are
logged. Times are read as exact rationals, whatever rationals the eight bytes of a stamp stand
for.

## Main definitions

* `Tracks`: what the members of the watchdog say about the log;
* `Stalled`: a part of the log in which the stamp does not move.

## Main results

* `Tracks.step` and `tracks_of_run`: the members of the watchdog follow the log;
* `watchdog_complete`: a bonded `flush()` in hard RT returns `WATCHDOG` and zeros, if its stamp
  is too far ahead or has not moved for too long.
-/

namespace RealtimeUtilities

open DataPacket Execution

namespace RealTimeIPC

/-- A server right after it was constructed, with a segment of payload size `d`. -/
def server {τ : Type} [Double τ] (identifier : String) (watchdog : τ) (d : ℕ) (ndebug : Bool) :
    RealTimeIPC τ :=
  (construct identifier watchdog .SHMEM_SERVER d ndebug).attach (d + sizeofHeader)

variable {e : RealTimeIPC ℚ} {latency_time flush_time : ℚ}

/-- The watchdog on exact times. -/
theorem checkWatchdog_eq :
    e.checkWatchdog latency_time flush_time =
      if latency_time < e.watchdog_ ∧ 1 / 100000 < latency_time then (.NONE_ERROR, -1)
      else if e.watchdog_ < latency_time then (.WATCHDOG, e.start_watchdog_time_)
      else if latency_time < 1 / 100000 then
        if e.start_watchdog_time_ = -1 then (.NONE_ERROR, flush_time)
        else if e.watchdog_ < flush_time - e.start_watchdog_time_ then
          (.WATCHDOG, e.start_watchdog_time_)
        else (.NONE_ERROR, e.start_watchdog_time_)
      else (.NONE_ERROR, e.start_watchdog_time_) := by
  simp only [checkWatchdog, Double.lt, Double.beq, Double.sub, Double.ofRat, Bool.and_eq_true,
    decide_eq_true_eq]

/-- A stamp too far ahead sets the watchdog off. -/
theorem checkWatchdog_of_late (h : e.watchdog_ < latency_time) :
    (e.checkWatchdog latency_time flush_time).1 = .WATCHDOG := by
  rw [checkWatchdog_eq, if_neg fun hok => lt_asymm h hok.1, if_pos h]

/-- A stamp that has not moved starts the timer, or sets the watchdog off when the timer has run
for too long. -/
theorem checkWatchdog_of_still (hw : 0 ≤ e.watchdog_) :
    e.checkWatchdog 0 flush_time =
      if e.start_watchdog_time_ = -1 then (.NONE_ERROR, flush_time)
      else if e.watchdog_ < flush_time - e.start_watchdog_time_ then
        (.WATCHDOG, e.start_watchdog_time_)
      else (.NONE_ERROR, e.start_watchdog_time_) := by
  have hpos : (0 : ℚ) < 1 / 100000 := by norm_num
  rw [checkWatchdog_eq, if_neg fun hok => lt_asymm hpos hok.2, if_neg (not_lt.mpr hw), if_pos hpos]

/-- A stamp that is not too far ahead sets the watchdog off when there is no new data and the
timer has run for too long. -/
theorem checkWatchdog_stall_iff (hle : latency_time ≤ e.watchdog_) :
    (e.checkWatchdog latency_time flush_time).1 = .WATCHDOG ↔
      latency_time < 1 / 100000 ∧ e.start_watchdog_time_ ≠ -1 ∧
        e.watchdog_ < flush_time - e.start_watchdog_time_ := by
  have hlate : ¬ e.watchdog_ < latency_time := not_lt.mpr hle
  rw [checkWatchdog_eq, if_neg hlate]
  split_ifs with hok hidle hstopped hlong
  · exact iff_of_false (by simp) fun h => lt_asymm hok.2 h.1
  · exact iff_of_false (by simp) fun h => h.2.1 hstopped
  · exact iff_of_true rfl ⟨hidle, hstopped, hlong⟩
  · exact iff_of_false (by simp) fun h => hlong h.2.2
  · exact iff_of_false (by simp) fun h => hidle h.1

/-- What becomes of the timer. -/
theorem checkWatchdog_start_eq :
    (e.checkWatchdog latency_time flush_time).2 =
      if latency_time < e.watchdog_ ∧ 1 / 100000 < latency_time then -1
      else if latency_time ≤ e.watchdog_ ∧ latency_time < 1 / 100000 ∧
        e.start_watchdog_time_ = -1 then flush_time
      else e.start_watchdog_time_ := by
  rw [checkWatchdog_eq]
  by_cases hok : latency_time < e.watchdog_ ∧ 1 / 100000 < latency_time
  · rw [if_pos hok, if_pos hok]
  rw [if_neg hok, if_neg hok]
  by_cases hlate : e.watchdog_ < latency_time
  · rw [if_pos hlate, if_neg fun h => absurd hlate (not_lt.mpr h.1)]
  rw [if_neg hlate]
  by_cases hidle : latency_time < 1 / 100000
  · rw [if_pos hidle]
    by_cases hstopped : e.start_watchdog_time_ = -1
    · rw [if_pos hstopped, if_pos ⟨not_lt.mp hlate, hidle, hstopped⟩]
    · -- a timer that runs goes on, whatever the verdict
      have hrunning : ¬ (latency_time ≤ e.watchdog_ ∧ latency_time < 1 / 100000 ∧
          e.start_watchdog_time_ = -1) := fun h => hstopped h.2.2
      rw [if_neg hstopped, if_neg hrunning]
      split_ifs <;> rfl
  · rw [if_neg hidle, if_neg fun h => hidle h.2.1]

/-- The watchdog goes off when the stamp is too far ahead, or when there is no new data and the
timer has run for too long. -/
theorem checkWatchdog_code_iff :
    (e.checkWatchdog latency_time flush_time).1 = .WATCHDOG ↔
      e.watchdog_ < latency_time ∨
        (latency_time < 1 / 100000 ∧ e.start_watchdog_time_ ≠ -1 ∧
          e.watchdog_ < flush_time - e.start_watchdog_time_) := by
  by_cases hlate : e.watchdog_ < latency_time
  · exact iff_of_true (checkWatchdog_of_late hlate) (.inl hlate)
  · rw [checkWatchdog_stall_iff (not_lt.mp hlate), or_iff_right hlate]

/-- The watchdog stops its timer, starts it, or lets it be. -/
theorem checkWatchdog_start :
    (e.checkWatchdog latency_time flush_time).2 = -1 ∨
      (e.checkWatchdog latency_time flush_time).2 = flush_time ∨
      (e.checkWatchdog latency_time flush_time).2 = e.start_watchdog_time_ := by
  unfold checkWatchdog
  -- one goal for each branch, in the order of the code
  split_ifs
  · exact .inl rfl
  · exact .inr (.inr rfl)
  · exact .inr (.inl rfl)
  · exact .inr (.inr rfl)
  · exact .inr (.inr rfl)
  · exact .inr (.inr rfl)

variable {obuffer : Memory} {flush_ts : timespec} {shmem : DataPacket ℚ}

theorem isClient_of_server (hserver : e.access_mode_ = .SHMEM_SERVER) :
    e.access_mode_.isClient = false := by
  rw [hserver]
  rfl

/-- A server has no early return, so that it keeps the stamp that it returns. -/
theorem flushPacket_time (hserver : e.access_mode_ = .SHMEM_SERVER) :
    (e.flushPacket obuffer flush_ts shmem).self.data_time_prev_ =
      (e.flushPacket obuffer flush_ts shmem).ret.time := by
  have hclient := isClient_of_server hserver
  simp only [flushPacket, hclient, Bool.false_and, Bool.false_eq_true, if_false]
  split_ifs <;> rfl

/-- A bonded `flush()` returns the stamp of the packet. -/
theorem flushPacket_time_of_bonded (hbond : shmem.header_.bond_flag_ = 1) :
    (e.flushPacket obuffer flush_ts shmem).ret.time = shmem.header_.time_ := by
  simp only [flushPacket, hbond, decide_true, if_true]
  split_ifs <;> rfl

/-- A server that is not bonded lets its timer be. -/
theorem flushPacket_start_of_not_bonded (hbond : shmem.header_.bond_flag_ ≠ 1) :
    (e.flushPacket obuffer flush_ts shmem).self.start_watchdog_time_ =
      e.start_watchdog_time_ := by
  simp only [flushPacket, hbond, decide_false, Bool.false_eq_true, if_false]
  split_ifs <;> rfl

/-- A bonded server leaves its timer to the watchdog. -/
theorem flushPacket_start_of_bonded (hserver : e.access_mode_ = .SHMEM_SERVER)
    (hbond : shmem.header_.bond_flag_ = 1) :
    (e.flushPacket obuffer flush_ts shmem).self.start_watchdog_time_ =
      (e.checkWatchdog (shmem.header_.time_ - e.data_time_prev_) (timer_to_s flush_ts)).2 := by
  have hclient := isClient_of_server hserver
  simp only [flushPacket, hclient, hbond, Bool.false_and, Bool.false_eq_true, if_false,
    decide_true, if_true]
  split_ifs <;> rfl

/-- A watchdog that goes off in hard RT has `flush()` return `WATCHDOG` and zeros. -/
theorem flushPacket_of_watchdog (hserver : e.access_mode_ = .SHMEM_SERVER)
    (hbond : shmem.header_.bond_flag_ = 1) (hhard : shmem.header_.rt_flag_ = 1)
    (h : (e.checkWatchdog (shmem.header_.time_ - e.data_time_prev_) (timer_to_s flush_ts)).1 =
      .WATCHDOG) :
    (e.flushPacket obuffer flush_ts shmem).ret.code = .WATCHDOG ∧
      ∀ j < e.payloadSize, (e.flushPacket obuffer flush_ts shmem).ret.obuffer j = 0 := by
  have hclient := isClient_of_server hserver
  have hreset : e.access_mode_.isServer = true := by
    rw [hserver]
    rfl
  have hcheck : (e.checkWatchdog (Double.sub shmem.header_.time_ e.data_time_prev_)
      (timer_to_s flush_ts)).1 = .WATCHDOG := h
  simp only [flushPacket, hclient, hbond, hhard, hreset, hcheck, Bool.false_and,
    Bool.false_eq_true, if_false, decide_true, if_true, true_and]
  exact fun j hj => memset_of_lt _ _ hj

/-- A `flush()` leaves the bound of the watchdog alone. -/
theorem flushPacket_watchdog :
    (e.flushPacket obuffer flush_ts shmem).self.watchdog_ = e.watchdog_ := by
  simp only [flushPacket]
  split_ifs <;> rfl

/-- A server stays one. -/
theorem flushPacket_access_mode :
    (e.flushPacket obuffer flush_ts shmem).self.access_mode_ = e.access_mode_ := by
  simp only [flushPacket]
  split_ifs <;> rfl

/-- The latency is the distance from the stamp of before. -/
theorem flushPacket_latency_of_bonded (hbond : shmem.header_.bond_flag_ = 1) :
    (e.flushPacket obuffer flush_ts shmem).ret.latency_time =
      shmem.header_.time_ - e.data_time_prev_ := by
  simp only [flushPacket, hbond, decide_true, if_true]
  split_ifs <;> rfl

/-- A server returns `WATCHDOG` if it is bonded, in hard RT, and its watchdog goes off. -/
theorem flushPacket_code_iff (hserver : e.access_mode_ = .SHMEM_SERVER) :
    (e.flushPacket obuffer flush_ts shmem).ret.code = .WATCHDOG ↔
      shmem.header_.bond_flag_ = 1 ∧ shmem.header_.rt_flag_ = 1 ∧
        (e.checkWatchdog (shmem.header_.time_ - e.data_time_prev_) (timer_to_s flush_ts)).1 =
          .WATCHDOG := by
  have hclient := isClient_of_server hserver
  by_cases hbond : shmem.header_.bond_flag_ = 1
  · by_cases hcheck : (e.checkWatchdog (shmem.header_.time_ - e.data_time_prev_)
        (timer_to_s flush_ts)).1 = .WATCHDOG
    · have hcheck' : (e.checkWatchdog (Double.sub shmem.header_.time_ e.data_time_prev_)
          (timer_to_s flush_ts)).1 = .WATCHDOG := hcheck
      -- in soft RT the verdict is dropped
      by_cases hhard : shmem.header_.rt_flag_ = 1 <;>
        simp [flushPacket, hclient, hbond, hhard, hcheck, hcheck']
    · have hcheck' : ¬ (e.checkWatchdog (Double.sub shmem.header_.time_ e.data_time_prev_)
          (timer_to_s flush_ts)).1 = .WATCHDOG := hcheck
      simp [flushPacket, hclient, hbond, hcheck, hcheck']
  · simp [flushPacket, hclient, hbond]

end RealTimeIPC

/-! ## Calls of `flush()` -/

/-- A call of `flush()` of the right size: the packet it saw, its clock reading, and what it
returned. -/
structure FlushCall where
  packet : DataPacket ℚ
  clock : ℚ
  flushed : Flushed ℚ

namespace FlushCall

/-- It saw a bonded packet. -/
def Bonded (x : FlushCall) : Prop :=
  x.packet.header_.bond_flag_ = 1

/-- It saw a packet in hard RT. -/
def Hard (x : FlushCall) : Prop :=
  x.packet.header_.rt_flag_ = 1

/-- The stamp of the packet. -/
def stamp (x : FlushCall) : ℚ :=
  x.packet.header_.time_

/-- It returned `WATCHDOG`, and nothing but zeros. -/
def Reset (d : ℕ) (x : FlushCall) : Prop :=
  x.flushed.code = .WATCHDOG ∧ ∀ j < d, x.flushed.obuffer j = 0

end FlushCall

/-- All calls saw bonded packets with the same stamp. -/
def Stalled (stamp : ℚ) (l : List FlushCall) : Prop :=
  ∀ x ∈ l, x.Bonded ∧ x.stamp = stamp

/-- The clock readings are not negative, and none is less than one before it. -/
structure Clocked (l : List FlushCall) : Prop where
  nonneg : ∀ x ∈ l, 0 ≤ x.clock
  sorted : l.Pairwise fun x y => x.clock ≤ y.clock

theorem Clocked.of_append {l l' : List FlushCall} (h : Clocked (l ++ l')) : Clocked l where
  nonneg x hx := h.nonneg x (List.mem_append_left l' hx)
  sorted := (List.pairwise_append.mp h.sorted).1

/-- Earlier clock readings are not greater. -/
theorem Clocked.le {l l' : List FlushCall} {x y : FlushCall} (h : Clocked (l ++ y :: l'))
    (hx : x ∈ l) : x.clock ≤ y.clock :=
  (List.pairwise_append.mp h.sorted).2.2 x hx y (by simp)

/-- A server, and its calls of `flush()` of the right size so far. -/
structure Watched where
  endpoint : RealTimeIPC ℚ
  flushes : List FlushCall

/-- The `flush()` of a server that sees `shmem`. -/
def Watched.call (s : Watched) (obuffer : Memory) (flush_ts : timespec)
    (shmem : DataPacket ℚ) : FlushCall where
  packet := shmem
  clock := timer_to_s flush_ts
  flushed := (s.endpoint.flushPacket obuffer flush_ts shmem).ret

/-- The server after this `flush()`. -/
def Watched.flush (s : Watched) (obuffer : Memory) (flush_ts : timespec)
    (shmem : DataPacket ℚ) : Watched where
  endpoint := (s.endpoint.flushPacket obuffer flush_ts shmem).self
  flushes := s.flushes ++ [s.call obuffer flush_ts shmem]

/-! ## The watchdog follows the log -/

/-- What the members of the watchdog say about the log. The timer stands at a clock reading of
the log, and runs at the latest from the second `flush()` of a stall on. -/
structure Tracks (watchdog : ℚ) (d : ℕ) (s : Watched) : Prop where
  attached : s.endpoint.Attached d
  server : s.endpoint.access_mode_ = .SHMEM_SERVER
  watchdog : s.endpoint.watchdog_ = watchdog
  times : ∀ x ∈ s.flushes, x.Bonded → x.flushed.time = x.stamp
  prev : ∀ l x, s.flushes = l ++ [x] → s.endpoint.data_time_prev_ = x.flushed.time
  start : s.endpoint.start_watchdog_time_ = -1 ∨
    ∃ x ∈ s.flushes, s.endpoint.start_watchdog_time_ = x.clock
  stall : ∀ l x₀ x₁ mid stamp, s.flushes = l ++ x₀ :: x₁ :: mid →
    Stalled stamp (x₀ :: x₁ :: mid) →
    ∃ x ∈ l ++ [x₀, x₁], s.endpoint.start_watchdog_time_ = x.clock

namespace Tracks

variable {watchdog : ℚ} {d : ℕ} {s : Watched}

/-- In a stall the stamp of before is that of the stall. -/
theorem prev_of_stalled (h : Tracks watchdog d s) {l l' : List FlushCall} {stamp : ℚ}
    (hlog : s.flushes = l ++ l') (hne : l' ≠ []) (hstalled : Stalled stamp l') :
    s.endpoint.data_time_prev_ = stamp := by
  obtain ⟨l'', x, rfl⟩ := (List.eq_nil_or_concat l').resolve_left hne
  rw [List.concat_eq_append] at hlog hstalled
  obtain ⟨hbonded, hstamp⟩ := hstalled x (by simp)
  have hx : x ∈ s.flushes := by
    rw [hlog]
    simp
  rw [h.prev (l ++ l'') x (by rw [hlog, List.append_assoc]), h.times x hx hbonded, hstamp]

/-- A timer that stands at a clock reading runs. -/
theorem start_ne (hclock : Clocked s.flushes) {y : FlushCall} (hy : y ∈ s.flushes)
    (hstart : s.endpoint.start_watchdog_time_ = y.clock) :
    s.endpoint.start_watchdog_time_ ≠ -1 := by
  have := hclock.nonneg y hy
  linarith

variable {obuffer : Memory} {flush_ts : timespec} {shmem : DataPacket ℚ}

/-- A `flush()` stops the timer, starts it, or lets it be. -/
theorem start_flush (h : Tracks watchdog d s) (obuffer : Memory) (flush_ts : timespec)
    (shmem : DataPacket ℚ) :
    (s.flush obuffer flush_ts shmem).endpoint.start_watchdog_time_ = -1 ∨
      (s.flush obuffer flush_ts shmem).endpoint.start_watchdog_time_ =
        (s.call obuffer flush_ts shmem).clock ∨
      (s.flush obuffer flush_ts shmem).endpoint.start_watchdog_time_ =
        s.endpoint.start_watchdog_time_ := by
  by_cases hbond : shmem.header_.bond_flag_ = 1
  · rw [Watched.flush, RealTimeIPC.flushPacket_start_of_bonded h.server hbond]
    exact RealTimeIPC.checkWatchdog_start
  · exact .inr (.inr (RealTimeIPC.flushPacket_start_of_not_bonded hbond))

/-- In a stall a timer that runs is let be, and one that does not is started. -/
theorem start_flush_of_stalled (h : Tracks watchdog d s) (hw : 0 ≤ watchdog)
    {l l' : List FlushCall} (hlog : s.flushes = l ++ l') (hne : l' ≠ [])
    (hbond : (s.call obuffer flush_ts shmem).Bonded)
    (hstalled : Stalled (s.call obuffer flush_ts shmem).stamp l') :
    (s.flush obuffer flush_ts shmem).endpoint.start_watchdog_time_ =
      if s.endpoint.start_watchdog_time_ = -1 then (s.call obuffer flush_ts shmem).clock
      else s.endpoint.start_watchdog_time_ := by
  have hw' : 0 ≤ s.endpoint.watchdog_ := h.watchdog ▸ hw
  have hbond' : shmem.header_.bond_flag_ = 1 := hbond
  have hprev : s.endpoint.data_time_prev_ = shmem.header_.time_ :=
    h.prev_of_stalled hlog hne hstalled
  rw [Watched.flush, RealTimeIPC.flushPacket_start_of_bonded h.server hbond', hprev, sub_self,
    RealTimeIPC.checkWatchdog_of_still hw']
  split_ifs <;> rfl

/-- From the second `flush()` of a stall on the timer runs, since that `flush()` at the latest. -/
theorem stall_flush (h : Tracks watchdog d s) (hw : 0 ≤ watchdog) (hclock : Clocked s.flushes)
    {l mid : List FlushCall} {x₀ x₁ : FlushCall} {stamp : ℚ}
    (hlog : (s.flush obuffer flush_ts shmem).flushes = l ++ x₀ :: x₁ :: mid)
    (hstalled : Stalled stamp (x₀ :: x₁ :: mid)) :
    ∃ x ∈ l ++ [x₀, x₁],
      (s.flush obuffer flush_ts shmem).endpoint.start_watchdog_time_ = x.clock := by
  have hsplit : s.flushes ++ [s.call obuffer flush_ts shmem] = (l ++ [x₀]) ++ x₁ :: mid := by
    rw [List.append_assoc]
    exact hlog
  -- the call is part of the stall
  have hcall : s.call obuffer flush_ts shmem ∈ x₁ :: mid := by
    rcases List.concat_eq_append_cons hsplit with ⟨rfl, -, rfl⟩ | ⟨mid', rfl, -⟩ <;> simp
  obtain ⟨hbond, rfl⟩ := hstalled _ (List.mem_cons_of_mem x₀ hcall)
  rcases List.concat_eq_append_cons hsplit with ⟨rfl, hl, rfl⟩ | ⟨mid', rfl, hl⟩
  · -- the call is the second one of the stall: from now on the timer runs
    have hstalled' : Stalled (s.call obuffer flush_ts shmem).stamp [x₀] := fun x hx =>
      hstalled x (List.mem_append_left [s.call obuffer flush_ts shmem] hx)
    rw [h.start_flush_of_stalled hw hl (by simp) hbond hstalled']
    split_ifs with hstopped
    · exact ⟨_, by simp, rfl⟩
    · obtain ⟨x, hx, hstart⟩ := h.start.resolve_left hstopped
      rw [hl] at hx
      refine ⟨x, ?_, hstart⟩
      simp only [List.mem_append, List.mem_cons] at hx ⊢
      tauto
  · -- the stall has lasted before the call: the timer runs already
    have hl' : s.flushes = l ++ x₀ :: x₁ :: mid' := by
      rw [hl, List.append_assoc]
      rfl
    have hstalled' : Stalled (s.call obuffer flush_ts shmem).stamp (x₀ :: x₁ :: mid') :=
      fun x hx => hstalled x (List.mem_append_left [s.call obuffer flush_ts shmem] hx)
    obtain ⟨x, hx, hstart⟩ := h.stall l x₀ x₁ mid' _ hl' hstalled'
    have hmem : x ∈ s.flushes := by
      rw [hl']
      simp only [List.mem_append, List.mem_cons] at hx ⊢
      tauto
    rw [h.start_flush_of_stalled hw hl' (by simp) hbond hstalled',
      if_neg (start_ne hclock hmem hstart)]
    exact ⟨x, hx, hstart⟩

/-- A `flush()` extends the log, and the watchdog follows. -/
theorem flush (h : Tracks watchdog d s) (hw : 0 ≤ watchdog) (hclock : Clocked s.flushes) :
    Tracks watchdog d (s.flush obuffer flush_ts shmem) := by
  obtain ⟨hattached, hmode⟩ := RealTimeIPC.attached_flushPacket h.attached obuffer flush_ts shmem
  constructor
  · exact hattached
  · exact hmode.trans h.server
  · exact RealTimeIPC.flushPacket_watchdog.trans h.watchdog
  · intro x hx hbonded
    rcases List.mem_append.mp hx with hx | hx
    · exact h.times x hx hbonded
    · obtain rfl := List.mem_singleton.mp hx
      exact RealTimeIPC.flushPacket_time_of_bonded hbonded
  · intro l x hlog
    obtain ⟨-, hx⟩ := List.append_inj' hlog rfl
    obtain rfl := List.singleton_inj.mp hx
    exact RealTimeIPC.flushPacket_time h.server
  · -- the timer is stopped, or started by this flush, or as it was
    rcases h.start_flush obuffer flush_ts shmem with hstart | hstart | hstart
    · exact .inl hstart
    · exact .inr ⟨_, List.mem_append_right _ (List.mem_singleton_self _), hstart⟩
    · rw [hstart]
      exact h.start.imp_right fun ⟨x, hx, hx'⟩ => ⟨x, List.mem_append_left _ hx, hx'⟩
  · exact fun l x₀ x₁ mid stamp => h.stall_flush hw hclock

/-- A watchdog that goes off in hard RT resets the command. -/
theorem reset_call (h : Tracks watchdog d s) (hbond : (s.call obuffer flush_ts shmem).Bonded)
    (hhard : (s.call obuffer flush_ts shmem).Hard)
    (hcheck : (s.endpoint.checkWatchdog (shmem.header_.time_ - s.endpoint.data_time_prev_)
      (timer_to_s flush_ts)).1 = .WATCHDOG) : (s.call obuffer flush_ts shmem).Reset d := by
  unfold FlushCall.Reset
  rw [← h.attached.payloadSize_eq]
  exact RealTimeIPC.flushPacket_of_watchdog h.server hbond hhard hcheck

/-- The `flush()` resets the command if its stamp is too far ahead. -/
theorem reset_of_late (h : Tracks watchdog d s) {l : List FlushCall} {x : FlushCall}
    (hlog : s.flushes = l ++ [x]) (hbond : (s.call obuffer flush_ts shmem).Bonded)
    (hhard : (s.call obuffer flush_ts shmem).Hard)
    (hlate : watchdog < (s.call obuffer flush_ts shmem).stamp - x.flushed.time) :
    (s.call obuffer flush_ts shmem).Reset d := by
  apply h.reset_call hbond hhard
  apply RealTimeIPC.checkWatchdog_of_late
  rw [h.watchdog, h.prev l x hlog]
  exact hlate

/-- The `flush()` resets the command if the stamp has not moved for too long. -/
theorem reset_of_stall (h : Tracks watchdog d s) (hw : 0 ≤ watchdog) (hclock : Clocked s.flushes)
    {l mid : List FlushCall} {x₀ x₁ : FlushCall} (hlog : s.flushes = l ++ x₀ :: x₁ :: mid)
    (hstalled : Stalled (s.call obuffer flush_ts shmem).stamp (x₀ :: x₁ :: mid))
    (hbond : (s.call obuffer flush_ts shmem).Bonded)
    (hhard : (s.call obuffer flush_ts shmem).Hard)
    (hlate : watchdog < (s.call obuffer flush_ts shmem).clock - x₁.clock) :
    (s.call obuffer flush_ts shmem).Reset d := by
  -- the timer was started at `x₁` or before
  obtain ⟨x, hx, hstart⟩ := h.stall l x₀ x₁ mid _ hlog hstalled
  have hlog' : s.flushes = (l ++ [x₀]) ++ x₁ :: mid := by
    rw [hlog, List.append_assoc]
    rfl
  have hx' : x ∈ l ++ [x₀] ∨ x = x₁ := by
    simp only [List.mem_append, List.mem_cons] at hx ⊢
    tauto
  have hmem : x ∈ s.flushes := by
    rw [hlog']
    rcases hx' with hx' | rfl
    · exact List.mem_append_left _ hx'
    · simp
  have hle : x.clock ≤ x₁.clock := by
    rw [hlog'] at hclock
    rcases hx' with hx' | rfl
    · exact hclock.le hx'
    · exact le_refl _
  have hprev : s.endpoint.data_time_prev_ = shmem.header_.time_ :=
    h.prev_of_stalled hlog (by simp) hstalled
  have hlong : s.endpoint.watchdog_ < timer_to_s flush_ts - s.endpoint.start_watchdog_time_ := by
    have hclock' : (s.call obuffer flush_ts shmem).clock = timer_to_s flush_ts := rfl
    rw [h.watchdog, hstart]
    linarith
  have hw' : 0 ≤ s.endpoint.watchdog_ := h.watchdog ▸ hw
  apply h.reset_call hbond hhard
  rw [hprev, sub_self, RealTimeIPC.checkWatchdog_of_still hw', if_neg (start_ne hclock hmem hstart),
    if_pos hlong]

/-- A server that was just constructed tracks the empty log. -/
theorem server_nil {identifier : String} {ndebug : Bool}
    (hattached : (RealTimeIPC.server identifier watchdog d ndebug).Attached d) :
    Tracks watchdog d ⟨RealTimeIPC.server identifier watchdog d ndebug, []⟩ where
  attached := hattached
  server := rfl
  watchdog := rfl
  times x hx := absurd hx (List.not_mem_nil)
  prev l x h := by simp at h
  start := .inl rfl
  stall l x₀ x₁ mid stamp h := by simp at h

end Tracks

/-! ## The life of a server -/

section Life

variable [DoubleBytes ℚ]

/-- What a request adds to the log, when its first access finds `segment`. -/
def Request.logged (d : ℕ) (segment : Memory) : Request ℚ → Reply ℚ → List FlushCall
  | flush _ _ _ n_bytes flush_ts, .flushed f =>
      if n_bytes = d then [⟨view d segment, timer_to_s flush_ts, f⟩] else []
  | _, _ => []

/-- What an attached endpoint does in a `flush()` of the right size depends on one packet. -/
theorem RealTimeIPC.Attached.observe_flush {d : ℕ} {e : RealTimeIPC ℚ} (h : e.Attached d)
    (seen : ℕ → Memory) (obuffer : Memory) (time latency_time : ℚ) (flush_ts : timespec) :
    ((Request.flush obuffer time latency_time d flush_ts).access e).observe seen =
      .ok ((e.flushPacket obuffer flush_ts (view d (seen 0))).map .flushed) := by
  rw [Request.access, h.flush_eq]
  rfl

namespace Watched

/-- The server runs a request, and finds the segment as `seen i` at its access number `i`. -/
def step (d : ℕ) (s : Watched) (x : (ℕ → Memory) × Request ℚ) : Option Watched :=
  match (x.2.access s.endpoint).observe x.1 with
  | .ok o => some { endpoint := o.self, flushes := s.flushes ++ x.2.logged d (x.1 0) o.ret }
  | .error _ => none

variable {d : ℕ} {s s' : Watched} {x : (ℕ → Memory) × Request ℚ}

theorem step_of_observe {o : Outcome ℚ (Reply ℚ)}
    (h : (x.2.access s.endpoint).observe x.1 = .ok o) :
    s.step d x = some ⟨o.self, s.flushes ++ x.2.logged d (x.1 0) o.ret⟩ := by
  rw [step, h]

/-- A `flush()` of the right size reads the segment once. -/
theorem step_flush (hattached : s.endpoint.Attached d) (seen : ℕ → Memory) (obuffer : Memory)
    (time latency_time : ℚ) (flush_ts : timespec) :
    s.step d (seen, .flush obuffer time latency_time d flush_ts) =
      some (s.flush obuffer flush_ts (view d (seen 0))) := by
  rw [step_of_observe (hattached.observe_flush seen obuffer time latency_time flush_ts)]
  show some (Watched.mk _ (s.flushes ++ if d = d then _ else [])) = _
  rw [if_pos rfl]
  rfl

/-- A step is a `flush()` of the right size, or leaves the log and the watchdog as they are. -/
theorem step_cases (hattached : s.endpoint.Attached d) (h : s.step d x = some s') :
    (∃ b b', s' = { s with
      endpoint := { s.endpoint with bonded_prev_ := b, is_hard_rt_prev_ := b' } }) ∨
    ∃ obuffer flush_ts shmem, s' = s.flush obuffer flush_ts shmem := by
  obtain ⟨seen, request⟩ := x
  -- only a flush of the right size writes to the log
  have hstep : ∀ o, (request.access s.endpoint).observe seen = .ok o →
      s' = ⟨o.self, s.flushes ++ request.logged d (seen 0) o.ret⟩ := fun o ho =>
    Option.some.inj (h.symm.trans (step_of_observe ho))
  cases request with
  | write op =>
    obtain ⟨o, ho, hself⟩ := op.observe_eq hattached seen
    refine .inl ⟨s.endpoint.bonded_prev_, s.endpoint.is_hard_rt_prev_, ?_⟩
    rw [hstep o ho, hself]
    exact congrArg (Watched.mk s.endpoint) (List.append_nil _)
  | isBonded =>
    have ho : (Request.isBonded.access s.endpoint).observe seen =
        .ok ((s.endpoint.isBondedPacket (view d (seen 0))).map .bool) := by
      rw [Request.access, hattached.isBonded_eq]
      rfl
    refine .inl ⟨(view d (seen 0) : DataPacket ℚ).header_.bond_flag_ = 1,
      s.endpoint.is_hard_rt_prev_, ?_⟩
    rw [hstep _ ho, Outcome.map, RealTimeIPC.isBondedPacket_self]
    exact congrArg (Watched.mk _) (List.append_nil _)
  | isHardRT =>
    have ho : (Request.isHardRT.access s.endpoint).observe seen =
        .ok ((s.endpoint.isHardRTPacket (view d (seen 0))).map .bool) := by
      rw [Request.access, hattached.isHardRT_eq]
      rfl
    refine .inl ⟨s.endpoint.bonded_prev_,
      (view d (seen 0) : DataPacket ℚ).header_.rt_flag_ = 1, ?_⟩
    rw [hstep _ ho, Outcome.map, RealTimeIPC.isHardRTPacket_self]
    exact congrArg (Watched.mk _) (List.append_nil _)
  | flush obuffer time latency_time n_bytes flush_ts =>
    by_cases hn : n_bytes = d
    · subst hn
      exact .inr ⟨obuffer, flush_ts, view n_bytes (seen 0), Option.some.inj
        (h.symm.trans (step_flush hattached seen obuffer time latency_time flush_ts))⟩
    · refine .inl ⟨s.endpoint.bonded_prev_, s.endpoint.is_hard_rt_prev_, ?_⟩
      rw [Request.access, hattached.flush_of_ne _ _ _ hn] at hstep
      rw [hstep _ rfl]
      show Watched.mk s.endpoint (s.flushes ++ if n_bytes = d then _ else []) = _
      rw [if_neg hn, List.append_nil]

end Watched

namespace Tracks

variable {watchdog : ℚ} {d : ℕ} {s s' : Watched}

/-- **The watchdog follows the log**, whatever the server does. -/
theorem step (h : Tracks watchdog d s) (hw : 0 ≤ watchdog) (hclock : Clocked s'.flushes)
    {x : (ℕ → Memory) × Request ℚ} (hstep : s.step d x = some s') : Tracks watchdog d s' := by
  rcases Watched.step_cases h.attached hstep with ⟨b, b', rfl⟩ | ⟨obuffer, flush_ts, shmem, rfl⟩
  · exact { h with attached := h.attached.remember _ _ _ b b' }
  · exact h.flush hw hclock.of_append

end Tracks

/-- A step appends at most one call to the log. -/
theorem Watched.flushes_step {d : ℕ} {s s' : Watched} {x : (ℕ → Memory) × Request ℚ}
    (h : s.step d x = some s') : s'.flushes = s.flushes ∨ ∃ y, s'.flushes = s.flushes ++ [y] := by
  unfold Watched.step at h
  split at h
  · next o ho =>
    obtain rfl := Option.some.inj h
    show s.flushes ++ x.2.logged d (x.1 0) o.ret = s.flushes ∨
      ∃ y, s.flushes ++ x.2.logged d (x.1 0) o.ret = s.flushes ++ [y]
    unfold Request.logged
    split
    · split_ifs
      · exact .inr ⟨_, rfl⟩
      · exact .inl (List.append_nil _)
    · exact .inl (List.append_nil _)
  · cases h

variable {identifier : String} {watchdog : ℚ} {d : ℕ} {ndebug : Bool} {s : Watched}
variable {life : List ((ℕ → Memory) × Request ℚ)}

/-- In every state of its life a server tracks the log. -/
theorem tracks_of_run (hw : 0 ≤ watchdog)
    (hattached : (RealTimeIPC.server identifier watchdog d ndebug).Attached d)
    (hrun : run (Watched.step d) ⟨RealTimeIPC.server identifier watchdog d ndebug, []⟩ life =
      some s) (hclock : Clocked s.flushes) : Tracks watchdog d s := by
  refine run_invariant (fun s => Clocked s.flushes → Tracks watchdog d s) ?_
    (fun _ => Tracks.server_nil hattached) hrun hclock
  intro s x s' h hstep hclock
  have hbefore : Clocked s.flushes := by
    rcases Watched.flushes_step hstep with heq | ⟨y, heq⟩
    · rwa [heq] at hclock
    · rw [heq] at hclock
      exact hclock.of_append
  exact (h hbefore).step hw hclock hstep

/-- Every logged call was made by a server that tracked the calls before it. -/
theorem exists_tracks_of_log (hw : 0 ≤ watchdog)
    (hattached : (RealTimeIPC.server identifier watchdog d ndebug).Attached d)
    (hrun : run (Watched.step d) ⟨RealTimeIPC.server identifier watchdog d ndebug, []⟩ life =
      some s) (hclock : Clocked s.flushes) {l post : List FlushCall} {y : FlushCall}
    (hlog : s.flushes = l ++ y :: post) :
    ∃ t obuffer flush_ts shmem, Tracks watchdog d t ∧ t.flushes = l ∧
      y = t.call obuffer flush_ts shmem := by
  obtain ⟨pre, x, -, t, t', -, hpre, hl, hstep, hl'⟩ := exists_step_of_log Watched.flushes
    (fun _ _ _ => Watched.flushes_step) rfl hrun hlog
  rw [hlog] at hclock
  have htracks : Tracks watchdog d t := by
    refine tracks_of_run hw hattached hpre ?_
    rw [hl]
    exact hclock.of_append
  rcases Watched.step_cases htracks.attached hstep with
    ⟨b, b', rfl⟩ | ⟨obuffer, flush_ts, shmem, rfl⟩
  · -- the log would not have grown
    simp [hl] at hl'
  · refine ⟨t, obuffer, flush_ts, shmem, htracks, hl, ?_⟩
    have happend : t.flushes ++ [t.call obuffer flush_ts shmem] = l ++ [y] := hl'
    rw [hl] at happend
    exact (List.singleton_inj.mp (List.append_cancel_left happend)).symm

/-- **The watchdog of a server is complete.** Whatever a server does in its life and whatever it
finds in the segment, with clock readings that never go back: a `flush()` that sees a bonded
packet in hard RT returns `WATCHDOG` and zeros if

* its stamp is more than `watchdog_` ahead of the one that the `flush()` before it returned, or
* it ends a stall, and its clock reading is more than `watchdog_` after that of the second
  `flush()` of the stall. -/
theorem watchdog_complete (hw : 0 ≤ watchdog)
    (hattached : (RealTimeIPC.server identifier watchdog d ndebug).Attached d)
    (hrun : run (Watched.step d) ⟨RealTimeIPC.server identifier watchdog d ndebug, []⟩ life =
      some s) (hclock : Clocked s.flushes) :
    (∀ pre x y post, s.flushes = pre ++ x :: y :: post → y.Bonded → y.Hard →
      watchdog < y.stamp - x.flushed.time → y.Reset d) ∧
    ∀ pre x₀ x₁ mid y post stamp, s.flushes = pre ++ x₀ :: x₁ :: (mid ++ y :: post) →
      Stalled stamp (x₀ :: x₁ :: (mid ++ [y])) → y.Hard → watchdog < y.clock - x₁.clock →
      y.Reset d := by
  constructor
  · -- the stamp is too far ahead
    intro pre x y post hlog hbond hhard hlate
    have hsplit : s.flushes = (pre ++ [x]) ++ y :: post := by simp [hlog]
    obtain ⟨t, obuffer, flush_ts, shmem, h, hl, rfl⟩ :=
      exists_tracks_of_log hw hattached hrun hclock hsplit
    exact h.reset_of_late hl hbond hhard hlate
  · -- the stamp has not moved for too long
    intro pre x₀ x₁ mid y post stamp hlog hstalled hhard hlate
    have hsplit : s.flushes = (pre ++ x₀ :: x₁ :: mid) ++ y :: post := by simp [hlog]
    obtain ⟨t, obuffer, flush_ts, shmem, h, hl, rfl⟩ :=
      exists_tracks_of_log hw hattached hrun hclock hsplit
    rw [hsplit, ← hl] at hclock
    obtain ⟨hbond, rfl⟩ := hstalled (t.call obuffer flush_ts shmem)
      (List.mem_append_right (x₀ :: x₁ :: mid) (by simp))
    exact h.reset_of_stall hw hclock.of_append hl
      (fun x hx => hstalled x (List.mem_append_left [t.call obuffer flush_ts shmem] hx)) hbond hhard
      hlate

end Life

/-! ## A stall -/

/-- A segment that is bonded and in hard RT, with stamp zero. -/
def hardSegment : Memory := fun k => if k < 2 then 1 else 0

/-- A `flush()` of one byte, `sec` seconds after the clock has started. -/
def flushAt (sec : ℤ) : (ℕ → Memory) × Request ℚ :=
  (fun _ => hardSegment, .flush (fun _ => 255) 0 0 1 ⟨sec, 0⟩)

theorem clock_flushAt (s : Watched) (sec : ℤ) :
    (s.call (fun _ => 255) ⟨sec, 0⟩ (view 1 hardSegment)).clock = sec :=
  timer_to_s_sec sec

/-- The stamp stays where it is for two seconds, and the watchdog is set to one. -/
theorem watchdog_complete_stall :
    ∃ s x₀ x₁ y, run (Watched.step 1) ⟨RealTimeIPC.server "ipc" 1 1 false, []⟩
        [flushAt 0, flushAt 0, flushAt 2] = some s ∧ s.flushes = [x₀, x₁, y] ∧
      y.clock - x₁.clock = 2 ∧ y.Reset 1 := by
  have hattached : (RealTimeIPC.server "ipc" (1 : ℚ) 1 false).Attached 1 :=
    RealTimeIPC.attached_attach (.inl rfl) (by decide) (by decide)
  have hstep : ∀ s : Watched, s.endpoint.Attached 1 → ∀ sec, ∃ s',
      s.step 1 (flushAt sec) = some s' ∧ s'.endpoint.Attached 1 ∧
      s'.flushes = s.flushes ++ [s.call (fun _ => 255) ⟨sec, 0⟩ (view 1 hardSegment)] :=
    fun s hs sec => ⟨_, Watched.step_flush hs _ _ _ _ _,
      (RealTimeIPC.attached_flushPacket hs _ _ _).1, rfl⟩
  obtain ⟨s₀, h₀, hattached₀, hlog₀⟩ := hstep ⟨_, []⟩ hattached 0
  obtain ⟨s₁, h₁, hattached₁, hlog₁⟩ := hstep s₀ hattached₀ 0
  obtain ⟨s₂, h₂, -, hlog₂⟩ := hstep s₁ hattached₁ 2
  rw [hlog₁, hlog₀] at hlog₂
  have hrun := run_cons_eq_some.mpr ⟨s₀, h₀, run_cons_eq_some.mpr ⟨s₁, h₁,
    run_cons_eq_some.mpr ⟨s₂, h₂, run_nil s₂⟩⟩⟩
  have hclock : Clocked s₂.flushes := by
    rw [hlog₂]
    constructor
    · simp [clock_flushAt]
    · simp [clock_flushAt]
  refine ⟨s₂, _, _, _, hrun, hlog₂, by simp [clock_flushAt], ?_⟩
  refine (watchdog_complete zero_le_one hattached hrun hclock).2 [] _ _ [] _ []
    (view 1 hardSegment : DataPacket ℚ).header_.time_ hlog₂ ?_ rfl (by norm_num [clock_flushAt])
  intro x hx
  simp only [List.nil_append, List.mem_cons, List.not_mem_nil, or_false] at hx
  rcases hx with rfl | rfl | rfl <;> exact ⟨rfl, rfl⟩

end RealtimeUtilities
