import RealtimeUtilities.IPC.Watchdog

/-!
# What the latency is measured from

`flush()` returns the stamp that it has found, zero if nobody is bonded, and the distance of that
from `data_time_prev_`, which every `flush()` sets at its end. But a client that finds the stamp
too far from its clock returns `WATCHDOG` before that. Then the next `flush()` measures from an
older stamp, unless the two are the same.

## Main definitions

* `Flushing`: an endpoint with its calls of `flush()`, whatever packets they see;
* `Measures`: the latencies are the distances between the stamps of successive calls;
* `Remembered`: the call keeps the stamp that it returns.

## Main result

* `measures_iff`: the one holds at every point of a run exactly if the other holds along it.
-/

namespace RealtimeUtilities

open DataPacket Execution

namespace RealTimeIPC

variable {e : RealTimeIPC ℚ} {obuffer : Memory} {flush_ts : timespec} {shmem : DataPacket ℚ}

/-- The stamp that a `flush()` returns when it finds `shmem`. -/
def stampOf (shmem : DataPacket ℚ) : ℚ :=
  if shmem.header_.bond_flag_ = 1 then shmem.header_.time_ else 0

/-- A client returns early when the stamp is too far from its clock. -/
def ReturnsEarly (e : RealTimeIPC ℚ) (flush_ts : timespec) (shmem : DataPacket ℚ) : Prop :=
  e.access_mode_.isClient = true ∧ 2 * e.watchdog_ < |timer_to_s flush_ts - stampOf shmem|

instance (e : RealTimeIPC ℚ) (flush_ts : timespec) (shmem : DataPacket ℚ) :
    Decidable (e.ReturnsEarly flush_ts shmem) := by
  unfold ReturnsEarly
  infer_instance

theorem flushPacket_ret_time :
    (e.flushPacket obuffer flush_ts shmem).ret.time = stampOf shmem := by
  simp only [flushPacket, stampOf, decide_eq_true_eq]
  split_ifs <;> rfl

/-- The latency is the distance from the stamp that the endpoint remembers. -/
theorem flushPacket_ret_latency :
    (e.flushPacket obuffer flush_ts shmem).ret.latency_time =
      stampOf shmem - e.data_time_prev_ := by
  simp only [flushPacket, stampOf, decide_eq_true_eq]
  split_ifs <;> rfl

/-- The endpoint remembers the stamp, unless it returns early. -/
theorem flushPacket_prev :
    (e.flushPacket obuffer flush_ts shmem).self.data_time_prev_ =
      if e.ReturnsEarly flush_ts shmem then e.data_time_prev_ else stampOf shmem := by
  have hearly : (e.access_mode_.isClient && Double.lt (Double.mul (Double.ofRat 2) e.watchdog_)
      (Double.fabs (Double.sub (timer_to_s flush_ts)
        (if shmem.header_.bond_flag_ = 1 then shmem.header_.time_ else Double.ofRat 0)))) = true ↔
      e.ReturnsEarly flush_ts shmem := by
    rw [Bool.and_eq_true, ReturnsEarly]
    exact and_congr_right' decide_eq_true_iff
  simp only [flushPacket, decide_eq_true_eq, hearly, stampOf]
  split_ifs <;> rfl

end RealTimeIPC

/-- An endpoint with what its calls of `flush()` have returned. -/
structure Flushing where
  endpoint : RealTimeIPC ℚ
  flushed : List (Flushed ℚ)

/-- A `flush()` of the right size that finds the packet `shmem`. -/
structure FlushEvent where
  obuffer : Memory
  flush_ts : timespec
  shmem : DataPacket ℚ

namespace Flushing

/-- An endpoint before its first `flush()`. -/
def start (e : RealTimeIPC ℚ) : Flushing where
  endpoint := e
  flushed := []

/-- What the next `flush()` does. -/
def outcome (s : Flushing) (x : FlushEvent) : Outcome ℚ (Flushed ℚ) :=
  s.endpoint.flushPacket x.obuffer x.flush_ts x.shmem

/-- One `flush()`. -/
def step (s : Flushing) (x : FlushEvent) : Option Flushing :=
  some { endpoint := (s.outcome x).self, flushed := s.flushed ++ [(s.outcome x).ret] }

/-- The step is what an attached endpoint does with the packet that it finds in the segment. -/
theorem step_of_observe [DoubleBytes ℚ] {s : Flushing} {d : ℕ} (h : s.endpoint.Attached d)
    (seen : ℕ → Memory) (obuffer : Memory) (time latency_time : ℚ) (flush_ts : timespec) :
    ∃ self f printed,
      ((Request.flush obuffer time latency_time d flush_ts).access s.endpoint).observe seen =
        .ok ⟨.flushed f, self, printed⟩ ∧
      s.step ⟨obuffer, flush_ts, view d (seen 0)⟩ = some ⟨self, s.flushed ++ [f]⟩ :=
  ⟨_, _, _, h.observe_flush seen obuffer time latency_time flush_ts, rfl⟩

/-- The latency of every call after the first is the distance of its stamp from the stamp of the
call before, and so it will be for the next call, whatever that finds. -/
structure Measures (s : Flushing) : Prop where
  latency : s.flushed.IsChain fun x y => y.latency_time = y.time - x.time
  next : ∀ x ∈ s.flushed.getLast?, ∀ event,
    (s.outcome event).ret.latency_time = (s.outcome event).ret.time - x.time

/-- The call does not return early, or with the stamp that the endpoint remembers. -/
def Remembered (s : Flushing) (x : FlushEvent) : Prop :=
  s.endpoint.ReturnsEarly x.flush_ts x.shmem →
    RealTimeIPC.stampOf x.shmem = s.endpoint.data_time_prev_

variable {s s' : Flushing} {x : FlushEvent}

/-- The next call measures from what the endpoint remembers. -/
theorem next_iff {f : Flushed ℚ} :
    (∀ event, (s.outcome event).ret.latency_time = (s.outcome event).ret.time - f.time) ↔
      s.endpoint.data_time_prev_ = f.time := by
  simp only [outcome, RealTimeIPC.flushPacket_ret_latency, RealTimeIPC.flushPacket_ret_time,
    sub_right_inj]
  exact ⟨fun h => h ⟨fun _ => 0, ⟨0, 0⟩, DataPacket.clear⟩, fun h _ => h⟩

/-- **A call keeps the measure exactly if it keeps its stamp.** -/
theorem measures_step_iff (h : s.Measures) (hs' : s.step x = some s') :
    s'.Measures ↔ s.Remembered x := by
  obtain rfl := Option.some.inj hs'
  -- its own latency is measured rightly
  have hchain : (s.flushed ++ [(s.outcome x).ret]).IsChain
      fun x y => y.latency_time = y.time - x.time := by
    refine List.isChain_append.mpr ⟨h.latency, List.isChain_singleton _, ?_⟩
    intro y hy z hz
    obtain rfl := Option.some.inj hz
    exact h.next y hy x
  have hnext : (∀ y ∈ (s.flushed ++ [(s.outcome x).ret]).getLast?, ∀ event,
      ((Flushing.mk (s.outcome x).self (s.flushed ++ [(s.outcome x).ret])).outcome
        event).ret.latency_time = ((Flushing.mk (s.outcome x).self
          (s.flushed ++ [(s.outcome x).ret])).outcome event).ret.time - y.time) ↔
      s.Remembered x := by
    rw [List.getLast?_concat]
    simp only [Option.mem_some_iff, forall_eq']
    rw [next_iff]
    show (s.endpoint.flushPacket _ _ _).self.data_time_prev_ =
      (s.endpoint.flushPacket _ _ _).ret.time ↔ _
    rw [RealTimeIPC.flushPacket_prev, RealTimeIPC.flushPacket_ret_time, Remembered]
    split_ifs with hearly
    · exact ⟨fun heq _ => heq.symm, fun heq => (heq hearly).symm⟩
    · exact iff_of_true rfl fun h => absurd h hearly
  exact ⟨fun h' => hnext.mp h'.next, fun hr => ⟨hchain, hnext.mpr hr⟩⟩

/-- **The latency is measured from the call before exactly as long as the stamps are kept.** For
every endpoint and every sequence of calls, whatever they find: at every point of the run the
latencies are the distances between the stamps of successive calls, if and only if no call returns
early with another stamp than the endpoint remembers. -/
theorem measures_iff (e : RealTimeIPC ℚ) (es : List FlushEvent) :
    Along step Remembered (start e) es ↔ ∀ pre post s, es = pre ++ post →
      run step (start e) pre = some s → s.Measures := by
  refine along_iff_prefix (fun _ => True) Measures ?_ ?_ ?_ trivial ?_
  · intro s x _ _ hnone
    cases hnone
  · exact fun _ _ _ _ _ _ _ => trivial
  · exact fun s x s' _ h hs' => measures_step_iff h hs'
  · exact ⟨List.isChain_nil, fun x hx => absurd hx (by simp [start])⟩

/-- A client that is bonded, finds the bond broken a second later, and is bonded again after one
more. -/
def brokenForOnce : List FlushEvent :=
  [⟨fun _ => 0, ⟨100, 0⟩, ⟨⟨1, 0, 100⟩, fun _ => 0⟩⟩, ⟨fun _ => 0, ⟨101, 0⟩, DataPacket.clear⟩,
    ⟨fun _ => 0, ⟨102, 0⟩, ⟨⟨1, 0, 102⟩, fun _ => 0⟩⟩]

/-- The second call returns early with the stamp zero, and the third one measures from the first:
its latency is two seconds, not a hundred and two. -/
theorem latency_after_early_return :
    let e : RealTimeIPC ℚ :=
      (RealTimeIPC.construct "ipc" 1 .SHMEM_CLIENT 0 false).attach (1 + sizeofHeader)
    ∃ s, run step (start e) brokenForOnce = some s ∧
      (s.flushed.map fun f => (f.time, f.latency_time)) = [(100, 100), (0, -100), (102, 2)] ∧
      ¬ s.flushed.IsChain fun x y => y.latency_time = y.time - x.time := by
  intro e
  have hflushed : ∀ s, run step (start e) brokenForOnce = some s →
      (s.flushed.map fun f => (f.time, f.latency_time)) =
        [(100, 100), (0, -100), (102, 2)] := by
    rintro s hs
    obtain rfl := Option.some.inj hs
    have hw : e.watchdog_ = 1 := rfl
    have hclient : e.access_mode_.isClient = true := rfl
    have hprev : e.data_time_prev_ = 0 := rfl
    have hbroken : RealTimeIPC.stampOf DataPacket.clear = 0 := if_neg (by decide)
    have hbonded : ∀ t, RealTimeIPC.stampOf ⟨⟨1, 0, t⟩, fun _ => 0⟩ = t := fun t => if_pos rfl
    have h100 : (timer_to_s ⟨100, 0⟩ : ℚ) = 100 := timer_to_s_sec 100
    have h101 : (timer_to_s ⟨101, 0⟩ : ℚ) = 101 := timer_to_s_sec 101
    simp only [start, outcome, List.nil_append, List.cons_append, List.map_cons, List.map_nil,
      RealTimeIPC.flushPacket_ret_time, RealTimeIPC.flushPacket_ret_latency,
      RealTimeIPC.flushPacket_prev, RealTimeIPC.ReturnsEarly, RealTimeIPC.flushPacket_watchdog,
      RealTimeIPC.flushPacket_access_mode, hw, hclient, hprev, h100, h101, hbroken, hbonded]
    norm_num
  refine ⟨_, rfl, hflushed _ rfl, fun hchain => ?_⟩
  -- the second and the third flush: the latency would have to be `102 - 0`
  have hpairs := List.isChain_map (R := fun x y : ℚ × ℚ => y.2 = y.1 - x.1)
    (fun f : Flushed ℚ => (f.time, f.latency_time)) |>.mpr hchain
  rw [hflushed _ rfl] at hpairs
  norm_num at hpairs

end Flushing

end RealtimeUtilities
