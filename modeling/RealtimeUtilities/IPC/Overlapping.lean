import RealtimeUtilities.IPC.Sequential
import RealtimeUtilities.ToMathlib.Linearization

/-!
# Requests that overlap

Requests of any number of endpoints on one segment, with their accesses interleaved in any order. A
call names the endpoint as it is when the call is made, so nothing is said about who calls what
when: an endpoint may be used by one thread after the other, or forgotten.

Stale writes take changes back, but they do so with whole packets. So in every interleaving the
segment holds a register whose command is one that some `update()` was called with
(`overlapping_justified`). And while every write finds the packet that its operation has read,
the requests could have run one at a time (`overlapping_linearizable`).
-/

namespace RealtimeUtilities

open DataPacket Execution
open Routine (Threads Move)
open Routine.Threads (WritesBack Keeps Kept Linearizes UpToDate Solo)

variable {τ : Type} {d : ℕ}

/-- An endpoint that is attached to a segment with payload size `d`. -/
abbrev AttachedIPC (τ : Type) (d : ℕ) := { e : RealTimeIPC τ // e.Attached d }

/-- A request to an endpoint, given as it is when the call is made. -/
structure Visit (τ : Type) (d : ℕ) where
  endpoint : AttachedIPC τ d
  request : Request τ

variable [Double τ] [DoubleBytes τ]

/-- What a call runs. -/
def Visit.body (x : Visit τ d) : Access (Outcome τ (Reply τ)) :=
  x.request.access x.endpoint.val

/-- The segment and the calls made on it. -/
abbrev Visits (τ : Type) (d : ℕ) := Threads Memory (Visit τ d) Fault (Outcome τ (Reply τ))

/-- One step of the interleaving. -/
abbrev Visits.step (w : Visits τ d) (m : Move (Visit τ d)) : Option (Visits τ d) :=
  Threads.step Visit.body w m

/-- A segment right after its creation, in memory that held `garbage`, before any call. -/
def Visits.created (garbage : Memory) : Visits τ d where
  shared := memset garbage 0 (d + sizeofHeader)
  calls := []

variable {e : RealTimeIPC τ} {r : Register τ d} {m : Memory} {calls : Visit τ d → Prop}

/-- A request that does not write ends with its first access. -/
theorem Request.isEnded_of_not_writes (h : e.Attached d) {request : Request τ}
    (hreads : ¬ request.Writes) : (request.access e).isEnded = true ∨
      ∃ k, request.access e = .read k ∧ ∀ s, (k s).isEnded = true := by
  cases request with
  | write op => exact absurd trivial hreads
  | isBonded =>
    rw [Request.access, h.isBonded_eq]
    exact .inr ⟨_, rfl, fun _ => rfl⟩
  | isHardRT =>
    rw [Request.access, h.isHardRT_eq]
    exact .inr ⟨_, rfl, fun _ => rfl⟩
  | flush obuffer time latency_time n_bytes flush_ts =>
    by_cases hn : n_bytes = d
    · subst hn
      rw [Request.access, h.flush_eq]
      exact .inr ⟨_, rfl, fun _ => rfl⟩
    · rw [Request.access, h.flush_of_ne _ _ _ hn]
      exact .inl rfl

/-! ## Every command is somebody's -/

/-- The register holds what the calls put there: flags that somebody set, and the command of one
`update()`, or none. -/
structure Justified (calls : Visit τ d → Prop) (r : Register τ d) : Prop where
  bonded : r.bonded = true → ∃ e, calls ⟨e, .write .bond⟩
  hard : r.hard = true → ∃ e, calls ⟨e, .write .setHardRT⟩
  command : (r.stamp = Double.ofRat 0 ∧ ∀ j, r.payload j = 0) ∨
    (∃ e, calls ⟨e, .write .bond⟩) ∧ ∃ e ibuffer time,
      calls ⟨e, .write (.update ibuffer time d)⟩ ∧ r.stamp = time ∧ ∀ j, r.payload j = ibuffer j

omit [DoubleBytes τ] in
theorem justified_zero : Justified calls (Register.zero : Register τ d) where
  bonded h := by cases h
  hard h := by cases h
  command := .inl ⟨rfl, fun _ => rfl⟩

omit [DoubleBytes τ] in
theorem Justified.apply {x : Visit τ d} (h : Justified calls r) (hx : calls x) :
    Justified calls (r.apply x.request) := by
  obtain ⟨e, request⟩ := x
  cases request with
  | isBonded | isHardRT | flush => exact h
  | write op =>
    cases op with
    | bond =>
      simp only [Register.apply]
      split_ifs
      · exact h
      · exact ⟨fun _ => ⟨e, hx⟩, h.hard, h.command⟩
    | breakBond => exact ⟨by simp [Register.apply], by simp [Register.apply], h.command⟩
    | setHardRT => exact ⟨h.bonded, fun _ => ⟨e, hx⟩, h.command⟩
    | setSoftRT => exact ⟨h.bonded, by simp [Register.apply], h.command⟩
    | update ibuffer time n_bytes =>
      simp only [Register.apply]
      split_ifs with hbonded
      · -- a command is stored under a bond only
        obtain ⟨hbonded, rfl⟩ := hbonded
        exact ⟨h.bonded, h.hard, .inr ⟨h.bonded hbonded, e, ibuffer, time, hx, rfl, fun _ => rfl⟩⟩
      · exact h

/-- The packet is that of a register which the calls justify. -/
def Whole (calls : Visit τ d → Prop) (v : DataPacket τ) : Prop :=
  ∃ r : Register τ d, v = r.packet ∧ Justified calls r

variable [LawfulDoubleBytes τ]

/-- What an operation writes back when it has read the packet of a register is the packet of the new
register. -/
theorem Register.packet_of_edit (h : e.Attached d) {op : Op τ} (hop : op.Matches d)
    {v : DataPacket τ} (hv : op.edit e r.packet = some v) :
    v = (r.apply (.write op)).packet := by
  have hrep : r.Represents (r.packet.store d fun _ => 0) :=
    (represents_iff h.le_max).mpr (view_store r.fits_packet)
  obtain ⟨o, -, -, -, hrep'⟩ := simulates_write h hrep op
  have hview : view d (r.packet.store d fun _ => 0) = r.packet := view_store r.fits_packet
  rw [Op.access_eq h op hop, Routine.exec_read, hview, hv] at hrep'
  rw [← (represents_iff h.le_max).mp hrep']
  exact (view_store (Op.edit_spec h op r.fits_packet hv).1).symm

/-- Every request writes whole packets back. -/
theorem keeps_whole {x : Visit τ d} (hx : calls x) : Keeps (view d) (Whole calls) x.body := by
  obtain ⟨⟨e, he⟩, request⟩ := x
  by_cases hwrites : request.Writes
  · cases request with
    | write op =>
      show Keeps (view d) (Whole calls) (op.access e)
      by_cases hop : op.Matches d
      · refine .inr ⟨_, Op.access_eq he op hop, fun s hs => ?_⟩
        obtain ⟨r, hview, hr⟩ := hs
        rcases hv : op.edit e (view d s) with _ | v
        · exact .inl rfl
        · refine .inr ⟨v, Op.writesBack_store (Op.edit_spec he op fits_view hv).1 _, ?_⟩
          rw [hview] at hv
          exact ⟨_, Register.packet_of_edit he hop hv, hr.apply hx⟩
      · exact .inl (Op.isEnded_of_not_matches he op hop)
    | isBonded | isHardRT | flush => exact absurd hwrites id
  · refine (Request.isEnded_of_not_writes he hwrites).imp_right ?_
    rintro ⟨k, hk, hended⟩
    exact ⟨k, hk, fun s _ => .inl (hended s)⟩

variable {garbage : Memory} {w : Visits τ d} {ms : List (Move (Visit τ d))}

/-- In every interleaving the segment holds a register that the calls justify. -/
theorem justified_of_run (hd : d ≤ MAX_IPC_BUF_LENGHT)
    (hrun : run Visits.step (Visits.created garbage) ms = some w) :
    ∃ r : Register τ d, r.Represents w.shared ∧ Justified (fun x => .call x ∈ ms) r := by
  have hzero : Whole (fun x : Visit τ d => .call x ∈ ms)
      (view d (memset garbage 0 (d + sizeofHeader))) :=
    ⟨.zero, (Register.represents_iff hd).mp
      (Register.represents_zero hd fun k hk => memset_of_lt _ _ hk), justified_zero⟩
  obtain ⟨r, hview, hr⟩ := (Threads.kept_of_run hzero (fun x hx => keeps_whole hx) hrun).shared
  exact ⟨r, (Register.represents_iff hd).mpr hview, hr⟩

/-- **No torn commands.** Requests of any number of attached endpoints are interleaved in any way on
a segment that was just created. Then

* the segment holds the flags, the stamp and the payload of a register that the calls justify: its
  stamp and its payload are those of one call of `update()`, or still zero, and without a call of
  `bond()` it is neither bonded nor commanded;
* every `flush()` of the right size delivers what such a register holds, justified by the calls made
  before the `flush()`. -/
theorem overlapping_justified (hd : d ≤ MAX_IPC_BUF_LENGHT)
    (hrun : run Visits.step (Visits.created garbage) ms = some w) :
    (∃ r : Register τ d, r.Represents w.shared ∧ Justified (fun x => .call x ∈ ms) r) ∧
    ∀ (c : ℕ) e obuffer time latency_time flush_ts q,
      w.calls[c]? = some (⟨e, .flush obuffer time latency_time d flush_ts⟩, q) →
      ∃ pre post o f, ∃ r : Register τ d,
        ms = pre ++ .call ⟨e, .flush obuffer time latency_time d flush_ts⟩ :: post ∧
        q = .done o ∧ o.ret = .flushed f ∧ Justified (fun x => .call x ∈ pre) r ∧
        r.Delivers e.val.access_mode_ obuffer f := by
  refine ⟨justified_of_run hd hrun, fun c e obuffer time latency_time flush_ts q hc => ?_⟩
  obtain ⟨pre, post, w₀, hms, hpre, hstart⟩ := Threads.exists_call hrun hc
  obtain ⟨r, hrep, hr⟩ := justified_of_run hd hpre
  -- the `flush()` ended with its read, in which it found the packet of this register
  have hbody : Visit.body ⟨e, .flush obuffer time latency_time d flush_ts⟩ =
      .read fun segment => .done
        ((e.val.flushPacket obuffer flush_ts (view d segment)).map .flushed) := by
    rw [Visit.body, Request.access, e.property.flush_eq]
    rfl
  rw [hbody] at hstart
  refine ⟨pre, post, _, _, r, hms, hstart rfl, rfl, hr, ?_⟩
  rw [(Register.represents_iff hd).mp hrep]
  exact Register.delivers_flushPacket e.property obuffer flush_ts

/-! ## When the requests could have run one at a time -/

/-- Every request is one read and at most one write. -/
theorem brief_body (x : Visit τ d) : x.body.Brief := by
  obtain ⟨⟨e, he⟩, request⟩ := x
  by_cases hwrites : request.Writes
  · cases request with
    | write op => exact (Op.snapshots he op).brief
    | isBonded | isHardRT | flush => exact absurd hwrites id
  · refine (Request.isEnded_of_not_writes he hwrites).imp_right ?_
    rintro ⟨k, hk, hended⟩
    exact ⟨k, hk, fun s => .inl (hended s)⟩

/-- The register after requests that are made one after the other. -/
def registerOf (xs : List (Visit τ d)) : Register τ d :=
  xs.foldl (fun r x => r.apply x.request) Register.zero

/-- Requests that run one after the other leave the register that they make. -/
theorem represents_serial (hd : d ≤ MAX_IPC_BUF_LENGHT) (garbage : Memory)
    (xs : List (Visit τ d)) :
    (registerOf xs).Represents
      (Threads.serial Visit.body (memset garbage 0 (d + sizeofHeader)) xs) := by
  induction xs using List.reverseRecOn with
  | nil => exact Register.represents_zero hd fun k hk => memset_of_lt _ _ hk
  | append_singleton xs x ih =>
    obtain ⟨o, -, -, -, -, hrep, -⟩ := Register.simulates x.endpoint.property ih x.request
    rw [Threads.serial_concat, registerOf, List.foldl_concat]
    exact hrep

/-- **Overlapping requests see a gated register.** Requests of any number of attached endpoints are
interleaved on a segment that was just created, and every `setDataPacket()` finds the packet that
its operation has read. Then the requests that ended can be put in an order such that

* each of them has been answered as by the register that the requests before it in the order make,
  and the segment holds the register that all of them make;
* at every moment of the run, those that had ended by then come first, so that a request that ended
  before another one was called comes before it. -/
theorem overlapping_linearizable (hd : d ≤ MAX_IPC_BUF_LENGHT)
    (halong : Along Visits.step (UpToDate Visit.body) (Visits.created garbage) ms)
    (hrun : run Visits.step (Visits.created garbage) ms = some w) :
    ∃ order : List (ℕ × Visit τ d), (order.map Prod.fst).Nodup ∧
      (∀ c x, (c, x) ∈ order ↔ ∃ q, w.calls[c]? = some (x, q) ∧ q.isEnded = true) ∧
      (registerOf (order.map Prod.snd)).Represents w.shared ∧
      (∀ pre c x post, order = pre ++ (c, x) :: post → ∃ o, w.calls[c]? = some (x, .done o) ∧
        (registerOf (pre.map Prod.snd)).Answers x.endpoint.val.access_mode_ x.request o.ret) ∧
      ∀ pre post w₁, ms = pre ++ post →
        run Visits.step (Visits.created garbage) pre = some w₁ → ∃ n, ∀ c x,
          (c, x) ∈ order.take n ↔ ∃ q, w₁.calls[c]? = some (x, q) ∧ q.isEnded = true := by
  obtain ⟨order, horder, hprefixes⟩ :=
    Threads.exists_linearization brief_body halong hrun
  refine ⟨order, horder.nodup, horder.mem_iff, ?_, fun pre c x post hsplit => ?_,
    fun pre post w₁ hms hpre => ?_⟩
  · rw [horder.shared]
    exact represents_serial hd garbage _
  · obtain ⟨q, hc, hq⟩ := horder.result pre c x post hsplit
    obtain ⟨o, ho, -, -, hanswers, -⟩ := Register.simulates x.endpoint.property
      (represents_serial hd garbage (pre.map Prod.snd)) x.request
    refine ⟨o, ?_, hanswers⟩
    rw [hc, Routine.eq_done_of_result? (hq.trans (congrArg some ho))]
  · obtain ⟨order₁, hprefix, horder₁⟩ := hprefixes pre post w₁ hms hpre
    refine ⟨order₁.length, ?_⟩
    rw [← List.prefix_iff_eq_take.mp hprefix]
    exact horder₁.mem_iff

/-! ## A server and a client -/

/-- The server and the client with one byte of payload, as they are right after `init()`. -/
def visit (server : Bool) (request : Request Binary64) : Visit Binary64 1 :=
  ⟨⟨serverAndClient server, attached_serverAndClient server⟩, request⟩

/-- The client writes the byte `7` when the server has broken the bond: the write bonds the segment
again. A `flush()` delivers this command. -/
def staleUpdate : List (Move (Visit Binary64 1)) :=
  [.call (visit true (.write .bond)), .access 0,
    .call (visit false (.write (.update (fun _ => 7) (Double.ofRat 1) 1))),
    .call (visit true (.write .breakBond)), .access 2, .access 1,
    .call (visit false (.flush (fun _ => 255) (Double.ofRat 0) (Double.ofRat 0) 1 ⟨1, 0⟩))]

theorem overlapping_justified_stale :
    ∃ w, run Visits.step (Visits.created fun _ => 255) staleUpdate = some w ∧
      ∃ r : Register Binary64 1, r.Represents w.shared ∧
        Justified (fun x => .call x ∈ staleUpdate) r :=
  ⟨_, rfl, (overlapping_justified (by decide) rfl).1⟩

/-- The client calls `flush()` while the `update()` of another client is between its read and its
write. -/
def flushInUpdate : List (Move (Visit Binary64 1)) :=
  [.call (visit true (.write .bond)), .access 0,
    .call (visit false (.write (.update (fun _ => 7) (Double.ofRat 1) 1))),
    .call (visit false (.flush (fun _ => 255) (Double.ofRat 0) (Double.ofRat 0) 1 ⟨1, 0⟩)),
    .access 1]

theorem overlapping_linearizable_flush :
    ∃ w, run Visits.step (Visits.created fun _ => 255) flushInUpdate = some w ∧
      ∃ order : List (ℕ × Visit Binary64 1),
        (registerOf (order.map Prod.snd)).Represents w.shared := by
  refine ⟨_, rfl, ?_⟩
  have halong : Along Visits.step (UpToDate Visit.body) (Visits.created fun _ => 255)
      flushInUpdate :=
    Threads.upToDate_of_solo brief_body (by decide)
  obtain ⟨order, -, -, hrep, -⟩ := overlapping_linearizable (by decide) halong rfl
  exact ⟨order, hrep⟩

end RealtimeUtilities
