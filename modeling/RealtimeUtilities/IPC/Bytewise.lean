import Mathlib.Data.Finset.Range
import RealtimeUtilities.IPC.Overlapping
import RealtimeUtilities.ToMathlib.Locking

/-!
# Requests whose packets are copied byte by byte

`getDataPacket()` and `setDataPacket()` copy `shared_map_.get_size()` bytes with one `std::memcpy`,
which takes its time. Other endpoints copy meanwhile, unless the named mutex keeps them out. Here
the bytes are copied one at a time, in any order, and a copy is guarded by the mutex that its
endpoint has opened.

`bytewise_atomic` says that endpoints with one mutex work as if every copy were a single step, which
is what the interleavings of `Visits` take for granted. Endpoints of one segment with two mutexes do
not: they see packets that nobody has written.
-/

namespace RealtimeUtilities

open DataPacket Execution
open Routine (Threads Move Within Locking Copies CopyMove)

variable {τ : Type} {d : ℕ}

/-- A request to an endpoint which has opened the mutex number `mutex`. -/
structure LockedVisit (τ : Type) (d : ℕ) where
  visit : Visit τ d
  mutex : ℕ

variable [Double τ] {e : RealTimeIPC τ} {shmem : DataPacket τ}

/-- The bytes of a segment with payload size `d`. -/
def segmentBytes (d : ℕ) : Finset ℕ :=
  Finset.range (d + sizeofHeader)

variable [DoubleBytes τ]

/-- A packet is seen in the bytes of the segment. -/
theorem view_congr {m m' : Memory} (h : ∀ i ∈ segmentBytes d, m i = m' i) :
    (view d m : DataPacket τ) = view d m' := by
  refine ofBytes_congr fun k _ => ?_
  by_cases hk : k < d + sizeofHeader
  · rw [memcpy_of_lt _ _ hk, memcpy_of_lt _ _ hk]
    exact h k (Finset.mem_range.mpr hk)
  · rw [memcpy_of_le _ _ (not_lt.mp hk), memcpy_of_le _ _ (not_lt.mp hk)]

/-- A routine that reads a packet and goes on within the segment. -/
theorem within_read {R : Type} {f : DataPacket τ → Access R}
    (hf : ∀ p, (f p).Within (segmentBytes d)) :
    (Routine.read fun segment => f (view d segment)).Within (segmentBytes d) :=
  ⟨fun _ _ h => congrArg f (view_congr h), fun _ => hf _⟩

omit [Double τ] in
/-- What is written back stays within the segment. -/
theorem Op.within_writeBack (w : Option (DataPacket τ)) (o : Outcome τ (Reply τ)) :
    (writeBack d w o).Within (segmentBytes d) := by
  cases w with
  | none => trivial
  | some w =>
    refine ⟨⟨fun m m' i hi => ?_, fun m i hi => ?_⟩, trivial⟩
    · have hlt := Finset.mem_range.mp hi
      rw [store, store, memcpy_of_lt _ _ hlt, memcpy_of_lt _ _ hlt]
    · exact memcpy_of_le _ _ (not_lt.mp fun hlt => hi (Finset.mem_range.mpr hlt))

/-- A request accesses no more than the segment. -/
theorem Visit.within_body (x : Visit τ d) : x.body.Within (segmentBytes d) := by
  obtain ⟨⟨e, he⟩, request⟩ := x
  show (request.access e).Within (segmentBytes d)
  cases request with
  | write op =>
    by_cases hop : op.Matches d
    · rw [Request.access, Op.access_eq he op hop]
      exact within_read (f := fun p => Op.writeBack d (op.edit e p) (op.outcome e p))
        fun p => Op.within_writeBack _ _
    · exact Routine.within_of_isEnded (Op.isEnded_of_not_matches he op hop)
  | isBonded =>
    rw [Request.access, he.isBonded_eq]
    exact within_read (f := fun p => .done ((e.isBondedPacket p).map Reply.bool)) fun _ => trivial
  | isHardRT =>
    rw [Request.access, he.isHardRT_eq]
    exact within_read (f := fun p => .done ((e.isHardRTPacket p).map Reply.bool)) fun _ => trivial
  | flush obuffer time latency_time n_bytes flush_ts =>
    by_cases hn : n_bytes = d
    · subst hn
      rw [Request.access, he.flush_eq]
      exact within_read (f := fun p => .done ((e.flushPacket obuffer flush_ts p).map Reply.flushed))
        fun _ => trivial
    · rw [Request.access, he.flush_of_ne _ _ _ hn]
      trivial

/-- The copies of the requests: all bytes of the segment, into a packet that was cleared, under the
mutex of the endpoint. -/
def copying : Locking ℕ UInt8 (LockedVisit τ d) ℕ Fault (Outcome τ (Reply τ)) where
  body x := x.visit.body
  cells _ := segmentBytes d
  lock := LockedVisit.mutex
  buffer _ := (clear : DataPacket τ).bytes
  within x := x.visit.within_body

/-- The segment byte by byte, and the calls made on it. -/
abbrev BytewiseVisits (τ : Type) (d : ℕ) :=
  Copies ℕ UInt8 (LockedVisit τ d) Fault (Outcome τ (Reply τ))

/-- One step of the interleaving. -/
abbrev BytewiseVisits.step (w : BytewiseVisits τ d) (m : CopyMove (LockedVisit τ d) ℕ) :
    Option (BytewiseVisits τ d) :=
  Copies.step copying w m

/-- A segment right after its creation, in memory that held `garbage`, before any call. -/
def BytewiseVisits.created (garbage : Memory) : BytewiseVisits τ d where
  memory := memset garbage 0 (d + sizeofHeader)
  calls := []

/-- The accesses of an interleaving: a copy happens when its mutex is locked. -/
def accesses (ms : List (CopyMove (LockedVisit τ d) ℕ)) : List (Move (Visit τ d)) :=
  (ms.filterMap CopyMove.atomic).map (Move.relabel LockedVisit.visit)

variable {garbage : Memory} {w : BytewiseVisits τ d} {ms : List (CopyMove (LockedVisit τ d) ℕ)}
  {a : ℕ}

/-- **Copies under one mutex are atomic.** -/
theorem bytewise_atomic (hmutex : ∀ x, .call x ∈ ms → x.mutex = a)
    (hrun : run BytewiseVisits.step (BytewiseVisits.created garbage) ms = some w) :
    ∃ v, run Visits.step (Visits.created garbage) (accesses ms) = some v ∧
      (∀ (c : ℕ) x p, w.calls[c]? = some (x, .between p) → v.calls[c]? = some (x.visit, p)) ∧
      (w.Quiet → w.memory = v.shared) ∧
      ∃ rest w', (∀ m ∈ rest, CopyMove.atomic m = none) ∧
        run BytewiseVisits.step w rest = some w' ∧ w'.Quiet ∧ w'.memory = v.shared ∧
        ∀ (c : ℕ) x p, v.calls[c]? = some (x, p) ↔
          ∃ x', x'.visit = x ∧ w'.calls[c]? = some (x', .between p) := by
  have hdisciplined : Copies.Disciplined (copying : Locking ℕ UInt8 (LockedVisit τ d) ℕ Fault _)
      fun x => .call x ∈ ms := fun x y hx hy => .inl ((hmutex x hx).trans (hmutex y hy).symm)
  obtain ⟨v, hv, hrefines, hcalls⟩ := Copies.refines_of_run hdisciplined hrun
  have hcall : ∀ {c : ℕ} {x p}, v.calls[c]? = some (x, p) →
      (v.relabel LockedVisit.visit).calls[c]? = some (x.visit, p) := fun hc => by
    simp [Threads.relabel, hc]
  have hbody : ∀ x : LockedVisit τ d, Visit.body x.visit = x.visit.body := fun _ => rfl
  have hrelabel : run Visits.step (Visits.created garbage) (accesses ms) =
      some (v.relabel LockedVisit.visit) := Threads.run_relabel hbody hv
  refine ⟨v.relabel LockedVisit.visit, hrelabel, fun c x p hc => ?_,
    fun hquiet => (hrefines.shared_of_quiet hquiet).symm, ?_⟩
  · exact hcall (hrefines.getElem?_of_between hc)
  · obtain ⟨rest, w', hrest, hrun', hrefines', hquiet⟩ :=
      Copies.exists_quiet hdisciplined hcalls hrefines
    refine ⟨rest, w', hrest, hrun', hquiet, (hrefines'.shared_of_quiet hquiet).symm,
      fun c x p => ⟨fun hc => ?_, ?_⟩⟩
    · obtain ⟨y, hy, hxp⟩ : ∃ y, v.calls[c]? = some y ∧ (y.1.visit, y.2) = (x, p) := by
        simpa [Threads.relabel] using hc
      obtain ⟨rfl, rfl⟩ := Prod.mk.inj hxp
      exact ⟨y.1, rfl, (hrefines'.getElem?_iff_of_quiet hquiet).mp hy⟩
    · rintro ⟨x', rfl, hc⟩
      exact hcall (hrefines'.getElem?_of_between hc)

/-! ## A server and a client -/

/-- The call `c` copies the packet of a segment with one byte of payload, and unlocks the mutex. -/
def copyPacket (c : ℕ) : List (CopyMove (LockedVisit Binary64 1) ℕ) :=
  (List.range (1 + sizeofHeader)).map (.copy c) ++ [.release c]

/-- The client reads for an `update()` while the server is between the two copies of its
`bond()`. -/
def updateInBond : List (CopyMove (LockedVisit Binary64 1) ℕ) :=
  [.call ⟨visit true (.write .bond), 0⟩] ++ copyPacket 0 ++
    [.call ⟨visit false (.write (.update (fun _ => 7) (Double.ofRat 1) 1)), 0⟩] ++ copyPacket 1 ++
    [.acquire 0, .copy 0 3, .copy 0 0]

theorem bytewise_atomic_update :
    ∃ w, run BytewiseVisits.step (BytewiseVisits.created fun _ => 255) updateInBond = some w ∧
      ∃ v, run Visits.step (Visits.created fun _ => 255) (accesses updateInBond) = some v ∧
        (w.Quiet → w.memory = v.shared) := by
  obtain ⟨w, hw⟩ := Option.isSome_iff_exists.mp (show (run BytewiseVisits.step
    (BytewiseVisits.created fun _ => 255) updateInBond).isSome = true by decide +kernel)
  have hmutex : ∀ x, .call x ∈ updateInBond → x.mutex = 0 := by
    intro x hx
    have hcases : x = ⟨visit true (.write .bond), 0⟩ ∨
        x = ⟨visit false (.write (.update (fun _ => 7) (Double.ofRat 1) 1)), 0⟩ := by
      simpa [updateInBond, copyPacket] using hx
    rcases hcases with rfl | rfl <;> rfl
  obtain ⟨v, hv, -, hquiet, -⟩ := bytewise_atomic hmutex hw
  exact ⟨w, hw, v, hv, hquiet⟩

-- with a mutex of its own, the server flushes the payload of an `update()` whose stamp is not there
example :
    let bond := [.call ⟨visit true (.write .bond), 0⟩] ++ copyPacket 0 ++ [.acquire 0] ++
      copyPacket 0
    let update := [.call ⟨visit false (.write (.update (fun _ => 7) (Double.ofRat 1) 1)), 1⟩] ++
      copyPacket 1 ++ [.acquire 1, .copy 1 10]
    let flush := [.call ⟨visit true (.flush (fun _ => 255) (Double.ofRat 0) (Double.ofRat 0) 1
      ⟨1, 0⟩), 0⟩] ++ copyPacket 2
    (do
      let w ← run BytewiseVisits.step (BytewiseVisits.created fun _ => 255)
        (bond ++ update ++ flush)
      let (_, .between (.done o)) ← w.calls[2]? | none
      let .flushed f := o.ret | none
      return (f.obuffer 0, f.time)) = some ((7 : UInt8), Double.ofRat 0) := by
  decide +kernel

end RealtimeUtilities
