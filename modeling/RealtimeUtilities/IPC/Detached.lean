import RealtimeUtilities.IPC.Construction
import RealtimeUtilities.IPC.Register

/-!
# Endpoints without a segment

A server with no payload creates nothing, and a client goes on if there is nothing to open. Such
an endpoint has no mutex. Its operations are meant to end before they come to the segment, which
they decide by looking at `dim_with_header_`. `breakBond()` does not look, and a client that was
given a size of its own keeps it.

## Main definitions

* `Reaches`: a routine comes to the copy between packet and segment;
* `Use`: the operations of an endpoint up to its destruction;
* `Stopped`: an operation ends before it comes to the segment;
* `Inert`: no operation of a life comes to the copy without a segment.

## Main result

* `inert_iff`: the lives that are inert.
-/

namespace RealtimeUtilities

open Execution

/-- The routine comes to the copy in `getDataPacket()` or `setDataPacket()`. -/
def Reaches {ρ : Type} : Access ρ → Prop
  | .done _ => False
  | .abort (.assertion _) => False
  | .abort .nullMutex | .abort .overrun => True
  | .read _ | .write _ _ => True

namespace RealTimeIPC

variable {τ : Type}

/-- `mutex_` is not null, and `dim_with_header_` bytes are mapped. -/
def Mapped (e : RealTimeIPC τ) : Prop :=
  e.mutex_ = true ∧ e.shared_map_ = e.dim_with_header_

/-- The endpoint runs in one of the two `SHMEM` modes. -/
def Shared (e : RealTimeIPC τ) : Prop :=
  (e.access_mode_ = .SHMEM_SERVER ∨ e.access_mode_ = .SHMEM_CLIENT) ∧ e.rt_skin_ = .POSIX

/-- The assertion on the size passes, or is not compiled. -/
def Asserts (e : RealTimeIPC τ) : Prop :=
  e.ndebug = true ∨ e.dim_with_header_ < sizeofDataPacket

/-- The members that no operation changes are the same. -/
structure SameMembers (e e' : RealTimeIPC τ) : Prop where
  access_mode_ : e'.access_mode_ = e.access_mode_
  rt_skin_ : e'.rt_skin_ = e.rt_skin_
  dim_with_header_ : e'.dim_with_header_ = e.dim_with_header_
  shared_map_ : e'.shared_map_ = e.shared_map_
  mutex_ : e'.mutex_ = e.mutex_
  ndebug : e'.ndebug = e.ndebug

theorem SameMembers.refl (e : RealTimeIPC τ) : e.SameMembers e :=
  ⟨rfl, rfl, rfl, rfl, rfl, rfl⟩

theorem SameMembers.trans {e e' e'' : RealTimeIPC τ} (h : e.SameMembers e')
    (h' : e'.SameMembers e'') : e.SameMembers e'' :=
  ⟨h'.1.trans h.1, h'.2.trans h.2, h'.3.trans h.3, h'.4.trans h.4, h'.5.trans h.5,
    h'.6.trans h.6⟩

variable [Double τ] [DoubleBytes τ]

/-- The destructor after it has broken the bond: whether the names are removed (`Machine.remove`),
which only a server does. -/
def destructNames (e : RealTimeIPC τ) (printed : List (Printf τ)) : Access (Outcome τ Bool) := do
  match e.access_mode_ with
  | .PIPE_SERVER => e.assert (e.rt_skin_ = .RT_ALCHEMY) "rt_skin_ == RT_ALCHEMY"
  | .PIPE_CLIENT | .SHMEM_SERVER | .SHMEM_CLIENT =>
      e.assert (e.rt_skin_ = .POSIX) "rt_skin_ == POSIX"
  | .MQUEUE_SERVER | .MQUEUE_CLIENT =>
      e.assert (e.rt_skin_ = .RT_POSIX) "rt_skin_ == RT_POSIX"
      e.assert false "0"
  return {
    ret := e.access_mode_ = .SHMEM_SERVER
    self := e
    printed :=
      [⟨"[ %s ][ RealTimeIPC Destructor ] Shared Mem Destructor\n", [.str e.name_]⟩] ++ printed ++
        [⟨"[ DONE] RealTimeIPC Init[ %s ]\n", [.str e.name_]⟩] }

/-- The destructor. -/
def destruct (e : RealTimeIPC τ) : Access (Outcome τ Bool) :=
  if e.dim_with_header_ > sizeofHeader then do
    let bonded ← e.isBonded
    if bonded.ret then do
      let broken ← bonded.self.breakBond
      broken.self.destructNames (bonded.printed ++ broken.printed)
    else bonded.self.destructNames bonded.printed
  else return { ret := false, self := e, printed := [] }

end RealTimeIPC

/-- The operations of an endpoint, `dump()`, and the destruction. -/
inductive Use (τ : Type) where
  | request (r : Request τ)
  | dump
  | destruct

variable {τ : Type}

/-- The operation ends before it comes to `getDataPacket()`. -/
def Request.Stopped (e : RealTimeIPC τ) : Request τ → Prop
  | .write .breakBond => False
  | .write (.update _ _ n_bytes) | .flush _ _ _ n_bytes _ =>
      e.payloadSize ≠ n_bytes ∨ e.payloadSize = 0
  | .write .bond | .write .setHardRT | .write .setSoftRT | .isBonded | .isHardRT =>
      e.dim_with_header_ = sizeofHeader

namespace Use

/-- The operation ends before it comes to `getDataPacket()`. -/
def Stopped (e : RealTimeIPC τ) : Use τ → Prop
  | request r => r.Stopped e
  | dump => False
  | destruct => e.dim_with_header_ ≤ sizeofHeader

variable [Double τ] [DoubleBytes τ]

/-- The endpoint after the operation, called on the endpoint `e`. -/
def access (e : RealTimeIPC τ) : Use τ → Access (RealTimeIPC τ)
  | request r => do
      let o ← r.access e
      return o.self
  | dump => do
      let _ ← e.getDataPacket
      return e
  | destruct => do
      let o ← e.destruct
      return o.self

/-- One operation of an endpoint, which finds the segment as `x.1 i` at its access number `i`. -/
def step (e : RealTimeIPC τ) (x : (ℕ → Memory) × Use τ) : Option (RealTimeIPC τ) :=
  ((x.2.access e).observe x.1).toOption

end Use

/-! ## Where an operation comes to -/

section Reaches

variable {ρ ρ' : Type} {e : RealTimeIPC τ}

/-- What follows on a routine that ends before the copy does not matter, if it does not come to the
copy itself. -/
theorem reaches_bind {p : Access ρ} {f : ρ → Access ρ'} (h : ∀ r, ¬ Reaches (f r)) :
    Reaches (p >>= f) ↔ Reaches p := by
  cases p with
  | done r => exact iff_of_false (h r) id
  | abort f => cases f <;> exact Iff.rfl
  | read k => exact Iff.rfl
  | write g k => exact Iff.rfl

variable [Double τ] [DoubleBytes τ]

/-- `getDataPacket()` comes to the copy if the assertion on the size lets it. -/
theorem reaches_getDataPacket_bind (h : e.Shared) (f : DataPacket τ → Access ρ) :
    Reaches (e.getDataPacket >>= f) ↔ e.Asserts := by
  obtain ⟨hmode, hskin⟩ := h
  unfold RealTimeIPC.getDataPacket
  by_cases hasserts : e.Asserts
  · have hdim : e.assert (e.dim_with_header_ < sizeofDataPacket)
        "dim_with_header_ < sizeof(RealTimeIPC::DataPacket)" = .done () := by
      rw [RealTimeIPC.assert, if_pos]
      simpa [RealTimeIPC.Asserts] using hasserts
    have hposix : e.assert (e.rt_skin_ = .POSIX) "rt_skin_ == POSIX" = .done () := by
      simp [RealTimeIPC.assert, hskin]
    refine iff_of_true ?_ hasserts
    rw [hdim, hposix]
    -- the lock fails, or the segment is copied
    rcases hmode with hmode | hmode <;> rw [hmode]
    all_goals
      unfold RealTimeIPC.lock
      split_ifs <;> trivial
  · have hdim : e.assert (e.dim_with_header_ < sizeofDataPacket)
        "dim_with_header_ < sizeof(RealTimeIPC::DataPacket)" =
        .abort (.assertion "dim_with_header_ < sizeof(RealTimeIPC::DataPacket)") := by
      rw [RealTimeIPC.assert, if_neg]
      simpa [RealTimeIPC.Asserts] using hasserts
    rw [hdim]
    exact iff_of_false id hasserts

theorem reaches_return {p : Access ρ} {g : ρ → ρ'} :
    Reaches (p >>= fun o => return g o) ↔ Reaches p :=
  reaches_bind fun _ => id

/-- The guard of the operations without a size. -/
theorem reaches_dim_guard (h : e.Shared) (o : ρ) (f : DataPacket τ → Access ρ) :
    Reaches (if e.dim_with_header_ = sizeofHeader then return o else e.getDataPacket >>= f) ↔
      ¬ e.dim_with_header_ = sizeofHeader ∧ e.Asserts := by
  split_ifs with hdim
  · exact iff_of_false id fun h => h.1 hdim
  · rw [reaches_getDataPacket_bind h]
    exact (and_iff_right hdim).symm

/-- The guards of `update()` and `flush()`. -/
theorem reaches_size_guard (h : e.Shared) (n_bytes : ℕ) (o o' : ρ)
    (f : DataPacket τ → Access ρ) :
    Reaches (if e.payloadSize ≠ n_bytes then return o
      else if e.payloadSize ≤ 0 then return o' else e.getDataPacket >>= f) ↔
      ¬ (e.payloadSize ≠ n_bytes ∨ e.payloadSize = 0) ∧ e.Asserts := by
  split_ifs with hsize hzero
  · exact iff_of_false id fun h => h.1 (.inl hsize)
  · exact iff_of_false id fun h => h.1 (.inr (Nat.le_zero.mp hzero))
  · rw [reaches_getDataPacket_bind h]
    refine (and_iff_right ?_).symm
    rintro (hne | hzero')
    · exact hsize hne
    · exact hzero hzero'.le

/-- An operation that is not stopped comes to the copy if the assertion lets it. -/
theorem Request.reaches_iff (h : e.Shared) (r : Request τ) :
    Reaches (r.access e) ↔ ¬ r.Stopped e ∧ e.Asserts := by
  cases r with
  | write op =>
    cases op with
    | update ibuffer time n_bytes => exact reaches_return.trans (reaches_size_guard h _ _ _ _)
    | breakBond =>
      refine reaches_return.trans ((reaches_getDataPacket_bind h _).trans ?_)
      exact (and_iff_right id).symm
    | _ => exact reaches_return.trans (reaches_dim_guard h _ _)
  | flush obuffer time latency_time n_bytes flush_ts =>
    exact reaches_return.trans (reaches_size_guard h _ _ _ _)
  | _ => exact reaches_return.trans (reaches_dim_guard h _ _)

/-- So it is with `dump()` and the destructor. -/
theorem Use.reaches_iff (h : e.Shared) (u : Use τ) :
    Reaches (u.access e) ↔ ¬ u.Stopped e ∧ e.Asserts := by
  cases u with
  | request r => exact reaches_return.trans (r.reaches_iff h)
  | dump => exact (reaches_getDataPacket_bind h _).trans (and_iff_right id).symm
  | destruct =>
    refine reaches_return.trans ?_
    unfold RealTimeIPC.destruct Stopped
    split_ifs with hdim
    · -- `isBonded()` comes first
      rw [RealTimeIPC.isBonded, if_neg hdim.ne', Routine.bind_assoc, reaches_getDataPacket_bind h]
      exact (and_iff_right (not_le.mpr hdim)).symm
    · exact iff_of_false id fun h => h.1 (not_lt.mp hdim)

/-! ## What an operation leaves of the endpoint -/

omit [Double τ] [DoubleBytes τ] in
theorem done_of_dim_guard {p : Access (Outcome τ ρ)} {o : Outcome τ ρ}
    (h : e.dim_with_header_ = sizeofHeader) (ho : o.self = e) :
    ∃ x, (if e.dim_with_header_ = sizeofHeader then return o else p) = Routine.done x ∧
      x.self = e :=
  ⟨o, if_pos h, ho⟩

omit [Double τ] [DoubleBytes τ] in
theorem done_of_size_guard {p : Access (Outcome τ ρ)} {o o' : Outcome τ ρ} {n_bytes : ℕ}
    (h : e.payloadSize ≠ n_bytes ∨ e.payloadSize = 0) (ho : o.self = e) (ho' : o'.self = e) :
    ∃ x, (if e.payloadSize ≠ n_bytes then return o
      else if e.payloadSize ≤ 0 then return o' else p) = Routine.done x ∧ x.self = e := by
  by_cases hsize : e.payloadSize ≠ n_bytes
  · exact ⟨o, if_pos hsize, ho⟩
  · have hzero : e.payloadSize ≤ 0 := (h.resolve_left hsize).le
    exact ⟨o', by rw [if_neg hsize, if_pos hzero]; rfl, ho'⟩

omit [Double τ] [DoubleBytes τ] in
theorem done_map {p : Access (Outcome τ ρ)} {g : ρ → ρ'}
    (h : ∃ x, p = Routine.done x ∧ x.self = e) :
    ∃ x, (do let o ← p; return o.map g) = Routine.done x ∧ x.self = e := by
  obtain ⟨x, rfl, hx⟩ := h
  exact ⟨x.map g, rfl, hx⟩

/-- A stopped operation returns at once, and leaves the endpoint as it is. -/
theorem Request.access_of_stopped {r : Request τ} (h : r.Stopped e) :
    ∃ x, r.access e = .done x ∧ x.self = e := by
  cases r with
  | write op =>
    cases op with
    | update ibuffer time n_bytes => exact done_map (done_of_size_guard h rfl rfl)
    | breakBond => exact absurd h id
    | _ => exact done_map (done_of_dim_guard h rfl)
  | flush obuffer time latency_time n_bytes flush_ts =>
    exact done_map (done_of_size_guard h rfl rfl)
  | _ => exact done_map (done_of_dim_guard h rfl)

theorem Use.step_of_stopped {u : Use τ} (h : u.Stopped e) (seen : ℕ → Memory) :
    Use.step e (seen, u) = some e := by
  cases u with
  | request r =>
    obtain ⟨x, hx, hself⟩ := r.access_of_stopped h
    simp only [step, access, hx, Routine.done_bind]
    exact congrArg some hself
  | dump => exact absurd h id
  | destruct =>
    simp only [step, access, RealTimeIPC.destruct, if_neg (not_lt.mpr h)]
    rfl

omit [Double τ] [DoubleBytes τ] in
theorem ends_map {p : Access (Outcome τ ρ)} {g : ρ → ρ'}
    (h : p.Ends fun o => e.SameMembers o.self) :
    (do let o ← p; return o.map g : Access (Outcome τ ρ')).Ends fun o => e.SameMembers o.self :=
  h.bind fun _ ho => ho

/-- What is returned after reading and writing packets leaves the members alone. -/
theorem ends_getDataPacket_bind {f : DataPacket τ → Access ρ} {P : ρ → Prop}
    (h : ∀ shmem, (f shmem).Ends P) : (e.getDataPacket >>= f).Ends P :=
  (Routine.ends_true _).bind fun shmem _ => h shmem

omit [Double τ] in
theorem ends_setDataPacket_bind {shmem : DataPacket τ} {f : Unit → Access ρ} {P : ρ → Prop}
    (h : (f ()).Ends P) : (e.setDataPacket shmem >>= f).Ends P :=
  (Routine.ends_true _).bind fun _ _ => h

theorem ends_isBonded (e : RealTimeIPC τ) : e.isBonded.Ends fun o => e.SameMembers o.self := by
  unfold RealTimeIPC.isBonded
  split_ifs
  · exact .refl e
  · refine ends_getDataPacket_bind fun shmem => ?_
    show e.SameMembers (e.isBondedPacket shmem).self
    rw [RealTimeIPC.isBondedPacket_self]
    exact ⟨rfl, rfl, rfl, rfl, rfl, rfl⟩

theorem ends_breakBond (e : RealTimeIPC τ) : e.breakBond.Ends fun o => e.SameMembers o.self :=
  ends_getDataPacket_bind fun _ => ends_setDataPacket_bind (.refl e)

/-- No operation changes the members that say where the segment is. -/
theorem Request.ends_sameMembers (e : RealTimeIPC τ) (r : Request τ) :
    (r.access e).Ends fun o => e.SameMembers o.self := by
  cases r with
  | write op =>
    cases op with
    | update ibuffer time n_bytes =>
      refine ends_map ?_
      unfold RealTimeIPC.update
      split_ifs
      · exact .refl e
      · exact .refl e
      · exact ends_getDataPacket_bind fun _ => ends_setDataPacket_bind (.refl e)
    | breakBond => exact ends_map (ends_breakBond e)
    | bond =>
      refine ends_map ?_
      unfold RealTimeIPC.bond
      split_ifs
      · exact .refl e
      · refine ends_getDataPacket_bind fun shmem => ?_
        -- an existing bond is refused
        split_ifs
        · exact .refl e
        · exact ends_setDataPacket_bind (.refl e)
    | setHardRT =>
      refine ends_map ?_
      unfold RealTimeIPC.setHardRT
      split_ifs
      · exact .refl e
      · exact ends_getDataPacket_bind fun _ => ends_setDataPacket_bind (.refl e)
    | setSoftRT =>
      refine ends_map ?_
      unfold RealTimeIPC.setSoftRT
      split_ifs
      · exact .refl e
      · exact ends_getDataPacket_bind fun _ => ends_setDataPacket_bind (.refl e)
  | isBonded => exact ends_map (ends_isBonded e)
  | isHardRT =>
    refine ends_map ?_
    unfold RealTimeIPC.isHardRT
    split_ifs
    · exact .refl e
    · refine ends_getDataPacket_bind fun shmem => ?_
      show e.SameMembers (e.isHardRTPacket shmem).self
      rw [RealTimeIPC.isHardRTPacket_self]
      exact ⟨rfl, rfl, rfl, rfl, rfl, rfl⟩
  | flush obuffer time latency_time n_bytes flush_ts =>
    refine ends_map ?_
    unfold RealTimeIPC.flush
    split_ifs
    · exact .refl e
    · exact .refl e
    · refine ends_getDataPacket_bind fun shmem => ?_
      show e.SameMembers (e.flushPacket obuffer flush_ts shmem).self
      simp only [RealTimeIPC.flushPacket]
      split_ifs <;> exact ⟨rfl, rfl, rfl, rfl, rfl, rfl⟩

omit [Double τ] [DoubleBytes τ] in
theorem ends_destructNames (e : RealTimeIPC τ) (printed : List (Printf τ)) :
    (e.destructNames printed).Ends fun o => e.SameMembers o.self := by
  unfold RealTimeIPC.destructNames
  cases e.access_mode_
  case MQUEUE_SERVER | MQUEUE_CLIENT =>
    refine Routine.Ends.bind (Routine.ends_true _) fun _ _ => ?_
    exact Routine.Ends.bind (Routine.ends_true _) fun _ _ => .refl e
  all_goals exact Routine.Ends.bind (Routine.ends_true _) fun _ _ => .refl e

theorem ends_destruct (e : RealTimeIPC τ) : e.destruct.Ends fun o => e.SameMembers o.self := by
  unfold RealTimeIPC.destruct
  split_ifs
  · refine (ends_isBonded e).bind fun bonded hbonded => ?_
    split_ifs
    · refine (ends_breakBond _).bind fun broken hbroken => ?_
      exact (ends_destructNames _ _).imp fun _ ho => (hbonded.trans hbroken).trans ho
    · exact (ends_destructNames _ _).imp fun _ ho => hbonded.trans ho
  · exact .refl e

/-- An operation keeps these members. -/
theorem Use.sameMembers_step {x : (ℕ → Memory) × Use τ} {e' : RealTimeIPC τ}
    (h : Use.step e x = some e') : e.SameMembers e' := by
  obtain ⟨seen, u⟩ := x
  -- it is so wherever an operation ends, and this one has ended in `e'`
  have hends : (u.access e).Ends e.SameMembers := by
    cases u with
    | request r => exact (r.ends_sameMembers e).bind fun _ ho => ho
    | dump => exact ends_getDataPacket_bind fun _ => .refl e
    | destruct => exact (ends_destruct e).bind fun _ ho => ho
  simp only [step] at h
  cases hobserve : (u.access e).observe seen with
  | error f =>
    rw [hobserve] at h
    cases h
  | ok e'' =>
    rw [hobserve] at h
    obtain rfl := Option.some.inj h
    exact hends.observe hobserve

end Reaches

/-! ## Lives -/

namespace RealTimeIPC

theorem SameMembers.shared {e e' : RealTimeIPC τ} (h : e.SameMembers e') (hshared : e.Shared) :
    e'.Shared := by
  rw [Shared, h.access_mode_, h.rt_skin_]
  exact hshared

theorem SameMembers.mapped {e e' : RealTimeIPC τ} (h : e.SameMembers e') :
    e'.Mapped ↔ e.Mapped := by
  rw [Mapped, Mapped, h.mutex_, h.shared_map_, h.dim_with_header_]

theorem SameMembers.asserts {e e' : RealTimeIPC τ} (h : e.SameMembers e') :
    e'.Asserts ↔ e.Asserts := by
  rw [Asserts, Asserts, h.ndebug, h.dim_with_header_]

variable [Double τ] [DoubleBytes τ] {e : RealTimeIPC τ} {uses : List ((ℕ → Memory) × Use τ)}

/-- The operation comes to the copy only if the endpoint has a mutex and a segment. -/
def ReachesMapped (e : RealTimeIPC τ) (x : (ℕ → Memory) × Use τ) : Prop :=
  Reaches (x.2.access e) → e.Mapped

theorem sameMembers_run {e' : RealTimeIPC τ} (h : run Use.step e uses = some e') :
    e.SameMembers e' :=
  run_invariant (fun t => e.SameMembers t) (fun _ _ _ ht hstep => ht.trans
    (Use.sameMembers_step hstep)) (.refl e) h

/-- An endpoint with a segment keeps it. -/
theorem along_of_mapped (h : e.Mapped) : Along Use.step ReachesMapped e uses :=
  along_of_prefix fun _ _ _ _ _ hrun _ => (sameMembers_run hrun).mapped.mpr h

/-- Without a mutex all depends on what is stopped, unless an assertion fails in any case. -/
theorem along_iff_of_detached (hshared : e.Shared) (hmutex : e.mutex_ = false) :
    Along Use.step ReachesMapped e uses ↔ ¬ e.Asserts ∨ ∀ x ∈ uses, x.2.Stopped e := by
  have hmapped : ¬ e.Mapped := by simp [Mapped, hmutex]
  have hreaches : ∀ x, ReachesMapped e x ↔ ¬ e.Asserts ∨ x.2.Stopped e := by
    intro x
    rw [ReachesMapped, imp_iff_not hmapped, x.2.reaches_iff hshared]
    tauto
  by_cases hasserts : e.Asserts
  · simp only [hasserts, not_true_eq_false, false_or] at hreaches ⊢
    induction uses with
    | nil => simp
    | cons x xs ih =>
      rw [Along, hreaches, List.forall_mem_cons]
      refine and_congr_right fun hstopped => ?_
      -- a stopped operation leaves the endpoint as it is
      simp only [Use.step_of_stopped hstopped, Option.some.injEq, forall_eq']
      exact ih
  · refine iff_of_true ?_ (.inl hasserts)
    refine along_of_prefix fun _ x _ t _ hrun hreach => ?_
    have hmembers := sameMembers_run hrun
    have := ((x.2.reaches_iff (hmembers.shared hshared)).mp hreach).2
    exact absurd (hmembers.asserts.mp this) hasserts

end RealTimeIPC

/-- **A detached endpoint is inert**: in a life of requests and the destruction after them, no
operation comes to the copy unless the endpoint has a mutex and a segment. -/
def Inert [Double τ] [DoubleBytes τ] (e : RealTimeIPC τ)
    (requests : List ((ℕ → Memory) × Request τ)) (last : ℕ → Memory) : Prop :=
  Along Use.step RealTimeIPC.ReachesMapped e
    (requests.map (fun x => (x.1, .request x.2)) ++ [(last, .destruct)])

/-! ## Constructed endpoints -/

/-- The construction of a server makes a segment, and that of a client finds one with its
mutex. -/
def Attaches (m : Machine) (identifier : String) (mode : AccessMode) (dim : ℕ) : Prop :=
  (mode = .SHMEM_SERVER ∧ sizeofHeader < (dim + sizeofHeader) % 2 ^ 64) ∨
    (mode = .SHMEM_CLIENT ∧ (m.segments identifier).isSome = true ∧ m.mutexes identifier = true)

namespace RealTimeIPC

variable [Double τ] {fails : BoostCall → Bool} {m after : Machine} {identifier : String}
  {watchdog_decimation : τ} {mode : AccessMode} {dim : ℕ} {ndebug : Bool} {e : RealTimeIPC τ}

/-- A constructed endpoint has its segment, or no mutex and the size that it was given. -/
theorem returned_cases (hmode : mode = .SHMEM_SERVER ∨ mode = .SHMEM_CLIENT)
    (h : create fails m identifier watchdog_decimation mode dim ndebug = .returned e after) :
    e.Shared ∧ e.ndebug = ndebug ∧
      ((Attaches m identifier mode dim ∧ e.Mapped) ∨
        (¬ Attaches m identifier mode dim ∧ e.mutex_ = false ∧
          e.dim_with_header_ = (dim + sizeofHeader) % 2 ^ 64)) := by
  rcases hmode with rfl | rfl
  · rcases returned_server h with ⟨hsize, -, rfl⟩ | ⟨hsize, -, -, rfl⟩
    · -- a server that was given no payload creates nothing
      refine ⟨⟨.inl rfl, rfl⟩, rfl, .inr ⟨?_, rfl, rfl⟩⟩
      rintro (⟨-, hlt⟩ | ⟨hmode, -⟩)
      · exact absurd hlt (not_lt.mpr hsize)
      · cases hmode
    · exact ⟨⟨.inl rfl, rfl⟩, rfl, .inl ⟨.inl ⟨rfl, hsize⟩, rfl, rfl⟩⟩
  · have he := returned_client h
    have hattaches : Attaches m identifier .SHMEM_CLIENT dim ↔
        (m.segments identifier).isSome = true ∧ m.mutexes identifier = true := by
      simp [Attaches]
    rw [hattaches]
    -- a client that lacks either of the two objects keeps the size that it was given
    cases hsegment : m.segments identifier with
    | none =>
      rw [hsegment] at he
      obtain rfl := he
      exact ⟨⟨.inr rfl, rfl⟩, rfl, .inr ⟨by simp, rfl, rfl⟩⟩
    | some object =>
      rw [hsegment] at he
      cases hmutex : m.mutexes identifier with
      | true =>
        rw [hmutex] at he
        obtain rfl := he
        exact ⟨⟨.inr rfl, rfl⟩, rfl, .inl ⟨by simp, rfl, rfl⟩⟩
      | false =>
        rw [hmutex] at he
        obtain rfl := he
        exact ⟨⟨.inr rfl, rfl⟩, rfl, .inr ⟨by simp, rfl, rfl⟩⟩

end RealTimeIPC

/-- The operation is stopped if the endpoint was given `dim` bytes and no segment. -/
def Request.StoppedFor (dim : ℕ) : Request τ → Prop
  | .write .breakBond => False
  | .write (.update _ _ n_bytes) | .flush _ _ _ n_bytes _ => n_bytes ≠ dim ∨ dim = 0
  | .write .bond | .write .setHardRT | .write .setSoftRT | .isBonded | .isHardRT => dim = 0

section Sizes

variable {e : RealTimeIPC τ} {dim : ℕ}

theorem payloadSize_of_dim (hdim : dim < 2 ^ 64)
    (he : e.dim_with_header_ = (dim + sizeofHeader) % 2 ^ 64) : e.payloadSize = dim := by
  rw [RealTimeIPC.payloadSize, he, sizeofHeader]
  omega

theorem Request.stopped_iff (hdim : dim < 2 ^ 64)
    (he : e.dim_with_header_ = (dim + sizeofHeader) % 2 ^ 64) (r : Request τ) :
    r.Stopped e ↔ r.StoppedFor dim := by
  have hsize := payloadSize_of_dim hdim he
  have hzero : e.dim_with_header_ = sizeofHeader ↔ dim = 0 := by
    rw [he, sizeofHeader]
    omega
  cases r with
  | write op =>
    cases op with
    | update ibuffer time n_bytes => simp only [Stopped, StoppedFor, hsize, ne_comm]
    -- the only operation without a test
    | breakBond => exact Iff.rfl
    | _ => exact hzero
  | flush obuffer time latency_time n_bytes flush_ts =>
    simp only [Stopped, StoppedFor, hsize, ne_comm]
  | _ => exact hzero

theorem Use.destruct_stopped_iff (hdim : dim < 2 ^ 64)
    (he : e.dim_with_header_ = (dim + sizeofHeader) % 2 ^ 64) :
    Use.destruct.Stopped e ↔ dim = 0 ∨ 2 ^ 64 ≤ dim + sizeofHeader := by
  rw [Use.Stopped, he, sizeofHeader]
  omega

end Sizes

section Main

variable [Double τ] [DoubleBytes τ] {fails : BoostCall → Bool} {m after : Machine}
  {identifier : String} {watchdog_decimation : τ} {mode : AccessMode} {dim : ℕ} {ndebug : Bool}
  {e : RealTimeIPC τ}

/-- **When a constructed endpoint is inert.** If it has got a segment, always. If it has not, only
if an assertion aborts what would come to the copy, or if everything is stopped: then nothing but
`update()` and `flush()` of other sizes may be called, or the endpoint was given no payload, and
never `breakBond()`. -/
theorem inert_iff (hmode : mode = .SHMEM_SERVER ∨ mode = .SHMEM_CLIENT) (hdim : dim < 2 ^ 64)
    (h : RealTimeIPC.create fails m identifier watchdog_decimation mode dim ndebug =
      .returned e after)
    (requests : List ((ℕ → Memory) × Request τ)) (last : ℕ → Memory) :
    Inert e requests last ↔ Attaches m identifier mode dim ∨
      (ndebug = false ∧ sizeofDataPacket ≤ (dim + sizeofHeader) % 2 ^ 64) ∨
      ((∀ x ∈ requests, x.2.StoppedFor dim) ∧ (dim = 0 ∨ 2 ^ 64 ≤ dim + sizeofHeader)) := by
  obtain ⟨hshared, rfl, ⟨hattaches, hmapped⟩ | ⟨hnot, hmutex, he⟩⟩ :=
    RealTimeIPC.returned_cases hmode h
  · exact iff_of_true (RealTimeIPC.along_of_mapped hmapped) (.inl hattaches)
  · -- the tests of the operations, in terms of the size that was given
    rw [or_iff_right hnot, Inert, RealTimeIPC.along_iff_of_detached hshared hmutex]
    have hasserts : ¬ e.Asserts ↔ e.ndebug = false ∧
        sizeofDataPacket ≤ (dim + sizeofHeader) % 2 ^ 64 := by
      rw [RealTimeIPC.Asserts, he, not_or, Bool.not_eq_true, not_lt]
    rw [hasserts, List.forall_mem_append, List.forall_mem_singleton, List.forall_mem_map,
      Use.destruct_stopped_iff hdim he]
    simp only [Use.Stopped, Request.stopped_iff hdim he]

end Main

/-- A machine without named objects. -/
def noObjects : Machine where
  umask := 18
  segments := fun _ => none
  mutexes := fun _ => false

/-- What a client becomes that was given `dim` bytes and finds nothing. -/
def lonelyClient (dim : ℕ) : RealTimeIPC ℚ :=
  RealTimeIPC.construct "ipc" 1 .SHMEM_CLIENT dim false

/-- A client without a payload that never calls `breakBond()`. -/
theorem inert_iff_polling :
    Inert (lonelyClient 0)
      [(fun _ _ => 0, .isBonded), (fun _ _ => 0, .write .bond),
        (fun _ _ => 0, .write (.update (fun _ => 1) 5 8))] fun _ _ => 0 :=
  (@inert_iff ℚ _ _ (fun _ => false) noObjects noObjects "ipc" 1 .SHMEM_CLIENT 0 false
    (lonelyClient 0) (.inr rfl) (by decide) rfl _ _).mpr
    (.inr (.inr ⟨by simp [Request.StoppedFor], .inl rfl⟩))

/-- Such a client dereferences the null mutex in `breakBond()`, and one that was given a payload
does so in its destructor. -/
theorem nullMutex_of_lonelyClient :
    (∀ dim, RealTimeIPC.create (fun _ => false) noObjects "ipc" 1 .SHMEM_CLIENT dim false =
      .returned (lonelyClient dim) noObjects) ∧
    (∀ seen, (lonelyClient 0).breakBond.observe seen = .error .nullMutex) ∧
    (∀ seen, (lonelyClient 8).destruct.observe seen = .error .nullMutex) ∧
    ¬ Inert (lonelyClient 0) [(fun _ _ => 0, .write .breakBond)] (fun _ _ => 0) ∧
    ¬ Inert (lonelyClient 8) [] fun _ _ => 0 := by
  refine ⟨fun _ => rfl, fun _ => rfl, fun _ => rfl, fun h => ?_, fun h => ?_⟩
  · exact absurd (h.1 trivial).1 (by decide)
  · exact absurd (h.1 trivial).1 (by decide)

end RealtimeUtilities
