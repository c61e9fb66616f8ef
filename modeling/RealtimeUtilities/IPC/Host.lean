import RealtimeUtilities.IPC.Detached
import RealtimeUtilities.IPC.Sequential

/-!
# The life of a named segment

A name stands for one shared memory object after the other. A server creates an object and gives it
the name, clients that are constructed then open the object, and the destructor of the server takes
the name away. The object lives on for the clients that map it, while the next server creates
another one under the same name.

`Host` is a machine with its objects, names and endpoints. Endpoints are constructed, called and
destroyed one after the other; a failed constructor leaves behind what it leaves behind, and a
process may die without destroying its endpoints. The system refuses no destructor the removal of a
name; where the single calls are steps, in `IPC.Concurrent`, it may.

## Main definitions

* `Host` and `step`: the machine, and what an event makes of it;
* `Register.ofUses`: the register that the uses of one object make.

## Main results

* `simulates_destruct`: the destructor of an attached endpoint, on a segment that holds a register;
* `built_construct`: the ways in which a constructor can end.
-/

namespace RealtimeUtilities

open DataPacket Execution

/-- An endpoint that was constructed, with the object that it works on, if it has a mutex. -/
structure Mapping (τ : Type) where
  endpoint : RealTimeIPC τ
  object : Option ℕ

/-- The machine and the processes on it. -/
structure Host (τ : Type) where
  umask : ℕ
  /-- The shared memory objects created so far, with a name or without one. -/
  objects : List SharedMemory
  /-- The object that a name stands for. -/
  names : String → Option ℕ
  mutexes : String → Bool
  /-- The endpoints constructed so far, nothing in place of one that was destroyed or has died. -/
  endpoints : List (Option (Mapping τ))
  /-- The uses that returned, each with the object it was made of. No operation reads them. -/
  uses : List (ℕ × Use τ)

/-- What happens on a host. -/
inductive HostEvent (τ : Type) where
  /-- A process constructs an endpoint. -/
  | construct (fails : BoostCall → Bool) (identifier : String) (watchdog_decimation : τ)
      (mode : AccessMode) (dim : ℕ) (ndebug : Bool)
  /-- A request is made on the endpoint `i`. -/
  | request (i : ℕ) (request : Request τ)
  /-- The endpoint `i` is destroyed. -/
  | destruct (i : ℕ)
  /-- The process of the endpoint `i` dies. -/
  | crash (i : ℕ)

namespace Host

variable {τ : Type}

/-- A host on which no endpoint was constructed yet. -/
def fresh (umask : ℕ) : Host τ where
  umask := umask
  objects := []
  names := fun _ => none
  mutexes := fun _ => false
  endpoints := []
  uses := []

/-- The named objects, as a constructor finds them. -/
def machine (h : Host τ) : Machine where
  umask := h.umask
  segments := fun name => (h.names name).bind fun k => h.objects[k]?
  mutexes := h.mutexes

/-- What a constructor for the name `identifier` makes of the named objects. A segment that was not
there is a new object. -/
def adopt (h : Host τ) (identifier : String) (m : Machine) : Host τ :=
  match h.machine.segments identifier, m.segments identifier with
  | none, some object =>
      { h with
        umask := m.umask
        mutexes := m.mutexes
        objects := h.objects ++ [object]
        names := Function.update h.names identifier (some h.objects.length) }
  | _, _ => { h with umask := m.umask, mutexes := m.mutexes }

/-- A new endpoint works on the object of its name, if it has a mutex. -/
def map (h : Host τ) (e : RealTimeIPC τ) : Mapping τ :=
  ⟨e, if e.mutex_ then h.names e.name_ else none⟩

/-- One more endpoint. -/
def addEndpoint (h : Host τ) (e : RealTimeIPC τ) : Host τ :=
  { h with endpoints := h.endpoints ++ [some (h.map e)] }

/-- The constructor of `RealTimeIPC`. -/
def construct [Double τ] (h : Host τ) (fails : BoostCall → Bool) (identifier : String)
    (watchdog_decimation : τ) (mode : AccessMode) (dim : ℕ) (ndebug : Bool) : Host τ :=
  match RealTimeIPC.create fails h.machine identifier watchdog_decimation mode dim ndebug with
  | .returned e m => (h.adopt identifier m).addEndpoint e
  | .threw m | .aborted _ m => h.adopt identifier m

/-- The living endpoint `i`. -/
def mapping (h : Host τ) (i : ℕ) : Option (Mapping τ) :=
  (h.endpoints[i]?).join

/-- The memory that an endpoint works on. Without a mutex it accesses none. -/
def memory (h : Host τ) (x : Mapping τ) : Memory :=
  match x.object.bind fun k => h.objects[k]? with
  | some object => object.memory
  | none => fun _ => 0

/-- The endpoint `i` is gone. -/
def kill (h : Host τ) (i : ℕ) : Host τ :=
  { h with endpoints := h.endpoints.set i none }

/-- The names that the destructor of a server removes, which the system does not refuse. -/
def remove (h : Host τ) (name : String) : Host τ :=
  { h with
    names := Function.update h.names name none
    mutexes := Function.update h.mutexes name false }

def setMapping (h : Host τ) (i : ℕ) (x : Mapping τ) : Host τ :=
  { h with endpoints := h.endpoints.set i (some x) }

/-- The use `u` has left the memory `m` in the object `k`. -/
def store (h : Host τ) (k : ℕ) (u : Use τ) (m : Memory) : Host τ :=
  { h with
    objects := h.objects.modify k fun object => { object with memory := m }
    uses := h.uses ++ [(k, u)] }

/-- The endpoint `i`, which works as `x` says, ran `u` to its end: it is `e` then, and its memory is
`m`. -/
def used (h : Host τ) (i : ℕ) (x : Mapping τ) (u : Use τ) (e : RealTimeIPC τ) (m : Memory) :
    Host τ :=
  match x.object with
  | none => h.setMapping i { x with endpoint := e }
  | some k => (h.setMapping i { x with endpoint := e }).store k u m

variable [Double τ] [DoubleBytes τ]

/-- The endpoint `i` runs a request: its reply and the host after it, nothing if it is aborted. -/
def request (h : Host τ) (i : ℕ) (x : Mapping τ) (request : Request τ) :
    Option (Reply τ × Host τ) :=
  match (request.access x.endpoint).exec (h.memory x) with
  | (.ok o, m) => some (o.ret, h.used i x (.request request) o.self m)
  | (.error _, _) => none

/-- The endpoint `i` runs its destructor, nothing if it is aborted. -/
def destruct (h : Host τ) (i : ℕ) (x : Mapping τ) : Option (Host τ) :=
  match x.endpoint.destruct.exec (h.memory x) with
  | (.ok o, m) =>
      let h := (h.used i x .destruct o.self m).kill i
      some (if o.ret then h.remove o.self.name_ else h)
  | (.error _, _) => none

/-- One event. A process that is aborted dies. -/
def step (h : Host τ) : HostEvent τ → Option (Host τ)
  | .construct fails identifier watchdog_decimation mode dim ndebug =>
      some (h.construct fails identifier watchdog_decimation mode dim ndebug)
  | .request i request =>
      (h.mapping i).map fun x => ((h.request i x request).map Prod.snd).getD (h.kill i)
  | .destruct i => (h.mapping i).map fun x => (h.destruct i x).getD (h.kill i)
  | .crash i => (h.mapping i).map fun _ => h.kill i

end Host

/-! ## The abstract objects -/

namespace Register

variable {τ : Type} {d : ℕ}

/-- What a use of an endpoint makes of the register. A destructor breaks the bond, whoever made
it. -/
def use (r : Register τ d) : Use τ → Register τ d
  | .request request => r.apply request
  | .dump => r
  | .destruct => if r.bonded then { r with bonded := false, hard := false } else r

/-- The register of the object `k`, as the uses of it make it. -/
def ofUses [Double τ] (d : ℕ) (uses : List (ℕ × Use τ)) (k : ℕ) : Register τ d :=
  (uses.filter fun y => y.1 = k).foldl (fun r y => r.use y.2) zero

theorem ofUses_concat_self [Double τ] (uses : List (ℕ × Use τ)) (k : ℕ) (u : Use τ) :
    (ofUses d (uses ++ [(k, u)]) k : Register τ d) = (ofUses d uses k).use u := by
  simp [ofUses, List.filter_append]

theorem ofUses_concat_of_ne [Double τ] (uses : List (ℕ × Use τ)) {k k' : ℕ} (h : k' ≠ k)
    (u : Use τ) : (ofUses d (uses ++ [(k', u)]) k : Register τ d) = ofUses d uses k := by
  simp [ofUses, List.filter_append, h]

/-- Nothing is left of an object that nobody has used. -/
theorem ofUses_of_forall_ne [Double τ] {uses : List (ℕ × Use τ)} {k : ℕ}
    (h : ∀ y ∈ uses, y.1 ≠ k) : (ofUses d uses k : Register τ d) = zero := by
  have hnone : uses.filter (fun y => y.1 = k) = [] := by
    rw [List.filter_eq_nil_iff]
    intro y hy
    simpa using h y hy
  rw [ofUses, hnone]
  rfl

variable [Double τ] [DoubleBytes τ] [LawfulDoubleBytes τ] {m : Memory} {r : Register τ d}
  {e : RealTimeIPC τ}

/-- The destructor of an attached endpoint leaves the segment unbonded, and removes the names if the
endpoint is a server. -/
theorem simulates_destruct (h : e.Attached d) (hrep : Represents m r) :
    ∃ o m', e.destruct.exec m = (.ok o, m') ∧ Represents m' (r.use .destruct) ∧
      o.ret = decide (e.access_mode_ = .SHMEM_SERVER) := by
  have hview : view d m = r.packet := (represents_iff h.le_max).mp hrep
  have hdim : e.dim_with_header_ > sizeofHeader := by
    have := h.pos
    rw [h.dim]
    omega
  have hnames : ∀ {e' : RealTimeIPC τ}, e'.Attached d → ∀ printed, ∃ o,
      e'.destructNames printed = .done o ∧ o.ret = decide (e'.access_mode_ = .SHMEM_SERVER) := by
    intro e' h' printed
    unfold RealTimeIPC.destructNames
    rcases h'.mode with hmode | hmode <;> rw [hmode, h'.assert_skin]
    all_goals exact ⟨_, rfl, rfl⟩
  have hafter : (e.isBondedPacket r.packet).self.Attached d := by
    rw [RealTimeIPC.isBondedPacket_self]
    exact h.remember _ _ _ _ _
  have hmode : (e.isBondedPacket r.packet).self.access_mode_ = e.access_mode_ := by
    rw [RealTimeIPC.isBondedPacket_self]
  have hbondedPacket : e.isBonded.exec m = (.ok (e.isBondedPacket r.packet), m) := by
    rw [h.isBonded_eq, ← hview]
    rfl
  have hret : (e.isBondedPacket r.packet).ret = r.bonded := by
    rw [RealTimeIPC.isBondedPacket_ret]
    simp [r.bond_flag_packet]
  rw [RealTimeIPC.destruct, if_pos hdim, Routine.exec_bind_ok hbondedPacket, hret, use]
  by_cases hbonded : r.bonded = true
  · obtain ⟨-, -, -, -, hrep'⟩ := simulates_write hafter hrep .breakBond
    rw [Op.access, hafter.breakBond_eq] at hrep'
    rw [if_pos hbonded, if_pos hbonded, hafter.breakBond_eq]
    obtain ⟨o, ho, horet⟩ := hnames hafter
      ((e.isBondedPacket r.packet).printed ++
        [⟨"[ %s ] Break Bond\n", [.str (e.isBondedPacket r.packet).self.name_]⟩])
    refine ⟨o, _, ?_, hrep', by rw [horet, hmode]⟩
    rw [Routine.read_bind, Routine.exec_read]
    exact Routine.exec_bind_ok rfl _ |>.trans (by rw [ho]; rfl)
  · rw [if_neg hbonded, if_neg hbonded]
    obtain ⟨o, ho, horet⟩ := hnames hafter (e.isBondedPacket r.packet).printed
    rw [ho]
    exact ⟨o, m, rfl, hrep, by rw [horet, hmode]⟩

end Register

/-! ## The name of an endpoint -/

section Name

variable {τ : Type} [Double τ] [DoubleBytes τ] {e : RealTimeIPC τ}

theorem ends_name_isBonded (e : RealTimeIPC τ) :
    e.isBonded.Ends fun o => o.self.name_ = e.name_ := by
  unfold RealTimeIPC.isBonded
  split_ifs
  · exact rfl
  · refine ends_getDataPacket_bind fun shmem => ?_
    show (e.isBondedPacket shmem).self.name_ = e.name_
    rw [RealTimeIPC.isBondedPacket_self]

theorem ends_name_breakBond (e : RealTimeIPC τ) :
    e.breakBond.Ends fun o => o.self.name_ = e.name_ :=
  ends_getDataPacket_bind fun _ => ends_setDataPacket_bind rfl

/-- No request changes the name of its endpoint. -/
theorem Request.ends_name (e : RealTimeIPC τ) (r : Request τ) :
    (r.access e).Ends fun o => o.self.name_ = e.name_ := by
  have hmap : ∀ {ρ ρ' : Type} {p : Access (Outcome τ ρ)} {g : ρ → ρ'},
      p.Ends (fun o => o.self.name_ = e.name_) →
      (do let o ← p; return o.map g : Access (Outcome τ ρ')).Ends
        fun o => o.self.name_ = e.name_ := fun h => h.bind fun _ ho => ho
  cases r with
  | write op =>
    cases op with
    | breakBond => exact hmap (ends_name_breakBond e)
    | bond =>
      refine hmap ?_
      unfold RealTimeIPC.bond
      split_ifs
      · exact rfl
      · refine ends_getDataPacket_bind fun shmem => ?_
        split_ifs
        · exact rfl
        · exact ends_setDataPacket_bind rfl
    | update ibuffer time n_bytes =>
      refine hmap ?_
      unfold RealTimeIPC.update
      split_ifs
      · exact rfl
      · exact rfl
      · exact ends_getDataPacket_bind fun _ => ends_setDataPacket_bind rfl
    | setHardRT =>
      refine hmap ?_
      unfold RealTimeIPC.setHardRT
      split_ifs
      · exact rfl
      · exact ends_getDataPacket_bind fun _ => ends_setDataPacket_bind rfl
    | setSoftRT =>
      refine hmap ?_
      unfold RealTimeIPC.setSoftRT
      split_ifs
      · exact rfl
      · exact ends_getDataPacket_bind fun _ => ends_setDataPacket_bind rfl
  | isBonded => exact hmap (ends_name_isBonded e)
  | isHardRT =>
    refine hmap ?_
    unfold RealTimeIPC.isHardRT
    split_ifs
    · exact rfl
    · refine ends_getDataPacket_bind fun shmem => ?_
      show (e.isHardRTPacket shmem).self.name_ = e.name_
      rw [RealTimeIPC.isHardRTPacket_self]
  | flush obuffer time latency_time n_bytes flush_ts =>
    refine hmap ?_
    unfold RealTimeIPC.flush
    split_ifs
    · exact rfl
    · exact rfl
    · refine ends_getDataPacket_bind fun shmem => ?_
      show (e.flushPacket obuffer flush_ts shmem).self.name_ = e.name_
      simp only [RealTimeIPC.flushPacket]
      split_ifs <;> rfl

/-- Nor does the destructor, which removes names only if the endpoint is a server of a segment with
a payload. -/
theorem ends_destruct_removes (e : RealTimeIPC τ) : e.destruct.Ends fun o =>
    o.self.name_ = e.name_ ∧
      (o.ret = true ↔ e.access_mode_ = .SHMEM_SERVER ∧ sizeofHeader < e.dim_with_header_) := by
  have hnames : ∀ {e' : RealTimeIPC τ}, e.SameMembers e' → e'.name_ = e.name_ → ∀ printed,
      sizeofHeader < e.dim_with_header_ → (e'.destructNames printed).Ends fun o =>
        o.self.name_ = e.name_ ∧
          (o.ret = true ↔ e.access_mode_ = .SHMEM_SERVER ∧ sizeofHeader < e.dim_with_header_) := by
    intro e' hsame hname printed hdim
    have hserver : ∀ {mode : AccessMode}, e'.access_mode_ = mode →
        (decide (mode = .SHMEM_SERVER) = true ↔
          e.access_mode_ = .SHMEM_SERVER ∧ sizeofHeader < e.dim_with_header_) := fun hmode => by
      rw [decide_eq_true_iff, ← hmode, hsame.access_mode_, and_iff_left hdim]
    unfold RealTimeIPC.destructNames
    cases hmode : e'.access_mode_
    case MQUEUE_SERVER | MQUEUE_CLIENT =>
      refine Routine.Ends.bind (Routine.ends_true _) fun _ _ => ?_
      exact Routine.Ends.bind (Routine.ends_true _) fun _ _ => ⟨hname, hserver hmode⟩
    all_goals exact Routine.Ends.bind (Routine.ends_true _) fun _ _ => ⟨hname, hserver hmode⟩
  unfold RealTimeIPC.destruct
  split_ifs with hdim
  · refine ((ends_isBonded e).and (ends_name_isBonded e)).bind fun bonded hbonded => ?_
    split_ifs
    · refine ((ends_breakBond _).and (ends_name_breakBond _)).bind fun broken hbroken => ?_
      exact hnames (hbonded.1.trans hbroken.1) (hbroken.2.trans hbonded.2) _ hdim
    · exact hnames hbonded.1 hbonded.2 _ hdim
  · exact ⟨rfl, iff_of_false (by simp) fun h => hdim h.2⟩

end Name

/-! ## Constructions -/

/-- The endpoint works on `object`, under the lock of its name. -/
structure RealTimeIPC.WorksOn {τ : Type} (e : RealTimeIPC τ) (object : SharedMemory) : Prop where
  shared : e.Shared
  mutex : e.mutex_ = true
  dim : e.dim_with_header_ = object.size
  map : e.shared_map_ = object.size
  nonempty : object.size ≠ 0

namespace Host

variable {τ : Type} {h h' : Host τ} {fails : BoostCall → Bool} {identifier : String}

/-- A new object with the name `identifier`. -/
def addObject (h : Host τ) (identifier : String) (object : SharedMemory) : Host τ :=
  { h with
    objects := h.objects ++ [object]
    names := Function.update h.names identifier (some h.objects.length) }

/-- A new mutex with the name `identifier`. -/
def lock (h : Host τ) (identifier : String) : Host τ :=
  { h with mutexes := Function.update h.mutexes identifier true }

/-- What a constructor does, one case for each way it can end. -/
inductive Built (h : Host τ) (fails : BoostCall → Bool) (identifier : String) : Host τ → Prop
  /-- It threw or was aborted, and at most the `umask` is another one. -/
  | failed (umask : ℕ) : Built h fails identifier { h with umask := umask }
  | detached {e : RealTimeIPC τ} (hmutex : e.mutex_ = false)
      (hserver : e.access_mode_ = .SHMEM_SERVER → e.dim_with_header_ ≤ sizeofHeader) :
      Built h fails identifier (h.addEndpoint e)
  /-- A client has opened the segment of its name. -/
  | client {e : RealTimeIPC τ} {k : ℕ} {object : SharedMemory}
      (hname : h.names identifier = some k) (hobject : h.objects[k]? = some object)
      (hmutex : h.mutexes identifier = true) (hmode : e.access_mode_ = .SHMEM_CLIENT)
      (hidentifier : e.name_ = identifier) (hworks : e.WorksOn object) :
      Built h fails identifier (h.addEndpoint e)
  /-- A server has created the segment and the mutex of its name. -/
  | server {e : RealTimeIPC τ} {size : ℕ} (hname : h.names identifier = none)
      (hmutex : h.mutexes identifier = false) (hsize : sizeofHeader < size)
      (hmode : e.access_mode_ = .SHMEM_SERVER) (hidentifier : e.name_ = identifier)
      (hworks : e.WorksOn ⟨size, fun _ => 0⟩) :
      Built h fails identifier
        (((h.addObject identifier ⟨size, fun _ => 0⟩).lock identifier).addEndpoint e)
  /-- A server threw when it had created the segment. -/
  | leftover {size umask : ℕ} (hname : h.names identifier = none)
      (hlate : h.mutexes identifier = true ∨ ∃ call, call ≠ .segment ∧ fails call = true)
      (hsize : size = 0 ∨ sizeofHeader < size) :
      Built h fails identifier
        { h.addObject identifier ⟨size, fun _ => 0⟩ with umask := umask }

/-- Every name stands for an object. -/
def Named (h : Host τ) : Prop :=
  ∀ name k, h.names name = some k → k < h.objects.length

theorem Named.segments_eq_none_iff (hnamed : h.Named) (name : String) :
    h.machine.segments name = none ↔ h.names name = none := by
  cases hname : h.names name with
  | none => simp [machine, hname]
  | some k => simp [machine, hname, hnamed name k hname]

theorem adopt_setUmask (h : Host τ) (identifier : String) (umask : ℕ) :
    h.adopt identifier (h.machine.setUmask umask) = { h with umask := umask } := by
  have hsame : (h.machine.setUmask umask).segments identifier = h.machine.segments identifier := rfl
  rw [adopt, hsame]
  cases h.machine.segments identifier <;> rfl

theorem adopt_machine (h : Host τ) (identifier : String) :
    h.adopt identifier h.machine = h :=
  h.adopt_setUmask identifier h.umask

theorem adopt_of_new {m : Machine} {object : SharedMemory}
    (hfree : h.machine.segments identifier = none) (hnew : m.segments identifier = some object) :
    h.adopt identifier m =
      { h.addObject identifier object with umask := m.umask, mutexes := m.mutexes } := by
  rw [adopt, hfree, hnew]
  rfl

variable [Double τ]

/-- In the modes that are not implemented the constructor creates nothing. -/
theorem create_other (fails : BoostCall → Bool) (m : Machine) (identifier : String)
    (watchdog_decimation : τ) {mode : AccessMode} (dim : ℕ) (ndebug : Bool)
    (hserver : mode ≠ .SHMEM_SERVER) (hclient : mode ≠ .SHMEM_CLIENT) :
    RealTimeIPC.create fails m identifier watchdog_decimation mode dim ndebug =
        .returned (.construct identifier watchdog_decimation mode dim ndebug) m ∨
      ∃ f, RealTimeIPC.create fails m identifier watchdog_decimation mode dim ndebug =
        .aborted f m := by
  cases ndebug with
  | false => cases mode <;> first | contradiction | exact .inr ⟨_, rfl⟩
  | true => cases mode <;> first | contradiction | exact .inl rfl

theorem built_construct (hnamed : h.Named) (fails : BoostCall → Bool) (identifier : String)
    (watchdog_decimation : τ) (mode : AccessMode) (dim : ℕ) (ndebug : Bool) :
    Built h fails identifier
      (h.construct fails identifier watchdog_decimation mode dim ndebug) := by
  rw [construct]
  by_cases hserver : mode = .SHMEM_SERVER
  · subst hserver
    rw [RealTimeIPC.create_server]
    dsimp only
    split_ifs with hsize hfirst htruncate hlate <;> dsimp only
    · rw [adopt_machine]
      exact .detached rfl fun _ => hsize
    · rw [adopt_setUmask]
      exact .failed 0
    all_goals
      have hfree : h.machine.segments identifier = none :=
        Option.not_isSome_iff_eq_none.mp fun hsome => hfirst (by simp [hsome])
      have hname : h.names identifier = none := (hnamed.segments_eq_none_iff identifier).mp hfree
    · rw [adopt_of_new hfree (Function.update_self ..)]
      exact .leftover hname (.inr ⟨_, by simp, htruncate⟩) (.inl rfl)
    · rw [adopt_of_new hfree (Function.update_self ..)]
      refine .leftover hname ?_ (.inr (not_le.mp hsize))
      rw [Bool.or_eq_true, Bool.or_eq_true] at hlate
      rcases hlate with (hmap | hmutex) | hmutex
      · exact .inr ⟨.map, by simp, hmap⟩
      · exact .inl hmutex
      · exact .inr ⟨.mutex, by simp, hmutex⟩
    · rw [adopt_of_new hfree (Function.update_self ..)]
      simp only [Bool.or_eq_true, not_or, Bool.not_eq_true] at hlate
      refine .server hname hlate.1.2 (not_le.mp hsize) rfl rfl ⟨⟨.inl rfl, rfl⟩, rfl, rfl, rfl, ?_⟩
      exact Nat.ne_of_gt (Nat.lt_of_le_of_lt (Nat.zero_le _) (not_le.mp hsize))
  by_cases hclient : mode = .SHMEM_CLIENT
  · subst hclient
    rw [RealTimeIPC.create_client]
    dsimp only
    cases hsegment : h.machine.segments identifier with
    | none =>
      dsimp only
      rw [adopt_machine]
      exact .detached rfl (by rintro ⟨⟩)
    | some object =>
      obtain ⟨k, hname, hobject⟩ := Option.bind_eq_some_iff.mp hsegment
      dsimp only
      split_ifs with hfirst hmutex hopen hassert <;> dsimp only <;> rw [adopt_machine]
      · exact .failed h.umask
      · exact .detached rfl (by rintro ⟨⟩)
      · exact .failed h.umask
      · have hlocked : h.machine.mutexes identifier = true := by simpa using hmutex
        refine .client hname hobject hlocked rfl rfl
          ⟨⟨.inr rfl, rfl⟩, rfl, rfl, rfl, fun hzero => ?_⟩
        exact hfirst (by simp [hzero])
      · exact .failed h.umask
  · rcases create_other fails h.machine identifier watchdog_decimation dim ndebug hserver
      hclient with hcreate | ⟨f, hcreate⟩
    · rw [hcreate]
      dsimp only
      rw [adopt_machine]
      exact .detached rfl fun hmode => absurd hmode hserver
    · rw [hcreate]
      dsimp only
      rw [adopt_machine]
      exact .failed h.umask

end Host

end RealtimeUtilities
