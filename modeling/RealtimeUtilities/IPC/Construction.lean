import Mathlib.Logic.Function.Basic
import RealtimeUtilities.IPC.Endpoint

/-!
# The construction of an endpoint

`RealTimeIPC::init()` creates or opens a named segment and a named mutex with four calls of Boost,
each of which may throw. A server sets the `umask` of the process to zero meanwhile. What an
exception leaves behind is what the calls before it have done: the old `umask` is restored after
the last call only, and the names outlive the members of the endpoint.

The steps are written in `EStateM`, whose state survives an exception.

## Main definitions

* `Machine`: the `umask` and the named objects;
* `init` and `create`: the function `init()`, and the constructor;
* `NoTrace`: a failed construction has restored the `umask` and removed what it created.

## Main results

* `create_server` and `create_client`: what the constructor does in the two `SHMEM` modes;
* `remove_returned_server`: the destructor of a server undoes a construction that has returned;
* `noTrace_iff`: when the constructor of a server that throws leaves no trace.
-/

namespace RealtimeUtilities

/-- A named shared memory object. -/
structure SharedMemory where
  size : ℕ
  memory : Memory

/-- What a constructor finds and may leave behind: the `umask` of the process, and the named
objects of the system. -/
structure Machine where
  umask : ℕ
  segments : String → Option SharedMemory
  mutexes : String → Bool

/-- The calls of Boost that create or open an object. -/
inductive BoostCall where
  | segment
  | truncate
  | map
  | mutex
  deriving DecidableEq, Repr

/-- What such a call throws. All but the first are the same to the code. -/
inductive BoostError where
  | not_found_error
  | already_exists_error
  | other
  deriving DecidableEq, Repr

/-- How `init()` can be left early. -/
inductive Interrupt where
  | exception (e : BoostError)
  | abort (f : Fault)

/-- The state in which `init()` runs. -/
structure Construction (τ : Type) where
  machine : Machine
  self : RealTimeIPC τ

/-- The steps of `init()`. -/
abbrev Init (τ : Type) := EStateM Interrupt (Construction τ)

/-- How a construction ends. -/
inductive Constructed (τ : Type) where
  | returned (e : RealTimeIPC τ) (machine : Machine)
  /-- The constructor threw. The members were destroyed, but no name was removed. -/
  | threw (machine : Machine)
  | aborted (f : Fault) (machine : Machine)

namespace Machine

def setUmask (m : Machine) (umask : ℕ) : Machine :=
  { m with umask := umask }

/-- The object `memory` has the name `name`. -/
def setSegment (m : Machine) (name : String) (memory : SharedMemory) : Machine :=
  { m with segments := Function.update m.segments name (some memory) }

/-- There is a mutex with the name `name`. -/
def setMutex (m : Machine) (name : String) : Machine :=
  { m with mutexes := Function.update m.mutexes name true }

/-- `shared_memory_object::remove` and `named_mutex::remove`. -/
def remove (m : Machine) (name : String) : Machine :=
  { m with
    segments := Function.update m.segments name none
    mutexes := Function.update m.mutexes name false }

end Machine

namespace Construction

variable {τ : Type}

/-- What the name of the endpoint stands for. -/
def segment (s : Construction τ) : Option SharedMemory :=
  s.machine.segments s.self.name_

def setSegment (s : Construction τ) (memory : SharedMemory) : Construction τ :=
  { s with machine := s.machine.setSegment s.self.name_ memory }

def setUmask (s : Construction τ) (mask : ℕ) : Construction τ :=
  { s with machine := s.machine.setUmask mask }

/-- `shared_map_` maps `size` bytes. -/
def setMap (s : Construction τ) (size : ℕ) : Construction τ :=
  { s with self := { s.self with shared_map_ := size } }

/-- `mutex_` is not null. -/
def setMutex (s : Construction τ) : Construction τ :=
  { s with self := { s.self with mutex_ := true } }

end Construction

namespace Init

variable {τ : Type}

/-- `assert(condition)`. -/
def assert (condition : Bool) (expression : String) : Init τ Unit := do
  let s ← get
  if s.self.ndebug || condition then return
  else throw (.abort (.assertion expression))

/-- `umask(mask)`, which returns the old one. -/
def umask (mask : ℕ) : Init τ ℕ := do
  let s ← get
  set (s.setUmask mask)
  return s.machine.umask

variable (fails : BoostCall → Bool)

/-- `shared_memory_object(create_only, ..)`: a new object is empty. -/
def createSegment : Init τ Unit := do
  let s ← get
  if s.segment.isSome then throw (.exception .already_exists_error)
  else if fails .segment then throw (.exception .other)
  else set (s.setSegment ⟨0, fun _ => 0⟩)

/-- `shared_memory_object(open_only, ..)`. -/
def openSegment : Init τ Unit := do
  let s ← get
  if s.segment.isNone then throw (.exception .not_found_error)
  else if fails .segment then throw (.exception .other)

/-- `shared_memory_.truncate(size)`: the bytes that are new are zero. -/
def truncate (size : ℕ) : Init τ Unit := do
  let s ← get
  match s.segment with
  | none => throw (.exception .other)
  | some object =>
      if fails .truncate then throw (.exception .other)
      else
        set (s.setSegment ⟨size, memcpy (fun _ => 0) object.memory (min object.size size)⟩)

/-- `mapped_region(shared_memory_, read_write)`: the whole object, which must not be empty. -/
def map : Init τ Unit := do
  let s ← get
  match s.segment with
  | none => throw (.exception .other)
  | some object =>
      if fails .map || object.size = 0 then throw (.exception .other)
      else set (s.setMap object.size)

/-- `std::memset(shared_map_.get_address(), 0, shared_map_.get_size())`. -/
def clearMap : Init τ Unit := do
  let s ← get
  match s.segment with
  | none => return
  | some object =>
      set (s.setSegment { object with memory := memset object.memory 0 s.self.shared_map_ })

/-- `named_mutex(create_only, ..)`. -/
def createMutex : Init τ Unit := do
  let s ← get
  if s.machine.mutexes s.self.name_ then throw (.exception .already_exists_error)
  else if fails .mutex then throw (.exception .other)
  else set { s.setMutex with machine := s.machine.setMutex s.self.name_ }

/-- `named_mutex(open_only, ..)`. -/
def openMutex : Init τ Unit := do
  let s ← get
  if !s.machine.mutexes s.self.name_ then throw (.exception .not_found_error)
  else if fails .mutex then throw (.exception .other)
  else set s.setMutex

/-- The branch of a `SHMEM_SERVER`. -/
def server : Init τ Unit := do
  let s ← get
  if s.self.dim_with_header_ > sizeofHeader then
    let old_umask ← umask 0
    createSegment fails
    truncate fails s.self.dim_with_header_
    map fails
    clearMap
    createMutex fails
    let _ ← umask old_umask

/-- The branch of a `SHMEM_CLIENT`. -/
def client : Init τ Unit := do
  openSegment fails
  map fails
  openMutex fails
  let s ← get
  set { s with self := { s.self with dim_with_header_ := s.self.shared_map_ } }
  assert (s.self.shared_map_ > sizeofHeader)
    "dim_with_header_ > sizeof(RealTimeIPC::DataPacket::Header)"

/-- The `try` block of `init()`. -/
def body : Init τ Unit := do
  let s ← get
  match s.self.access_mode_ with
  | .PIPE_SERVER =>
      assert (s.self.rt_skin_ = .RT_ALCHEMY) "rt_skin_ == RT_ALCHEMY"
      assert false "0"
  | .PIPE_CLIENT =>
      assert (s.self.rt_skin_ = .POSIX) "rt_skin_ == POSIX"
      assert false "0"
  | .SHMEM_SERVER => server fails
  | .SHMEM_CLIENT => client fails
  | .MQUEUE_SERVER | .MQUEUE_CLIENT =>
      assert (s.self.rt_skin_ = .RT_POSIX) "rt_skin_ == RT_POSIX"
      assert false "0"

end Init

namespace RealTimeIPC

variable {τ : Type}

/-- `init()` in the state `s`, and the constructor after it. -/
def init (fails : BoostCall → Bool) (s : Construction τ) : Constructed τ :=
  match (Init.body fails).run s with
  | .ok _ s => .returned s.self s.machine
  | .error (.exception e) s =>
      -- a client goes on without the segment
      if s.self.access_mode_ = .SHMEM_CLIENT ∧ e = .not_found_error then
        .returned s.self s.machine
      else .threw s.machine
  | .error (.abort f) s => .aborted f s.machine

/-- The constructor `RealTimeIPC(identifier, .., watchdog_decimation, mode, dim)`. The calls of
Boost in `fails` throw in any case, the others if the name has to be free and is not, or has to
exist and does not. -/
def create [Double τ] (fails : BoostCall → Bool) (machine : Machine) (identifier : String)
    (watchdog_decimation : τ) (mode : AccessMode) (dim : ℕ) (ndebug : Bool) : Constructed τ :=
  init fails ⟨machine, construct identifier watchdog_decimation mode dim ndebug⟩

end RealTimeIPC

/-! ## The steps -/

namespace Machine

variable (m : Machine)

@[simp]
theorem mutexes_setUmask (mask : ℕ) : (m.setUmask mask).mutexes = m.mutexes := rfl

@[simp]
theorem mutexes_setSegment (name : String) (object : SharedMemory) :
    (m.setSegment name object).mutexes = m.mutexes := rfl

end Machine

namespace Construction

variable {τ : Type} (s : Construction τ) (object object' : SharedMemory)

@[simp]
theorem segment_setSegment : (s.setSegment object).segment = some object :=
  Function.update_self ..

@[simp]
theorem self_setSegment : (s.setSegment object).self = s.self := rfl

@[simp]
theorem machine_setSegment :
    (s.setSegment object).machine = s.machine.setSegment s.self.name_ object := rfl

@[simp]
theorem segment_setUmask (mask : ℕ) : (s.setUmask mask).segment = s.segment := rfl

@[simp]
theorem self_setUmask (mask : ℕ) : (s.setUmask mask).self = s.self := rfl

@[simp]
theorem machine_setUmask (mask : ℕ) :
    (s.setUmask mask).machine = s.machine.setUmask mask := rfl

@[simp]
theorem machine_setMap (size : ℕ) : (s.setMap size).machine = s.machine := rfl

@[simp]
theorem name_setMap (size : ℕ) : (s.setMap size).self.name_ = s.self.name_ := rfl

@[simp]
theorem access_mode_setMap (size : ℕ) :
    (s.setMap size).self.access_mode_ = s.self.access_mode_ := rfl

theorem setMap_setSegment (size : ℕ) :
    (s.setSegment object).setMap size = (s.setMap size).setSegment object := rfl

@[simp]
theorem setSegment_setSegment :
    (s.setSegment object).setSegment object' = s.setSegment object' := by
  simp [setSegment, Machine.setSegment]

end Construction

namespace Init

variable {τ α : Type} {fails : BoostCall → Bool} {s : Construction τ} {object : SharedMemory}
  {size : ℕ}

theorem run_get_bind (f : Construction τ → Init τ α) : (get >>= f).run s = (f s).run s := rfl

theorem run_createSegment : (createSegment fails).run s =
    if s.segment.isSome then .error (.exception .already_exists_error) s
    else if fails .segment then .error (.exception .other) s
    else .ok () (s.setSegment ⟨0, fun _ => 0⟩) := by
  rw [createSegment, run_get_bind]
  split_ifs <;> rfl

/-- A new object grows to zeros. -/
theorem run_truncate (h : s.segment = some ⟨0, fun _ => 0⟩) : (truncate fails size).run s =
    if fails .truncate then .error (.exception .other) s
    else .ok () (s.setSegment ⟨size, fun _ => 0⟩) := by
  have hzero : memcpy (fun _ => 0) (fun _ => 0) (min 0 size) = fun _ => 0 := by
    funext i
    simp [memcpy]
  rw [truncate, run_get_bind, h]
  simp only [hzero]
  split_ifs <;> rfl

theorem run_map (h : s.segment = some object) : (map fails).run s =
    if fails .map || object.size = 0 then .error (.exception .other) s
    else .ok () (s.setMap object.size) := by
  rw [map, run_get_bind, h]
  dsimp only
  split_ifs <;> rfl

/-- Zeros are set to zero. -/
theorem run_clearMap (h : s.segment = some ⟨size, fun _ => 0⟩) :
    clearMap.run s = .ok () (s.setSegment ⟨size, fun _ => 0⟩) := by
  have hzero : memset (fun _ => 0) 0 s.self.shared_map_ = fun _ => 0 := by
    funext i
    simp [memset]
  rw [clearMap, run_get_bind, h]
  simp only [hzero]
  rfl

theorem run_createMutex : (createMutex fails).run s =
    if s.machine.mutexes s.self.name_ then .error (.exception .already_exists_error) s
    else if fails .mutex then .error (.exception .other) s
    else .ok () { s.setMutex with machine := s.machine.setMutex s.self.name_ } := by
  rw [createMutex, run_get_bind]
  split_ifs <;> rfl

theorem run_openSegment : (openSegment fails).run s =
    if s.segment.isNone then .error (.exception .not_found_error) s
    else if fails .segment then .error (.exception .other) s
    else .ok () s := by
  rw [openSegment, run_get_bind]
  split_ifs <;> rfl

theorem run_openMutex : (openMutex fails).run s =
    if !s.machine.mutexes s.self.name_ then .error (.exception .not_found_error) s
    else if fails .mutex then .error (.exception .other) s
    else .ok () s.setMutex := by
  rw [openMutex, run_get_bind]
  split_ifs <;> rfl

theorem run_umask (mask : ℕ) : (umask mask).run s =
    .ok s.machine.umask (s.setUmask mask) := rfl

theorem run_assert (condition : Bool) (expression : String) :
    (assert condition expression).run s =
      if s.self.ndebug || condition then .ok () s
      else .error (.abort (.assertion expression)) s := by
  rw [assert, run_get_bind]
  split_ifs <;> rfl

end Init

namespace RealTimeIPC

variable {τ : Type} {fails : BoostCall → Bool} {s : Construction τ}

/-- What `init()` does for a server. -/
theorem init_server (hmode : s.self.access_mode_ = .SHMEM_SERVER) :
    init fails s =
      let size := s.self.dim_with_header_
      let name := s.self.name_
      if size ≤ sizeofHeader then .returned s.self s.machine
      else if s.segment.isSome || fails .segment then .threw (s.machine.setUmask 0)
      else if fails .truncate then
        .threw ((s.machine.setUmask 0).setSegment name ⟨0, fun _ => 0⟩)
      else if fails .map || s.machine.mutexes name || fails .mutex then
        .threw ((s.machine.setUmask 0).setSegment name ⟨size, fun _ => 0⟩)
      else
        .returned (s.self.attach size)
          ((s.machine.setSegment name ⟨size, fun _ => 0⟩).setMutex name) := by
  have hbody : (Init.body fails).run s = (Init.server fails).run s := by
    rw [Init.body, Init.run_get_bind, hmode]
  rw [init, hbody, Init.server, Init.run_get_bind]
  by_cases hsize : s.self.dim_with_header_ ≤ sizeofHeader
  · simp only [if_pos hsize, if_neg (not_lt.mpr hsize)]
    rfl
  have hpos : s.self.dim_with_header_ ≠ 0 := by omega
  simp only [if_neg hsize, if_pos (not_le.mp hsize)]
  rw [EStateM.run_bind, Init.run_umask]
  dsimp only
  rw [EStateM.run_bind, Init.run_createSegment, Construction.segment_setUmask]
  cases hexists : s.segment.isSome with
  | true => simp [hmode]
  | false =>
  cases hcreate : fails .segment with
  | true => simp [hmode]
  | false =>
  simp only [Bool.false_eq_true, if_false, Bool.or_self]
  rw [EStateM.run_bind, Init.run_truncate (Construction.segment_setSegment _ _)]
  cases htruncate : fails .truncate with
  | true => simp [hmode]
  | false =>
  simp only [Bool.false_eq_true, if_false, Construction.setSegment_setSegment]
  rw [EStateM.run_bind, Init.run_map (Construction.segment_setSegment _ _)]
  cases hmap : fails .map with
  | true => simp [hmode]
  | false =>
  simp only [hpos, decide_false, Bool.or_self, Bool.false_eq_true, if_false]
  rw [EStateM.run_bind, Construction.setMap_setSegment,
    Init.run_clearMap (Construction.segment_setSegment _ _)]
  simp only [Construction.setSegment_setSegment]
  rw [EStateM.run_bind, Init.run_createMutex]
  cases hmutexes : s.machine.mutexes s.self.name_ with
  | true => simp [hmode, hmutexes]
  | false =>
  cases hmutex : fails .mutex with
  | true => simp [hmode, hmutexes]
  | false =>
  -- all calls return, and the old mask is restored
  simp only [Construction.machine_setSegment, Construction.self_setSegment,
    Construction.machine_setMap, Construction.machine_setUmask, Construction.name_setMap,
    Construction.self_setUmask, Machine.mutexes_setSegment, Machine.mutexes_setUmask, hmutexes,
    Bool.false_eq_true, if_false, Bool.or_self]
  rfl

/-- What `init()` does for a client. If the segment exists and the mutex does not, the client goes
on with the segment mapped and without a mutex. -/
theorem init_client (hmode : s.self.access_mode_ = .SHMEM_CLIENT) :
    init fails s =
      match s.segment with
      | none => .returned s.self s.machine
      | some object =>
          if fails .segment || fails .map || object.size = 0 then .threw s.machine
          else if !s.machine.mutexes s.self.name_ then
            .returned (s.setMap object.size).self s.machine
          else if fails .mutex then .threw s.machine
          else if s.self.ndebug || sizeofHeader < object.size then
            .returned (s.self.attach object.size) s.machine
          else
            .aborted (.assertion "dim_with_header_ > sizeof(RealTimeIPC::DataPacket::Header)")
              s.machine := by
  have hbody : (Init.body fails).run s = (Init.client fails).run s := by
    rw [Init.body, Init.run_get_bind, hmode]
  rw [init, hbody, Init.client, EStateM.run_bind, Init.run_openSegment]
  cases hsegment : s.segment with
  | none => simp [hmode]
  | some object =>
  cases hopen : fails .segment with
  | true => simp [hmode]
  | false =>
  simp only [Option.isNone_some, Bool.false_eq_true, if_false, Bool.false_or]
  rw [EStateM.run_bind, Init.run_map hsegment]
  cases hmap : fails .map || decide (object.size = 0) with
  | true => simp [hmode]
  | false =>
  simp only [Bool.false_eq_true, if_false]
  rw [EStateM.run_bind, Init.run_openMutex]
  by_cases hmutexes : s.machine.mutexes s.self.name_ = true
  swap
  · -- the exception is the one that a client tolerates
    simp only [Construction.machine_setMap, Construction.name_setMap, hmutexes, Bool.not_false,
      if_true, Construction.access_mode_setMap, hmode, and_self]
  simp only [Construction.machine_setMap, Construction.name_setMap, hmutexes]
  cases hmutex : fails .mutex with
  | true => simp [hmode]
  | false =>
  simp only [Bool.not_true, Bool.false_eq_true, if_false]
  rw [Init.run_get_bind, EStateM.run_bind, EStateM.run_set]
  dsimp only
  rw [Init.run_assert]
  have hassert : ((s.setMap object.size).setMutex.self.ndebug ||
      decide ((s.setMap object.size).setMutex.self.shared_map_ > sizeofHeader)) =
      (s.self.ndebug || decide (sizeofHeader < object.size)) := rfl
  simp only [hassert]
  split_ifs <;> rfl

end RealTimeIPC

/-! ## Failed constructions -/

/-- After a failed construction the `umask` is what it was, and no segment or mutex of the name
that the construction created remains. -/
structure NoTrace (name : String) (before after : Machine) : Prop where
  umask : after.umask = before.umask
  segment : before.segments name = none → after.segments name = none
  mutex : before.mutexes name = false → after.mutexes name = false

/-- No call of Boost throws. -/
def NoneThrows (fails : BoostCall → Bool) (m : Machine) (name : String) : Prop :=
  m.segments name = none ∧ m.mutexes name = false ∧ ∀ call, fails call = false

/-- The first call of Boost throws. -/
def FirstThrows (fails : BoostCall → Bool) (m : Machine) (name : String) : Prop :=
  (m.segments name).isSome = true ∨ fails .segment = true

namespace RealTimeIPC

variable {τ : Type} [Double τ] {fails : BoostCall → Bool} {m after : Machine}
  {identifier : String} {watchdog_decimation : τ} {dim : ℕ} {ndebug : Bool}

/-- The constructor of a server. -/
theorem create_server :
    create fails m identifier watchdog_decimation .SHMEM_SERVER dim ndebug =
      let e : RealTimeIPC τ := construct identifier watchdog_decimation .SHMEM_SERVER dim ndebug
      let size := (dim + sizeofHeader) % 2 ^ 64
      if size ≤ sizeofHeader then .returned e m
      else if (m.segments identifier).isSome || fails .segment then .threw (m.setUmask 0)
      else if fails .truncate then
        .threw ((m.setUmask 0).setSegment identifier ⟨0, fun _ => 0⟩)
      else if fails .map || m.mutexes identifier || fails .mutex then
        .threw ((m.setUmask 0).setSegment identifier ⟨size, fun _ => 0⟩)
      else
        .returned (e.attach size)
          ((m.setSegment identifier ⟨size, fun _ => 0⟩).setMutex identifier) := by
  rw [create, init_server rfl]
  rfl

theorem noneThrows_iff : NoneThrows fails m identifier ↔
    ((m.segments identifier).isSome || fails .segment) = false ∧ fails .truncate = false ∧
      (fails .map || m.mutexes identifier || fails .mutex) = false := by
  simp only [NoneThrows, Bool.or_eq_false_iff, Option.isSome_eq_false_iff,
    Option.isNone_iff_eq_none]
  constructor
  · rintro ⟨hsegment, hmutex, hfails⟩
    exact ⟨⟨hsegment, hfails _⟩, hfails _, ⟨hfails _, hmutex⟩, hfails _⟩
  · rintro ⟨⟨hsegment, hcreate⟩, htruncate, ⟨hmap, hmutexes⟩, hmutex⟩
    refine ⟨hsegment, hmutexes, fun call => ?_⟩
    cases call <;> assumption

/-- When the constructor of a server returns, and with what. -/
theorem returned_server {e : RealTimeIPC τ}
    (h : create fails m identifier watchdog_decimation .SHMEM_SERVER dim ndebug =
      .returned e after) :
    ((dim + sizeofHeader) % 2 ^ 64 ≤ sizeofHeader ∧ after = m ∧
      e = construct identifier watchdog_decimation .SHMEM_SERVER dim ndebug) ∨
    (sizeofHeader < (dim + sizeofHeader) % 2 ^ 64 ∧ NoneThrows fails m identifier ∧
      after = (m.setSegment identifier ⟨(dim + sizeofHeader) % 2 ^ 64, fun _ => 0⟩).setMutex
        identifier ∧
      e = (construct identifier watchdog_decimation .SHMEM_SERVER dim ndebug).attach
        ((dim + sizeofHeader) % 2 ^ 64)) := by
  rw [create_server] at h
  dsimp only at h
  -- of the five ends of `init()` two return: nothing to create, and everything created
  split_ifs at h with hsize hfirst htruncate hrest
  · obtain ⟨rfl, rfl⟩ := Constructed.returned.inj h
    exact .inl ⟨hsize, rfl, rfl⟩
  · obtain ⟨rfl, rfl⟩ := Constructed.returned.inj h
    refine .inr ⟨not_le.mp hsize, noneThrows_iff.mpr ⟨?_, ?_, ?_⟩, rfl, rfl⟩
    · exact Bool.eq_false_of_not_eq_true hfirst
    · exact Bool.eq_false_of_not_eq_true htruncate
    · exact Bool.eq_false_of_not_eq_true hrest

/-- What the destructor of a server removes is what the constructor has created. -/
theorem remove_returned_server {e : RealTimeIPC τ}
    (hsize : sizeofHeader < (dim + sizeofHeader) % 2 ^ 64)
    (h : create fails m identifier watchdog_decimation .SHMEM_SERVER dim ndebug =
      .returned e after) : after.remove identifier = m := by
  rcases returned_server h with ⟨hempty, -, -⟩ | ⟨-, ⟨hsegment, hmutex, -⟩, rfl, -⟩
  · exact absurd hsize (not_lt.mpr hempty)
  · -- both names were free, and removing them makes them free again
    simp only [Machine.remove, Machine.setMutex, Machine.setSegment, Function.update_idem]
    rw [← hsegment, ← hmutex, Function.update_eq_self, Function.update_eq_self]

/-- The constructor of a client. -/
theorem create_client :
    create fails m identifier watchdog_decimation .SHMEM_CLIENT dim ndebug =
      let e : RealTimeIPC τ := construct identifier watchdog_decimation .SHMEM_CLIENT dim ndebug
      match m.segments identifier with
      | none => .returned e m
      | some object =>
          if fails .segment || fails .map || object.size = 0 then .threw m
          else if !m.mutexes identifier then .returned { e with shared_map_ := object.size } m
          else if fails .mutex then .threw m
          else if ndebug || sizeofHeader < object.size then .returned (e.attach object.size) m
          else
            .aborted
              (.assertion "dim_with_header_ > sizeof(RealTimeIPC::DataPacket::Header)") m := by
  rw [create, init_client rfl]
  rfl

/-- With what the constructor of a client returns. -/
theorem returned_client {e : RealTimeIPC τ}
    (h : create fails m identifier watchdog_decimation .SHMEM_CLIENT dim ndebug =
      .returned e after) :
    let e₀ := construct identifier watchdog_decimation .SHMEM_CLIENT dim ndebug
    match m.segments identifier with
    | none => e = e₀
    | some object =>
        if m.mutexes identifier then e = e₀.attach object.size
        else e = { e₀ with shared_map_ := object.size } := by
  rw [create_client] at h
  cases hsegment : m.segments identifier with
  | none =>
    rw [hsegment] at h
    exact (Constructed.returned.inj h).1.symm
  | some object =>
    rw [hsegment] at h
    dsimp only at h ⊢
    cases hmutex : m.mutexes identifier with
    | true =>
      simp only [hmutex, Bool.not_true, Bool.false_eq_true, if_false, if_true] at h ⊢
      split_ifs at h
      exact (Constructed.returned.inj h).1.symm
    | false =>
      -- `not_found_error` again, but the segment is mapped already
      simp only [hmutex, Bool.not_false, Bool.false_eq_true, if_false, if_true] at h ⊢
      split_ifs at h
      exact (Constructed.returned.inj h).1.symm

/-- When the constructor of a server throws, and what it leaves behind. -/
theorem threw_server
    (h : create fails m identifier watchdog_decimation .SHMEM_SERVER dim ndebug = .threw after) :
    sizeofHeader < (dim + sizeofHeader) % 2 ^ 64 ∧ ¬ NoneThrows fails m identifier ∧
      ((FirstThrows fails m identifier ∧ after = m.setUmask 0) ∨
        (¬ FirstThrows fails m identifier ∧
          ∃ object, after = (m.setUmask 0).setSegment identifier object)) := by
  rw [create_server] at h
  dsimp only at h
  -- the first call throws, or `truncate()`, or one of the calls after it
  split_ifs at h with hsize hfirst htruncate hrest
  all_goals
    obtain rfl := Constructed.threw.inj h
    refine ⟨not_le.mp hsize, ?_, ?_⟩
  · simp [noneThrows_iff, hfirst]
  · exact .inl ⟨by simpa [FirstThrows] using hfirst, rfl⟩
  · simp [noneThrows_iff, htruncate]
  · exact .inr ⟨by simpa [FirstThrows] using hfirst, _, rfl⟩
  · simp only [noneThrows_iff, hrest]
    simp
  · exact .inr ⟨by simpa [FirstThrows] using hfirst, _, rfl⟩

theorem exists_threw_server (hsize : sizeofHeader < (dim + sizeofHeader) % 2 ^ 64)
    (h : ¬ NoneThrows fails m identifier) :
    ∃ after, create fails m identifier watchdog_decimation .SHMEM_SERVER dim ndebug =
      .threw after := by
  rw [create_server]
  dsimp only
  split_ifs with hempty hfirst htruncate hrest
  · omega
  · exact ⟨_, rfl⟩
  · exact ⟨_, rfl⟩
  · exact ⟨_, rfl⟩
  · simp only [noneThrows_iff, hfirst, htruncate, hrest] at h
    simp at h

/-- A new segment is a trace, and so is another `umask`. -/
theorem noTrace_iff_of_threw
    (h : create fails m identifier watchdog_decimation .SHMEM_SERVER dim ndebug = .threw after) :
    NoTrace identifier m after ↔ FirstThrows fails m identifier ∧ m.umask = 0 := by
  obtain ⟨-, -, ⟨hfirst, rfl⟩ | ⟨hfirst, object, rfl⟩⟩ := threw_server h
  · constructor
    · intro hno
      exact ⟨hfirst, hno.umask.symm⟩
    · rintro ⟨-, hzero⟩
      exact ⟨hzero.symm, id, id⟩
  · refine iff_of_false (fun hno => ?_) fun hclean => hfirst hclean.1
    -- the name was free, and now it is not
    have hfree : m.segments identifier = none :=
      Option.not_isSome_iff_eq_none.mp fun hsome => hfirst (.inl hsome)
    have hremains := hno.segment hfree
    simp [Machine.setSegment] at hremains

variable (fails m identifier watchdog_decimation dim ndebug)

/-- **A failed construction of a server leaves no trace exactly if it fails in the first call of
Boost, under a `umask` that is zero already.** Constructions do not fail if no call throws, or if
none is made because the sum of the sizes wraps around. In all others the `umask` stays at zero or
the new segment remains. A later construction finds the machine that the failed one found, if that
has left no trace. -/
theorem noTrace_iff :
    ((∀ after, create fails m identifier watchdog_decimation .SHMEM_SERVER dim ndebug =
        .threw after → NoTrace identifier m after) ↔
      (dim + sizeofHeader) % 2 ^ 64 ≤ sizeofHeader ∨ NoneThrows fails m identifier ∨
        (FirstThrows fails m identifier ∧ m.umask = 0)) ∧
    ∀ after, create fails m identifier watchdog_decimation .SHMEM_SERVER dim ndebug =
        .threw after → NoTrace identifier m after → after = m := by
  refine ⟨⟨fun h => ?_, ?_⟩, fun after hthrew hno => ?_⟩
  · by_contra! hnot
    -- then the constructor throws, and what it leaves behind is a trace
    obtain ⟨hsize, hnone, hfirst⟩ := hnot
    obtain ⟨after, hthrew⟩ : ∃ after, create fails m identifier watchdog_decimation .SHMEM_SERVER
        dim ndebug = .threw after := exists_threw_server hsize hnone
    obtain ⟨hfirst', hzero⟩ := (noTrace_iff_of_threw hthrew).mp (h after hthrew)
    exact hfirst hfirst' hzero
  · rintro hclean after hthrew
    obtain ⟨hsize, hnone, -⟩ := threw_server hthrew
    rcases hclean with hempty | hnone' | hfirst
    · exact absurd hsize (not_lt.mpr hempty)
    · exact absurd hnone' hnone
    · exact (noTrace_iff_of_threw hthrew).mpr hfirst
  · obtain ⟨hfirst, hzero⟩ := (noTrace_iff_of_threw hthrew).mp hno
    obtain ⟨-, -, ⟨-, rfl⟩ | ⟨hfirst', -⟩⟩ := threw_server hthrew
    · -- `umask(0)` has changed nothing
      rw [Machine.setUmask, ← hzero]
    · exact absurd hfirst hfirst'

/-- A machine with a mutex that another process has left behind. -/
def staleMutex : Machine where
  umask := 18
  segments := fun _ => none
  mutexes := fun name => name == "ipc"

/-- The mutex makes the constructor of a server throw. The `umask` stays at zero, and the segment
makes a later constructor throw even if the mutex was removed. -/
theorem trace_of_stale_mutex :
    ∃ after, create (fun _ => false) staleMutex "ipc" (1 : ℚ) .SHMEM_SERVER 8 false =
        .threw after ∧ after.umask = 0 ∧ (after.segments "ipc").isSome = true ∧
      ¬ NoTrace "ipc" staleMutex after ∧
      ∃ after', create (fun _ => false) { after with mutexes := fun _ => false } "ipc" (1 : ℚ)
        .SHMEM_SERVER 8 false = .threw after' :=
  ⟨_, rfl, rfl, rfl, fun hno => absurd hno.umask (by decide), _, rfl⟩

end RealTimeIPC

end RealtimeUtilities
