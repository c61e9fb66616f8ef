import RealtimeUtilities.IPC.Construction
import RealtimeUtilities.ToMathlib.NameTable

/-!
# Constructors and destructors that overlap

The constructor of a `RealTimeIPC` calls Boost several times, and so does the destructor of a
server. Here each of these calls is a step, and other processes construct and destroy their
endpoints in between. Objects and mutexes outlive their names, so they are numbered in the order of
their creation.

## Main definitions

* `Party`: an endpoint with what its constructor holds, and the next call of Boost (`Phase`);
* `ConcurrentHost` and `step`: the named objects, the endpoints, and what an event makes of them.

## Main results

* `own_objects`: in every interleaving the names stand for the objects of the server that has
  created them, until its own destructor removes them.
-/

namespace RealtimeUtilities

open Execution

/-- How far an endpoint has come: the next call of Boost of its constructor or its destructor, or
the end of one of them. -/
inductive Phase where
  | createSegment
  | truncate (segment : ℕ)
  | mapCreated (segment : ℕ)
  | createMutex (segment : ℕ)
  /-- The constructor of a server has returned. -/
  | serving (segment mutex : ℕ)
  | removeSegment (segment mutex : ℕ)
  /-- If `left`, the system has refused to remove the name of the segment. -/
  | removeMutex (segment mutex : ℕ) (left : Bool)
  /-- The destructor of a server has returned, and may have left names behind. -/
  | removed (segment mutex : ℕ) (leftSegment leftMutex : Bool)
  | openSegment
  | mapOpened (segment : ℕ)
  | openMutex (segment : ℕ)
  /-- The constructor of a client has returned. -/
  | attached (segment mutex : ℕ)
  /-- The constructor has returned without a mutex. -/
  | detached
  /-- The constructor threw. A server may have created a segment. -/
  | threw (segment : Option ℕ)
  /-- The destructor of a client has returned. -/
  | destroyed
  deriving DecidableEq

namespace Phase

/-- The segment that a server has created. -/
def made : Phase → Option ℕ
  | truncate k | mapCreated k | createMutex k | serving k _ | removeSegment k _ | removeMutex k _ _
  | removed k _ _ _ => some k
  | threw k => k
  | createSegment | openSegment | mapOpened _ | openMutex _ | attached _ _ | detached | destroyed =>
      none

/-- The segment that a server has created, while its destructor has not removed the name. -/
def named : Phase → Option ℕ
  | truncate k | mapCreated k | createMutex k | serving k _ | removeSegment k _ => some k
  | threw k => k
  | removeMutex k _ left | removed k _ left _ => if left then some k else none
  | createSegment | openSegment | mapOpened _ | openMutex _ | attached _ _ | detached | destroyed =>
      none

/-- The mutex that a server has created. -/
def madeMutex : Phase → Option ℕ
  | serving _ m | removeSegment _ m | removeMutex _ m _ | removed _ m _ _ => some m
  | createSegment | truncate _ | mapCreated _ | createMutex _ | openSegment | mapOpened _
  | openMutex _ | attached _ _ | detached | threw _ | destroyed => none

/-- The mutex that a server has created, while its destructor has not removed the name. -/
def locked : Phase → Option ℕ
  | serving _ m | removeSegment _ m | removeMutex _ m _ => some m
  | removed _ m _ left => if left then some m else none
  | createSegment | truncate _ | mapCreated _ | createMutex _ | openSegment | mapOpened _
  | openMutex _ | attached _ _ | detached | threw _ | destroyed => none

/-- The segment that a client has opened. -/
def opened : Phase → Option ℕ
  | mapOpened k | openMutex k | attached k _ => some k
  | createSegment | truncate _ | mapCreated _ | createMutex _ | serving _ _ | removeSegment _ _
  | removeMutex _ _ _ | removed _ _ _ _ | openSegment | detached | threw _ | destroyed => none

/-- The segment and the mutex that the operations of an endpoint work with. -/
def works : Phase → Option (ℕ × ℕ)
  | serving k m | attached k m => some (k, m)
  | createSegment | truncate _ | mapCreated _ | createMutex _ | removeSegment _ _
  | removeMutex _ _ _ | removed _ _ _ _ | openSegment | mapOpened _ | openMutex _ | detached
  | threw _ | destroyed => none

/-- The segment of a client whose constructor is still to open the mutex. -/
def opening : Phase → Option ℕ
  | mapOpened k | openMutex k => some k
  | createSegment | truncate _ | mapCreated _ | createMutex _ | serving _ _ | removeSegment _ _
  | removeMutex _ _ _ | removed _ _ _ _ | openSegment | attached _ _ | detached | threw _
  | destroyed => none

/-- The destructor of a server has removed the segment and not the mutex. -/
def removing : Phase → Bool
  | removeMutex _ _ left => !left
  | createSegment | truncate _ | mapCreated _ | createMutex _ | serving _ _ | removeSegment _ _
  | removed _ _ _ _ | openSegment | mapOpened _ | openMutex _ | attached _ _ | detached | threw _
  | destroyed => false

/-- The destructor of a server has returned and has left the mutex behind. -/
def leaves : Phase → Bool
  | removed _ _ _ left => left
  | createSegment | truncate _ | mapCreated _ | createMutex _ | serving _ _ | removeSegment _ _
  | removeMutex _ _ _ | openSegment | mapOpened _ | openMutex _ | attached _ _ | detached | threw _
  | destroyed => false

end Phase

/-- An endpoint and its process. -/
structure Party where
  name_ : String
  dim_with_header_ : ℕ
  /-- `shared_map_.get_size()`. -/
  shared_map_ : ℕ
  /-- The process was compiled with `NDEBUG`. -/
  ndebug : Bool
  /-- The process has not died. -/
  alive : Bool
  phase : Phase

/-- The segments and the mutexes of a machine. -/
structure NamedObjects where
  /-- The sizes of the segments created so far. -/
  sizes : List ℕ
  /-- The segment that a name stands for. -/
  names : String → Option ℕ
  /-- How many mutexes were created so far. -/
  mutexes : ℕ
  /-- The mutex that a name stands for. -/
  mutexNames : String → Option ℕ
  /-- The mutexes that were locked by processes that have died. Nobody unlocks them. -/
  held : List ℕ

/-- The machine with the endpoints on it. -/
structure ConcurrentHost extends NamedObjects where
  parties : List Party

/-- What happens on the machine. -/
inductive ConcurrentEvent where
  /-- A process begins to construct a server or a client. -/
  | construct (server : Bool) (identifier : String) (dim : ℕ) (ndebug : Bool)
  /-- The endpoint `i` calls Boost, which throws in any case if `fails`. A removal returns `false`
  then. -/
  | boost (i : ℕ) (fails : Bool)
  /-- A process begins to destroy its endpoint. -/
  | destruct (i : ℕ)
  /-- The process of the endpoint `i` dies, with its mutex locked if `holding`. -/
  | crash (i : ℕ) (holding : Bool)
  deriving DecidableEq

namespace Party

/-- The constructor before its first call of Boost. A server without payload makes none. -/
def construct (server : Bool) (identifier : String) (dim : ℕ) (ndebug : Bool) : Party where
  name_ := identifier
  dim_with_header_ := (dim + sizeofHeader) % 2 ^ 64
  shared_map_ := 0
  ndebug := ndebug
  alive := true
  phase :=
    if server then
      if (dim + sizeofHeader) % 2 ^ 64 > sizeofHeader then .createSegment else .detached
    else .openSegment

/-- The endpoint at another phase. -/
def setPhase (p : Party) (phase : Phase) : Party :=
  { p with phase := phase }

/-- The process dies. -/
def die (p : Party) : Party :=
  { p with alive := false }

/-- A request of the endpoint aborts its process: for want of a mutex, or by
`assert(dim_with_header_ < sizeof(RealTimeIPC::DataPacket))`. Without assertions a segment that is
larger than a packet is copied all the same, and the process may go on. -/
def Aborts (p : Party) : Prop :=
  sizeofHeader < p.dim_with_header_ ∧
    (p.phase.works = none ∨ (p.ndebug = false ∧ sizeofDataPacket ≤ p.dim_with_header_))

instance (p : Party) : Decidable p.Aborts :=
  inferInstanceAs (Decidable (_ ∧ _))

/-- The mutex that the requests of the endpoint lock. -/
def locks (p : Party) : Option ℕ :=
  if p.Aborts then none else p.phase.works.map Prod.snd

/-- The destructor before its first call of Boost, nothing if there is no endpoint to destroy. That
of a client calls none. Both ask whether the segment is bonded, and wait for the mutex. -/
def destruct (p : Party) (held : List ℕ) : Option Party :=
  match p.phase with
  | .serving k m =>
      if p.Aborts then some p.die
      else if sizeofHeader < p.dim_with_header_ ∧ m ∈ held then none
      else some (p.setPhase (.removeSegment k m))
  | .attached _ m =>
      if p.Aborts then some p.die
      else if sizeofHeader < p.dim_with_header_ ∧ m ∈ held then none
      else some (p.setPhase .destroyed)
  | .detached => some (if p.Aborts then p.die else p.setPhase .destroyed)
  | .createSegment | .truncate _ | .mapCreated _ | .createMutex _ | .removeSegment _ _
  | .removeMutex _ _ _ | .removed _ _ _ _ | .openSegment | .mapOpened _ | .openMutex _ | .threw _
  | .destroyed => none

end Party

namespace NamedObjects

variable (o : NamedObjects)

/-- The size of the segment `k`. -/
def size (k : ℕ) : ℕ :=
  (o.sizes[k]?).getD 0

/-- A new segment, which is empty, with the name `name`. -/
def addSegment (name : String) : NamedObjects :=
  { o with
    sizes := o.sizes ++ [0]
    names := Function.update o.names name (some o.sizes.length) }

/-- The segment `k` has the size `size`. -/
def setSize (k size : ℕ) : NamedObjects :=
  { o with sizes := o.sizes.set k size }

/-- A new mutex with the name `name`. -/
def addMutex (name : String) : NamedObjects :=
  { o with
    mutexes := o.mutexes + 1
    mutexNames := Function.update o.mutexNames name (some o.mutexes) }

/-- `shared_memory_object::remove(name)`. -/
def removeSegment (name : String) : NamedObjects :=
  { o with names := Function.update o.names name none }

/-- `named_mutex::remove(name)`. -/
def removeMutex (name : String) : NamedObjects :=
  { o with mutexNames := Function.update o.mutexNames name none }

/-- A process dies with the mutex `m` locked. -/
def hold (m : ℕ) : NamedObjects :=
  { o with held := m :: o.held }

/-- The next call of Boost of the endpoint `p`: the machine and the endpoint after it, nothing if
there is none to make. -/
def boost (p : Party) (fails : Bool) : Option (NamedObjects × Party) :=
  match p.phase with
  | .createSegment =>
      if (o.names p.name_).isSome || fails then some (o, p.setPhase (.threw none))
      else some (o.addSegment p.name_, p.setPhase (.truncate o.sizes.length))
  | .truncate k =>
      if fails then some (o, p.setPhase (.threw (some k)))
      else some (o.setSize k p.dim_with_header_, p.setPhase (.mapCreated k))
  | .mapCreated k =>
      if fails || o.size k = 0 then some (o, p.setPhase (.threw (some k)))
      -- the `memset` that follows writes zeros over the zeros of `truncate`
      else some (o, { p with shared_map_ := o.size k, phase := .createMutex k })
  | .createMutex k =>
      if (o.mutexNames p.name_).isSome || fails then some (o, p.setPhase (.threw (some k)))
      else some (o.addMutex p.name_, p.setPhase (.serving k o.mutexes))
  | .openSegment =>
      match o.names p.name_ with
      -- a client goes on without the segment
      | none => some (o, p.setPhase .detached)
      | some k => some (o, p.setPhase (if fails then .threw none else .mapOpened k))
  | .mapOpened k =>
      if fails || o.size k = 0 then some (o, p.setPhase (.threw none))
      else some (o, { p with shared_map_ := o.size k, phase := .openMutex k })
  | .openMutex k =>
      match o.mutexNames p.name_ with
      -- nor does it need the mutex
      | none => some (o, p.setPhase .detached)
      | some m =>
          if fails then some (o, p.setPhase (.threw none))
          else
            some (o,
              { p with
                dim_with_header_ := p.shared_map_
                -- `assert(dim_with_header_ > sizeof(RealTimeIPC::DataPacket::Header))`
                alive := p.ndebug || sizeofHeader < p.shared_map_
                phase := .attached k m })
  -- the destructor goes on after a removal that the system refuses
  | .removeSegment k m =>
      if fails then some (o, p.setPhase (.removeMutex k m true))
      else some (o.removeSegment p.name_, p.setPhase (.removeMutex k m false))
  | .removeMutex k m left =>
      if fails then some (o, p.setPhase (.removed k m left true))
      else some (o.removeMutex p.name_, p.setPhase (.removed k m left false))
  | .serving _ _ | .removed _ _ _ _ | .attached _ _ | .detached | .threw _ | .destroyed => none

variable {o : NamedObjects}

@[simp]
theorem size_addSegment (name : String) : (o.addSegment name).size = o.size := by
  funext k
  show ((o.sizes ++ [0])[k]?).getD 0 = (o.sizes[k]?).getD 0
  rw [List.getElem?_append]
  split
  · rfl
  · next hlt =>
    rw [List.getElem?_eq_none (not_lt.mp hlt)]
    cases hzero : ([0] : List ℕ)[k - o.sizes.length]? with
    | none => rfl
    | some a => exact List.mem_singleton.mp (List.mem_of_getElem? hzero)

theorem size_setSize {k : ℕ} (hk : k < o.sizes.length) (size : ℕ) :
    (o.setSize k size).size = Function.update o.size k size := by
  funext l
  show ((o.sizes.set k size)[l]?).getD 0 = _
  by_cases hl : l = k
  · subst hl
    rw [Function.update_self, List.getElem?_set_self hk]
    rfl
  · rw [Function.update_of_ne hl, List.getElem?_set_ne (Ne.symm hl)]
    rfl

end NamedObjects

namespace ConcurrentHost

/-- A machine on which no endpoint was constructed yet. -/
def fresh : ConcurrentHost where
  sizes := []
  names := fun _ => none
  mutexes := 0
  mutexNames := fun _ => none
  held := []
  parties := []

variable (h : ConcurrentHost)

/-- The endpoint `i` is `p`. -/
def setParty (i : ℕ) (p : Party) : ConcurrentHost :=
  { h with parties := h.parties.set i p }

/-- The endpoint `i`, whose process has not died. -/
def living (i : ℕ) : Option Party :=
  (h.parties[i]?).filter Party.alive

/-- One event. -/
def step : ConcurrentEvent → Option ConcurrentHost
  | .construct server identifier dim ndebug =>
      some { h with parties := h.parties ++ [Party.construct server identifier dim ndebug] }
  | .boost i fails => do
      let (o, p) ← h.boost (← h.living i) fails
      return ⟨o, h.parties.set i p⟩
  | .destruct i => do
      let p ← (← h.living i).destruct h.held
      return h.setParty i p
  | .crash i false => do
      let p ← h.living i
      return h.setParty i p.die
  | .crash i true => do
      let p ← h.living i
      let m ← p.locks
      return ⟨h.hold m, h.parties.set i p.die⟩

end ConcurrentHost

/-! ## What a step does -/

namespace Party

/-- The sizes that an endpoint has found or made. -/
def Sized (p : Party) (size : ℕ → ℕ) : Prop :=
  match p.phase with
  | .createSegment => sizeofHeader < p.dim_with_header_
  | .truncate k => sizeofHeader < p.dim_with_header_ ∧ size k = 0
  | .mapCreated k | .removeSegment k _ | .attached k _ =>
      sizeofHeader < p.dim_with_header_ ∧ size k = p.dim_with_header_
  | .createMutex k | .serving k _ =>
      sizeofHeader < p.dim_with_header_ ∧ size k = p.dim_with_header_ ∧
        p.shared_map_ = p.dim_with_header_
  | .openMutex k => sizeofHeader < p.shared_map_ ∧ size k = p.shared_map_
  | .removeMutex _ _ _ | .removed _ _ _ _ | .openSegment | .mapOpened _ | .detached | .threw _
  | .destroyed => True

/-- The endpoint has gone on from `p` to `p'` without a change to the named objects. -/
structure GoesOn (p p' : Party) : Prop where
  name : p'.name_ = p.name_
  alive : p.alive = true
  made : p'.phase.made = p.phase.made
  madeMutex : p'.phase.madeMutex = p.phase.madeMutex
  named : p'.phase.named = p.phase.named
  locked : p'.phase.locked = p.phase.locked
  opened : ∀ k, p'.phase.opened = some k → p.phase.opened = some k
  works : ∀ x, p'.phase.works = some x → p.phase.works = some x
  opening : ∀ k, p'.phase.opening = some k → p.phase.opening = some k
  leaves : p.phase.leaves = true → p'.phase.leaves = true

theorem works_of_locks {p : Party} {m : ℕ} (hm : p.locks = some m) :
    ∃ k, p.phase.works = some (k, m) := by
  unfold locks at hm
  split_ifs at hm
  obtain ⟨⟨k, m'⟩, hworks, rfl⟩ := Option.map_eq_some_iff.mp hm
  exact ⟨k, hworks⟩

end Party

namespace ConcurrentHost

/-- What an event does, by what it does to the named objects. -/
inductive Does (h : ConcurrentHost) : ConcurrentHost → Prop
  | construct (server : Bool) (identifier : String) (dim : ℕ) (ndebug : Bool) :
      Does h { h with parties := h.parties ++ [Party.construct server identifier dim ndebug] }
  | goesOn {i : ℕ} {p p' : Party} {held : List ℕ} (hi : h.parties[i]? = some p)
      (hgoes : p.GoesOn p')
      (hsized : (∀ k, h.size k = 0 ∨ sizeofHeader < h.size k) → p.Sized h.size →
        p'.Sized h.size)
      (hheld : held = h.held ∨ ∃ k m, p.phase.works = some (k, m) ∧ held = m :: h.held) :
      Does h { h with held, parties := h.parties.set i p' }
  | createSegment {i : ℕ} {p : Party} (hi : h.parties[i]? = some p) (halive : p.alive = true)
      (hphase : p.phase = .createSegment) (hfree : h.names p.name_ = none) :
      Does h ⟨h.addSegment p.name_, h.parties.set i (p.setPhase (.truncate h.sizes.length))⟩
  | truncate {i k : ℕ} {p : Party} (hi : h.parties[i]? = some p) (halive : p.alive = true)
      (hphase : p.phase = .truncate k) :
      Does h ⟨h.setSize k p.dim_with_header_, h.parties.set i (p.setPhase (.mapCreated k))⟩
  | createMutex {i k : ℕ} {p : Party} (hi : h.parties[i]? = some p) (halive : p.alive = true)
      (hphase : p.phase = .createMutex k) (hfree : h.mutexNames p.name_ = none) :
      Does h ⟨h.addMutex p.name_, h.parties.set i (p.setPhase (.serving k h.mutexes))⟩
  | openSegment {i k : ℕ} {p : Party} (hi : h.parties[i]? = some p) (halive : p.alive = true)
      (hphase : p.phase = .openSegment) (hname : h.names p.name_ = some k) :
      Does h (h.setParty i (p.setPhase (.mapOpened k)))
  | openMutex {i k m : ℕ} {p p' : Party} (hi : h.parties[i]? = some p) (halive : p.alive = true)
      (hphase : p.phase = .openMutex k) (hname : h.mutexNames p.name_ = some m)
      (hname' : p'.name_ = p.name_) (hphase' : p'.phase = .attached k m)
      (hdim : p'.dim_with_header_ = p.shared_map_) :
      Does h (h.setParty i p')
  | removeSegment {i k m : ℕ} {p : Party} (hi : h.parties[i]? = some p) (halive : p.alive = true)
      (hphase : p.phase = .removeSegment k m) :
      Does h ⟨h.removeSegment p.name_, h.parties.set i (p.setPhase (.removeMutex k m false))⟩
  | removeMutex {i k m : ℕ} {left : Bool} {p : Party} (hi : h.parties[i]? = some p)
      (halive : p.alive = true) (hphase : p.phase = .removeMutex k m left) :
      Does h ⟨h.removeMutex p.name_, h.parties.set i (p.setPhase (.removed k m left false))⟩

variable {h h' : ConcurrentHost} {i j : ℕ} {p p' q : Party} {e : ConcurrentEvent}

theorem living_eq_some_iff : h.living i = some p ↔ h.parties[i]? = some p ∧ p.alive = true := by
  rw [living, Option.filter_eq_some_iff]

/-- No mutex is left locked. -/
theorem Does.moves (hi : h.parties[i]? = some p) (hgoes : p.GoesOn p')
    (hsized : (∀ k, h.size k = 0 ∨ sizeofHeader < h.size k) → p.Sized h.size → p'.Sized h.size) :
    Does h (h.setParty i p') :=
  .goesOn hi hgoes hsized (.inl rfl)

theorem does_of_boost (hi : h.parties[i]? = some p) (halive : p.alive = true) {fails : Bool}
    {o : NamedObjects} (hboost : h.boost p fails = some (o, p')) :
    Does h ⟨o, h.parties.set i p'⟩ := by
  obtain ⟨name, dim, map, ndebug, alive, phase⟩ := p
  obtain rfl : alive = true := halive
  unfold NamedObjects.boost at hboost
  -- a call that throws ends the constructor, and what it has created keeps its name
  cases phase with
  | createSegment =>
    dsimp only at hboost
    split_ifs at hboost with hfails
    · obtain ⟨rfl, rfl⟩ := Prod.mk.inj (Option.some.inj hboost)
      exact .moves hi ⟨rfl, rfl, rfl, rfl, rfl, rfl, nofun, nofun, nofun, nofun⟩ fun _ _ => trivial
    · obtain ⟨rfl, rfl⟩ := Prod.mk.inj (Option.some.inj hboost)
      exact .createSegment hi rfl rfl
        (Option.not_isSome_iff_eq_none.mp fun hname => hfails (by simp [hname]))
  | truncate k =>
    dsimp only at hboost
    split_ifs at hboost with hfails
    · obtain ⟨rfl, rfl⟩ := Prod.mk.inj (Option.some.inj hboost)
      exact .moves hi ⟨rfl, rfl, rfl, rfl, rfl, rfl, nofun, nofun, nofun, nofun⟩ fun _ _ => trivial
    · obtain ⟨rfl, rfl⟩ := Prod.mk.inj (Option.some.inj hboost)
      exact .truncate hi rfl rfl
  | mapCreated k =>
    dsimp only at hboost
    split_ifs at hboost with hfails
    · obtain ⟨rfl, rfl⟩ := Prod.mk.inj (Option.some.inj hboost)
      exact .moves hi ⟨rfl, rfl, rfl, rfl, rfl, rfl, nofun, nofun, nofun, nofun⟩ fun _ _ => trivial
    · obtain ⟨rfl, rfl⟩ := Prod.mk.inj (Option.some.inj hboost)
      exact .moves hi ⟨rfl, rfl, rfl, rfl, rfl, rfl, nofun, nofun, nofun, nofun⟩
        fun _ hs => ⟨hs.1, hs.2, hs.2⟩
  | createMutex k =>
    dsimp only at hboost
    split_ifs at hboost with hfails
    · obtain ⟨rfl, rfl⟩ := Prod.mk.inj (Option.some.inj hboost)
      exact .moves hi ⟨rfl, rfl, rfl, rfl, rfl, rfl, nofun, nofun, nofun, nofun⟩ fun _ _ => trivial
    · obtain ⟨rfl, rfl⟩ := Prod.mk.inj (Option.some.inj hboost)
      exact .createMutex hi rfl rfl
        (Option.not_isSome_iff_eq_none.mp fun hname => hfails (by simp [hname]))
  | serving | removed | attached | detached | threw | destroyed => cases hboost
  | removeSegment k m =>
    dsimp only at hboost
    split_ifs at hboost with hfails
    · obtain ⟨rfl, rfl⟩ := Prod.mk.inj (Option.some.inj hboost)
      exact .moves hi ⟨rfl, rfl, rfl, rfl, rfl, rfl, nofun, nofun, nofun, nofun⟩ fun _ _ => trivial
    · obtain ⟨rfl, rfl⟩ := Prod.mk.inj (Option.some.inj hboost)
      exact .removeSegment hi rfl rfl
  | removeMutex k m left =>
    dsimp only at hboost
    split_ifs at hboost with hfails
    · obtain ⟨rfl, rfl⟩ := Prod.mk.inj (Option.some.inj hboost)
      exact .moves hi ⟨rfl, rfl, rfl, rfl, rfl, rfl, nofun, nofun, nofun, nofun⟩ fun _ _ => trivial
    · obtain ⟨rfl, rfl⟩ := Prod.mk.inj (Option.some.inj hboost)
      exact .removeMutex hi rfl rfl
  | openSegment =>
    dsimp only at hboost
    split at hboost
    · obtain ⟨rfl, rfl⟩ := Prod.mk.inj (Option.some.inj hboost)
      exact .moves hi ⟨rfl, rfl, rfl, rfl, rfl, rfl, nofun, nofun, nofun, nofun⟩ fun _ _ => trivial
    · next k hname =>
      obtain ⟨rfl, rfl⟩ := Prod.mk.inj (Option.some.inj hboost)
      cases fails with
      | true =>
        exact .moves hi ⟨rfl, rfl, rfl, rfl, rfl, rfl, nofun, nofun, nofun, nofun⟩
          fun _ _ => trivial
      | false => exact .openSegment hi rfl rfl hname
  | mapOpened k =>
    dsimp only at hboost
    split_ifs at hboost with hfails
    · obtain ⟨rfl, rfl⟩ := Prod.mk.inj (Option.some.inj hboost)
      exact .moves hi ⟨rfl, rfl, rfl, rfl, rfl, rfl, nofun, nofun, nofun, nofun⟩ fun _ _ => trivial
    · obtain ⟨rfl, rfl⟩ := Prod.mk.inj (Option.some.inj hboost)
      -- only a segment that is not empty can be mapped
      refine .moves hi ⟨rfl, rfl, rfl, rfl, rfl, rfl, fun _ hk => hk, nofun, fun _ hk => hk, nofun⟩
        fun hsizes _ => ⟨(hsizes k).resolve_left fun hzero => hfails (by simp [hzero]), rfl⟩
  | openMutex k =>
    dsimp only at hboost
    split at hboost
    · obtain ⟨rfl, rfl⟩ := Prod.mk.inj (Option.some.inj hboost)
      exact .moves hi ⟨rfl, rfl, rfl, rfl, rfl, rfl, nofun, nofun, nofun, nofun⟩ fun _ _ => trivial
    · next m hname =>
      split_ifs at hboost with hfails
      · obtain ⟨rfl, rfl⟩ := Prod.mk.inj (Option.some.inj hboost)
        exact .moves hi ⟨rfl, rfl, rfl, rfl, rfl, rfl, nofun, nofun, nofun, nofun⟩
          fun _ _ => trivial
      · obtain ⟨rfl, rfl⟩ := Prod.mk.inj (Option.some.inj hboost)
        exact .openMutex hi rfl rfl hname rfl rfl rfl

theorem does_of_die (hi : h.parties[i]? = some p) (halive : p.alive = true) {held : List ℕ}
    (hheld : held = h.held ∨ ∃ k m, p.phase.works = some (k, m) ∧ held = m :: h.held) :
    Does h { h with held, parties := h.parties.set i p.die } :=
  .goesOn hi ⟨rfl, halive, rfl, rfl, rfl, rfl, fun _ hk => hk, fun _ hx => hx, fun _ hk => hk, id⟩
    (fun _ hs => hs) hheld

theorem does_of_destruct (hi : h.parties[i]? = some p) (halive : p.alive = true)
    (hdestruct : p.destruct h.held = some p') : Does h (h.setParty i p') := by
  have hdie : Does h (h.setParty i p.die) := does_of_die hi halive (.inl rfl)
  obtain ⟨name, dim, map, ndebug, alive, phase⟩ := p
  obtain rfl : alive = true := halive
  unfold Party.destruct at hdestruct
  cases phase <;> dsimp only at hdestruct
  case serving =>
    split_ifs at hdestruct <;> obtain rfl := Option.some.inj hdestruct
    · exact hdie
    · exact .moves hi ⟨rfl, rfl, rfl, rfl, rfl, rfl, nofun, nofun, nofun, nofun⟩
        fun _ hs => ⟨hs.1, hs.2.1⟩
  case attached | detached =>
    split_ifs at hdestruct <;> obtain rfl := Option.some.inj hdestruct
    · exact hdie
    · exact .moves hi ⟨rfl, rfl, rfl, rfl, rfl, rfl, nofun, nofun, nofun, nofun⟩ fun _ _ => trivial
  all_goals cases hdestruct

theorem does_of_step (hstep : h.step e = some h') : Does h h' := by
  cases e with
  | construct server identifier dim ndebug =>
    obtain rfl := Option.some.inj hstep
    exact .construct server identifier dim ndebug
  | boost i fails =>
    simp only [step, Option.bind_eq_bind, Option.bind_eq_some_iff] at hstep
    obtain ⟨p, hp, ⟨o, p'⟩, hboost, hset⟩ := hstep
    obtain rfl := Option.some.inj hset
    obtain ⟨hi, halive⟩ := living_eq_some_iff.mp hp
    exact does_of_boost hi halive hboost
  | destruct i =>
    simp only [step, Option.bind_eq_bind, Option.bind_eq_some_iff] at hstep
    obtain ⟨p, hp, p', hdestruct, hset⟩ := hstep
    obtain rfl := Option.some.inj hset
    obtain ⟨hi, halive⟩ := living_eq_some_iff.mp hp
    exact does_of_destruct hi halive hdestruct
  | crash i holding =>
    cases holding <;>
      simp only [step, Option.bind_eq_bind, Option.bind_eq_some_iff] at hstep
    case false =>
      obtain ⟨p, hp, hset⟩ := hstep
      obtain rfl := Option.some.inj hset
      obtain ⟨hi, halive⟩ := living_eq_some_iff.mp hp
      exact does_of_die hi halive (.inl rfl)
    case true =>
      obtain ⟨p, hp, m, hm, hset⟩ := hstep
      obtain rfl := Option.some.inj hset
      obtain ⟨hi, halive⟩ := living_eq_some_iff.mp hp
      obtain ⟨k, hworks⟩ := Party.works_of_locks hm
      exact does_of_die hi halive (.inr ⟨k, m, hworks, rfl⟩)

/-! ## What every step keeps -/

/-- The segments and their names. -/
def segments : Making Party String where
  name := Party.name_
  made p := p.phase.made
  named p := p.phase.named
  made_of_named {p k} hk := by
    cases hphase : p.phase <;> rw [hphase] at hk <;> dsimp only [Phase.named] at hk
    case removeMutex | removed =>
      split_ifs at hk
      exact hk
    all_goals exact hk

/-- The mutexes and their names. -/
def locks : Making Party String where
  name := Party.name_
  made p := p.phase.madeMutex
  named p := p.phase.locked
  made_of_named {p k} hk := by
    cases hphase : p.phase <;> rw [hphase] at hk <;> dsimp only [Phase.locked] at hk
    case removed =>
      split_ifs at hk
      exact hk
    all_goals exact hk

/-- The names are those that servers have given to what they have created, and clients have opened
what servers of their own name have created. Every segment is empty or has a payload, and whoever
has mapped it knows its size. What the dead have locked is there. -/
structure Sound (h : ConcurrentHost) : Prop where
  segments : segments.Sound h.parties h.names h.sizes.length
  locks : locks.Sound h.parties h.mutexNames h.mutexes
  opened : ∀ (i : ℕ) p k, h.parties[i]? = some p → p.phase.opened = some k →
    ∃ (j : ℕ) (q : Party), h.parties[j]? = some q ∧ q.name_ = p.name_ ∧ q.phase.made = some k
  works : ∀ (i : ℕ) p k m, h.parties[i]? = some p → p.phase.works = some (k, m) →
    ∃ (j : ℕ) (q : Party), h.parties[j]? = some q ∧ q.name_ = p.name_ ∧
      q.phase.madeMutex = some m
  sizes : ∀ k, h.size k = 0 ∨ sizeofHeader < h.size k
  sized : ∀ (i : ℕ) p, h.parties[i]? = some p → p.Sized h.size
  held : ∀ m ∈ h.held, m < h.mutexes

theorem sound_fresh : fresh.Sound where
  segments := Making.sound_nil
  locks := Making.sound_nil
  opened := by simp [fresh]
  works := by simp [fresh]
  sizes := by simp [fresh, NamedObjects.size]
  sized := by simp [fresh]
  held := by simp [fresh]

/-- Nobody forgets what he has created. -/
theorem Does.party (hdoes : Does h h') (hj : h.parties[j]? = some q) :
    ∃ q' : Party, h'.parties[j]? = some q' ∧ q'.name_ = q.name_ ∧
      (∀ k, q.phase.made = some k → q'.phase.made = some k) ∧
      ∀ m, q.phase.madeMutex = some m → q'.phase.madeMutex = some m := by
  have hset : ∀ {i : ℕ} {p p' : Party}, h.parties[i]? = some p → p'.name_ = p.name_ →
      (∀ k, p.phase.made = some k → p'.phase.made = some k) →
      (∀ m, p.phase.madeMutex = some m → p'.phase.madeMutex = some m) →
      ∃ q' : Party, (h.parties.set i p')[j]? = some q' ∧ q'.name_ = q.name_ ∧
        (∀ k, q.phase.made = some k → q'.phase.made = some k) ∧
        ∀ m, q.phase.madeMutex = some m → q'.phase.madeMutex = some m := by
    intro i p p' hi hname hmade hmutex
    refine ⟨_, List.getElem?_set_of_some hj, ?_⟩
    by_cases hji : j = i
    · subst hji
      obtain rfl := Option.some.inj (hi.symm.trans hj)
      rw [if_pos rfl]
      exact ⟨hname, hmade, hmutex⟩
    · rw [if_neg hji]
      exact ⟨rfl, fun _ hk => hk, fun _ hm => hm⟩
  cases hdoes with
  | construct server identifier dim ndebug =>
    exact ⟨q, List.getElem?_concat_of_some hj, rfl, fun _ hk => hk, fun _ hm => hm⟩
  | goesOn hi hgoes =>
    exact hset hi hgoes.name (fun k hk => hgoes.made.trans hk) fun m hm => hgoes.madeMutex.trans hm
  | createSegment hi _ hphase | truncate hi _ hphase | createMutex hi _ hphase
  | openSegment hi _ hphase | removeSegment hi _ hphase | removeMutex hi _ hphase =>
    refine hset hi rfl (fun k hk => ?_) fun m hm => ?_
    · rw [hphase] at hk
      first | exact hk | cases hk
    · rw [hphase] at hm
      first | exact hm | cases hm
  | openMutex hi _ hphase _ hname' hphase' =>
    refine hset hi hname' (fun k hk => ?_) fun m hm => ?_
    · rw [hphase] at hk
      cases hk
    · rw [hphase] at hm
      cases hm

theorem phase_construct (server : Bool) (identifier : String) (dim : ℕ) (ndebug : Bool) :
    (Party.construct server identifier dim ndebug).phase = .createSegment ∧
        sizeofHeader < (Party.construct server identifier dim ndebug).dim_with_header_ ∨
      (Party.construct server identifier dim ndebug).phase = .detached ∨
      (Party.construct server identifier dim ndebug).phase = .openSegment := by
  simp only [Party.construct]
  split_ifs with hserver hsize
  · exact .inl ⟨rfl, hsize⟩
  · exact .inr (.inl rfl)
  · exact .inr (.inr rfl)

/-- An endpoint has nothing before the first call of its constructor. -/
theorem construct_eq_none {α : Type} (f : Phase → Option α) (hcreate : f .createSegment = none)
    (hdetached : f .detached = none) (hopen : f .openSegment = none) (server : Bool)
    (identifier : String) (dim : ℕ) (ndebug : Bool) :
    f (Party.construct server identifier dim ndebug).phase = none := by
  rcases phase_construct server identifier dim ndebug with ⟨hp, -⟩ | hp | hp
  · rw [hp, hcreate]
  · rw [hp, hdetached]
  · rw [hp, hopen]

theorem Sound.segments_does (hs : h.Sound) (hdoes : Does h h') :
    ConcurrentHost.segments.Sound h'.parties h'.names h'.sizes.length := by
  cases hdoes with
  | construct server identifier dim ndebug =>
    exact hs.segments.append
      (construct_eq_none Phase.made rfl rfl rfl server identifier dim ndebug)
  | goesOn hi hgoes => exact hs.segments.keep hi hgoes.name hgoes.made hgoes.named
  | createSegment hi _ hphase hfree =>
    show ConcurrentHost.segments.Sound _ _ (h.sizes ++ [0]).length
    rw [List.length_append]
    exact hs.segments.create hi rfl hfree rfl
  | truncate hi _ hphase =>
    show ConcurrentHost.segments.Sound _ _ (h.sizes.set _ _).length
    rw [List.length_set]
    exact hs.segments.keep hi rfl (congrArg Phase.made hphase).symm
      (congrArg Phase.named hphase).symm
  | createMutex hi _ hphase =>
    exact hs.segments.keep hi rfl (congrArg Phase.made hphase).symm
      (congrArg Phase.named hphase).symm
  | openSegment hi _ hphase =>
    exact hs.segments.keep hi rfl (congrArg Phase.made hphase).symm
      (congrArg Phase.named hphase).symm
  | openMutex hi _ hphase _ hname' hphase' =>
    refine hs.segments.keep hi hname' ?_ ?_
    · exact (congrArg Phase.made hphase').trans (congrArg Phase.made hphase).symm
    · exact (congrArg Phase.named hphase').trans (congrArg Phase.named hphase).symm
  | removeSegment hi _ hphase =>
    exact hs.segments.remove hi rfl (congrArg Phase.made hphase).symm
      (congrArg Phase.named hphase) rfl
  | removeMutex hi _ hphase =>
    exact hs.segments.keep hi rfl (congrArg Phase.made hphase).symm
      (congrArg Phase.named hphase).symm

theorem Sound.locks_does (hs : h.Sound) (hdoes : Does h h') :
    ConcurrentHost.locks.Sound h'.parties h'.mutexNames h'.mutexes := by
  cases hdoes with
  | construct server identifier dim ndebug =>
    exact hs.locks.append
      (construct_eq_none Phase.madeMutex rfl rfl rfl server identifier dim ndebug)
  | goesOn hi hgoes => exact hs.locks.keep hi hgoes.name hgoes.madeMutex hgoes.locked
  | createMutex hi _ hphase hfree => exact hs.locks.create hi rfl hfree rfl
  | createSegment hi _ hphase | truncate hi _ hphase | openSegment hi _ hphase
  | removeSegment hi _ hphase =>
    exact hs.locks.keep hi rfl (congrArg Phase.madeMutex hphase).symm
      (congrArg Phase.locked hphase).symm
  | openMutex hi _ hphase _ hname' hphase' =>
    refine hs.locks.keep hi hname' ?_ ?_
    · exact (congrArg Phase.madeMutex hphase').trans (congrArg Phase.madeMutex hphase).symm
    · exact (congrArg Phase.locked hphase').trans (congrArg Phase.locked hphase).symm
  | removeMutex hi _ hphase =>
    exact hs.locks.remove hi rfl (congrArg Phase.madeMutex hphase).symm
      (congrArg Phase.locked hphase) rfl

/-- A client that has opened a segment had opened it before, or does so now. -/
theorem Does.opened (hdoes : Does h h') {k : ℕ} (hj : h'.parties[j]? = some q)
    (hq : q.phase.opened = some k) :
    (∃ p : Party, h.parties[j]? = some p ∧ p.name_ = q.name_ ∧ p.phase.opened = some k) ∨
      h.names q.name_ = some k := by
  cases hdoes with
  | construct server identifier dim ndebug =>
    rcases List.getElem?_concat_cases hj with hj | ⟨-, rfl⟩
    · exact .inl ⟨q, hj, rfl, hq⟩
    · rw [construct_eq_none Phase.opened rfl rfl rfl] at hq
      cases hq
  | goesOn hi hgoes =>
    rcases List.getElem?_set_cases hj with ⟨rfl, rfl⟩ | ⟨-, hj⟩
    · exact .inl ⟨_, hi, hgoes.name.symm, hgoes.opened k hq⟩
    · exact .inl ⟨q, hj, rfl, hq⟩
  | createSegment hi _ hphase | truncate hi _ hphase | createMutex hi _ hphase
  | removeSegment hi _ hphase | removeMutex hi _ hphase =>
    rcases List.getElem?_set_cases hj with ⟨rfl, rfl⟩ | ⟨-, hj⟩
    · cases hq
    · exact .inl ⟨q, hj, rfl, hq⟩
  | openSegment hi _ hphase hname =>
    rcases List.getElem?_set_cases hj with ⟨rfl, rfl⟩ | ⟨-, hj⟩
    · exact .inr (hname.trans hq)
    · exact .inl ⟨q, hj, rfl, hq⟩
  | openMutex hi _ hphase _ hname' hphase' =>
    rcases List.getElem?_set_cases hj with ⟨rfl, rfl⟩ | ⟨-, hj⟩
    · rw [hphase'] at hq
      exact .inl ⟨_, hi, hname'.symm, (congrArg Phase.opened hphase).trans hq⟩
    · exact .inl ⟨q, hj, rfl, hq⟩

theorem Sound.opened_does (hs : h.Sound) (hdoes : Does h h') {k : ℕ}
    (hj : h'.parties[j]? = some q) (hq : q.phase.opened = some k) :
    ∃ (i : ℕ) (p : Party), h'.parties[i]? = some p ∧ p.name_ = q.name_ ∧ p.phase.made = some k := by
  -- the server that has created the segment is still there
  obtain ⟨i, p, hi, hname, hp⟩ : ∃ (i : ℕ) (p : Party), h.parties[i]? = some p ∧
      p.name_ = q.name_ ∧ p.phase.made = some k := by
    rcases hdoes.opened hj hq with ⟨p, hi, hname, hp⟩ | hnamed
    · obtain ⟨i, p', hi, hname', hp'⟩ := hs.opened j p k hi hp
      exact ⟨i, p', hi, hname'.trans hname, hp'⟩
    · obtain ⟨i, p, hi, hname, hp⟩ := hs.segments.owner q.name_ k hnamed
      exact ⟨i, p, hi, hname, ConcurrentHost.segments.made_of_named hp⟩
  obtain ⟨p', hi', hname', hmade, -⟩ := hdoes.party hi
  exact ⟨i, p', hi', hname'.trans hname, hmade k hp⟩

/-- An endpoint that is working worked before, or its constructor has made its last call now. -/
theorem Does.works (hdoes : Does h h') {k m : ℕ} (hj : h'.parties[j]? = some q)
    (hq : q.phase.works = some (k, m)) :
    ∃ p : Party, h.parties[j]? = some p ∧ p.name_ = q.name_ ∧
      (p.phase.works = some (k, m) ∨ (p.phase = .createMutex k ∧ q.phase.madeMutex = some m) ∨
        (p.alive = true ∧ p.phase = .openMutex k ∧ h.mutexNames q.name_ = some m)) := by
  cases hdoes with
  | construct server identifier dim ndebug =>
    rcases List.getElem?_concat_cases hj with hj | ⟨-, rfl⟩
    · exact ⟨q, hj, rfl, .inl hq⟩
    · rw [construct_eq_none Phase.works rfl rfl rfl] at hq
      cases hq
  | goesOn hi hgoes =>
    rcases List.getElem?_set_cases hj with ⟨rfl, rfl⟩ | ⟨-, hj⟩
    · exact ⟨_, hi, hgoes.name.symm, .inl (hgoes.works _ hq)⟩
    · exact ⟨q, hj, rfl, .inl hq⟩
  | createMutex hi _ hphase =>
    rcases List.getElem?_set_cases hj with ⟨rfl, rfl⟩ | ⟨-, hj⟩
    · cases hq
      exact ⟨_, hi, rfl, .inr (.inl ⟨hphase, rfl⟩)⟩
    · exact ⟨q, hj, rfl, .inl hq⟩
  | openMutex hi halive hphase hname hname' hphase' =>
    rcases List.getElem?_set_cases hj with ⟨rfl, rfl⟩ | ⟨-, hj⟩
    · rw [hphase'] at hq
      cases hq
      exact ⟨_, hi, hname'.symm, .inr (.inr ⟨halive, hphase, hname'.symm ▸ hname⟩)⟩
    · exact ⟨q, hj, rfl, .inl hq⟩
  | createSegment hi _ hphase | truncate hi _ hphase | openSegment hi _ hphase
  | removeSegment hi _ hphase | removeMutex hi _ hphase =>
    rcases List.getElem?_set_cases hj with ⟨rfl, rfl⟩ | ⟨-, hj⟩
    · cases hq
    · exact ⟨q, hj, rfl, .inl hq⟩

theorem Sound.works_does (hs : h.Sound) (hdoes : Does h h') {k m : ℕ}
    (hj : h'.parties[j]? = some q) (hq : q.phase.works = some (k, m)) :
    ∃ (i : ℕ) (p : Party), h'.parties[i]? = some p ∧ p.name_ = q.name_ ∧
      p.phase.madeMutex = some m := by
  have hkept : ∀ {i : ℕ} {p : Party}, h.parties[i]? = some p → p.name_ = q.name_ →
      p.phase.madeMutex = some m → ∃ (i : ℕ) (p : Party), h'.parties[i]? = some p ∧
        p.name_ = q.name_ ∧ p.phase.madeMutex = some m := by
    intro i p hi hname hp
    obtain ⟨p', hi', hname', -, hmutex⟩ := hdoes.party hi
    exact ⟨i, p', hi', hname'.trans hname, hmutex m hp⟩
  obtain ⟨p, hi, hname, hp | ⟨-, hp⟩ | ⟨-, -, hp⟩⟩ := hdoes.works hj hq
  -- the mutex was known before, or the endpoint has created it, or it is that of the name
  · obtain ⟨i, p', hi, hname', hp'⟩ := hs.works j p k m hi hp
    exact hkept hi (hname'.trans hname) hp'
  · exact ⟨j, q, hj, rfl, hp⟩
  · obtain ⟨i, p, hi, hname, hp⟩ := hs.locks.owner q.name_ m hp
    exact hkept hi hname (ConcurrentHost.locks.made_of_named hp)

/-- The sizes that an endpoint knows do not depend on a segment that is empty and not its own. -/
theorem sized_update {size : ℕ → ℕ} {k : ℕ} (hq : q.Sized size) (hzero : size k = 0)
    (hmade : q.phase.made ≠ some k) (n : ℕ) : q.Sized (Function.update size k n) := by
  have hne : ∀ {l m : ℕ}, sizeofHeader < m ∧ size l = m → Function.update size k n l = m := by
    rintro l m ⟨hlt, hl⟩
    rw [Function.update_of_ne, hl]
    rintro rfl
    rw [← hl, hzero] at hlt
    exact absurd hlt (Nat.not_lt_zero _)
  unfold Party.Sized at hq ⊢
  cases hphase : q.phase <;> rw [hphase] at hq hmade <;> dsimp only at hq ⊢
  case truncate l =>
    refine ⟨hq.1, ?_⟩
    rw [Function.update_of_ne (fun hl => hmade (by rw [hl]; rfl)), hq.2]
  case createSegment => exact hq
  case createMutex | serving => exact ⟨hq.1, hne ⟨hq.1, hq.2.1⟩, hq.2.2⟩
  all_goals exact ⟨hq.1, hne hq⟩

/-- The dead hold mutexes that were created. -/
theorem Sound.held_does (hs : h.Sound) (hdoes : Does h h') {m : ℕ} (hm : m ∈ h'.held) :
    m < h'.mutexes := by
  cases hdoes with
  | @goesOn i p p' held hi hgoes hsized hheld =>
    rcases hheld with rfl | ⟨k, l, hworks, rfl⟩
    · exact hs.held m hm
    · rcases List.mem_cons.mp hm with rfl | hm
      · obtain ⟨j, q, hj, -, hq⟩ := hs.works i p k m hi hworks
        exact hs.locks.lt j q m hj hq
      · exact hs.held m hm
  | createMutex => exact Nat.lt_succ_of_lt (hs.held m hm)
  | construct | createSegment | truncate | openSegment | openMutex | removeSegment | removeMutex =>
    exact hs.held m hm

theorem Sound.does (hs : h.Sound) (hdoes : Does h h') : h'.Sound := by
  have hset : ∀ {i : ℕ} {p p' : Party}, h.parties[i]? = some p → p'.Sized h.size →
      ∀ (j : ℕ) q, (h.parties.set i p')[j]? = some q → q.Sized h.size := by
    intro i p p' hi hp' j q hj
    rcases List.getElem?_set_cases hj with ⟨rfl, rfl⟩ | ⟨-, hj⟩
    · exact hp'
    · exact hs.sized j q hj
  have hsizes : (∀ k, h'.size k = 0 ∨ sizeofHeader < h'.size k) ∧
      ∀ (j : ℕ) q, h'.parties[j]? = some q → q.Sized h'.size := by
    cases hdoes with
    | construct server identifier dim ndebug =>
      refine ⟨hs.sizes, fun j q hj => ?_⟩
      rcases List.getElem?_concat_cases hj with hj | ⟨-, rfl⟩
      · exact hs.sized j q hj
      · unfold Party.Sized
        rcases phase_construct server identifier dim ndebug with ⟨hp, hdim⟩ | hp | hp <;> rw [hp]
        · exact hdim
        · trivial
        · trivial
    | goesOn hi hgoes hsized =>
      exact ⟨hs.sizes, hset hi (hsized hs.sizes (hs.sized _ _ hi))⟩
    | @createSegment i p hi _ hphase =>
      -- the new segment is empty
      rw [show NamedObjects.size _ = h.size from NamedObjects.size_addSegment p.name_]
      refine ⟨hs.sizes, hset hi ?_⟩
      have hp := hs.sized i p hi
      unfold Party.Sized at hp
      rw [hphase] at hp
      exact ⟨hp, by simp [NamedObjects.size]⟩
    | @truncate i k p hi _ hphase =>
      -- only the server that has created the segment gives it a size
      have hmade : ConcurrentHost.segments.made p = some k := congrArg Phase.made hphase
      have hsize : (h.setSize k p.dim_with_header_).size =
          Function.update h.size k p.dim_with_header_ :=
        NamedObjects.size_setSize (hs.segments.lt i p k hi hmade) _
      have hp := hs.sized i p hi
      unfold Party.Sized at hp
      rw [hphase] at hp
      rw [hsize]
      refine ⟨fun l => ?_, fun j q hj => ?_⟩
      · by_cases hl : l = k
        · rw [hl, Function.update_self]
          exact .inr hp.1
        · rw [Function.update_of_ne hl]
          exact hs.sizes l
      · rcases List.getElem?_set_cases hj with ⟨rfl, rfl⟩ | ⟨hji, hj⟩
        · exact ⟨hp.1, Function.update_self ..⟩
        · refine sized_update (hs.sized j q hj) hp.2 (fun hq => hji ?_) _
          exact hs.segments.unique j i q p k hj hi hq hmade
    | @createMutex i k p hi _ hphase =>
      refine ⟨hs.sizes, hset hi ?_⟩
      have hp := hs.sized i p hi
      unfold Party.Sized at hp
      rw [hphase] at hp
      exact hp
    | openSegment hi _ hphase => exact ⟨hs.sizes, hset hi trivial⟩
    | @openMutex i k m p p' hi _ hphase _ _ hphase' hdim =>
      refine ⟨hs.sizes, hset hi ?_⟩
      have hp := hs.sized i p hi
      unfold Party.Sized at hp ⊢
      rw [hphase] at hp
      rw [hphase', hdim]
      exact hp
    | removeSegment hi _ hphase => exact ⟨hs.sizes, hset hi trivial⟩
    | removeMutex hi _ hphase => exact ⟨hs.sizes, hset hi trivial⟩
  exact ⟨hs.segments_does hdoes, hs.locks_does hdoes, fun j q k => hs.opened_does hdoes,
    fun j q k m => hs.works_does hdoes, hsizes.1, hsizes.2, fun _ => hs.held_does hdoes⟩

variable {events : List ConcurrentEvent}

theorem sound_of_run (hrun : run step fresh events = some h) : h.Sound :=
  run_invariant Sound (fun _ _ _ hs hstep => hs.does (does_of_step hstep)) sound_fresh hrun

/-- **Servers remove what they have created.** Constructors and destructors of any servers and
clients run in any interleaving of their calls of Boost, whichever of them fail and whoever dies.
Then

* no two servers have created one segment or one mutex;
* as long as its own destructor has not removed them, the names of a server stand for the segment
  and the mutex that it has created, so that the destructor removes these and no others, and no
  other server has a segment under the name;
* an endpoint works with a segment and a mutex that servers of its name have created, and knows the
  size of the segment, which has a payload. -/
theorem own_objects (hrun : run step fresh events = some h) :
    (∀ (i j : ℕ) p q, h.parties[i]? = some p → h.parties[j]? = some q →
      (∀ k, p.phase.made = some k → q.phase.made = some k → i = j) ∧
      (∀ m, p.phase.madeMutex = some m → q.phase.madeMutex = some m → i = j) ∧
      ∀ k l, p.phase.named = some k → q.phase.named = some l → p.name_ = q.name_ → i = j) ∧
    (∀ (i : ℕ) p, h.parties[i]? = some p →
      (∀ k, p.phase.named = some k → h.names p.name_ = some k) ∧
      ∀ m, p.phase.locked = some m → h.mutexNames p.name_ = some m) ∧
    ∀ (i : ℕ) p k m, h.parties[i]? = some p → p.phase.works = some (k, m) →
      h.size k = p.dim_with_header_ ∧ sizeofHeader < p.dim_with_header_ ∧
      (∃ (j : ℕ) (q : Party), h.parties[j]? = some q ∧ q.name_ = p.name_ ∧
        q.phase.made = some k) ∧
      ∃ (j : ℕ) (q : Party), h.parties[j]? = some q ∧ q.name_ = p.name_ ∧
        q.phase.madeMutex = some m := by
  have hs := sound_of_run hrun
  refine ⟨fun i j p q hi hj => ⟨fun k hp hq => hs.segments.unique i j p q k hi hj hp hq,
    fun m hp hq => hs.locks.unique i j p q m hi hj hp hq,
    fun k l hp hq hname => hs.segments.unique_name hi hj hp hq hname⟩,
    fun i p hi => ⟨fun k hp => hs.segments.named i p k hi hp,
      fun m hp => hs.locks.named i p m hi hp⟩, fun i p k m hi hp => ?_⟩
  have hsized := hs.sized i p hi
  have hmutex := hs.works i p k m hi hp
  unfold Party.Sized at hsized
  cases hphase : p.phase <;> rw [hphase] at hp hsized <;> cases hp
  case serving => exact ⟨hsized.2.1, hsized.1, ⟨i, p, hi, rfl, by rw [hphase]; rfl⟩, hmutex⟩
  case attached =>
    exact ⟨hsized.2, hsized.1, hs.opened i p k hi (by rw [hphase]; rfl), hmutex⟩

/-- Two servers race for a name, and a client comes before the first of them removes it. -/
def raceForName : List ConcurrentEvent :=
  [.construct true "ipc" 8 false, .construct true "ipc" 16 false, .boost 0 false, .boost 1 false,
    .boost 0 false, .boost 0 false, .construct false "ipc" 8 false, .boost 2 false, .boost 0 false,
    .boost 2 false, .boost 2 false, .destruct 0, .boost 0 false]

/-- The client works on with the segment that its server has removed. -/
theorem own_objects_race : ∃ h p, run step fresh raceForName = some h ∧
    h.parties[2]? = some p ∧ p.phase = .attached 0 0 ∧ h.size 0 = p.dim_with_header_ ∧
    ∃ (j : ℕ) (q : Party), h.parties[j]? = some q ∧ q.name_ = p.name_ ∧
      q.phase.made = some 0 := by
  refine ⟨_, _, rfl, rfl, rfl, ?_⟩
  obtain ⟨hsize, -, hsegment, -⟩ := (@own_objects _ raceForName rfl).2.2 2 _ 0 0 rfl rfl
  exact ⟨hsize, hsegment⟩

end ConcurrentHost

end RealtimeUtilities
