import Mathlib.Data.Int.Notation
import Mathlib.Data.List.Basic
import Mathlib.Data.Nat.Notation
import Mathlib.Logic.Function.Basic
import Mathlib.Tactic.SplitIfs

/-!
# `shared_mutex_t`

A mutex that processes share lies in a named shared memory object. `shared_mutex_init()` opens the
object of a name or creates it, and initialises the mutex if it has created the object.
`shared_mutex_close()` takes back the mapping, `shared_mutex_destroy()` the mutex and the name, too.
Any call of the system may fail, and the functions return where it does.

## Main definitions

* `ShmName`: a name without the slashes that it may begin with;
* `Posix`: the shared memory objects of the system and their names;
* `shared_mutex_init`, `shared_mutex_close` and `shared_mutex_destroy`.

## Main results

* `shared_mutex_init_cases` and `shared_mutex_init_of_creates`, `shared_mutex_close_spec`,
  `shared_mutex_destroy_cases`: what the functions do to objects and names;
* `shared_mutex_init_reports`, `shared_mutex_close_reports`, `shared_mutex_destroy_reports`: they
  print exactly if they fail.
-/

namespace RealtimeUtilities

/-! ## The system -/

/-- What was done with a `pthread_mutex_t` last. -/
inductive PthreadMutex where
  | uninitialised
  | initialised
  | destroyed
  deriving DecidableEq, Repr

/-- A shared memory object, with the mutex at its start. -/
structure ShmObject where
  size : ℕ
  mutex : PthreadMutex
  deriving DecidableEq, Repr

/-- The name of a shared memory object. -/
structure ShmName where
  chars : List Char
  head : chars.head? ≠ some '/'
  deriving DecidableEq

/-- The name that `shm_open()` and `shm_unlink()` make of their argument: they ignore the slashes
that it begins with. -/
def shmName (name : String) : ShmName where
  chars := name.toList.dropWhile (· = '/')
  head h := by
    have hnot := List.head?_dropWhile_not (fun c => decide (c = '/')) name.toList
    rw [h] at hnot
    exact absurd hnot (by decide)

example : shmName "//m" = shmName "m" := by decide

theorem exists_shmName (name : ShmName) : ∃ text, shmName text = name := by
  obtain ⟨chars, hhead⟩ := name
  refine ⟨String.ofList chars, ?_⟩
  cases chars with
  | nil => rfl
  | cons c chars =>
    have hc : c ≠ '/' := fun hc => hhead (by rw [hc]; rfl)
    simp [shmName, hc]

/-- What the functions find and leave behind. An object is known by its number, and lives on
without a name. -/
structure Posix where
  objects : List ShmObject
  names : ShmName → Option ℕ
  /-- What `perror()` was called with. -/
  stderr : List String

/-- The calls that may fail. Those with a name do so if it is too long, has a slash after its
beginning or consists of slashes. -/
inductive PosixCall where
  | shm_open
  | shm_open_creat
  | ftruncate
  | mmap
  | pthread_mutexattr_init
  | pthread_mutexattr_setpshared
  | pthread_mutex_init
  | pthread_mutex_destroy
  | munmap
  | close
  | shm_unlink
  deriving DecidableEq, Repr

/-- The values of `errno` that are told apart. -/
inductive Errno where
  | ENOENT
  | other
  deriving DecidableEq, Repr

/-- `sizeof(pthread_mutex_t)`. -/
def sizeofPthreadMutex : ℕ := 40

namespace Posix

variable (s : Posix)

/-- A new object is empty, and has the name `name`. -/
def create (name : ShmName) : Posix :=
  { s with
    objects := s.objects ++ [⟨0, .uninitialised⟩]
    names := Function.update s.names name (some s.objects.length) }

def setSize (object size : ℕ) : Posix :=
  { s with objects := s.objects.modify object fun o => { o with size } }

def setMutex (object : ℕ) (mutex : PthreadMutex) : Posix :=
  { s with objects := s.objects.modify object fun o => { o with mutex } }

def unlink (name : ShmName) : Posix :=
  { s with names := Function.update s.names name none }

def print (text : String) : Posix :=
  { s with stderr := s.stderr ++ [text] }

/-- The mutexes of the objects. -/
def mutexes (object : ℕ) : Option PthreadMutex :=
  s.objects[object]?.map ShmObject.mutex

/-- The object has room for a mutex, which was initialised and not destroyed since. -/
def Holds (object : ℕ) : Prop :=
  ∃ o, s.objects[object]? = some o ∧ sizeofPthreadMutex ≤ o.size ∧ o.mutex = .initialised

/-- A call that starts here and ends in `s'` prints one line if it fails, and otherwise none. -/
def Reports (failed : Prop) (s' : Posix) : Prop :=
  (failed ∧ ∃ text, s'.stderr = s.stderr ++ [text]) ∨ (¬failed ∧ s'.stderr = s.stderr)

end Posix

/-- `perror(text)`. -/
def perror (text : String) : StateM Posix Unit :=
  modify fun s => s.print text

variable (fails : PosixCall → Bool)

/-- `shm_open(name, O_RDWR, 0660)`: the object, or `errno`. -/
def shm_open (name : String) : StateM Posix (Except Errno ℕ) := do
  let s ← get
  if fails .shm_open then return .error .other
  match s.names (shmName name) with
  | some object => return .ok object
  | none => return .error .ENOENT

/-- `shm_open(name, O_RDWR | O_CREAT, 0660)`. A new object is empty. -/
def shm_open_creat (name : String) : StateM Posix (Option ℕ) := do
  let s ← get
  if fails .shm_open_creat then return none
  match s.names (shmName name) with
  | some object => return some object
  | none =>
    set (s.create (shmName name))
    return some s.objects.length

/-- `ftruncate(shm_fd, sizeof(pthread_mutex_t)) != 0`. -/
def ftruncate (object : ℕ) : StateM Posix Bool := do
  if fails .ftruncate then return true
  modify fun s => s.setSize object sizeofPthreadMutex
  return false

/-- `mmap(..)`. The address is the object that is mapped there, and `none` is `MAP_FAILED`. -/
def mmap (object : ℕ) : Option ℕ :=
  if fails .mmap then none else some object

/-- `pthread_mutex_init(ptr, &attr) != 0`. -/
def pthread_mutex_init (ptr : ℕ) : StateM Posix Bool := do
  if fails .pthread_mutex_init then return true
  modify fun s => s.setMutex ptr .initialised
  return false

/-- `pthread_mutex_destroy(ptr) != 0`. -/
def pthread_mutex_destroy (ptr : ℕ) : StateM Posix Bool := do
  if fails .pthread_mutex_destroy then return true
  modify fun s => s.setMutex ptr .destroyed
  return false

/-- `shm_unlink(name) != 0`. -/
def shm_unlink (name : String) : StateM Posix Bool := do
  let s ← get
  if fails .shm_unlink || (s.names (shmName name)).isNone then return true
  set (s.unlink (shmName name))
  return false

/-! ## The functions -/

/-- `shared_mutex_t`. A pointer and a descriptor are the object that they lead to. -/
structure shared_mutex_t where
  ptr : Option ℕ
  /-- `none` is `-1`. -/
  shm_fd : Option ℕ
  name : Option String
  created : Bool
  deriving DecidableEq, Repr

/-- `shared_mutex_init(name)`. -/
def shared_mutex_init (name : String) : StateM Posix shared_mutex_t := do
  let mut mutex : shared_mutex_t := ⟨none, none, none, false⟩
  match ← shm_open fails name with
  | .ok shm_fd => mutex := { mutex with shm_fd := some shm_fd }
  | .error errno =>
    if errno = .ENOENT then
      let shm_fd ← shm_open_creat fails name
      mutex := { mutex with shm_fd, created := true }
  let some shm_fd := mutex.shm_fd
    | do perror "shm_open"; return mutex
  if ← ftruncate fails shm_fd then
    perror "ftruncate"
    return mutex
  let some addr := mmap fails shm_fd
    | do perror "mmap"; return mutex
  if mutex.created then
    if fails .pthread_mutexattr_init then
      perror "pthread_mutexattr_init"
      return mutex
    if fails .pthread_mutexattr_setpshared then
      perror "pthread_mutexattr_setpshared"
      return mutex
    if ← pthread_mutex_init fails addr then
      perror "pthread_mutex_init"
      return mutex
  return { mutex with ptr := some addr, name := some name }

/-- What the other two functions return, and their copies of the structure. -/
structure MutexOutcome where
  ret : ℤ
  mutex : shared_mutex_t
  deriving DecidableEq, Repr

/-- `shared_mutex_close(mutex)`. -/
def shared_mutex_close (mutex : shared_mutex_t) : StateM Posix MutexOutcome := do
  if fails .munmap then
    perror "munmap"
    return ⟨-1, mutex⟩
  let mutex := { mutex with ptr := none }
  if fails .close || mutex.shm_fd.isNone then
    perror "close"
    return ⟨-1, mutex⟩
  return ⟨0, { mutex with shm_fd := none, name := none }⟩

/-- `shared_mutex_destroy(mutex)`, or `none` if the process is killed because `ptr` is no valid
address. -/
def shared_mutex_destroy (mutex : shared_mutex_t) : StateM Posix (Option MutexOutcome) := do
  let some ptr := mutex.ptr
    | return none
  if ← pthread_mutex_destroy fails ptr then
    perror "pthread_mutex_destroy"
    return some ⟨-1, mutex⟩
  if fails .munmap then
    perror "munmap"
    return some ⟨-1, mutex⟩
  let mutex := { mutex with ptr := none }
  if fails .close || mutex.shm_fd.isNone then
    perror "close"
    return some ⟨-1, mutex⟩
  let mutex := { mutex with shm_fd := none }
  let some name := mutex.name
    | return none
  if ← shm_unlink fails name then
    perror "shm_unlink"
    return some ⟨-1, mutex⟩
  return some ⟨0, { mutex with name := none }⟩

/-! ## What the functions do -/

namespace Posix

variable (s : Posix) (name : ShmName) (text : String) (object size : ℕ) (mutex : PthreadMutex)

@[simp]
theorem names_create :
    (s.create name).names = Function.update s.names name (some s.objects.length) := rfl

@[simp]
theorem names_setSize : (s.setSize object size).names = s.names := rfl

@[simp]
theorem names_setMutex : (s.setMutex object mutex).names = s.names := rfl

@[simp]
theorem names_unlink : (s.unlink name).names = Function.update s.names name none := rfl

@[simp]
theorem names_print : (s.print text).names = s.names := rfl

@[simp]
theorem objects_print : (s.print text).objects = s.objects := rfl

@[simp]
theorem mutexes_create : (s.create name).mutexes =
    Function.update s.mutexes s.objects.length (some .uninitialised) := by
  funext i
  simp only [mutexes, create, Function.update_apply, List.getElem?_append, List.getElem?_singleton]
  grind

@[simp]
theorem mutexes_setSize : (s.setSize object size).mutexes = s.mutexes := by
  funext i
  simp only [mutexes, setSize, List.getElem?_modify]
  grind

theorem mutexes_setMutex (h : object < s.objects.length) : (s.setMutex object mutex).mutexes =
    Function.update s.mutexes object (some mutex) := by
  funext i
  simp only [mutexes, setMutex, List.getElem?_modify, Function.update_apply]
  grind

@[simp]
theorem mutexes_unlink : (s.unlink name).mutexes = s.mutexes := rfl

@[simp]
theorem mutexes_print : (s.print text).mutexes = s.mutexes := rfl

@[simp]
theorem length_create : (s.create name).objects.length = s.objects.length + 1 := by
  simp [create]

@[simp]
theorem length_setSize : (s.setSize object size).objects.length = s.objects.length := by
  simp [setSize]

@[simp]
theorem length_setMutex : (s.setMutex object mutex).objects.length = s.objects.length := by
  simp [setMutex]

variable {s object}

theorem holds_setSize (h : s.mutexes object = some .initialised) :
    (s.setSize object sizeofPthreadMutex).Holds object := by
  obtain ⟨o, ho, hmutex⟩ := Option.map_eq_some_iff.mp h
  refine ⟨{ o with size := sizeofPthreadMutex }, ?_, Nat.le_refl _, hmutex⟩
  simp only [setSize, List.getElem?_modify_eq, ho, Option.map_eq_map, Option.map_some]

variable (s)

theorem holds_create :
    (((s.create name).setSize s.objects.length sizeofPthreadMutex).setMutex s.objects.length
      .initialised).Holds s.objects.length := by
  refine ⟨⟨sizeofPthreadMutex, .initialised⟩, ?_, Nat.le_refl _, rfl⟩
  simp [setMutex, setSize, create]

end Posix

variable {fails : PosixCall → Bool} {s : Posix} {name : String} {object : ℕ}

/-- No object is opened. -/
theorem run_shared_mutex_init_of_not_open
    (h : fails .shm_open = true ∨ (s.names (shmName name) = none ∧ fails .shm_open_creat = true)) :
    (shared_mutex_init fails name).run s =
      (⟨none, none, none, !fails .shm_open⟩, s.print "shm_open") := by
  cases hopen : fails .shm_open with
  | true =>
    simp [shared_mutex_init, shm_open, hopen]
    rfl
  | false =>
    obtain ⟨hname, hcreat⟩ := h.resolve_left (by simp [hopen])
    simp [shared_mutex_init, shm_open, shm_open_creat, hopen, hname, hcreat]
    rfl

/-- The object exists. -/
theorem run_shared_mutex_init_of_exists (hopen : fails .shm_open = false)
    (hname : s.names (shmName name) = some object) :
    (shared_mutex_init fails name).run s =
      if fails .ftruncate then (⟨none, some object, none, false⟩, s.print "ftruncate")
      else
        let s := s.setSize object sizeofPthreadMutex
        if fails .mmap then (⟨none, some object, none, false⟩, s.print "mmap")
        else (⟨some object, some object, some name, false⟩, s) := by
  cases htruncate : fails .ftruncate with
  | true =>
    simp [shared_mutex_init, shm_open, ftruncate, hopen, hname, htruncate]
    rfl
  | false =>
    cases hmmap : fails .mmap with
    | true =>
      simp [shared_mutex_init, shm_open, ftruncate, mmap, hopen, hname, htruncate, hmmap]
      rfl
    | false =>
      simp [shared_mutex_init, shm_open, ftruncate, mmap, hopen, hname, htruncate, hmmap]
      rfl

/-- The object is created. If a call fails after that, it stays, and so does its name. -/
theorem run_shared_mutex_init_of_creates (hopen : fails .shm_open = false)
    (hname : s.names (shmName name) = none) (hcreat : fails .shm_open_creat = false) :
    (shared_mutex_init fails name).run s =
      let object := s.objects.length
      let failed : shared_mutex_t := ⟨none, some object, none, true⟩
      let s := s.create (shmName name)
      if fails .ftruncate then (failed, s.print "ftruncate")
      else
        let s := s.setSize object sizeofPthreadMutex
        if fails .mmap then (failed, s.print "mmap")
        else if fails .pthread_mutexattr_init then (failed, s.print "pthread_mutexattr_init")
        else if fails .pthread_mutexattr_setpshared then
          (failed, s.print "pthread_mutexattr_setpshared")
        else if fails .pthread_mutex_init then (failed, s.print "pthread_mutex_init")
        else (⟨some object, some object, some name, true⟩, s.setMutex object .initialised) := by
  simp only [shared_mutex_init, shm_open, shm_open_creat, StateT.run_bind, StateT.run_get,
    StateT.run_set, StateT.run_pure, pure_bind, hopen, hname, hcreat, Bool.false_eq_true, if_false,
    if_true]
  cases htruncate : fails .ftruncate with
  | true =>
    simp only [ftruncate, htruncate, if_true]
    rfl
  | false =>
  simp only [ftruncate, htruncate, StateT.run_bind, StateT.run_modify, StateT.run_pure, pure_bind,
    Bool.false_eq_true, if_false]
  cases hmmap : fails .mmap with
  | true =>
    simp only [mmap, hmmap, if_true]
    rfl
  | false =>
  simp only [mmap, hmmap, Bool.false_eq_true, if_false]
  -- the mutex is initialised, since the object is new
  cases hattr : fails .pthread_mutexattr_init with
  | true => rfl
  | false =>
  cases hshared : fails .pthread_mutexattr_setpshared with
  | true => rfl
  | false =>
  cases hinit : fails .pthread_mutex_init with
  | true =>
    simp only [pthread_mutex_init, hinit, if_true]
    rfl
  | false =>
    simp only [pthread_mutex_init, hinit, Bool.false_eq_true, if_false]
    rfl

/-- The structure leads to the object, which was opened under the name. -/
structure shared_mutex_t.LeadsTo (mutex : shared_mutex_t) (object : ℕ) (name : ShmName) :
    Prop where
  ptr : mutex.ptr = some object
  shm_fd : mutex.shm_fd = some object
  name : mutex.name.map shmName = some name

/-- The calls after the object was created. -/
def completing : List PosixCall :=
  [.ftruncate, .mmap, .pthread_mutexattr_init, .pthread_mutexattr_setpshared, .pthread_mutex_init]

variable {mutex : shared_mutex_t} {s' : Posix}

/-- No object is opened, or there is one, or one is created. -/
theorem opens_cases (fails : PosixCall → Bool) (s : Posix) (name : String) :
    (fails .shm_open = true ∨ (s.names (shmName name) = none ∧ fails .shm_open_creat = true)) ∨
      (fails .shm_open = false ∧ ∃ object, s.names (shmName name) = some object) ∨
      (fails .shm_open = false ∧ s.names (shmName name) = none ∧
        fails .shm_open_creat = false) := by
  cases fails .shm_open with
  | true => exact .inl (.inl rfl)
  | false =>
    cases hname : s.names (shmName name) with
    | some object => exact .inr (.inl ⟨rfl, object, rfl⟩)
    | none =>
      cases fails .shm_open_creat with
      | true => exact .inl (.inr ⟨rfl, rfl⟩)
      | false => exact .inr (.inr ⟨rfl, rfl, rfl⟩)

/-- A new object has an initialised mutex if all calls succeed, and otherwise is left without. -/
theorem shared_mutex_init_of_creates (hopen : fails .shm_open = false)
    (hname : s.names (shmName name) = none) (hcreat : fails .shm_open_creat = false)
    (h : (shared_mutex_init fails name).run s = (mutex, s')) :
    s'.names = Function.update s.names (shmName name) (some s.objects.length) ∧
      s'.objects.length = s.objects.length + 1 ∧
      ((mutex.LeadsTo s.objects.length (shmName name) ∧ s'.Holds s.objects.length ∧
          (∀ call ∈ completing, fails call = false) ∧
          s'.mutexes = Function.update s.mutexes s.objects.length (some .initialised)) ∨
        (mutex.ptr = none ∧ (∃ call ∈ completing, fails call = true) ∧
          s'.mutexes = Function.update s.mutexes s.objects.length (some .uninitialised))) := by
  rw [run_shared_mutex_init_of_creates hopen hname hcreat] at h
  dsimp only at h
  split_ifs at h with htruncate hmmap hattr hshared hinit
  · obtain ⟨rfl, rfl⟩ := Prod.mk.inj h
    exact ⟨rfl, by simp, .inr ⟨rfl, ⟨_, by decide, htruncate⟩, by simp⟩⟩
  · obtain ⟨rfl, rfl⟩ := Prod.mk.inj h
    exact ⟨rfl, by simp, .inr ⟨rfl, ⟨_, by decide, hmmap⟩, by simp⟩⟩
  · obtain ⟨rfl, rfl⟩ := Prod.mk.inj h
    exact ⟨rfl, by simp, .inr ⟨rfl, ⟨_, by decide, hattr⟩, by simp⟩⟩
  · obtain ⟨rfl, rfl⟩ := Prod.mk.inj h
    exact ⟨rfl, by simp, .inr ⟨rfl, ⟨_, by decide, hshared⟩, by simp⟩⟩
  · obtain ⟨rfl, rfl⟩ := Prod.mk.inj h
    exact ⟨rfl, by simp, .inr ⟨rfl, ⟨_, by decide, hinit⟩, by simp⟩⟩
  · obtain ⟨rfl, rfl⟩ := Prod.mk.inj h
    refine ⟨rfl, by simp, .inl ⟨⟨rfl, rfl, rfl⟩, s.holds_create (shmName name), ?_, ?_⟩⟩
    · simp [completing, htruncate, hmmap, hattr, hshared, hinit]
    · rw [Posix.mutexes_setMutex _ _ _ (by simp)]
      simp

/-- `shared_mutex_init()` fails, or leads to the object of the name, or creates one, for
which see `shared_mutex_init_of_creates`. -/
theorem shared_mutex_init_cases (h : (shared_mutex_init fails name).run s = (mutex, s')) :
    ((s.names (shmName name) = none → fails .shm_open = false → fails .shm_open_creat = true) ∧
      s'.names = s.names ∧ s'.mutexes = s.mutexes ∧ s'.objects.length = s.objects.length ∧
      (mutex.ptr = none ∨ ∃ object, s.names (shmName name) = some object ∧
        mutex.LeadsTo object (shmName name) ∧
        (s.mutexes object = some .initialised → s'.Holds object))) ∨
    (fails .shm_open = false ∧ s.names (shmName name) = none ∧ fails .shm_open_creat = false) := by
  rcases opens_cases fails s name with hnone | ⟨hopen, object, hname⟩ | ⟨hopen, hname, hcreat⟩
  · rw [run_shared_mutex_init_of_not_open hnone] at h
    obtain ⟨rfl, rfl⟩ := Prod.mk.inj h
    refine .inl ⟨fun _ hopen => ?_, rfl, rfl, rfl, .inl rfl⟩
    exact (hnone.resolve_left (by simp [hopen])).2
  · rw [run_shared_mutex_init_of_exists hopen hname] at h
    dsimp only at h
    refine .inl ⟨fun hfree => ?_, ?_⟩
    · rw [hname] at hfree
      cases hfree
    split_ifs at h with htruncate hmmap
    · obtain ⟨rfl, rfl⟩ := Prod.mk.inj h
      exact ⟨rfl, rfl, rfl, .inl rfl⟩
    · obtain ⟨rfl, rfl⟩ := Prod.mk.inj h
      exact ⟨rfl, by simp, by simp, .inl rfl⟩
    · obtain ⟨rfl, rfl⟩ := Prod.mk.inj h
      exact ⟨rfl, by simp, by simp, .inr ⟨object, hname, ⟨rfl, rfl, rfl⟩, Posix.holds_setSize⟩⟩
  · exact .inr ⟨hopen, hname, hcreat⟩

/-- An error is printed, and `ptr` is `NULL` then. -/
theorem shared_mutex_init_reports (h : (shared_mutex_init fails name).run s = (mutex, s')) :
    s.Reports (mutex.ptr = none) s' := by
  rcases opens_cases fails s name with hnone | ⟨hopen, object, hname⟩ | ⟨hopen, hname, hcreat⟩
  · rw [run_shared_mutex_init_of_not_open hnone] at h
    obtain ⟨rfl, rfl⟩ := Prod.mk.inj h
    exact .inl ⟨rfl, _, rfl⟩
  · rw [run_shared_mutex_init_of_exists hopen hname] at h
    dsimp only at h
    split_ifs at h with htruncate hmmap
    · obtain ⟨rfl, rfl⟩ := Prod.mk.inj h
      exact .inl ⟨rfl, _, rfl⟩
    · obtain ⟨rfl, rfl⟩ := Prod.mk.inj h
      exact .inl ⟨rfl, _, rfl⟩
    · obtain ⟨rfl, rfl⟩ := Prod.mk.inj h
      exact .inr ⟨nofun, rfl⟩
  · rw [run_shared_mutex_init_of_creates hopen hname hcreat] at h
    dsimp only at h
    -- five calls may fail after the object was created
    split_ifs at h <;> obtain ⟨rfl, rfl⟩ := Prod.mk.inj h
    iterate 5 exact .inl ⟨rfl, _, rfl⟩
    exact .inr ⟨nofun, rfl⟩

theorem run_shared_mutex_close : (shared_mutex_close fails mutex).run s =
    if fails .munmap then (⟨-1, mutex⟩, s.print "munmap")
    else if fails .close || mutex.shm_fd.isNone then
      (⟨-1, { mutex with ptr := none }⟩, s.print "close")
    else (⟨0, ⟨none, none, none, mutex.created⟩⟩, s) := by
  cases hmunmap : fails .munmap with
  | true =>
    simp only [shared_mutex_close, hmunmap, if_true]
    rfl
  | false =>
  cases hclose : fails .close || mutex.shm_fd.isNone with
  | true =>
    simp only [shared_mutex_close, hmunmap, hclose, Bool.false_eq_true, if_false, if_true]
    rfl
  | false =>
    simp only [shared_mutex_close, hmunmap, hclose, Bool.false_eq_true, if_false]
    rfl

/-- `shared_mutex_close()` changes no object and no name. Its copy of the structure is as it was, or
does not lead to the object any more. -/
theorem shared_mutex_close_spec {o : MutexOutcome}
    (h : (shared_mutex_close fails mutex).run s = (o, s')) :
    s'.names = s.names ∧ s'.mutexes = s.mutexes ∧ s'.objects.length = s.objects.length ∧
      (o.mutex = mutex ∨ o.mutex.ptr = none) := by
  rw [run_shared_mutex_close] at h
  split_ifs at h with hmunmap hclose
  · obtain ⟨rfl, rfl⟩ := Prod.mk.inj h
    exact ⟨rfl, rfl, rfl, .inl rfl⟩
  · obtain ⟨rfl, rfl⟩ := Prod.mk.inj h
    exact ⟨rfl, rfl, rfl, .inr rfl⟩
  · obtain ⟨rfl, rfl⟩ := Prod.mk.inj h
    exact ⟨rfl, rfl, rfl, .inr rfl⟩

/-- An error is printed, and `-1` is returned then. -/
theorem shared_mutex_close_reports {o : MutexOutcome}
    (h : (shared_mutex_close fails mutex).run s = (o, s')) : s.Reports (o.ret = -1) s' := by
  rw [run_shared_mutex_close] at h
  split_ifs at h with hmunmap hclose
  · obtain ⟨rfl, rfl⟩ := Prod.mk.inj h
    exact .inl ⟨rfl, _, rfl⟩
  · obtain ⟨rfl, rfl⟩ := Prod.mk.inj h
    exact .inl ⟨rfl, _, rfl⟩
  · obtain ⟨rfl, rfl⟩ := Prod.mk.inj h
    exact .inr ⟨by simp, rfl⟩

/-- Without a mapping the process is killed. -/
theorem run_shared_mutex_destroy_of_null (h : mutex.ptr = none) :
    (shared_mutex_destroy fails mutex).run s = (none, s) := by
  rw [shared_mutex_destroy, h]
  rfl

/-- The calls that `shared_mutex_destroy()` makes after it has destroyed the mutex. -/
def releasing : List PosixCall :=
  [.munmap, .close, .shm_unlink]

theorem run_shared_mutex_destroy {name : ShmName} (h : mutex.LeadsTo object name) :
    (shared_mutex_destroy fails mutex).run s =
      if fails .pthread_mutex_destroy then (some ⟨-1, mutex⟩, s.print "pthread_mutex_destroy")
      else
        let s := s.setMutex object .destroyed
        if fails .munmap then (some ⟨-1, mutex⟩, s.print "munmap")
        else if fails .close then (some ⟨-1, { mutex with ptr := none }⟩, s.print "close")
        else if fails .shm_unlink || (s.names name).isNone then
          (some ⟨-1, { mutex with ptr := none, shm_fd := none }⟩, s.print "shm_unlink")
        else (some ⟨0, ⟨none, none, none, mutex.created⟩⟩, s.unlink name) := by
  obtain ⟨text, htext, rfl⟩ := Option.map_eq_some_iff.mp h.name
  simp only [shared_mutex_destroy, h.ptr, h.shm_fd, htext]
  cases hdestroy : fails .pthread_mutex_destroy with
  | true =>
    simp only [pthread_mutex_destroy, hdestroy, if_true]
    rfl
  | false =>
  simp only [pthread_mutex_destroy, hdestroy, StateT.run_bind, StateT.run_modify, StateT.run_pure,
    pure_bind, Bool.false_eq_true, if_false]
  cases hmunmap : fails .munmap with
  | true => rfl
  | false =>
  cases hclose : fails .close with
  | true => rfl
  | false =>
  simp only [shm_unlink, StateT.run_bind, StateT.run_get, pure_bind, Posix.names_setMutex,
    Option.isNone_some, Bool.or_self, Bool.false_eq_true, if_false]
  rcases Bool.eq_false_or_eq_true (fails .shm_unlink || (s.names (shmName text)).isNone)
    with hunlink | hunlink
  · simp only [hunlink, if_true]
    rfl
  · simp only [hunlink, Bool.false_eq_true, if_false]
    rfl

/-- An error is printed, and `-1` is returned then, at whichever call the function ends. -/
theorem shared_mutex_destroy_reports {name : ShmName} (hleads : mutex.LeadsTo object name)
    {o : MutexOutcome} (h : (shared_mutex_destroy fails mutex).run s = (some o, s')) :
    s.Reports (o.ret = -1) s' := by
  rw [run_shared_mutex_destroy hleads] at h
  dsimp only at h
  split_ifs at h <;> obtain ⟨hsome, rfl⟩ := Prod.mk.inj h <;> obtain rfl := Option.some.inj hsome
  iterate 4 exact .inl ⟨rfl, _, rfl⟩
  exact .inr ⟨by simp, rfl⟩

/-- `shared_mutex_destroy()` destroys the mutex of its object, and then removes the name, unless a
call fails in between. -/
theorem shared_mutex_destroy_cases {name : ShmName} (hleads : mutex.LeadsTo object name)
    (hlt : object < s.objects.length) {r : Option MutexOutcome}
    (h : (shared_mutex_destroy fails mutex).run s = (r, s')) :
    ∃ o, r = some o ∧ (o.mutex = mutex ∨ o.mutex.ptr = none) ∧
      s'.objects.length = s.objects.length ∧
      ((fails .pthread_mutex_destroy = true ∧ s'.names = s.names ∧ s'.mutexes = s.mutexes) ∨
        (fails .pthread_mutex_destroy = false ∧
          s'.mutexes = Function.update s.mutexes object (some .destroyed) ∧
          ((s'.names = Function.update s.names name none ∧
              ∀ call ∈ releasing, fails call = false) ∨
            (s'.names = s.names ∧
              ((∃ call ∈ releasing, fails call = true) ∨ s.names name = none))))) := by
  have hmutexes := Posix.mutexes_setMutex s object .destroyed hlt
  rw [run_shared_mutex_destroy hleads] at h
  dsimp only at h
  split_ifs at h with hdestroy hmunmap hclose hunlink
  · obtain ⟨rfl, rfl⟩ := Prod.mk.inj h
    exact ⟨_, rfl, .inl rfl, rfl, .inl ⟨hdestroy, rfl, rfl⟩⟩
  · obtain ⟨rfl, rfl⟩ := Prod.mk.inj h
    exact ⟨_, rfl, .inl rfl, by simp, .inr ⟨by simpa using hdestroy, hmutexes,
      .inr ⟨rfl, .inl ⟨_, by decide, hmunmap⟩⟩⟩⟩
  · obtain ⟨rfl, rfl⟩ := Prod.mk.inj h
    exact ⟨_, rfl, .inr rfl, by simp, .inr ⟨by simpa using hdestroy, hmutexes,
      .inr ⟨rfl, .inl ⟨_, by decide, hclose⟩⟩⟩⟩
  · obtain ⟨rfl, rfl⟩ := Prod.mk.inj h
    refine ⟨_, rfl, .inr rfl, by simp, .inr ⟨by simpa using hdestroy, hmutexes, .inr ⟨rfl, ?_⟩⟩⟩
    rw [Bool.or_eq_true, Option.isNone_iff_eq_none] at hunlink
    exact hunlink.imp_left fun hfails => ⟨_, by decide, hfails⟩
  · obtain ⟨rfl, rfl⟩ := Prod.mk.inj h
    rw [Bool.or_eq_true, not_or, Bool.not_eq_true] at hunlink
    refine ⟨_, rfl, .inr rfl, ?_, .inr ⟨by simpa using hdestroy, hmutexes, .inl ⟨rfl, ?_⟩⟩⟩
    · exact Posix.length_setMutex s object .destroyed
    · simp [releasing, hmunmap, hclose, hunlink.1]

end RealtimeUtilities
