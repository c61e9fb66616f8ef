import RealtimeUtilities.SharedMutex.Basic
import RealtimeUtilities.ToMathlib.Execution

/-!
# The mutexes that are handed out

`shared_mutex_init()` initialises a mutex if it has created the object of the name. A call that
finds the object takes it that another call has done so. It has not if it failed after it created
the object, and `shared_mutex_destroy()` leaves a destroyed mutex under its name if it fails between
the two.

## Main definitions

* `SharedMutexes`: processes that call the functions one after the other;
* `HandsOutInitialised`: what the next `shared_mutex_init()` hands out is initialised;
* `Completes`: a call does not fail half-way;
* `Does`: what a call may do.

## Main results

* `WellFormed.does`: a call does nothing else;
* `WellFormed.step`: names and structures lead to the objects they were made for;
* `initialised_step_iff`: what one call does to the mutexes that have a name;
* `handsOutInitialised_iff`: in which runs all mutexes that are handed out are initialised.
-/

namespace RealtimeUtilities

open Execution

/-- The system, and all structures that `shared_mutex_init()` has returned, as the calls after it
have left them: a pointer that was unmapped is `none` here, and leads to no object either way. -/
structure SharedMutexes where
  posix : Posix
  handed : List shared_mutex_t

/-- A call by some process, with the calls of the system that fail. The structure `i` is passed to
the last two. -/
inductive SharedMutexCall where
  | init (name : String) (fails : PosixCall → Bool)
  | close (i : ℕ) (fails : PosixCall → Bool)
  | destroy (i : ℕ) (fails : PosixCall → Bool)

namespace Posix

/-- Whatever name the next `shared_mutex_init()` is called with, and whatever fails in it, if it
returns a mutex, that is an initialised one. -/
def HandsOutInitialised (s : Posix) : Prop :=
  ∀ name fails mutex s' object, (shared_mutex_init fails name).run s = (mutex, s') →
    mutex.ptr = some object → s'.Holds object

/-- The mutexes that have a name are initialised. -/
def Initialised (s : Posix) : Prop :=
  ∀ name object, s.names name = some object → s.mutexes object = some .initialised

variable {s : Posix}

/-- What has a name is what is handed out. -/
theorem handsOutInitialised_iff_initialised : s.HandsOutInitialised ↔ s.Initialised := by
  constructor
  · intro h name object hname
    obtain ⟨text, rfl⟩ := exists_shmName name
    have hrun : (shared_mutex_init (fun _ => false) text).run s =
        (⟨some object, some object, some text, false⟩, s.setSize object sizeofPthreadMutex) :=
      run_shared_mutex_init_of_exists rfl hname
    obtain ⟨o, ho, -, hmutex⟩ := h text _ _ _ object hrun rfl
    rw [← mutexes_setSize s object sizeofPthreadMutex]
    exact Option.map_eq_some_iff.mpr ⟨o, ho, hmutex⟩
  · intro h name fails mutex s' object hrun hptr
    rcases shared_mutex_init_cases hrun with
      ⟨-, -, -, -, hnull | ⟨object', hname, hleads, hholds⟩⟩ | ⟨hopen, hname, hcreat⟩
    · rw [hnull] at hptr
      cases hptr
    · obtain rfl := Option.some.inj (hleads.ptr.symm.trans hptr)
      exact hholds (h (shmName name) object' hname)
    · obtain ⟨-, -, ⟨hleads, hholds, -, -⟩ | ⟨hnull, -, -⟩⟩ :=
        shared_mutex_init_of_creates hopen hname hcreat hrun
      · obtain rfl := Option.some.inj (hleads.ptr.symm.trans hptr)
        exact hholds
      · rw [hnull] at hptr
        cases hptr

end Posix

/-- The names after one of them was removed. -/
theorem update_none_eq_some {names : ShmName → Option ℕ} {name name' : ShmName} {object : ℕ} :
    Function.update names name none name' = some object ↔
      name' ≠ name ∧ names name' = some object := by
  by_cases h : name' = name <;> simp [h]

/-- The names after one of them was given to an object. -/
theorem update_some_eq_some {names : ShmName → Option ℕ} {name name' : ShmName} {new object : ℕ} :
    Function.update names name (some new) name' = some object ↔
      (name' = name ∧ new = object) ∨ (name' ≠ name ∧ names name' = some object) := by
  by_cases h : name' = name <;> simp [h]

namespace SharedMutexes

/-- No name stands for an object. -/
def start : SharedMutexes where
  posix := ⟨[], fun _ => none, []⟩
  handed := []

/-- One call. -/
def step (s : SharedMutexes) : SharedMutexCall → Option SharedMutexes
  | .init name fails =>
      let (mutex, posix) := (shared_mutex_init fails name).run s.posix
      some { posix, handed := s.handed ++ [mutex] }
  | .close i fails =>
      s.handed[i]?.map fun mutex =>
        let (o, posix) := (shared_mutex_close fails mutex).run s.posix
        { posix, handed := s.handed.set i o.mutex }
  | .destroy i fails =>
      s.handed[i]?.map fun mutex =>
        match (shared_mutex_destroy fails mutex).run s.posix with
        | (some o, posix) => { posix, handed := s.handed.set i o.mutex }
        -- the process is killed
        | (none, posix) => { s with posix }

/-- The call does not fail between creating an object and initialising its mutex, nor between
destroying a mutex and removing the name of its object. -/
def Completes (s : SharedMutexes) : SharedMutexCall → Prop
  | .init name fails =>
      s.posix.names (shmName name) = none → fails .shm_open = false →
        fails .shm_open_creat = false → ∀ call ∈ completing, fails call = false
  | .close _ _ => True
  | .destroy i fails =>
      ∀ mutex object name, s.handed[i]? = some mutex → mutex.LeadsTo object name →
        s.posix.names name = some object → fails .pthread_mutex_destroy = false →
        ∀ call ∈ releasing, fails call = false

/-- The names stand for different objects, and a structure that leads to an object has the only
name that the object may have. -/
structure WellFormed (s : SharedMutexes) : Prop where
  named : ∀ name object, s.posix.names name = some object → object < s.posix.objects.length
  unique : ∀ name name' object, s.posix.names name = some object →
    s.posix.names name' = some object → name' = name
  handed : ∀ mutex ∈ s.handed, mutex.ptr = none ∨ ∃ object name, mutex.LeadsTo object name ∧
    object < s.posix.objects.length ∧ ∀ name', s.posix.names name' = some object → name' = name

variable {s s' : SharedMutexes} {c : SharedMutexCall}

theorem wellFormed_start : start.WellFormed where
  named _ _ h := by cases h
  unique _ _ _ h := by cases h
  handed _ h := absurd h List.not_mem_nil

/-! ## What one call does -/

/-- An object is created under the name, and a structure is returned. -/
structure Creates (s s' : SharedMutexes) (name : ShmName) (mutex : shared_mutex_t) : Prop where
  length : s'.posix.objects.length = s.posix.objects.length + 1
  names : s'.posix.names = Function.update s.posix.names name (some s.posix.objects.length)
  handed : s'.handed = s.handed ++ [mutex]

/-- No object is created, and no structure leads to one that had no name before. -/
structure CreatesNothing (s s' : SharedMutexes) : Prop where
  length : s'.posix.objects.length = s.posix.objects.length
  names : ∀ name object, s'.posix.names name = some object → s.posix.names name = some object
  handed : ∀ mutex ∈ s'.handed, mutex.ptr = none ∨ mutex ∈ s.handed ∨
    ∃ object name, mutex.LeadsTo object name ∧ s.posix.names name = some object

/-- What a call may do. It fails half-way if it creates an object and returns no mutex, or if it
destroys a mutex whose object keeps its name. -/
inductive Does (s : SharedMutexes) (c : SharedMutexCall) (s' : SharedMutexes) : Prop where
  | creates {name : ShmName} {mutex : shared_mutex_t} (creates : s.Creates s' name mutex)
      (leads : mutex.LeadsTo s.posix.objects.length name) (completes : s.Completes c)
      (mutexes : s'.posix.mutexes =
        Function.update s.posix.mutexes s.posix.objects.length (some .initialised))
  | abandons {name : ShmName} {mutex : shared_mutex_t} (creates : s.Creates s' name mutex)
      (null : mutex.ptr = none) (fails : ¬s.Completes c)
      (mutexes : s'.posix.mutexes =
        Function.update s.posix.mutexes s.posix.objects.length (some .uninitialised))
  | leaves (createsNothing : s.CreatesNothing s') (completes : s.Completes c)
      (mutexes : s'.posix.mutexes = s.posix.mutexes)
  | destroys {object : ℕ} {name : ShmName} (createsNothing : s.CreatesNothing s')
      (only : ∀ name', s.posix.names name' = some object → name' = name)
      (completes : s.Completes c ↔ s'.posix.names name ≠ some object)
      (mutexes : s'.posix.mutexes = Function.update s.posix.mutexes object (some .destroyed))

theorem does_init {name : String} {fails : PosixCall → Bool}
    (hs' : s.step (.init name fails) = some s') : s.Does (.init name fails) s' := by
  rcases hrun : (shared_mutex_init fails name).run s.posix with ⟨mutex, posix⟩
  simp only [step, hrun, Option.some.injEq] at hs'
  subst hs'
  rcases shared_mutex_init_cases hrun with
    ⟨hopen, hnames, hmutexes, hlength, hmutex⟩ | ⟨hopen, hname, hcreat⟩
  · refine .leaves ⟨hlength, fun _ _ hname => hnames ▸ hname, fun m hm => ?_⟩ ?_ hmutexes
    · rcases List.mem_append.mp hm with hold | hnew
      · exact .inr (.inl hold)
      · obtain rfl := List.mem_singleton.mp hnew
        refine hmutex.imp_right fun ⟨object, hname, hleads, _⟩ => ?_
        exact .inr ⟨object, shmName name, hleads, hname⟩
    · intro hname hopen' hcreat
      rw [hopen hname hopen'] at hcreat
      cases hcreat
  · obtain ⟨hnames, hlength, ⟨hleads, -, hsucceed, hmutexes⟩ |
      ⟨hnull, ⟨call, hcall, hfails⟩, hmutexes⟩⟩ :=
        shared_mutex_init_of_creates hopen hname hcreat hrun
    · exact .creates ⟨hlength, hnames, rfl⟩ hleads (fun _ _ _ => hsucceed) hmutexes
    · refine .abandons ⟨hlength, hnames, rfl⟩ hnull (fun hcompletes => ?_) hmutexes
      rw [hcompletes hname hopen hcreat call hcall] at hfails
      cases hfails

/-- The copy of a structure that a call has left takes the place of the structure. -/
theorem createsNothing_set {i : ℕ} {mutex mutex' : shared_mutex_t} {posix : Posix}
    (hi : s.handed[i]? = some mutex) (hmutex : mutex' = mutex ∨ mutex'.ptr = none)
    (hlength : posix.objects.length = s.posix.objects.length)
    (hnames : ∀ name object, posix.names name = some object → s.posix.names name = some object) :
    s.CreatesNothing { posix, handed := s.handed.set i mutex' } where
  length := hlength
  names := hnames
  handed m hm := by
    rcases List.mem_or_eq_of_mem_set hm with hold | rfl
    · exact .inr (.inl hold)
    · rcases hmutex with rfl | hnull
      · exact .inr (.inl (List.mem_of_getElem? hi))
      · exact .inl hnull

theorem does_close {i : ℕ} {fails : PosixCall → Bool}
    (hs' : s.step (.close i fails) = some s') : s.Does (.close i fails) s' := by
  obtain ⟨mutex, hi, hs'⟩ := Option.map_eq_some_iff.mp hs'
  rcases hrun : (shared_mutex_close fails mutex).run s.posix with ⟨o, posix⟩
  rw [hrun] at hs'
  subst hs'
  obtain ⟨hnames, hmutexes, hlength, hmutex⟩ := shared_mutex_close_spec hrun
  exact .leaves (createsNothing_set hi hmutex hlength fun _ _ hname => hnames ▸ hname) trivial
    hmutexes

theorem completes_destroy (fails : PosixCall → Bool) {i : ℕ} {mutex : shared_mutex_t}
    {object : ℕ} {name : ShmName} (hi : s.handed[i]? = some mutex)
    (hleads : mutex.LeadsTo object name) :
    s.Completes (.destroy i fails) ↔
      (s.posix.names name = some object → fails .pthread_mutex_destroy = false →
        ∀ call ∈ releasing, fails call = false) := by
  constructor
  · intro h
    exact h mutex object name hi hleads
  · intro h mutex' object' name' hi' hleads'
    obtain rfl := Option.some.inj (hi.symm.trans hi')
    obtain rfl := Option.some.inj (hleads.ptr.symm.trans hleads'.ptr)
    obtain rfl := Option.some.inj (hleads.name.symm.trans hleads'.name)
    exact h

theorem does_destroy_of_leadsTo {i : ℕ} {fails : PosixCall → Bool} {mutex : shared_mutex_t}
    {object : ℕ} {name : ShmName} (hi : s.handed[i]? = some mutex)
    (hleads : mutex.LeadsTo object name) (hlt : object < s.posix.objects.length)
    (honly : ∀ name', s.posix.names name' = some object → name' = name)
    (hs' : s.step (.destroy i fails) = some s') : s.Does (.destroy i fails) s' := by
  rcases hrun : (shared_mutex_destroy fails mutex).run s.posix with ⟨r, posix⟩
  obtain ⟨o, rfl, hmutex, hlength, hcases⟩ := shared_mutex_destroy_cases hleads hlt hrun
  simp only [step, hi, Option.map_some, hrun, Option.some.injEq] at hs'
  subst hs'
  have hcompletes := completes_destroy fails hi hleads
  rcases hcases with ⟨hfails, hnames, hmutexes⟩ |
    ⟨hdestroy, hmutexes, ⟨hnames, hsucceed⟩ | ⟨hnames, hfails⟩⟩
  · refine .leaves (createsNothing_set hi hmutex hlength fun _ _ hname => hnames ▸ hname)
      (hcompletes.mpr fun _ hdestroy => ?_) hmutexes
    rw [hfails] at hdestroy
    cases hdestroy
  · -- the name is removed, also if another object has it by now
    refine .destroys (createsNothing_set hi hmutex hlength fun name' object' hname' => ?_) honly
      (iff_of_true (hcompletes.mpr fun _ _ => hsucceed) ?_) hmutexes
    · rw [hnames, update_none_eq_some] at hname'
      exact hname'.2
    · rw [hnames, Function.update_self]
      nofun
  · refine .destroys (createsNothing_set hi hmutex hlength fun _ _ hname => hnames ▸ hname) honly
      ?_ hmutexes
    rw [hcompletes, hnames]
    constructor
    · intro h hname
      rcases hfails with ⟨call, hcall, hfails⟩ | hnone
      · rw [h hname hdestroy call hcall] at hfails
        cases hfails
      · rw [hname] at hnone
        cases hnone
    · intro hname hname'
      exact absurd hname' hname

theorem WellFormed.does_destroy (h : s.WellFormed) {i : ℕ} {fails : PosixCall → Bool}
    (hs' : s.step (.destroy i fails) = some s') : s.Does (.destroy i fails) s' := by
  obtain ⟨mutex, hi, -⟩ := Option.map_eq_some_iff.mp hs'
  rcases h.handed mutex (List.mem_of_getElem? hi) with hnull | ⟨object, name, hleads, hlt, honly⟩
  · simp only [step, hi, Option.map_some, run_shared_mutex_destroy_of_null hnull,
      Option.some.injEq] at hs'
    subst hs'
    refine .leaves ⟨rfl, fun _ _ hname => hname, fun m hm => .inr (.inl hm)⟩ ?_ rfl
    intro mutex' object name hi' hleads
    obtain rfl := Option.some.inj (hi.symm.trans hi')
    rw [hleads.ptr] at hnull
    cases hnull
  · exact does_destroy_of_leadsTo hi hleads hlt honly hs'

theorem WellFormed.does (h : s.WellFormed) (hs' : s.step c = some s') : s.Does c s' := by
  cases c with
  | init name fails => exact does_init hs'
  | close i fails => exact does_close hs'
  | destroy i fails => exact h.does_destroy hs'

/-! ## What a call keeps -/

theorem WellFormed.of_createsNothing (h : s.WellFormed) (hs' : s.CreatesNothing s') :
    s'.WellFormed where
  named name object hname := hs'.length ▸ h.named name object (hs'.names name object hname)
  unique name name' object hname hname' :=
    h.unique name name' object (hs'.names name object hname) (hs'.names name' object hname')
  handed mutex hmem := by
    rcases hs'.handed mutex hmem with hnull | hold | ⟨object, name, hleads, hname⟩
    · exact .inl hnull
    · refine (h.handed mutex hold).imp_right ?_
      rintro ⟨object, name, hleads, hlt, honly⟩
      exact ⟨object, name, hleads, hs'.length ▸ hlt,
        fun name' hname' => honly name' (hs'.names name' object hname')⟩
    · exact .inr ⟨object, name, hleads, hs'.length ▸ h.named name object hname,
        fun name' hname' => h.unique name name' object hname (hs'.names name' object hname')⟩

/-- The new object has a number that no other object has. -/
theorem WellFormed.of_creates (h : s.WellFormed) {name : ShmName} {mutex : shared_mutex_t}
    (hs' : s.Creates s' name mutex)
    (hmutex : mutex.ptr = none ∨ mutex.LeadsTo s.posix.objects.length name) : s'.WellFormed := by
  have hlength := hs'.length
  have hnamed {name' : ShmName} {object : ℕ} : s'.posix.names name' = some object ↔
      (name' = name ∧ s.posix.objects.length = object) ∨
        (name' ≠ name ∧ s.posix.names name' = some object) := by
    rw [hs'.names, update_some_eq_some]
  have hfresh (name' : ShmName) : s.posix.names name' ≠ some s.posix.objects.length :=
    fun hname' => Nat.lt_irrefl _ (h.named name' _ hname')
  refine ⟨fun name' object hname' => ?_, fun name₁ name₂ object h₁ h₂ => ?_, fun m hm => ?_⟩
  · rcases hnamed.mp hname' with ⟨-, rfl⟩ | ⟨-, hold⟩
    · omega
    · have := h.named name' object hold
      omega
  · rcases hnamed.mp h₁ with ⟨rfl, rfl⟩ | ⟨-, h₁⟩ <;> rcases hnamed.mp h₂ with ⟨rfl, h₂⟩ | ⟨-, h₂⟩
    · rfl
    · exact absurd h₂ (hfresh name₂)
    · exact absurd (h₂ ▸ h₁) (hfresh name₁)
    · exact h.unique name₁ name₂ object h₁ h₂
  · rw [hs'.handed, List.mem_append, List.mem_singleton] at hm
    rcases hm with hold | rfl
    · refine (h.handed m hold).imp_right ?_
      rintro ⟨object, name', hleads, hlt, honly⟩
      refine ⟨object, name', hleads, by omega, fun name₂ h₂ => ?_⟩
      rcases hnamed.mp h₂ with ⟨-, rfl⟩ | ⟨-, h₂⟩
      · exact absurd hlt (Nat.lt_irrefl _)
      · exact honly name₂ h₂
    · refine hmutex.imp_right fun hleads => ⟨_, name, hleads, by omega, fun name₂ h₂ => ?_⟩
      rcases hnamed.mp h₂ with ⟨hname₂, -⟩ | ⟨-, h₂⟩
      · exact hname₂
      · exact absurd h₂ (hfresh name₂)

theorem WellFormed.step (h : s.WellFormed) (hs' : s.step c = some s') : s'.WellFormed := by
  cases h.does hs' with
  | creates hcreates hleads _ _ => exact h.of_creates hcreates (.inr hleads)
  | abandons hcreates hnull _ _ => exact h.of_creates hcreates (.inl hnull)
  | leaves hcreates _ _ => exact h.of_createsNothing hcreates
  | destroys hcreates _ _ _ => exact h.of_createsNothing hcreates

/-- If the mutexes with a name are initialised, a call keeps it that way if and only if it does not
fail half-way. -/
theorem initialised_step_iff (h : s.WellFormed) (hinit : s.posix.Initialised)
    (hs' : s.step c = some s') : s'.posix.Initialised ↔ s.Completes c := by
  cases h.does hs' with
  | creates hcreates _ hcompletes hmutexes =>
    refine iff_of_true (fun name' object hname' => ?_) hcompletes
    rw [hcreates.names, update_some_eq_some] at hname'
    rw [hmutexes]
    rcases hname' with ⟨-, rfl⟩ | ⟨-, hold⟩
    · rw [Function.update_self]
    · rw [Function.update_of_ne (Nat.ne_of_lt (h.named name' object hold))]
      exact hinit name' object hold
  | abandons hcreates _ hfails hmutexes =>
    -- the next call finds the object and takes its mutex to be initialised
    refine iff_of_false (fun hinit' => ?_) hfails
    have hmutex := hinit' _ s.posix.objects.length (hcreates.names ▸ Function.update_self ..)
    rw [hmutexes, Function.update_self] at hmutex
    cases hmutex
  | leaves hcreates hcompletes hmutexes =>
    refine iff_of_true (fun name object hname => ?_) hcompletes
    rw [hmutexes]
    exact hinit name object (hcreates.names name object hname)
  | @destroys object name hcreates honly hcompletes hmutexes =>
    rw [hcompletes]
    constructor
    · intro hinit' hname
      have hmutex := hinit' name object hname
      rw [hmutexes, Function.update_self] at hmutex
      cases hmutex
    · intro hname name' object' hname'
      have hold := hcreates.names name' object' hname'
      -- otherwise the destroyed mutex still has its name
      have hobject : object' ≠ object := by
        rintro rfl
        exact hname (honly name' hold ▸ hname')
      rw [hmutexes, Function.update_of_ne hobject]
      exact hinit name' object' hold

/-! ## Runs -/

/-- At every point of a run the next `shared_mutex_init()` hands out an initialised mutex, whatever
name it is called with, if and only if no call of the run failed half-way. -/
theorem handsOutInitialised_iff (calls : List SharedMutexCall) :
    (∀ pre post s, calls = pre ++ post → run step start pre = some s →
        s.posix.HandsOutInitialised) ↔
      Along step Completes start calls := by
  simp only [Posix.handsOutInitialised_iff_initialised]
  symm
  refine along_iff_prefix WellFormed (fun s => s.posix.Initialised) ?_ ?_ ?_ wellFormed_start ?_
  · -- a call with a structure that there is not
    intro s c _ _ hdisabled
    cases c with
    | init name fails => cases hdisabled
    | close i fails => trivial
    | destroy i fails =>
      intro mutex object name hi
      rw [step, hi] at hdisabled
      cases hdisabled
  · intro s c s' h _ hs' _
    exact h.step hs'
  · intro s c s' h hinit hs'
    exact initialised_step_iff h hinit hs'
  · intro name object hname
    cases hname

/-- `mmap()` fails in the first call, after the object was created. The second call finds the
object, and returns a mutex that nobody has initialised. -/
theorem not_handsOutInitialised_of_mmap :
    ∃ s mutex posix, run step start [.init "m" fun call => call = .mmap] = some s ∧
      (shared_mutex_init (fun _ => false) "m").run s.posix = (mutex, posix) ∧
      mutex.ptr = some 0 ∧ ¬posix.Holds 0 := by
  refine ⟨_, _, _, rfl, rfl, by decide, ?_⟩
  rintro ⟨o, ho, -, hmutex⟩
  cases ho
  cases hmutex

end SharedMutexes

end RealtimeUtilities
