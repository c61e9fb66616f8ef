import RealtimeUtilities.SharedMutex.HandedOut

/-!
# Processes that agree on a mutex

Two processes exclude each other if the structures they were handed lead to one object. They do if
both called `shared_mutex_init()` with one name and the name was not removed in between, which
`same_object_iff` shows to be necessary, too.

`shared_mutex_destroy()` removes the name that its structure was opened under. If another process
has done so before and a new object has the name by now, it is the new object that loses its name:
those who have it, and those who open the name afterwards, do not exclude each other any more.

## Main definitions

* `Unlinks`: the call removes a name.

## Main results

* `names_step_iff`: an object keeps its name in a call exactly if the call does not remove it;
* `names_of_names_run`: an object that has lost its name does not get one again;
* `same_object_iff`: when two structures lead to the same object.
-/

namespace RealtimeUtilities

open Execution

/-- A call that hands out a mutex leaves the name standing for its object, which is the one that
the name stood for, or new. -/
theorem names_of_shared_mutex_init {name : String} {fails : PosixCall → Bool} {s s' : Posix}
    {mutex : shared_mutex_t} {object : ℕ} (h : (shared_mutex_init fails name).run s = (mutex, s'))
    (hptr : mutex.ptr = some object) :
    s'.names (shmName name) = some object ∧
      (s.names (shmName name) = some object ∨
        (s.names (shmName name) = none ∧ object = s.objects.length)) := by
  rcases shared_mutex_init_cases h with
    ⟨-, hnames, -, -, hnull | ⟨object', hname, hleads, -⟩⟩ | ⟨hopen, hname, hcreat⟩
  · rw [hnull] at hptr
    cases hptr
  · obtain rfl := Option.some.inj (hleads.ptr.symm.trans hptr)
    exact ⟨hnames ▸ hname, .inl hname⟩
  · obtain ⟨hnames, -, ⟨hleads, -, -, -⟩ | ⟨hnull, -, -⟩⟩ :=
      shared_mutex_init_of_creates hopen hname hcreat h
    · obtain rfl := Option.some.inj (hleads.ptr.symm.trans hptr)
      exact ⟨by rw [hnames, Function.update_self], .inr ⟨hname, rfl⟩⟩
    · rw [hnull] at hptr
      cases hptr

namespace SharedMutexes

/-- The call removes the name `name`: it destroys a structure that was opened under the name, which
need not lead to the object that has the name now, and no call of the system fails. -/
def Unlinks (name : ShmName) (s : SharedMutexes) : SharedMutexCall → Prop
  | .init _ _ | .close _ _ => False
  | .destroy i fails =>
      (∃ mutex ∈ s.handed[i]?, mutex.ptr.isSome ∧
          mutex.name.map shmName = some name) ∧
        fails .pthread_mutex_destroy = false ∧ ∀ call ∈ releasing, fails call = false

instance (name : ShmName) (s : SharedMutexes) (c : SharedMutexCall) :
    Decidable (s.Unlinks name c) := by
  cases c <;> unfold Unlinks <;> infer_instance

variable {s s' t : SharedMutexes} {c : SharedMutexCall} {name : ShmName} {object : ℕ}

theorem unlinks_destroy_iff {i : ℕ} {fails : PosixCall → Bool} {mutex : shared_mutex_t}
    {name' : ShmName} (hi : s.handed[i]? = some mutex) (hleads : mutex.LeadsTo object name') :
    s.Unlinks name (.destroy i fails) ↔
      name' = name ∧ fails .pthread_mutex_destroy = false ∧
        ∀ call ∈ releasing, fails call = false := by
  simp [Unlinks, hi, hleads.ptr, hleads.name, -Option.map_eq_some_iff]

/-- An object keeps its name in a call if and only if the call does not remove it. -/
theorem names_step_iff (h : s.WellFormed) (hname : s.posix.names name = some object)
    (hs' : s.step c = some s') :
    s'.posix.names name = some object ↔ ¬ s.Unlinks name c := by
  cases c with
  | init name' fails =>
    rcases hrun : (shared_mutex_init fails name').run s.posix with ⟨mutex, posix⟩
    simp only [step, hrun, Option.some.injEq] at hs'
    subst hs'
    refine iff_of_true ?_ id
    rcases shared_mutex_init_cases hrun with ⟨-, hnames, -⟩ | ⟨hopen, hfree, hcreat⟩
    · exact hnames ▸ hname
    · -- the new object has another name
      obtain ⟨hnames, -⟩ := shared_mutex_init_of_creates hopen hfree hcreat hrun
      have hne : name ≠ shmName name' := by
        rintro rfl
        rw [hname] at hfree
        cases hfree
      rw [hnames, Function.update_of_ne hne, hname]
  | close i fails =>
    obtain ⟨mutex, -, hs'⟩ := Option.map_eq_some_iff.mp hs'
    rcases hrun : (shared_mutex_close fails mutex).run s.posix with ⟨o, posix⟩
    rw [hrun] at hs'
    subst hs'
    obtain ⟨hnames, -⟩ := shared_mutex_close_spec hrun
    exact iff_of_true (hnames ▸ hname) id
  | destroy i fails =>
    obtain ⟨mutex, hi, -⟩ := Option.map_eq_some_iff.mp hs'
    rcases h.handed mutex (List.mem_of_getElem? hi) with hnull | ⟨object', name', hleads, hlt, -⟩
    · simp only [step, hi, Option.map_some, run_shared_mutex_destroy_of_null hnull,
        Option.some.injEq] at hs'
      subst hs'
      exact iff_of_true hname (by simp [Unlinks, hi, hnull])
    · rcases hrun : (shared_mutex_destroy fails mutex).run s.posix with ⟨r, posix⟩
      obtain ⟨o, rfl, -, -, hcases⟩ := shared_mutex_destroy_cases hleads hlt hrun
      simp only [step, hi, Option.map_some, hrun, Option.some.injEq] at hs'
      subst hs'
      rw [unlinks_destroy_iff hi hleads]
      rcases hcases with ⟨hfails, hnames, -⟩ |
        ⟨hdestroy, -, ⟨hnames, hsucceed⟩ | ⟨hnames, hfails⟩⟩
      · exact iff_of_true (hnames ▸ hname) (by simp [hfails])
      · rw [hnames, update_none_eq_some, and_iff_left hname, ne_comm]
        exact not_congr (and_iff_left ⟨hdestroy, hsucceed⟩).symm
      · refine iff_of_true (hnames ▸ hname) ?_
        rintro ⟨rfl, -, hsucceed⟩
        rcases hfails with ⟨call, hcall, hfails⟩ | hnone
        · rw [hsucceed call hcall] at hfails
          cases hfails
        · rw [hname] at hnone
          cases hnone

theorem length_le_step (h : s.WellFormed) (hs' : s.step c = some s') :
    s.posix.objects.length ≤ s'.posix.objects.length := by
  cases h.does hs' with
  | creates hcreates _ _ _ | abandons hcreates _ _ _ =>
    have := hcreates.length
    omega
  | leaves hcreates _ _ | destroys hcreates _ _ _ => exact Nat.le_of_eq hcreates.length.symm

/-- No object that there is gets a name in a call. -/
theorem names_of_names_step (h : s.WellFormed) (hs' : s.step c = some s')
    (hlt : object < s.posix.objects.length) (hname : s'.posix.names name = some object) :
    s.posix.names name = some object := by
  cases h.does hs' with
  | creates hcreates _ _ _ | abandons hcreates _ _ _ =>
    rw [hcreates.names, update_some_eq_some] at hname
    rcases hname with ⟨-, rfl⟩ | ⟨-, hold⟩
    · exact absurd hlt (Nat.lt_irrefl _)
    · exact hold
  | leaves hcreates _ _ | destroys hcreates _ _ _ => exact hcreates.names name object hname

/-! ## Runs -/

theorem wellFormed_run {calls : List SharedMutexCall} (h : s.WellFormed)
    (hrun : run step s calls = some t) :
    t.WellFormed ∧ s.posix.objects.length ≤ t.posix.objects.length := by
  refine run_invariant (fun u => u.WellFormed ∧ s.posix.objects.length ≤ u.posix.objects.length)
    ?_ ⟨h, Nat.le_refl _⟩ hrun
  rintro u c u' ⟨hu, hle⟩ hu'
  exact ⟨hu.step hu', Nat.le_trans hle (length_le_step hu hu')⟩

/-- A name that stands for an object has done so as long as there was the object. -/
theorem names_of_names_run {calls : List SharedMutexCall} (h : s.WellFormed)
    (hrun : run step s calls = some t) (hlt : object < s.posix.objects.length)
    (hname : t.posix.names name = some object) : s.posix.names name = some object := by
  induction calls generalizing s with
  | nil =>
    obtain rfl := Option.some.inj hrun
    exact hname
  | cons c calls ih =>
    obtain ⟨s', hs', hrest⟩ := run_cons_eq_some.mp hrun
    exact names_of_names_step h hs' hlt
      (ih (h.step hs') hrest (Nat.lt_of_lt_of_le hlt (length_le_step h hs')))

/-- An object has its name at the end of a run if and only if no call of the run has removed it. -/
theorem along_not_unlinks_iff {calls : List SharedMutexCall} (h : s.WellFormed)
    (hname : s.posix.names name = some object) (hrun : run step s calls = some t) :
    Along step (fun s c => ¬ s.Unlinks name c) s calls ↔ t.posix.names name = some object := by
  refine along_iff_end (fun s => s.WellFormed ∧ object < s.posix.objects.length)
    (fun s => s.posix.names name = some object) ?_ ?_ ?_ ⟨h, h.named name object hname⟩ hname hrun
  · rintro s c s' ⟨h, hlt⟩ hs'
    exact ⟨h.step hs', Nat.lt_of_lt_of_le hlt (length_le_step h hs')⟩
  · exact fun s c s' h hname hs' => names_step_iff h.1 hname hs'
  · exact fun s c s' h hs' => names_of_names_step h.1 hs' h.2

/-- **Two structures lead to the same object if and only if they were opened under one name, and no
call in between has removed the name.** Slashes at the beginning of a name do not count. This holds
at any two points of any run, whatever fails in the calls, and whichever structures were closed or
destroyed in between. -/
theorem same_object_iff {pre mid : List SharedMutexCall} {name name' : String}
    {fails fails' : PosixCall → Bool} {mutex mutex' : shared_mutex_t} {posix posix' : Posix}
    {object object' : ℕ} (hs : run step start pre = some s)
    (hinit : (shared_mutex_init fails name).run s.posix = (mutex, posix))
    (hptr : mutex.ptr = some object)
    (ht : run step ⟨posix, s.handed ++ [mutex]⟩ mid = some t)
    (hinit' : (shared_mutex_init fails' name').run t.posix = (mutex', posix'))
    (hptr' : mutex'.ptr = some object') :
    object' = object ↔ shmName name' = shmName name ∧
      Along step (fun s c => ¬ s.Unlinks (shmName name) c) ⟨posix, s.handed ++ [mutex]⟩ mid := by
  obtain ⟨hstart, -⟩ := wellFormed_run wellFormed_start hs
  have hwell : WellFormed ⟨posix, s.handed ++ [mutex]⟩ :=
    hstart.step (c := .init name fails) (by rw [step, hinit])
  obtain ⟨hname, -⟩ := names_of_shared_mutex_init hinit hptr
  have hlt := hwell.named _ object hname
  obtain ⟨-, hle⟩ := wellFormed_run hwell ht
  obtain ⟨-, hbefore⟩ := names_of_shared_mutex_init hinit' hptr'
  rw [along_not_unlinks_iff hwell hname ht]
  constructor
  · rintro rfl
    -- the object is not a new one, so it had this name all the time
    have hname' : t.posix.names (shmName name') = some object' := by
      refine hbefore.resolve_right ?_
      rintro ⟨-, rfl⟩
      exact absurd (Nat.lt_of_lt_of_le hlt hle) (Nat.lt_irrefl _)
    have hsame := hwell.unique _ _ object' hname (names_of_names_run hwell ht hlt hname')
    exact ⟨hsame, hsame ▸ hname'⟩
  · rintro ⟨hsame, hend⟩
    rw [hsame] at hbefore
    rcases hbefore with hname' | ⟨hfree, -⟩
    · exact Option.some.inj (hname'.symm.trans hend)
    · rw [hend] at hfree
      cases hfree

/-- Two processes have opened a mutex, and one of them has destroyed it. -/
def destroyed : SharedMutexes where
  posix :=
    { objects := [⟨sizeofPthreadMutex, .destroyed⟩]
      names :=
        Function.update (Function.update (fun _ => none) (shmName "m") (some 0)) (shmName "m") none
      stderr := [] }
  handed := [⟨none, none, none, true⟩, ⟨some 0, some 0, some "m", false⟩]

/-- A third process opens a new mutex under the name. -/
def renewed : SharedMutexes where
  posix :=
    { objects := [⟨sizeofPthreadMutex, .destroyed⟩, ⟨sizeofPthreadMutex, .initialised⟩]
      names := Function.update destroyed.posix.names (shmName "m") (some 1)
      stderr := [] }
  handed := destroyed.handed ++ [⟨some 1, some 1, some "m", true⟩]

/-- When the second process destroys the mutex that it has, the new one loses its name, and the next
process does not meet the third one. -/
theorem same_object_iff_stale :
    ¬ Along step (fun s c => ¬ s.Unlinks (shmName "m") c) renewed [.destroy 1 fun _ => false] := by
  intro halong
  have hdestroyed : run step start [.init "m" fun _ => false, .init "m" fun _ => false,
      .destroy 0 fun _ => false] = some destroyed := rfl
  have hrenewed : (shared_mutex_init (fun _ => false) "m").run destroyed.posix =
      (⟨some 1, some 1, some "m", true⟩, renewed.posix) := rfl
  let last : SharedMutexes :=
    { posix := (renewed.posix.setMutex 0 .destroyed).unlink (shmName "m")
      handed := renewed.handed.set 1 ⟨none, none, none, false⟩ }
  have hlast : run step renewed [.destroy 1 fun _ => false] = some last := rfl
  have hnext : (shared_mutex_init (fun _ => false) "m").run last.posix =
      (⟨some 2, some 2, some "m", true⟩,
        ((last.posix.create (shmName "m")).setSize 2 sizeofPthreadMutex).setMutex 2
          .initialised) := rfl
  exact absurd ((same_object_iff hdestroyed hrenewed rfl hlast hnext rfl).mpr ⟨rfl, halong⟩)
    (by decide)

end SharedMutexes

end RealtimeUtilities
