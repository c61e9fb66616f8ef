import RealtimeUtilities.IPC.Concurrent

/-!
# Constructors that nobody interrupts

The step of `ConcurrentHost` is one call of Boost. If the calls of one constructor follow each other
with nothing in between, then together they are the constructor `RealTimeIPC.create`, which knows
nothing of other endpoints.

## Main results

* `create_of_run`: the calls of Boost of a constructor, as far as it comes, are `create`.
-/

namespace RealtimeUtilities

open Execution

/-- The call of a constructor that comes next. -/
def Phase.call : Phase → Option BoostCall
  | createSegment | openSegment => some .segment
  | truncate _ => some .truncate
  | mapCreated _ | mapOpened _ => some .map
  | createMutex _ | openMutex _ => some .mutex
  | serving _ _ | removeSegment _ _ | removeMutex _ _ _ | removed _ _ _ _ | attached _ _ | detached
  | threw _ | destroyed => none

namespace NamedObjects

/-- Calls of Boost of the constructor of one endpoint, with nothing in between. The list says which
of them throw in any case: those in `fails`. -/
inductive Boosts (fails : BoostCall → Bool) :
    NamedObjects → Party → List Bool → NamedObjects → Party → Prop
  | nil {o : NamedObjects} {p : Party} : Boosts fails o p [] o p
  | cons {o o' o'' : NamedObjects} {p p' p'' : Party} {call : BoostCall} {b : Bool} {bs : List Bool}
      (hcall : p.phase.call = some call) (hfails : fails call = b) (halive : p.alive = true)
      (hboost : o.boost p b = some (o', p')) (hrest : Boosts fails o' p' bs o'' p'') :
      Boosts fails o p (b :: bs) o'' p''

variable {o o' : NamedObjects} {m : Machine} {name : String}

/-- The machine `m` has the same names, for segments of the same sizes. -/
def Shows (o : NamedObjects) (m : Machine) : Prop :=
  ∀ name, (m.segments name).map SharedMemory.size = (o.names name).map o.size ∧
    m.mutexes name = (o.mutexNames name).isSome

/-- A machine with these names. Its segments are zero. -/
def machine (o : NamedObjects) : Machine where
  umask := 18
  segments name := (o.names name).map fun k => ⟨o.size k, fun _ => 0⟩
  mutexes name := (o.mutexNames name).isSome

theorem shows_machine (o : NamedObjects) : o.Shows o.machine := by
  refine fun name => ⟨?_, rfl⟩
  rw [machine, Option.map_map]
  rfl

theorem Shows.isSome (h : o.Shows m) (name : String) :
    (m.segments name).isSome = (o.names name).isSome := by
  have hsize := congrArg Option.isSome (h name).1
  rwa [Option.isSome_map, Option.isSome_map] at hsize

theorem Shows.addSegment (h : o.Shows m) (hnamed : ∀ name k, o.names name = some k →
    k < o.sizes.length) {size : ℕ} (hsize : o'.size = Function.update o.size o.sizes.length size)
    (hnames : o'.names = Function.update o.names name (some o.sizes.length))
    (hmutexes : o'.mutexNames = o.mutexNames) (memory : Memory) :
    o'.Shows (m.setSegment name ⟨size, memory⟩) := by
  intro name'
  rw [hsize, hnames, hmutexes]
  refine ⟨?_, (h name').2⟩
  show (Function.update m.segments name (some ⟨size, memory⟩) name').map _ = _
  by_cases hname : name' = name
  · subst hname
    rw [Function.update_self, Function.update_self]
    simp
  · rw [Function.update_of_ne hname, Function.update_of_ne hname, (h name').1]
    refine Option.map_congr fun k hk => ?_
    rw [Function.update_of_ne (Nat.ne_of_lt (hnamed name' k hk))]

theorem Shows.addMutex (h : o.Shows m) : (o.addMutex name).Shows (m.setMutex name) := by
  intro name'
  refine ⟨(h name').1, ?_⟩
  show Function.update m.mutexes name true name' =
    (Function.update o.mutexNames name (some o.mutexes) name').isSome
  by_cases hname : name' = name
  · subst hname
    rw [Function.update_self, Function.update_self]
    rfl
  · rw [Function.update_of_ne hname, Function.update_of_ne hname]
    exact (h name').2

end NamedObjects

/-- A constructor that was not interrupted has left the named objects `o` and the endpoint `p`. -/
def Constructed.Agrees {τ : Type} (c : Constructed τ) (o : NamedObjects) (p : Party) : Prop :=
  match c with
  | .returned e m => o.Shows m ∧ p.alive = true ∧ p.phase.works.isSome = e.mutex_ ∧
      (p.phase = .detached ∨ e.mutex_ = true) ∧ p.dim_with_header_ = e.dim_with_header_ ∧
      p.shared_map_ = e.shared_map_
  | .threw m => o.Shows m ∧ ∃ k, p.phase = .threw k
  | .aborted _ m => o.Shows m ∧ p.alive = false

namespace ConcurrentHost

open NamedObjects (Boosts)

/-- Calls of Boost of the endpoint that was constructed last. -/
theorem run_of_boosts {fails : BoostCall → Bool} {o o' : NamedObjects} {ps : List Party}
    {p p' : Party} {bs : List Bool} (hboosts : Boosts fails o p bs o' p') :
    run step ⟨o, ps ++ [p]⟩ (bs.map (.boost ps.length)) =
      some ⟨o', ps ++ [p']⟩ := by
  induction hboosts with
  | nil => rfl
  | @cons o o₁ _ p p₁ _ _ _ _ _ _ halive hboost hrest ih =>
    refine run_cons_eq_some.mpr ⟨⟨o₁, ps ++ [p₁]⟩, ?_, ih⟩
    have hliving : living ⟨o, ps ++ [p]⟩ ps.length = some p :=
      living_eq_some_iff.mpr ⟨List.getElem?_concat_length, halive⟩
    simp [step, hliving, hboost]

/-- The calls of Boost that are left to a constructor end as `c` does. -/
def Ends {τ : Type} (fails : BoostCall → Bool) (o : NamedObjects) (p : Party)
    (c : Constructed τ) : Prop :=
  ∃ bs o' p', Boosts fails o p bs o' p' ∧ c.Agrees o' p'

theorem Ends.nil {τ : Type} {fails : BoostCall → Bool} {o : NamedObjects} {p : Party}
    {c : Constructed τ} (hagrees : c.Agrees o p) : Ends fails o p c :=
  ⟨[], o, p, .nil, hagrees⟩

theorem Ends.cons {τ : Type} {fails : BoostCall → Bool} {o o' : NamedObjects} {p p' : Party}
    {c : Constructed τ} {call : BoostCall} (hcall : p.phase.call = some call)
    (halive : p.alive = true) (hboost : o.boost p (fails call) = some (o', p'))
    (hends : Ends fails o' p' c) : Ends fails o p c := by
  obtain ⟨bs, o'', p'', hboosts, hagrees⟩ := hends
  exact ⟨fails call :: bs, o'', p'', .cons hcall rfl halive hboost hboosts, hagrees⟩

variable {τ : Type} [Double τ] {h : ConcurrentHost} {m : Machine} {identifier : String}
  {watchdog_decimation : τ} {dim : ℕ} {ndebug : Bool} {events : List ConcurrentEvent}

theorem ends_server (hs : h.Sound) (hshows : h.Shows m) (fails : BoostCall → Bool) :
    Ends fails h.toNamedObjects (Party.construct true identifier dim ndebug)
      (RealTimeIPC.create fails m identifier watchdog_decimation .SHMEM_SERVER dim ndebug) := by
  have hnamed : ∀ name k, h.names name = some k → k < h.sizes.length := fun name k hk => by
    obtain ⟨i, p, hi, -, hp⟩ := hs.segments.owner name k hk
    exact hs.segments.lt i p k hi (segments.made_of_named hp)
  have hshows₀ : h.Shows (m.setUmask 0) := hshows
  rw [RealTimeIPC.create_server]
  dsimp only
  by_cases hsize : (dim + sizeofHeader) % 2 ^ 64 ≤ sizeofHeader
  · -- a server without payload makes no call
    rw [if_pos hsize]
    have hphase : (Party.construct true identifier dim ndebug).phase = .detached := by
      rw [Party.construct, if_pos rfl, if_neg (not_lt.mpr hsize)]
    exact .nil ⟨hshows, rfl, by rw [hphase]; rfl, .inl hphase, rfl, rfl⟩
  rw [if_neg hsize]
  have hconstruct : Party.construct true identifier dim ndebug =
      ⟨identifier, (dim + sizeofHeader) % 2 ^ 64, 0, ndebug, true, .createSegment⟩ := by
    rw [Party.construct, if_pos rfl, if_pos (not_le.mp hsize)]
  rw [hconstruct]
  generalize (dim + sizeofHeader) % 2 ^ 64 = size at hsize ⊢
  -- `shared_memory_object(create_only, ..)`: nothing is left behind if it throws
  cases hfirst : (m.segments identifier).isSome || fails .segment with
  | true =>
    have hthrows : h.boost ⟨identifier, size, 0, ndebug, true, .createSegment⟩ (fails .segment) =
        some (h.toNamedObjects, ⟨identifier, size, 0, ndebug, true, .threw none⟩) := by
      rw [hshows.isSome] at hfirst
      simp only [NamedObjects.boost, hfirst, if_true]
      rfl
    exact .cons rfl rfl hthrows (.nil ⟨hshows, none, rfl⟩)
  | false =>
  simp only [Bool.false_eq_true, if_false]
  rw [hshows.isSome, Bool.or_eq_false_iff] at hfirst
  have hcreate : h.boost ⟨identifier, size, 0, ndebug, true, .createSegment⟩ (fails .segment) =
      some (h.addSegment identifier,
        ⟨identifier, size, 0, ndebug, true, .truncate h.sizes.length⟩) := by
    simp [NamedObjects.boost, hfirst.1, hfirst.2]
    rfl
  refine .cons rfl rfl hcreate ?_
  -- `truncate`: if it throws, then an empty segment is left behind
  cases htruncate : fails .truncate with
  | true =>
    have hempty : (h.addSegment identifier).size = Function.update h.size h.sizes.length 0 := by
      rw [NamedObjects.size_addSegment]
      refine (Function.update_eq_self_iff.mpr ?_).symm
      simp [NamedObjects.size]
    have hthrows : (h.addSegment identifier).boost
        ⟨identifier, size, 0, ndebug, true, .truncate h.sizes.length⟩ (fails .truncate) =
        some (h.addSegment identifier,
          ⟨identifier, size, 0, ndebug, true, .threw (some h.sizes.length)⟩) := by
      rw [htruncate]
      rfl
    exact .cons rfl rfl hthrows (.nil ⟨hshows₀.addSegment hnamed hempty rfl rfl _, _, rfl⟩)
  | false =>
  simp only [Bool.false_eq_true, if_false]
  have hlt : h.sizes.length < (h.addSegment identifier).sizes.length := by
    simp [NamedObjects.addSegment]
  generalize hgrown : (h.addSegment identifier).setSize h.sizes.length size = o
  have hsizes : o.size = Function.update h.size h.sizes.length size := by
    rw [← hgrown, NamedObjects.size_setSize hlt, NamedObjects.size_addSegment]
  have hshown : o.Shows ((m.setUmask 0).setSegment identifier ⟨size, fun _ => 0⟩) :=
    hshows₀.addSegment hnamed hsizes (by rw [← hgrown]; rfl) (by rw [← hgrown]; rfl) _
  have htruncated : (h.addSegment identifier).boost
      ⟨identifier, size, 0, ndebug, true, .truncate h.sizes.length⟩ (fails .truncate) =
      some (o, ⟨identifier, size, 0, ndebug, true, .mapCreated h.sizes.length⟩) := by
    rw [← hgrown, htruncate]
    rfl
  refine .cons rfl rfl htruncated ?_
  -- `mapped_region` and `named_mutex(create_only, ..)`: from here on the segment has its size
  cases hmap : fails .map with
  | true =>
    have hthrows : o.boost ⟨identifier, size, 0, ndebug, true, .mapCreated h.sizes.length⟩
        (fails .map) =
        some (o, ⟨identifier, size, 0, ndebug, true, .threw (some h.sizes.length)⟩) := by
      rw [hmap]
      rfl
    exact .cons rfl rfl hthrows (.nil ⟨hshown, _, rfl⟩)
  | false =>
  have hmapped : o.boost ⟨identifier, size, 0, ndebug, true, .mapCreated h.sizes.length⟩
      (fails .map) =
      some (o, ⟨identifier, size, size, ndebug, true, .createMutex h.sizes.length⟩) := by
    have hpos : size ≠ 0 := by omega
    simp [NamedObjects.boost, hsizes, hpos, hmap]
  refine .cons rfl rfl hmapped ?_
  have hmutexes : m.mutexes identifier = (o.mutexNames identifier).isSome := (hshown identifier).2
  simp only [Bool.false_or, hmutexes]
  cases hlate : (o.mutexNames identifier).isSome || fails .mutex with
  | true =>
    have hthrows : o.boost ⟨identifier, size, size, ndebug, true, .createMutex h.sizes.length⟩
        (fails .mutex) =
        some (o, ⟨identifier, size, size, ndebug, true, .threw (some h.sizes.length)⟩) := by
      simp only [NamedObjects.boost, hlate, if_true]
      rfl
    exact .cons rfl rfl hthrows (.nil ⟨hshown, _, rfl⟩)
  | false =>
    have hserves : o.boost ⟨identifier, size, size, ndebug, true, .createMutex h.sizes.length⟩
        (fails .mutex) = some (o.addMutex identifier,
          ⟨identifier, size, size, ndebug, true, .serving h.sizes.length o.mutexes⟩) := by
      simp only [NamedObjects.boost, hlate, Bool.false_eq_true, if_false]
      rfl
    exact .cons rfl rfl hserves (.nil ⟨hshown.addMutex, rfl, rfl, .inr rfl, rfl, rfl⟩)

theorem ends_client (hshows : h.Shows m) (fails : BoostCall → Bool) :
    Ends fails h.toNamedObjects (Party.construct false identifier dim ndebug)
      (RealTimeIPC.create fails m identifier watchdog_decimation .SHMEM_CLIENT dim ndebug) := by
  rw [RealTimeIPC.create_client]
  dsimp only
  have hconstruct : Party.construct false identifier dim ndebug =
      ⟨identifier, (dim + sizeofHeader) % 2 ^ 64, 0, ndebug, true, .openSegment⟩ := rfl
  rw [hconstruct]
  have hdim : (RealTimeIPC.construct identifier watchdog_decimation .SHMEM_CLIENT dim
      ndebug).dim_with_header_ = (dim + sizeofHeader) % 2 ^ 64 := rfl
  generalize (dim + sizeofHeader) % 2 ^ 64 = size at hdim ⊢
  have hsegment := (hshows identifier).1
  have hmutexes := (hshows identifier).2
  -- `shared_memory_object(open_only, ..)`: the constructor returns if there is no segment
  cases hobject : m.segments identifier with
  | none =>
    rw [hobject] at hsegment
    have hname : h.names identifier = none := by simpa using hsegment.symm
    have hreturns : h.boost ⟨identifier, size, 0, ndebug, true, .openSegment⟩ (fails .segment) =
        some (h.toNamedObjects, ⟨identifier, size, 0, ndebug, true, .detached⟩) := by
      simp only [NamedObjects.boost, hname]
      rfl
    exact .cons rfl rfl hreturns (.nil ⟨hshows, rfl, rfl, .inl rfl, hdim.symm, rfl⟩)
  | some object =>
  rw [hobject] at hsegment
  obtain ⟨k, hname, hsize⟩ : ∃ k, h.names identifier = some k ∧ h.size k = object.size := by
    simpa using hsegment.symm
  have hopen : h.boost ⟨identifier, size, 0, ndebug, true, .openSegment⟩ (fails .segment) =
      some (h.toNamedObjects, ⟨identifier, size, 0, ndebug, true,
        if fails .segment then .threw none else .mapOpened k⟩) := by
    simp only [NamedObjects.boost, hname]
    rfl
  refine .cons rfl rfl hopen ?_
  cases hsegmentFails : fails .segment with
  | true => exact .nil ⟨hshows, none, rfl⟩
  | false =>
  simp only [Bool.false_or, Bool.false_eq_true, if_false, ← hsize]
  -- `mapped_region`: there is nothing to map in a segment that was not truncated yet
  cases hmap : fails .map || decide (h.size k = 0) with
  | true =>
    have hthrows : h.boost ⟨identifier, size, 0, ndebug, true, .mapOpened k⟩ (fails .map) =
        some (h.toNamedObjects, ⟨identifier, size, 0, ndebug, true, .threw none⟩) := by
      simp only [NamedObjects.boost, hmap, if_true]
      rfl
    exact .cons rfl rfl hthrows (.nil ⟨hshows, none, rfl⟩)
  | false =>
  have hmapped : h.boost ⟨identifier, size, 0, ndebug, true, .mapOpened k⟩ (fails .map) =
      some (h.toNamedObjects, ⟨identifier, size, h.size k, ndebug, true, .openMutex k⟩) := by
    simp only [NamedObjects.boost, hmap, Bool.false_eq_true, if_false]
  refine .cons rfl rfl hmapped ?_
  simp only [Bool.false_eq_true, if_false]
  -- `named_mutex(open_only, ..)`: the constructor returns if there is no mutex
  cases hlocked : h.mutexNames identifier with
  | none =>
    have hfree : m.mutexes identifier = false := by rw [hmutexes, hlocked]; rfl
    have hreturns : h.boost ⟨identifier, size, h.size k, ndebug, true, .openMutex k⟩
        (fails .mutex) =
        some (h.toNamedObjects, ⟨identifier, size, h.size k, ndebug, true, .detached⟩) := by
      simp only [NamedObjects.boost, hlocked]
      rfl
    simp only [hfree, Bool.not_false, if_true]
    exact .cons rfl rfl hreturns (.nil ⟨hshows, rfl, rfl, .inl rfl, hdim.symm, rfl⟩)
  | some l =>
    have htaken : m.mutexes identifier = true := by rw [hmutexes, hlocked]; rfl
    simp only [htaken, Bool.not_true, Bool.false_eq_true, if_false]
    cases hmutexFails : fails .mutex with
    | true =>
      have hthrows : h.boost ⟨identifier, size, h.size k, ndebug, true, .openMutex k⟩
          (fails .mutex) =
          some (h.toNamedObjects, ⟨identifier, size, h.size k, ndebug, true, .threw none⟩) := by
        simp only [NamedObjects.boost, hlocked, hmutexFails, if_true]
        rfl
      exact .cons rfl rfl hthrows (.nil ⟨hshows, none, rfl⟩)
    | false =>
      have hopened : h.boost ⟨identifier, size, h.size k, ndebug, true, .openMutex k⟩
          (fails .mutex) = some (h.toNamedObjects, ⟨identifier, h.size k, h.size k, ndebug,
            ndebug || sizeofHeader < h.size k, .attached k l⟩) := by
        simp only [NamedObjects.boost, hlocked, hmutexFails, Bool.false_eq_true, if_false]
      refine .cons rfl rfl hopened (.nil ?_)
      simp only [Bool.false_eq_true, if_false]
      split_ifs with hassert
      · exact ⟨hshows, by simpa using hassert, rfl, .inr rfl, rfl, rfl⟩
      · exact ⟨hshows, by simpa using hassert⟩

/-- **Steps refine the constructor.** On any machine that other endpoints have come to, the calls of
Boost of one constructor with nothing in between, each of which throws if it is in `fails`, end as
the constructor does: it returns, with the same sizes and with a segment and a mutex if it has got
them, or it throws, or the process is aborted. The names that are left are those of the
constructor. -/
theorem create_of_run (hrun : run step fresh events = some h) (hshows : h.Shows m)
    (fails : BoostCall → Bool) (server : Bool) :
    ∃ bs o p, Boosts fails h.toNamedObjects (Party.construct server identifier dim ndebug) bs o p ∧
      run step h (.construct server identifier dim ndebug :: bs.map (.boost h.parties.length)) =
        some ⟨o, h.parties ++ [p]⟩ ∧
      (RealTimeIPC.create fails m identifier watchdog_decimation
        (if server then .SHMEM_SERVER else .SHMEM_CLIENT) dim ndebug).Agrees o p := by
  have hs := sound_of_run hrun
  obtain ⟨bs, o, p, hboosts, hagrees⟩ : Ends fails h.toNamedObjects
      (Party.construct server identifier dim ndebug)
      (RealTimeIPC.create fails m identifier watchdog_decimation
        (if server then .SHMEM_SERVER else .SHMEM_CLIENT) dim ndebug) := by
    cases server with
    | true => exact ends_server hs hshows fails
    | false => exact ends_client hshows fails
  exact ⟨bs, o, p, hboosts, run_cons_eq_some.mpr ⟨_, rfl, run_of_boosts hboosts⟩, hagrees⟩

/-- The server that has removed the segment of `raceForName` has not removed the mutex, and the next
server throws. -/
theorem create_of_run_race : ∃ (h : ConcurrentHost) (bs : List Bool) (o : NamedObjects) (p : Party)
    (k : Option ℕ), run step fresh raceForName = some h ∧
    run step h (.construct true "ipc" 8 false :: bs.map (.boost 3)) = some ⟨o, h.parties ++ [p]⟩ ∧
    p.phase = .threw k := by
  obtain ⟨bs, o, p, -, hrun, hagrees⟩ := @create_of_run ℚ _ _ _ "ipc" 1 8 false raceForName rfl
    (NamedObjects.shows_machine _) (fun _ => false) true
  obtain ⟨-, k, hphase⟩ := hagrees
  exact ⟨_, bs, o, p, k, rfl, hrun, hphase⟩

end ConcurrentHost

end RealtimeUtilities
