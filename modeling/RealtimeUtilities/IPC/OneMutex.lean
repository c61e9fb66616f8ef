import RealtimeUtilities.IPC.Concurrent

/-!
# One mutex for each segment

A client opens the segment and the mutex of its name one after the other, and the destructor of a
server removes them one after the other. If the destructor comes between the two openings, and the
next server creates its mutex before the second of them, then the client locks the mutex of the next
server, and the others that work with the segment lock that of the first one.

## Main definitions

* `Calm`: no living client is between its openings while a living server of the name is between its
  removals.

## Main results

* `one_mutex`: where that never happens, all endpoints that work with a segment lock one mutex.
-/

namespace RealtimeUtilities

open Execution

namespace ConcurrentHost

/-- No living client has opened the segment and not the mutex of a name, while a living server has
removed the segment and not the mutex. -/
def Calm (h : ConcurrentHost) : Prop :=
  ∀ p ∈ h.parties, ∀ q ∈ h.parties, p.alive = true → q.alive = true → p.name_ = q.name_ →
    p.phase.opening = none ∨ q.phase.removing = false

instance (h : ConcurrentHost) : Decidable h.Calm :=
  inferInstanceAs (Decidable (∀ p ∈ h.parties, _))

/-- The name stands for the segment that a living client has opened, until it has the mutex. -/
def Opening (h : ConcurrentHost) : Prop :=
  ∀ (i : ℕ) p k, h.parties[i]? = some p → p.alive = true → p.phase.opening = some k →
    h.names p.name_ = some k

/-- The mutex `m` of the name is that of a server that has died, or whose destructor has returned
without removing it. Nobody removes it. -/
def Stale (h : ConcurrentHost) (name : String) (m : ℕ) : Prop :=
  ∃ (i : ℕ) (r : Party), h.parties[i]? = some r ∧ r.name_ = name ∧
    (r.alive = false ∨ r.phase.leaves = true) ∧ r.phase.locked = some m

/-- No mutex has the name of a segment whose server has removed the mutex and not the segment. -/
def Single (h : ConcurrentHost) : Prop :=
  ∀ (i : ℕ) p k m, h.parties[i]? = some p → p.phase.named = some k → p.phase.madeMutex = some m →
    p.phase.locked = none → h.mutexNames p.name_ = none

/-- The segment `k` and the mutex `m` are those of one server of the name. If the server of the
segment has got no mutex, then the mutex is stale. -/
def Pair (h : ConcurrentHost) (name : String) (k m : ℕ) : Prop :=
  ∃ (j : ℕ) (q : Party), h.parties[j]? = some q ∧ q.name_ = name ∧ q.phase.made = some k ∧
    (q.phase.madeMutex = some m ∨ (q.phase.madeMutex = none ∧ h.Stale name m))

/-- Every endpoint works with a pair. -/
def Paired (h : ConcurrentHost) : Prop :=
  ∀ (i : ℕ) p k m, h.parties[i]? = some p → p.phase.works = some (k, m) → h.Pair p.name_ k m

variable {h h' : ConcurrentHost} {i j k m : ℕ} {p q : Party} {name : String}

theorem Stale.does (hstale : h.Stale name m) (hdoes : Does h h') : h'.Stale name m := by
  obtain ⟨i, r, hi, rfl, hdone, hlocked⟩ := hstale
  -- whoever has died does nothing any more, and after its destructor a server can only die
  have hset : ∀ {j : ℕ} {q q' : Party} {o : NamedObjects}, h.parties[j]? = some q →
      q.alive = true → (q.phase.leaves = true → q'.name_ = q.name_ ∧ q'.phase.leaves = true ∧
        q'.phase.locked = q.phase.locked) → Stale ⟨o, h.parties.set j q'⟩ r.name_ m := by
    intro j q q' o hj halive hq
    refine ⟨i, _, List.getElem?_set_of_some hi, ?_⟩
    split_ifs with hij
    · subst hij
      obtain rfl := Option.some.inj (hj.symm.trans hi)
      obtain ⟨hname, hleaves, hsame⟩ := hq (hdone.resolve_left (by simp [halive]))
      exact ⟨hname, .inr hleaves, hsame.trans hlocked⟩
    · exact ⟨rfl, hdone, hlocked⟩
  cases hdoes with
  | construct => exact ⟨i, r, List.getElem?_concat_of_some hi, rfl, hdone, hlocked⟩
  | goesOn hj hgoes =>
    exact hset hj hgoes.alive fun hq => ⟨hgoes.name, hgoes.leaves hq, hgoes.locked⟩
  | createSegment hj halive hphase | truncate hj halive hphase | createMutex hj halive hphase
  | openSegment hj halive hphase | openMutex hj halive hphase | removeSegment hj halive hphase
  | removeMutex hj halive hphase =>
    refine hset hj halive fun hq => ?_
    rw [hphase] at hq
    cases hq

theorem Stale.mutexNames (hstale : h.Stale name m) (hs : h.Sound) :
    h.mutexNames name = some m := by
  obtain ⟨i, r, hi, hname, -, hlocked⟩ := hstale
  exact hname ▸ hs.locks.named i r m hi hlocked

/-- A server without a mutex gets none while the name of the mutex is taken. -/
theorem Does.madeMutex_eq_none (hdoes : Does h h') (hj : h.parties[j]? = some q)
    (hnone : q.phase.madeMutex = none) (htaken : h.mutexNames q.name_ = some m) :
    ∃ q' : Party, h'.parties[j]? = some q' ∧ q'.phase.madeMutex = none := by
  have hset : ∀ {i : ℕ} {p p' : Party}, h.parties[i]? = some p →
      (i = j → p'.phase.madeMutex = none) →
      ∃ q' : Party, (h.parties.set i p')[j]? = some q' ∧ q'.phase.madeMutex = none := by
    intro i p p' hi hp'
    refine ⟨_, List.getElem?_set_of_some hj, ?_⟩
    split_ifs with hji
    · exact hp' hji.symm
    · exact hnone
  have hsame : ∀ {i : ℕ} {p : Party}, h.parties[i]? = some p → i = j → p = q := by
    rintro i p hi rfl
    exact Option.some.inj (hi.symm.trans hj)
  cases hdoes with
  | construct server identifier dim ndebug =>
    exact ⟨q, List.getElem?_concat_of_some hj, hnone⟩
  | goesOn hi hgoes =>
    refine hset hi fun hij => ?_
    rw [hgoes.madeMutex, hsame hi hij, hnone]
  | createMutex hi _ _ hfree =>
    -- `create_only` throws
    refine hset hi fun hij => ?_
    rw [hsame hi hij, htaken] at hfree
    cases hfree
  | openMutex hi _ _ _ _ hphase' =>
    refine hset hi fun _ => ?_
    rw [hphase']
    rfl
  | createSegment hi | truncate hi | openSegment hi => exact hset hi fun _ => rfl
  | removeSegment hi _ hphase | removeMutex hi _ hphase =>
    refine hset hi fun hij => ?_
    rw [← hsame hi hij, hphase] at hnone
    cases hnone

theorem Pair.does (hpair : h.Pair name k m) (hs : h.Sound) (hdoes : Does h h') :
    h'.Pair name k m := by
  obtain ⟨j, q, hj, hname, hmade, hmutex⟩ := hpair
  obtain ⟨q', hj', hname', hmade', hmutex'⟩ := hdoes.party hj
  refine ⟨j, q', hj', hname'.trans hname, hmade' k hmade, hmutex.imp (hmutex' m) ?_⟩
  rintro ⟨hnone, hstale⟩
  obtain ⟨q'', hj'', hnone'⟩ := hdoes.madeMutex_eq_none hj hnone
    (hname.symm ▸ hstale.mutexNames hs)
  obtain rfl := Option.some.inj (hj'.symm.trans hj'')
  exact ⟨hnone', hstale.does hdoes⟩

/-- Two mutexes of one segment are one. -/
theorem Pair.unique {name' : String} {m' : ℕ} (hpair : h.Pair name k m) (hpair' : h.Pair name' k m')
    (hs : h.Sound) : m = m' ∧ name = name' := by
  obtain ⟨j, q, hj, rfl, hmade, hmutex⟩ := hpair
  obtain ⟨j', q', hj', rfl, hmade', hmutex'⟩ := hpair'
  obtain rfl := hs.segments.unique j j' q q' k hj hj' hmade hmade'
  obtain rfl := Option.some.inj (hj.symm.trans hj')
  refine ⟨?_, rfl⟩
  rcases hmutex with hmutex | ⟨hmutex, hstale⟩ <;>
    rcases hmutex' with hmutex' | ⟨hmutex', hstale'⟩ <;> rw [hmutex] at hmutex'
  · exact Option.some.inj hmutex'
  · cases hmutex'
  · cases hmutex'
  · exact Option.some.inj ((hstale.mutexNames hs).symm.trans (hstale'.mutexNames hs))

/-- A name stands for its segment until a living server has removed it. -/
theorem Does.names (hdoes : Does h h') (hname : h.names name = some k) :
    h'.names name = some k ∨ ∃ r ∈ h'.parties, r.alive = true ∧ r.name_ = name ∧
      r.phase.removing = true := by
  cases hdoes with
  | construct | goesOn | truncate | createMutex | openSegment | openMutex | removeMutex =>
    exact .inl hname
  | @createSegment i p hi _ _ hfree =>
    left
    show Function.update h.names p.name_ _ name = _
    rw [Function.update_of_ne, hname]
    rintro rfl
    rw [hfree] at hname
    cases hname
  | @removeSegment i k' m p hi halive hphase =>
    by_cases heq : name = p.name_
    · have hmem : p.setPhase (.removeMutex k' m false) ∈
          h.parties.set i (p.setPhase (.removeMutex k' m false)) :=
        List.mem_of_getElem? (List.getElem?_set_self (List.getElem?_eq_some_iff.mp hi).1)
      exact .inr ⟨_, hmem, halive, heq.symm, rfl⟩
    · left
      show Function.update h.names p.name_ none name = _
      rw [Function.update_of_ne heq, hname]

/-- A client between its openings was there before, or has opened the segment now. -/
theorem Does.opening (hdoes : Does h h') (hj : h'.parties[j]? = some q) (halive : q.alive = true)
    (hq : q.phase.opening = some k) :
    (∃ p : Party, h.parties[j]? = some p ∧ p.alive = true ∧ p.name_ = q.name_ ∧
      p.phase.opening = some k) ∨ h.names q.name_ = some k := by
  cases hdoes with
  | construct server identifier dim ndebug =>
    rcases List.getElem?_concat_cases hj with hj | ⟨-, rfl⟩
    · exact .inl ⟨q, hj, halive, rfl, hq⟩
    · rw [construct_eq_none Phase.opening rfl rfl rfl] at hq
      cases hq
  | goesOn hi hgoes =>
    rcases List.getElem?_set_cases hj with ⟨rfl, rfl⟩ | ⟨-, hj⟩
    · exact .inl ⟨_, hi, hgoes.alive, hgoes.name.symm, hgoes.opening k hq⟩
    · exact .inl ⟨q, hj, halive, rfl, hq⟩
  | openSegment hi _ _ hname =>
    rcases List.getElem?_set_cases hj with ⟨rfl, rfl⟩ | ⟨-, hj⟩
    · exact .inr (hname.trans hq)
    · exact .inl ⟨q, hj, halive, rfl, hq⟩
  | openMutex hi _ _ _ _ hphase' =>
    rcases List.getElem?_set_cases hj with ⟨rfl, rfl⟩ | ⟨-, hj⟩
    · rw [hphase'] at hq
      cases hq
    · exact .inl ⟨q, hj, halive, rfl, hq⟩
  | createSegment hi | truncate hi | createMutex hi | removeSegment hi | removeMutex hi =>
    rcases List.getElem?_set_cases hj with ⟨rfl, rfl⟩ | ⟨-, hj⟩
    · cases hq
    · exact .inl ⟨q, hj, halive, rfl, hq⟩

theorem Opening.does (ho : h.Opening) (hdoes : Does h h') (hcalm : h'.Calm) : h'.Opening := by
  intro j q k hj halive hq
  have hname : h.names q.name_ = some k := by
    rcases hdoes.opening hj halive hq with ⟨p, hi, hp, hname, hopening⟩ | hname
    · exact hname ▸ ho j p k hi hp hopening
    · exact hname
  -- the name is not removed now: that would not be calm
  refine (hdoes.names hname).resolve_right ?_
  rintro ⟨r, hr, hrlives, hrname, hremoving⟩
  rcases hcalm q (List.mem_of_getElem? hj) r hr halive hrlives hrname.symm with hnone | hnone
  · rw [hq] at hnone
    cases hnone
  · rw [hremoving] at hnone
    cases hnone

/-- A server that keeps its segment lets no other server create a mutex. -/
theorem Single.does (hsingle : h.Single) (hs : h.Sound) (hdoes : Does h h') : h'.Single := by
  intro j q k m hj hnamed hmutex hlocked
  -- whoever has done so now or before has no other server beside it
  have hset : ∀ {i : ℕ} {p p' : Party}, h.parties[i]? = some p → p'.name_ = p.name_ →
      p'.phase.named = p.phase.named → p'.phase.madeMutex = p.phase.madeMutex →
      p'.phase.locked = p.phase.locked → (h.parties.set i p')[j]? = some q →
      h.mutexNames q.name_ = none := by
    intro i p p' hi hname hnamed' hmutex' hlocked' hj
    rcases List.getElem?_set_cases hj with ⟨rfl, rfl⟩ | ⟨-, hj⟩
    · rw [hname]
      exact hsingle j p k m hi (hnamed' ▸ hnamed) (hmutex' ▸ hmutex) (hlocked' ▸ hlocked)
    · exact hsingle j q k m hj hnamed hmutex hlocked
  cases hdoes with
  | construct server identifier dim ndebug =>
    rcases List.getElem?_concat_cases hj with hj | ⟨-, rfl⟩
    · exact hsingle j q k m hj hnamed hmutex hlocked
    · rw [construct_eq_none Phase.named rfl rfl rfl] at hnamed
      cases hnamed
  | goesOn hi hgoes => exact hset hi hgoes.name hgoes.named hgoes.madeMutex hgoes.locked hj
  | createSegment hi | truncate hi | openSegment hi =>
    rcases List.getElem?_set_cases hj with ⟨rfl, rfl⟩ | ⟨-, hj⟩
    · cases hmutex
    · exact hsingle j q k m hj hnamed hmutex hlocked
  | removeSegment hi =>
    rcases List.getElem?_set_cases hj with ⟨rfl, rfl⟩ | ⟨-, hj⟩
    · cases hnamed
    · exact hsingle j q k m hj hnamed hmutex hlocked
  | openMutex hi _ _ _ hname' hphase' =>
    rcases List.getElem?_set_cases hj with ⟨rfl, rfl⟩ | ⟨-, hj⟩
    · rw [hphase'] at hmutex
      cases hmutex
    · exact hsingle j q k m hj hnamed hmutex hlocked
  | @createMutex i l p hi _ hphase =>
    rcases List.getElem?_set_cases hj with ⟨rfl, rfl⟩ | ⟨hji, hj⟩
    · cases hlocked
    · show Function.update h.mutexNames p.name_ _ q.name_ = none
      rw [Function.update_of_ne, hsingle j q k m hj hnamed hmutex hlocked]
      -- the segments of both would have one name
      intro hname
      exact hji (hs.segments.unique_name hj hi hnamed (congrArg Phase.named hphase) hname)
  | @removeMutex i l m' left p hi =>
    show Function.update h.mutexNames p.name_ none q.name_ = none
    rcases List.getElem?_set_cases hj with ⟨rfl, rfl⟩ | ⟨-, hj⟩
    · exact Function.update_self ..
    · rw [Function.update_apply, hsingle j q k m hj hnamed hmutex hlocked, ite_self]

/-- What the names stand for is a pair, except while a living server is between its removals. -/
theorem Sound.pair (hs : h.Sound) (hsingle : h.Single) (hname : h.names name = some k)
    (hlock : h.mutexNames name = some m)
    (hnone : ∀ r ∈ h.parties, r.alive = true → r.name_ = name → r.phase.removing = false) :
    h.Pair name k m := by
  obtain ⟨j, q, hj, rfl, hq⟩ := hs.segments.owner name k hname
  obtain ⟨i, r, hi, hrname, hr⟩ := hs.locks.owner q.name_ m hlock
  have hqphase : q.phase.named = some k := hq
  have hrphase : r.phase.locked = some m := hr
  refine ⟨j, q, hj, rfl, ConcurrentHost.segments.made_of_named hq, ?_⟩
  cases hmutex : q.phase.madeMutex with
  | some m' =>
    -- the server of the segment has a mutex, and has not removed it as there is one
    cases hlocked : q.phase.locked with
    | none =>
      have hfree := hsingle j q k m' hj hqphase hmutex hlocked
      rw [show q.name_ = ConcurrentHost.segments.name q from rfl, hlock] at hfree
      cases hfree
    | some l =>
      have hmade : q.phase.madeMutex = some l := ConcurrentHost.locks.made_of_named hlocked
      have hnamed : h.mutexNames q.name_ = some l := hs.locks.named j q l hj hlocked
      exact .inl (hmutex.symm.trans (hmade.trans (hnamed.symm.trans hlock)))
  | none =>
    -- then the mutex is that of a server that has removed its own segment
    have hother : r.phase.named = none := by
      by_contra hne
      obtain ⟨l, hl⟩ := Option.ne_none_iff_exists'.mp hne
      obtain rfl := hs.segments.unique_name hi hj hl hq hrname
      obtain rfl := Option.some.inj (hi.symm.trans hj)
      have hmade : r.phase.madeMutex = some m := ConcurrentHost.locks.made_of_named hr
      rw [hmade] at hmutex
      cases hmutex
    refine .inr ⟨rfl, i, r, hi, hrname, ?_, hrphase⟩
    cases hphase : r.phase <;> rw [hphase] at hrphase hother <;>
      dsimp only [Phase.named, Phase.locked] at hrphase hother
    case removeMutex l l' left =>
      left
      cases halive : r.alive with
      | false => rfl
      | true =>
        have hfalse := hnone r (List.mem_of_getElem? hi) halive hrname
        rw [hphase] at hfalse
        cases left <;> cases hfalse
        cases hother
    case removed l l' leftSegment leftMutex =>
      split_ifs at hrphase with hleft
      exact .inr hleft
    case serving | removeSegment => cases hother
    all_goals cases hrphase

theorem Paired.does (hpaired : h.Paired) (hs : h.Sound) (hsingle : h.Single) (ho : h.Opening)
    (hcalm : h.Calm) (hdoes : Does h h') : h'.Paired := by
  intro j q k m hj hq
  obtain ⟨p, hi, hname, hp | ⟨-, hmutex⟩ | ⟨halive, hphase, hlock⟩⟩ := hdoes.works hj hq
  · exact hname ▸ (hpaired j p k m hi hp).does hs hdoes
  · -- a server that has just created its mutex
    refine ⟨j, q, hj, rfl, ?_, .inl hmutex⟩
    cases hphase : q.phase <;> rw [hphase] at hq hmutex <;> cases hq
    · rfl
    · cases hmutex
  · -- a client whose segment still has the name, and that has just opened the mutex
    have hopening : p.phase.opening = some k := congrArg Phase.opening hphase
    refine Pair.does (hs.pair hsingle (hname ▸ ho j p k hi halive hopening) hlock
      fun r hr hrlives hrname => ?_) hs hdoes
    refine (hcalm p (List.mem_of_getElem? hi) r hr halive hrlives
      (hname.trans hrname.symm)).resolve_left ?_
    rw [hopening]
    nofun

variable {events : List ConcurrentEvent}

/-- **One mutex for each segment.** Constructors and destructors run in any interleaving, but no
living client is between its openings while a living server of the name is between its removals.
Then all endpoints that work with a segment lock one mutex, they have one name, and the server that
has created the segment has created this mutex, if it has created one. -/
theorem one_mutex (hrun : run step fresh events = some h)
    (hcalm : Along step (fun h _ => h.Calm) fresh events) (hi : h.parties[i]? = some p)
    (hp : p.phase.works = some (k, m)) :
    (∀ (j : ℕ) q m', h.parties[j]? = some q → q.phase.works = some (k, m') →
      m' = m ∧ q.name_ = p.name_) ∧
    ∀ (j : ℕ) q m', h.parties[j]? = some q → q.phase.made = some k →
      q.phase.madeMutex = some m' → m' = m := by
  obtain ⟨hs, -, hpaired, -⟩ : h.Sound ∧ h.Single ∧ h.Paired ∧ (h.Calm → h.Opening) := by
    refine run_invariant_along
      (fun h : ConcurrentHost => h.Sound ∧ h.Single ∧ h.Paired ∧ (h.Calm → h.Opening))
      (fun h e h' hI hcalm hstep => ?_) ⟨sound_fresh, ?_, ?_, fun _ => ?_⟩ hcalm hrun
    · -- what is open has its name only as far as the run was calm
      obtain ⟨hs, hsingle, hpaired, ho⟩ := hI
      have hdoes := does_of_step hstep
      exact ⟨hs.does hdoes, hsingle.does hs hdoes, hpaired.does hs hsingle (ho hcalm) hcalm hdoes,
        (ho hcalm).does hdoes⟩
    · simp [Single, fresh]
    · simp [Paired, fresh]
    · simp [Opening, fresh]
  have hpair := hpaired i p k m hi hp
  refine ⟨fun j q m' hj hq => (hpaired j q k m' hj hq).unique hpair hs,
    fun j q m' hj hmade hmutex => ?_⟩
  have hpair' : h.Pair q.name_ k m' := ⟨j, q, hj, rfl, hmade, .inl hmutex⟩
  exact (hpair'.unique hpair hs).1

/-- A server with two clients. -/
def twoClients : List ConcurrentEvent :=
  [.construct true "ipc" 8 false, .boost 0 false, .boost 0 false, .boost 0 false, .boost 0 false,
    .construct false "ipc" 8 false, .construct false "ipc" 8 false, .boost 1 false,
    .boost 2 false, .boost 1 false, .boost 2 false, .boost 1 false, .boost 2 false]

theorem one_mutex_two_clients : ∃ h, run step fresh twoClients = some h ∧
    ∀ (j : ℕ) q m, h.parties[j]? = some q → q.phase.works = some (0, m) →
      m = 0 ∧ q.name_ = "ipc" :=
  ⟨_, rfl, (@one_mutex _ 1 0 0 _ twoClients rfl (by decide +kernel) rfl rfl).1⟩

/-- The second client has not opened the mutex yet when the server removes it, and the next server
creates another one. -/
example : (run step fresh (twoClients.take 12 ++
      [.destruct 0, .boost 0 false, .boost 0 false, .construct true "ipc" 8 false, .boost 3 false,
        .boost 3 false, .boost 3 false, .boost 3 false, .boost 2 false])).map
      (fun h => h.parties.map fun p => p.phase.works) =
    some [none, some (0, 0), some (0, 1), some (1, 1)] := by
  rfl

end ConcurrentHost

end RealtimeUtilities
