import Mathlib.Data.List.Basic
import Mathlib.Logic.Function.Basic
import Mathlib.Order.Nat
import RealtimeUtilities.ToMathlib.Lists

/-!
# Names and handles

Objects are reached through names and through handles. A handle leads to the object that a name
stood for when the handle was taken. A name can be given to a new object, and the handles that were
taken under it before lead to the old object from then on, which has no name any more.

Seen from the names, a handle is one of a name or of nothing (`Directory`), and what is done through
a handle of nothing cannot be seen. `Refines` relates the two, up to what an entry says of its
object.

* `Refines.bind`, `Refines.take` and `Refines.modify`: the operations keep the relation.
-/

namespace Handles

variable {κ ο α : Type}

/-- Objects, numbered in the order in which they were made, with names and handles. A handle that
was taken under a name of nothing leads to nothing. -/
structure Store (κ ο : Type) where
  objects : List ο
  names : κ → Option ℕ
  handles : List (Option ℕ)

/-- What the names stand for, and the names that the handles are handles of. -/
structure Directory (κ α : Type) where
  entries : κ → Option α
  handles : List (Option κ)

namespace Store

/-- The name `k` is given to a new object. -/
def bind [DecidableEq κ] (s : Store κ ο) (k : κ) (x : ο) : Store κ ο where
  objects := s.objects ++ [x]
  names := Function.update s.names k (some s.objects.length)
  handles := s.handles

/-- A handle is taken under the name `k`. -/
def take (s : Store κ ο) (k : κ) : Store κ ο :=
  { s with handles := s.handles ++ [s.names k] }

/-- An operation on the object of the handle `i`. -/
def modify (s : Store κ ο) (i : ℕ) (f : ο → ο) : Option (Store κ ο) :=
  s.handles[i]?.join.bind fun o => s.objects[o]?.map fun x =>
    { s with objects := s.objects.set o (f x) }

end Store

namespace Directory

variable [DecidableEq κ]

/-- The handles of the name `k` become handles of nothing. -/
def bind (a : Directory κ α) (k : κ) (y : α) : Directory κ α where
  entries := Function.update a.entries k (some y)
  handles := a.handles.map fun h => if h = some k then none else h

omit [DecidableEq κ] in
def take (a : Directory κ α) (k : κ) : Directory κ α :=
  { a with handles := a.handles ++ [if (a.entries k).isSome then some k else none] }

def modify (a : Directory κ α) (i : ℕ) (g : α → α) : Directory κ α :=
  match a.handles[i]?.join with
  | some k => { a with entries := Function.update a.entries k ((a.entries k).map g) }
  | none => a

end Directory

/-- The entries describe the objects that have a name, and a handle is one of the name of its
object. -/
structure Refines (view : α → ο) (s : Store κ ο) (a : Directory κ α) : Prop where
  entries : ∀ k, (s.names k).bind (fun o => s.objects[o]?) = (a.entries k).map view
  named : ∀ k o, s.names k = some o → o < s.objects.length
  injective : ∀ k k' o, s.names k = some o → s.names k' = some o → k = k'
  handles : ∀ (i : ℕ) k, a.handles[i]?.join = some k ↔
    ∃ o, s.handles[i]?.join = some o ∧ s.names k = some o
  length : a.handles.length = s.handles.length
  taken : ∀ (i : ℕ) o, s.handles[i]?.join = some o → o < s.objects.length

variable {view : α → ο} {s s' : Store κ ο} {a : Directory κ α} {k : κ} {x : ο} {y : α}

/-- A name stands for something in both. -/
theorem Refines.isSome_names (h : Refines view s a) (k : κ) :
    (s.names k).isSome = (a.entries k).isSome := by
  have hentry := congrArg Option.isSome (h.entries k)
  rw [Option.isSome_map] at hentry
  rw [← hentry]
  cases hname : s.names k with
  | none => rfl
  | some o => simp [h.named k o hname]

section

variable [DecidableEq κ]

/-- The new object is none that a handle leads to. -/
theorem Refines.bind (h : Refines view s a) (hview : view y = x) :
    Refines view (s.bind k x) (a.bind k y) where
  entries k' := by
    by_cases hk : k' = k
    · subst hk
      simp [Store.bind, Directory.bind, hview]
    · simp only [Store.bind, Directory.bind, Function.update_of_ne hk, ← h.entries k']
      cases hname : s.names k' with
      | none => rfl
      | some o => simp [List.getElem?_append_left (h.named k' o hname)]
  named k' o hname := by
    simp only [Store.bind, List.length_append, List.length_singleton] at hname ⊢
    by_cases hk : k' = k
    · rw [hk, Function.update_self] at hname
      have := Option.some.inj hname
      omega
    · rw [Function.update_of_ne hk] at hname
      have := h.named k' o hname
      omega
  injective k₁ k₂ o hname₁ hname₂ := by
    simp only [Store.bind, Function.update_apply] at hname₁ hname₂
    split_ifs at hname₁ hname₂ with hk₁ hk₂ hk₂
    · exact hk₁.trans hk₂.symm
    · have := h.named k₂ o hname₂
      have := Option.some.inj hname₁
      omega
    · have := h.named k₁ o hname₁
      have := Option.some.inj hname₂
      omega
    · exact h.injective k₁ k₂ o hname₁ hname₂
  handles i k' := by
    have hdead : (a.bind k y).handles[i]?.join = some k' ↔
        a.handles[i]?.join = some k' ∧ k' ≠ k := by
      simp only [Directory.bind, List.getElem?_map]
      rcases a.handles[i]? with - | - | k''
      · simp
      · simp
      · simp only [Option.map_some, Option.some.injEq, Option.join_some]
        split_ifs with hk
        · simp only [false_iff, not_and, not_not, hk]
          exact Eq.symm
        · simp only [Option.some.injEq]
          refine ⟨?_, And.left⟩
          rintro rfl
          exact ⟨rfl, hk⟩
    rw [hdead, h.handles]
    simp only [Store.bind, Function.update_apply]
    constructor
    · rintro ⟨⟨o, htaken, hname⟩, hk⟩
      exact ⟨o, htaken, by rw [if_neg hk, hname]⟩
    · rintro ⟨o, htaken, hname⟩
      split_ifs at hname with hk
      · have := h.taken i o htaken
        have := Option.some.inj hname
        omega
      · exact ⟨⟨o, htaken, hname⟩, hk⟩
  length := by
    rw [Directory.bind, List.length_map]
    exact h.length
  taken i o htaken := by
    have := h.taken i o htaken
    simp only [Store.bind, List.length_append, List.length_singleton]
    omega

end

theorem Refines.take (h : Refines view s a) : Refines view (s.take k) (a.take k) where
  entries := h.entries
  named := h.named
  injective := h.injective
  handles i k' := by
    simp only [Store.take, Directory.take, List.join_getElem?_concat, h.length]
    split_ifs with hi hsome
    · -- the new handle
      rw [← h.isSome_names, Option.isSome_iff_exists] at hsome
      obtain ⟨o, hname⟩ := hsome
      simp only [Option.some.injEq, hname]
      constructor
      · rintro rfl
        exact ⟨o, rfl, hname⟩
      · rintro ⟨o', rfl, hname'⟩
        exact h.injective _ _ _ hname hname'
    · rw [← h.isSome_names, Option.not_isSome_iff_eq_none] at hsome
      simp [hsome]
    · exact h.handles i k'
  length := by
    rw [Store.take, Directory.take, List.length_append, List.length_append, h.length]
    rfl
  taken i o htaken := by
    simp only [Store.take, List.join_getElem?_concat] at htaken
    split_ifs at htaken with hi
    · exact h.named k o htaken
    · exact h.taken i o htaken

/-- What is done through a handle is done to the entry of its name, if it is one of a name. -/
theorem Refines.modify [DecidableEq κ] (h : Refines view s a) {i : ℕ} {f : ο → ο} {g : α → α}
    (hview : ∀ y, view (g y) = f (view y)) (hs' : s.modify i f = some s') :
    Refines view s' (a.modify i g) := by
  obtain ⟨o, htaken, hmodify⟩ := Option.bind_eq_some_iff.mp hs'
  obtain ⟨x, hx, rfl⟩ := Option.map_eq_some_iff.mp hmodify
  have hlt := h.taken i o htaken
  -- the other objects stay
  have hother : ∀ k', s.names k' ≠ some o →
      (s.names k').bind (fun o' => (s.objects.set o (f x))[o']?) = (a.entries k').map view := by
    intro k' hne
    rw [← h.entries k']
    cases hname : s.names k' with
    | none => rfl
    | some o' =>
      have ho : o ≠ o' := fun heq => hne (hname.trans (by rw [heq]))
      simp [List.getElem?_set_ne ho]
  have hframe : ∀ {entries : κ → Option α},
      (∀ k, (s.names k).bind (fun o' => (s.objects.set o (f x))[o']?) = (entries k).map view) →
      Refines view { s with objects := s.objects.set o (f x) } { a with entries } := by
    intro entries hentries
    refine ⟨hentries, ?_, h.injective, h.handles, h.length, ?_⟩
    · simpa only [List.length_set] using h.named
    · simpa only [List.length_set] using h.taken
  cases hhandle : a.handles[i]?.join with
  | none =>
    rw [Directory.modify, hhandle]
    refine hframe fun k' => hother k' fun hname => ?_
    -- the object has no name
    have := (h.handles i k').mpr ⟨o, htaken, hname⟩
    rw [hhandle] at this
    cases this
  | some k =>
    rw [Directory.modify, hhandle]
    obtain ⟨o', htaken', hname⟩ := (h.handles i k).mp hhandle
    obtain rfl := Option.some.inj (htaken.symm.trans htaken')
    refine hframe fun k' => ?_
    by_cases hk : k' = k
    · subst hk
      have hentry := h.entries k'
      rw [hname, Option.bind_some, hx] at hentry
      obtain ⟨y, hy, rfl⟩ := Option.map_eq_some_iff.mp hentry.symm
      simp [hname, hlt, hy, hview]
    · rw [Function.update_of_ne hk]
      exact hother k' fun hname' => hk (h.injective k' k o hname' hname)

end Handles
