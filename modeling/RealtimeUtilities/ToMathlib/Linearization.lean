import RealtimeUtilities.ToMathlib.Routine

/-!
# Interleavings that could have run one call at a time

A routine that reads the shared state once and then writes it at most once is undivided, as far as
anybody can tell, if its write finds what its read has found (`UpToDate`). Then an interleaving of
such routines can be run one call at a time, each without interruption, in the order in which the
calls ended.

`Linearizes body s w order` says that running the calls `order` one after the other from the shared
state `s` gives the results and the shared state of `w`. The order of an interleaving extends the
orders of its prefixes (`exists_linearization`), so that a call that ended before another one was
made comes first.
-/

namespace Routine

variable {S L F R : Type}

/-- The end of a routine, nothing if it has accesses left. -/
def result? : Routine S F R → Option (Except F R)
  | done r => some (.ok r)
  | abort f => some (.error f)
  | read _ | write _ _ => none

/-- The routine reads once, and then writes at most once. -/
def Brief (p : Routine S F R) : Prop :=
  p.isEnded = true ∨ ∃ k, p = .read k ∧ ∀ s, (k s).isEnded = true ∨ ∃ g r, k s = .write g (.done r)

theorem isEnded_iff_result? {p : Routine S F R} : p.isEnded = true ↔ ∃ r, p.result? = some r := by
  cases p with
  | done r | abort f => simp [isEnded, result?]
  | read k => simp [isEnded, result?]
  | write g k => simp [isEnded, result?]

theorem eq_done_of_result? {p : Routine S F R} {r : R} (h : p.result? = some (.ok r)) :
    p = .done r := by
  cases p with
  | done r' => rw [Except.ok.inj (Option.some.inj h)]
  | abort f => cases Option.some.inj h
  | read k | write g k => cases h

/-- Only a routine that has not ended accesses anything. -/
theorem isEnded_of_access {p : Routine S F R} {s : S} {x : Routine S F R × S}
    (h : p.access s = some x) : p.isEnded = false := by
  refine Bool.eq_false_iff.mpr fun hended => ?_
  rw [access_of_isEnded hended] at h
  cases h

/-- A routine that ended runs no further. -/
theorem exec_of_result? {p : Routine S F R} {r : Except F R} (h : p.result? = some r) (s : S) :
    p.exec s = (r, s) := by
  cases p with
  | done r' | abort f => rw [← Option.some.inj h]; rfl
  | read k => cases h
  | write g k => cases h

/-- The first access of a brief routine is a read, after which the routine goes on as before. -/
theorem Brief.start {p : Routine S F R} (h : p.Brief) (s : S) :
    (p.start s).2 = s ∧ (p.start s).1.exec s = p.exec s := by
  rcases h with hended | ⟨k, rfl, -⟩
  · rw [Routine.start, access_of_isEnded hended]
    exact ⟨rfl, rfl⟩
  · exact ⟨rfl, rfl⟩

/-- The second access of a brief routine is its write, and the routine has ended then. -/
theorem Brief.access {p q : Routine S F R} {s s₁ t : S} (h : p.Brief)
    (haccess : (p.start s₁).1.access s = some (q, t)) :
    ∃ r, q.result? = some r ∧ (p.start s₁).1.exec s = (r, t) := by
  rcases h with hended | ⟨k, rfl, hk⟩
  · rw [Routine.start, access_of_isEnded hended] at haccess
    exact absurd haccess (by rw [Option.getD_none, access_of_isEnded hended]; simp)
  · rcases hk s₁ with hended | ⟨g, r, hg⟩
    · have hnone := access_of_isEnded hended s
      rw [show ((read k).start s₁).1 = k s₁ from rfl, hnone] at haccess
      cases haccess
    · rw [show ((read k).start s₁).1 = k s₁ from rfl, hg] at haccess ⊢
      obtain ⟨rfl, rfl⟩ := Prod.mk.inj (Option.some.inj haccess)
      exact ⟨.ok r, rfl, rfl⟩

namespace Threads

open Execution

variable {body : L → Routine S F R} {s : S} {w w' : Threads S L F R} {m : Move L}
  {ms : List (Move L)} {order : List (ℕ × L)}

theorem Snapshots.brief {P φ : Type} {V : φ → Type} {view : S → P} {field : (f : φ) → P → V f}
    {own : φ → Prop} {p : Routine S F R} (h : Snapshots view field own p) : p.Brief := by
  refine h.imp_right ?_
  rintro ⟨k, rfl, hk⟩
  refine ⟨k, rfl, fun s => (hk s).imp_right ?_⟩
  rintro ⟨v, ⟨g, r, hg, -⟩, -⟩
  exact ⟨g, r, hg⟩

/-- The shared state after the calls `ls`, run one after the other. -/
def serial (body : L → Routine S F R) (s : S) (ls : List L) : S :=
  ls.foldl (fun s l => ((body l).exec s).2) s

theorem serial_concat (ls : List L) (l : L) :
    serial body s (ls ++ [l]) = ((body l).exec (serial body s ls)).2 := by
  simp [serial]

/-- An access runs while the first access of its call would find what it has found. -/
def UpToDate (body : L → Routine S F R) (w : Threads S L F R) : Move L → Prop
  | .call _ => True
  | .access c => ∀ l p, w.calls[c]? = some (l, p) → p.isEnded = false →
      p = ((body l).start w.shared).1

/-- The calls of `order`, run one after the other from `s`, are the calls of `w` that ended, with
their results, and leave its shared state. -/
structure Linearizes (body : L → Routine S F R) (s : S) (w : Threads S L F R)
    (order : List (ℕ × L)) : Prop where
  nodup : (order.map Prod.fst).Nodup
  mem_iff : ∀ c l, (c, l) ∈ order ↔ ∃ q, w.calls[c]? = some (l, q) ∧ q.isEnded = true
  shared : w.shared = serial body s (order.map Prod.snd)
  result : ∀ pre c l post, order = pre ++ (c, l) :: post → ∃ q, w.calls[c]? = some (l, q) ∧
    q.result? = some ((body l).exec (serial body s (pre.map Prod.snd))).1

theorem linearizes_init : Linearizes body s ⟨s, []⟩ [] where
  nodup := List.nodup_nil
  mem_iff := by simp
  shared := rfl
  result := by simp

/-- A step in which no call ends and nothing is written. -/
theorem Linearizes.of_frame (h : Linearizes body s w order) (hshared : w'.shared = w.shared)
    (hcalls : ∀ (c : ℕ) l q, q.isEnded = true →
      (w'.calls[c]? = some (l, q) ↔ w.calls[c]? = some (l, q))) :
    Linearizes body s w' order where
  nodup := h.nodup
  mem_iff c l := by
    rw [h.mem_iff]
    exact exists_congr fun q => and_congr_left fun hq => (hcalls c l q hq).symm
  shared := hshared.trans h.shared
  result pre c l post hsplit := by
    obtain ⟨q, hc, hq⟩ := h.result pre c l post hsplit
    exact ⟨q, (hcalls c l q (isEnded_iff_result?.mpr ⟨_, hq⟩)).mpr hc, hq⟩

/-- A step in which the call `c` ends, with the result and the shared state of an uninterrupted
run. -/
theorem Linearizes.concat {c : ℕ} {l : L} {q : Routine S F R} {r : Except F R}
    (h : Linearizes body s w order) (hnew : ∀ l' q', w.calls[c]? = some (l', q') →
      q'.isEnded = false) (hc : w'.calls[c]? = some (l, q)) (hq : q.result? = some r)
    (hexec : (body l).exec w.shared = (r, w'.shared))
    (hcalls : ∀ (c' : ℕ) l' q', c' ≠ c → q'.isEnded = true →
      (w'.calls[c']? = some (l', q') ↔ w.calls[c']? = some (l', q'))) :
    Linearizes body s w' (order ++ [(c, l)]) := by
  have hnot : ∀ l', (c, l') ∉ order := fun l' hmem => by
    obtain ⟨q', hc', hq'⟩ := (h.mem_iff c l').mp hmem
    exact Bool.noConfusion ((hnew l' q' hc').symm.trans hq')
  refine ⟨?_, fun c' l' => ?_, ?_, fun pre c' l' post hsplit => ?_⟩
  · rw [List.map_append, List.nodup_append]
    refine ⟨h.nodup, by simp, ?_⟩
    rintro a ha b hb rfl
    obtain rfl : a = c := by simpa using hb
    obtain ⟨⟨a', l'⟩, hmem, rfl⟩ := List.mem_map.mp ha
    exact hnot l' hmem
  · rw [List.mem_append, List.mem_singleton, Prod.mk.injEq]
    by_cases hcc : c' = c
    · subst hcc
      simp only [hnot, false_or, true_and]
      constructor
      · rintro rfl
        exact ⟨q, hc, isEnded_iff_result?.mpr ⟨r, hq⟩⟩
      · rintro ⟨q', hc', -⟩
        exact (Prod.mk.inj (Option.some.inj (hc'.symm.trans hc))).1
    · simp only [hcc, false_and, or_false, h.mem_iff]
      exact exists_congr fun q' => and_congr_left fun hq' => (hcalls c' l' q' hcc hq').symm
  · rw [List.map_append, List.map_singleton, serial_concat, ← h.shared, hexec]
  · rcases List.concat_eq_append_cons hsplit with ⟨-, rfl, heq⟩ | ⟨post', -, hpre⟩
    · obtain ⟨rfl, rfl⟩ := Prod.mk.inj heq
      refine ⟨q, hc, ?_⟩
      rw [← h.shared, hexec, hq]
    · obtain ⟨q', hc', hq'⟩ := h.result pre c' l' post' hpre
      have hne : c' ≠ c := by
        rintro rfl
        exact hnot l' (by simp [hpre])
      exact ⟨q', (hcalls c' l' q' hne (isEnded_iff_result?.mpr ⟨_, hq'⟩)).mpr hc', hq'⟩

/-- One step extends the order by the call that ends in it, if one does. -/
theorem Linearizes.step (hbody : ∀ l, (body l).Brief) (h : Linearizes body s w order)
    (hdate : UpToDate body w m) (hstep : step body w m = some w') :
    ∃ order', order <+: order' ∧ Linearizes body s w' order' := by
  cases m with
  | call l =>
    obtain rfl := Option.some.inj hstep
    obtain ⟨hshared, hexec⟩ := (hbody l).start w.shared
    have hold : ∀ {c : ℕ} {x}, w.calls[c]? = some x →
        (w.calls ++ [(l, ((body l).start w.shared).1)])[c]? = some x :=
      List.getElem?_concat_of_some
    by_cases hended : ((body l).start w.shared).1.isEnded = true
    · -- the call ended with its first access
      obtain ⟨r, hr⟩ := isEnded_iff_result?.mp hended
      refine ⟨order ++ [(w.calls.length, l)], List.prefix_append _ _,
        h.concat (fun l' q' hc => ?_) List.getElem?_concat_length hr ?_ fun c' l' q' hne _ => ?_⟩
      · simp at hc
      · rw [← hexec, exec_of_result? hr, hshared]
      · exact ⟨fun hc => (List.getElem?_concat_cases hc).resolve_right fun hlast => hne hlast.1,
          hold⟩
    · refine ⟨order, List.prefix_rfl, h.of_frame hshared fun c l' q hq => ⟨fun hc => ?_, hold⟩⟩
      refine (List.getElem?_concat_cases hc).resolve_right fun hlast => hended ?_
      rw [← (Prod.mk.inj hlast.2).2]
      exact hq
  | access c =>
    obtain ⟨l, p, q, t, hc, hp, rfl⟩ := step_access hstep
    have hpending := isEnded_of_access hp
    obtain rfl := hdate l p hc hpending
    obtain ⟨r, hr, hexec⟩ := (hbody l).access hp
    rw [((hbody l).start w.shared).2] at hexec
    refine ⟨order ++ [(c, l)], List.prefix_append _ _,
      h.concat (fun l' q' hc' => ?_) ?_ hr hexec fun c' l' q' hne _ => ?_⟩
    · obtain ⟨rfl, rfl⟩ := Prod.mk.inj (Option.some.inj (hc.symm.trans hc'))
      exact hpending
    · rw [List.getElem?_set_self (List.getElem?_eq_some_iff.mp hc).1]
    · rw [List.getElem?_set_ne (Ne.symm hne)]

/-- **Up-to-date interleavings are linearizable.** If every write finds what the read of its call
has found, the calls could have run one at a time, in an order that extends the orders of all
prefixes. -/
theorem exists_linearization (hbody : ∀ l, (body l).Brief)
    (halong : Along (Threads.step body) (UpToDate body) ⟨s, []⟩ ms)
    (hrun : run (Threads.step body) ⟨s, []⟩ ms = some w) :
    ∃ order, Linearizes body s w order ∧ ∀ pre post w₁, ms = pre ++ post →
      run (Threads.step body) ⟨s, []⟩ pre = some w₁ →
      ∃ order₁, order₁ <+: order ∧ Linearizes body s w₁ order₁ := by
  induction ms using List.reverseRecOn generalizing w with
  | nil =>
    obtain rfl := Option.some.inj hrun
    refine ⟨[], linearizes_init, fun pre post w₁ hsplit hpre => ?_⟩
    obtain ⟨rfl, rfl⟩ := List.append_eq_nil_iff.mp hsplit.symm
    obtain rfl := Option.some.inj hpre
    exact ⟨[], List.prefix_rfl, linearizes_init⟩
  | append_singleton ms m ih =>
    obtain ⟨t, ht, hlast⟩ := run_concat_eq_some.mp hrun
    obtain ⟨hbefore, hdate, -⟩ := (along_append ht).mp halong
    obtain ⟨order, horder, hprefixes⟩ := ih hbefore ht
    obtain ⟨order', hprefix, horder'⟩ := horder.step hbody hdate hlast
    refine ⟨order', horder', fun pre post w₁ hsplit hpre => ?_⟩
    rcases List.eq_nil_or_concat post with rfl | ⟨post', m', rfl⟩
    · rw [List.append_nil] at hsplit
      obtain rfl := Option.some.inj ((hsplit ▸ hrun).symm.trans hpre)
      exact ⟨order', List.prefix_rfl, horder'⟩
    · rw [List.concat_eq_append, ← List.append_assoc] at hsplit
      obtain ⟨hms, -⟩ := List.append_inj' hsplit rfl
      obtain ⟨order₁, hprefix₁, horder₁⟩ := hprefixes pre post' w₁ hms hpre
      exact ⟨order₁, hprefix₁.trans hprefix, horder₁⟩

/-! ## When writes are up to date -/

/-- Every pending call has a snapshot of the current state. -/
def Current (body : L → Routine S F R) (w : Threads S L F R) : Prop :=
  ∀ (c : ℕ) l p, w.calls[c]? = some (l, p) → p.isEnded = true ∨ p = ((body l).start w.shared).1

theorem current_step (hbody : ∀ l, (body l).Brief) (h : Current body w) (hm : Solo w m)
    (hstep : step body w m = some w') : Current body w' := by
  intro c' l' p' hc'
  cases m with
  | call l =>
    obtain rfl := Option.some.inj hstep
    obtain ⟨hshared, -⟩ := (hbody l).start w.shared
    show p'.isEnded = true ∨ p' = ((body l').start ((body l).start w.shared).2).1
    rw [hshared]
    rcases List.getElem?_concat_cases hc' with hc' | ⟨-, hq⟩
    · exact h c' l' p' hc'
    · obtain ⟨rfl, rfl⟩ := Prod.mk.inj hq
      exact .inr rfl
  | access c =>
    obtain ⟨l, p, q, t, hc, hp, rfl⟩ := step_access hstep
    rcases List.getElem?_set_cases hc' with ⟨rfl, hq⟩ | ⟨hne, hc'⟩
    · -- the call that moved was current, so it has ended
      obtain ⟨rfl, rfl⟩ := Prod.mk.inj hq
      rcases h c' l' p hc with hended | rfl
      · rw [access_of_isEnded hended] at hp
        cases hp
      · obtain ⟨r, hr, -⟩ := (hbody l').access hp
        exact .inl (isEnded_iff_result?.mpr ⟨r, hr⟩)
    · exact .inl (hm.isEnded hne hc')

/-- Writes are up to date, if nobody is between a read and a write but the call that writes. -/
theorem upToDate_of_solo (hbody : ∀ l, (body l).Brief)
    (halong : Along (Threads.step body) Solo ⟨s, []⟩ ms) :
    Along (Threads.step body) (UpToDate body) ⟨s, []⟩ ms := by
  refine along_of_prefix fun pre m post w hms hpre => ?_
  subst hms
  have hcurrent : Current body w := run_invariant_along (Current body)
    (fun _ _ _ hI hm hs => current_step hbody hI hm hs) (by simp [Current])
    ((along_append hpre).mp halong).1 hpre
  cases m with
  | call l => trivial
  | access c =>
    intro l p hc hpending
    exact (hcurrent c l p hc).resolve_left (by simp [hpending])

end Threads

end Routine
