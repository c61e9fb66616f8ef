import Mathlib.Data.List.Induction
import Mathlib.Data.Option.Basic
import RealtimeUtilities.ToMathlib.Lists

/-!
# Executions of a partial step function

A system is a step function `step : σ → ε → Option σ`. An event `ε` names the
choice a scheduler or a client makes, `none` says that the event is not enabled,
and an execution is a list of events.

* `run step s es` is the state after `es`, if every event was enabled;
* `Along step C s es` says that every step of the execution meets the condition
  `C`, which reads the state before the step and its event;
* `run_invariant` and `run_invariant_along` carry an invariant from one step to a
  whole execution, the second one only for steps that meet a condition;
* `exists_step_of_log` finds the step that appended an entry to a log;
* `run_simulation` carries a relation to the states of another system, which follows
  every event, and `run_refines` to one that does some of the events;
* `run_cost_le` bounds the cost of an execution by a potential that its steps use up, and
  `exists_run_of_measure` finds an execution to a goal;
* `along_of_prefix` turns a property of the state after every prefix into a
  condition that holds along the execution, and `along_iff_prefix` says when they
  are the same;
* `along_iff_end` does so for a property of the state at the end that does not come
  back once it is lost.
-/

namespace Execution

variable {σ ε : Type} {step : σ → ε → Option σ} {s s' : σ} {e : ε} {es es' : List ε}

/-- The state after the events `es`, or `none` if one of them was not enabled. -/
def run (step : σ → ε → Option σ) (s : σ) (es : List ε) : Option σ :=
  es.foldlM step s

@[simp]
theorem run_nil (s : σ) : run step s [] = some s := rfl

@[simp]
theorem run_cons (s : σ) (e : ε) (es : List ε) :
    run step s (e :: es) = (step s e).bind fun s' => run step s' es := rfl

theorem run_append (s : σ) (es es' : List ε) :
    run step s (es ++ es') = (run step s es).bind fun s' => run step s' es' := by
  simp [run, List.foldlM_append, Option.bind_eq_bind]

/-- An execution of `es ++ es'` passes through the state after `es`. -/
theorem run_append_eq_some :
    run step s (es ++ es') = some s' ↔
      ∃ t, run step s es = some t ∧ run step t es' = some s' := by
  rw [run_append, Option.bind_eq_some_iff]

/-- An execution of `e :: es` starts with the step `e`. -/
theorem run_cons_eq_some :
    run step s (e :: es) = some s' ↔ ∃ t, step s e = some t ∧ run step t es = some s' := by
  rw [run_cons, Option.bind_eq_some_iff]

/-- An execution can be extended by one enabled step. -/
theorem run_concat_eq_some :
    run step s (es ++ [e]) = some s' ↔
      ∃ t, run step s es = some t ∧ step t e = some s' := by
  simp [run_append_eq_some]

/-- An invariant that every step keeps holds after every execution. -/
theorem run_invariant (I : σ → Prop)
    (hstep : ∀ s e s', I s → step s e = some s' → I s')
    (hinit : I s) (hrun : run step s es = some s') : I s' := by
  induction es generalizing s with
  | nil => simpa [run] using Option.some.inj hrun ▸ hinit
  | cons e es ih =>
    obtain ⟨t, ht, hrest⟩ := run_cons_eq_some.mp hrun
    exact ih (hstep s e t hinit ht) hrest

/-- If every step costs as much potential as it does not give back, the cost of an execution is
bounded by the potential at its start and what its steps gave back. -/
theorem run_cost_le (potential : σ → ℕ) (cost gain : ε → ℕ)
    (hstep : ∀ s e s', e ∈ es → step s e = some s' →
      potential s' + cost e ≤ potential s + gain e)
    (hrun : run step s es = some s') :
    potential s' + (es.map cost).sum ≤ potential s + (es.map gain).sum := by
  induction es generalizing s with
  | nil =>
    obtain rfl := Option.some.inj hrun
    simp
  | cons e es ih =>
    obtain ⟨t, ht, hrest⟩ := run_cons_eq_some.mp hrun
    have hfirst := hstep s e t List.mem_cons_self ht
    have hlater := ih (fun s e s' he => hstep s e s' (List.mem_cons_of_mem _ he)) hrest
    simp only [List.map_cons, List.sum_cons]
    omega

/-- If every state short of the goal has a step that keeps an invariant and lowers a measure, some
execution of such steps comes to the goal. -/
theorem exists_run_of_measure (measure : σ → ℕ) (I goal : σ → Prop) (P : ε → Prop)
    (hstep : ∀ s, I s → ¬ goal s → ∃ e s', P e ∧ step s e = some s' ∧ I s' ∧ measure s' < measure s)
    (hinit : I s) : ∃ es s', (∀ e ∈ es, P e) ∧ run step s es = some s' ∧ I s' ∧ goal s' := by
  induction hn : measure s using Nat.strongRecOn generalizing s with
  | ind n ih =>
    by_cases hgoal : goal s
    · exact ⟨[], s, by simp, rfl, hinit, hgoal⟩
    · obtain ⟨e, t, he, ht, hI, hlt⟩ := hstep s hinit hgoal
      obtain ⟨es, s', hes, hrun, hdone⟩ := ih _ (hn ▸ hlt) hI rfl
      refine ⟨e :: es, s', ?_, run_cons_eq_some.mpr ⟨t, ht, hrun⟩, hdone⟩
      rintro e' (_ | ⟨_, he'⟩)
      · exact he
      · exact hes e' he'

/-- Every step of the execution meets `C`, read at the state before the step. -/
def Along (step : σ → ε → Option σ) (C : σ → ε → Prop) : σ → List ε → Prop
  | _, [] => True
  | s, e :: es => C s e ∧ ∀ s', step s e = some s' → Along step C s' es

variable {C D : σ → ε → Prop}

/-- Along a given execution a decidable condition can be tested. -/
instance Along.decidable [∀ s e, Decidable (C s e)] :
    (s : σ) → (es : List ε) → Decidable (Along step C s es)
  | _, [] => .isTrue trivial
  | s, e :: es =>
    have : Decidable (∀ s', step s e = some s' → Along step C s' es) :=
      match step s e with
      | none => .isTrue nofun
      | some t =>
        have := Along.decidable t es
        decidable_of_iff (Along step C t es) (by simp)
    inferInstanceAs (Decidable (C s e ∧ ∀ s', step s e = some s' → Along step C s' es))

@[simp]
theorem along_nil (s : σ) : Along step C s [] := trivial

theorem along_append (hrun : run step s es = some s') :
    Along step C s (es ++ es') ↔ Along step C s es ∧ Along step C s' es' := by
  induction es generalizing s with
  | nil =>
    obtain rfl := Option.some.inj hrun
    simp
  | cons e es ih =>
    obtain ⟨t, ht, hrest⟩ := run_cons_eq_some.mp hrun
    simp [Along, ht, ih hrest, and_assoc]

/-- A condition on the events alone holds along every execution of events that meet it. -/
theorem along_of_forall_mem {P : ε → Prop} (h : ∀ e ∈ es, P e) :
    Along step (fun _ e => P e) s es := by
  induction es generalizing s with
  | nil => trivial
  | cons e es ih =>
    exact ⟨h e (by simp), fun s' _ => ih fun e' he' => h e' (by simp [he'])⟩

/-- A condition along an execution may be weakened. -/
theorem Along.imp (himp : ∀ s e, C s e → D s e) (h : Along step C s es) :
    Along step D s es := by
  induction es generalizing s with
  | nil => trivial
  | cons e es ih => exact ⟨himp s e h.1, fun s' hs' => ih (h.2 s' hs')⟩

/-- Two conditions that hold along an execution hold along it together. -/
theorem Along.and (h : Along step C s es) (h' : Along step D s es) :
    Along step (fun s e => C s e ∧ D s e) s es := by
  induction es generalizing s with
  | nil => trivial
  | cons e es ih => exact ⟨⟨h.1, h'.1⟩, fun s' hs' => ih (h.2 s' hs') (h'.2 s' hs')⟩

/-- An invariant that every step meeting `C` keeps holds after every execution whose
steps all meet `C`. -/
theorem run_invariant_along (I : σ → Prop)
    (hstep : ∀ s e s', I s → C s e → step s e = some s' → I s')
    (hinit : I s) (halong : Along step C s es) (hrun : run step s es = some s') : I s' := by
  induction es generalizing s with
  | nil => simpa [run] using Option.some.inj hrun ▸ hinit
  | cons e es ih =>
    obtain ⟨t, ht, hrest⟩ := run_cons_eq_some.mp hrun
    exact ih (hstep s e t hinit halong.1 ht) (halong.2 t ht) hrest

/-- If no prefix of the execution leads to a step that fails `C`, then `C` holds along
the execution. -/
theorem along_of_prefix
    (h : ∀ pre e post t, es = pre ++ e :: post → run step s pre = some t → C t e) :
    Along step C s es := by
  induction es generalizing s with
  | nil => trivial
  | cons e es ih =>
    refine ⟨h [] e es s rfl rfl, fun s' hs' => ih fun pre e' post t hes ht => ?_⟩
    exact h (e :: pre) e' post t (by simp [hes]) (run_cons_eq_some.mpr ⟨s', hs', ht⟩)

/-- If `C` is what a step has to meet to keep `P`, then `C` holds along an execution exactly if
`P` holds after every prefix of it. An invariant `I` of the states with `P` may help. -/
theorem along_iff_prefix (I P : σ → Prop)
    (hdisabled : ∀ s e, I s → P s → step s e = none → C s e)
    (hinvariant : ∀ s e s', I s → P s → step s e = some s' → P s' → I s')
    (hstep : ∀ s e s', I s → P s → step s e = some s' → (P s' ↔ C s e))
    (hI : I s) (hP : P s) :
    Along step C s es ↔ ∀ pre post t, es = pre ++ post → run step s pre = some t → P t := by
  constructor
  · rintro halong pre post t rfl ht
    have hkept := run_invariant_along (fun s => I s ∧ P s) (fun s e s' hs hC hs' => ?_)
      ⟨hI, hP⟩ ((along_append ht).mp halong).1 ht
    · exact hkept.2
    · have hP' := (hstep s e s' hs.1 hs.2 hs').mpr hC
      exact ⟨hinvariant s e s' hs.1 hs.2 hs' hP', hP'⟩
  · intro h
    -- `P` holds before and after every step, which is what `C` follows from
    have haround : Along step (fun s e => P s ∧ ∀ s', step s e = some s' → P s') s es :=
      along_of_prefix fun pre e post t hes ht =>
        ⟨h pre (e :: post) t hes ht, fun t' ht' => h (pre ++ [e]) post t' (by simp [hes])
          (run_concat_eq_some.mpr ⟨t, ht, ht'⟩)⟩
    refine along_of_prefix fun pre e post t hes ht => ?_
    subst hes
    obtain ⟨hbefore, hrest⟩ := (along_append ht).mp haround
    have hIt : I t := run_invariant_along I
      (fun s e s' hs hP hs' => hinvariant s e s' hs hP.1 hs' (hP.2 s' hs')) hI hbefore ht
    obtain ⟨hPt, hPnext⟩ := hrest.1
    cases hs' : step t e with
    | none => exact hdisabled t e hIt hPt hs'
    | some t' => exact (hstep t e t' hIt hPt hs').mp (hPnext t' hs')

/-- If `C` is what a step has to meet to keep `P`, and `P` does not come back once it is lost, then
`C` holds along an execution exactly if `P` holds at its end. -/
theorem along_iff_end (I P : σ → Prop)
    (hinvariant : ∀ s e s', I s → step s e = some s' → I s')
    (hstep : ∀ s e s', I s → P s → step s e = some s' → (P s' ↔ C s e))
    (hlost : ∀ s e s', I s → step s e = some s' → P s' → P s)
    (hI : I s) (hP : P s) (hrun : run step s es = some s') : Along step C s es ↔ P s' := by
  induction es generalizing s with
  | nil =>
    obtain rfl := Option.some.inj hrun
    exact iff_of_true trivial hP
  | cons e es ih =>
    obtain ⟨t, ht, hrest⟩ := run_cons_eq_some.mp hrun
    have hIt := hinvariant s e t hI ht
    have halong : Along step C s (e :: es) ↔ C s e ∧ Along step C t es := by
      simp [Along, ht]
    rw [halong, ← hstep s e t hI hP ht]
    by_cases hPt : P t
    · rw [and_iff_right hPt]
      exact ih hIt hPt hrest
    · have hend : I s' ∧ ¬ P s' := run_invariant (fun s => I s ∧ ¬ P s)
        (fun s e s' hs hs' => ⟨hinvariant s e s' hs.1 hs', mt (hlost s e s' hs.1 hs') hs.2⟩)
        ⟨hIt, hPt⟩ hrest
      exact iff_of_false (fun h => hPt h.1) hend.2

/-- In executions along which `H` holds, two conditions that are the same where an invariant of
these executions holds, hold along the same ones. -/
theorem along_congr {H : σ → ε → Prop} (I : σ → Prop)
    (hinvariant : ∀ s e s', I s → H s e → step s e = some s' → I s')
    (hiff : ∀ s e, I s → H s e → (C s e ↔ D s e)) (hI : I s) (halong : Along step H s es) :
    Along step C s es ↔ Along step D s es := by
  induction es generalizing s with
  | nil => exact Iff.rfl
  | cons e es ih =>
    refine and_congr (hiff s e hI halong.1) (forall_congr' fun s' => ?_)
    exact forall_congr' fun hs' => ih (hinvariant s e s' hI halong.1 hs') (halong.2 s' hs')

/-- A relation to the states of another system, which does the steps that have a `label` there,
holds after every execution. -/
theorem run_refines {α κ : Type} {step' : α → κ → Option α} {a : α} (R : σ → α → Prop)
    (label : ε → Option κ)
    (hstep : ∀ s e s' a, e ∈ es → R s a → step s e = some s' →
      ∃ a', run step' a (label e).toList = some a' ∧ R s' a')
    (hinit : R s a) (hrun : run step s es = some s') :
    ∃ a', run step' a (es.filterMap label) = some a' ∧ R s' a' := by
  induction es generalizing s a with
  | nil =>
    obtain rfl := Option.some.inj hrun
    exact ⟨a, rfl, hinit⟩
  | cons e es ih =>
    obtain ⟨t, ht, hrest⟩ := run_cons_eq_some.mp hrun
    obtain ⟨b, hb, hR⟩ := hstep s e t a List.mem_cons_self hinit ht
    obtain ⟨a', ha', hR'⟩ :=
      ih (fun s e s' a he => hstep s e s' a (List.mem_cons_of_mem _ he)) hR hrest
    refine ⟨a', ?_, hR'⟩
    have hsplit : (e :: es).filterMap label = (label e).toList ++ es.filterMap label := by
      cases hlabel : label e <;> simp [hlabel]
    rw [hsplit]
    exact run_append_eq_some.mpr ⟨b, hb, ha'⟩

/-! ## Logs -/

/-- If every step appends at most one entry to a log, then every entry of it was appended by a
step of the execution, to the entries before it. -/
theorem exists_step_of_log {β : Type} (log : σ → List β)
    (hstep : ∀ s e s', step s e = some s' → log s' = log s ∨ ∃ y, log s' = log s ++ [y])
    (hinit : log s = []) (hrun : run step s es = some s') {l post : List β} {y : β}
    (hlog : log s' = l ++ y :: post) :
    ∃ pre e post' t t', es = pre ++ e :: post' ∧ run step s pre = some t ∧ log t = l ∧
      step t e = some t' ∧ log t' = l ++ [y] := by
  induction es using List.reverseRecOn generalizing s' post with
  | nil =>
    obtain rfl := Option.some.inj hrun
    rw [hinit] at hlog
    simp at hlog
  | append_singleton es e ih =>
    obtain ⟨t, ht, hlast⟩ := run_concat_eq_some.mp hrun
    have hextend : ∀ post', log t = l ++ y :: post' → ∃ pre e' post' t₁ t',
        es ++ [e] = pre ++ e' :: post' ∧ run step s pre = some t₁ ∧ log t₁ = l ∧
          step t₁ e' = some t' ∧ log t' = l ++ [y] := by
      intro post' hpost'
      obtain ⟨pre, e', rest, t₁, t', rfl, hrest⟩ := ih ht hpost'
      exact ⟨pre, e', rest ++ [e], t₁, t', by simp, hrest⟩
    -- the last step appended nothing, or appended `y` itself, or something after it
    rcases hstep t e s' hlast with hsame | ⟨z, hz⟩
    · exact hextend post (hsame ▸ hlog)
    · rcases List.concat_eq_append_cons (hz.symm.trans hlog) with ⟨-, hl, rfl⟩ | ⟨post', -, hl⟩
      · exact ⟨es, e, [], t, s', rfl, ht, hl, hlast, by rw [hz, hl]⟩
      · exact hextend post' hl

end Execution
