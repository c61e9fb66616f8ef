import RealtimeUtilities.IPC.Operations

/-!
# Interleaved operations on one segment

The mutex is released between the two accesses of an operation, so other endpoints may write
the segment after its read, and then its write takes their changes back.

`frame_of_undisturbed` says when every write changes only the fields that its operation owns: if
a field is never changed while an operation that does not own it is between its two accesses.
`update_undoes_breakBond` is what happens otherwise.
-/

namespace RealtimeUtilities

open DataPacket Execution
open Routine (Threads Move)
open Routine.Threads (WritesBack Fresh NoConflict)

variable {τ : Type}

/-! ## Calls from any number of endpoints -/

/-- A call of `op` on one of the endpoints. -/
structure Call (ι τ : Type) where
  endpoint : ι
  op : Op τ

/-- The segment and the calls made on it. -/
abbrev World (ι τ : Type) := Threads Memory (Call ι τ) Fault (Outcome τ (Reply τ))

variable [Double τ] [DoubleBytes τ] {ι : Type} {eps : ι → RealTimeIPC τ} {d : ℕ}
  {segment : Memory} {w w' : World ι τ} {m : Move (Call ι τ)} {ms : List (Move (Call ι τ))}

/-- What a call runs. -/
def Call.body (eps : ι → RealTimeIPC τ) (call : Call ι τ) : Access (Outcome τ (Reply τ)) :=
  call.op.access (eps call.endpoint)

/-- One step of the interleaving: a call runs its `getDataPacket()`, or its `setDataPacket()`. -/
abbrev World.step (eps : ι → RealTimeIPC τ) (w : World ι τ) (m : Move (Call ι τ)) :
    Option (World ι τ) :=
  Threads.step (Call.body eps) w m

/-- The packet in the segment. -/
def World.packet (d : ℕ) (w : World ι τ) : DataPacket τ :=
  view d w.shared

omit [Double τ] [DoubleBytes τ] in
/-- No `breakBond()` writes while a `bond()` is between its two accesses. -/
def BreakAlone (w : World ι τ) : Move (Call ι τ) → Prop
  | .call _ => True
  | .access c => ∀ (i : ι) (p : Access (Outcome τ (Reply τ))),
      w.calls[c]? = some (⟨i, .breakBond⟩, p) → ∀ (c' : ℕ) (i' : ι)
      (q : Access (Outcome τ (Reply τ))), w.calls[c']? = some (⟨i', .bond⟩, q) →
      q.isEnded = true

/-- A write changes a field only while every other operation between its two accesses owns the
field, and no `breakBond()` writes while a `bond()` is between its two accesses. -/
def Undisturbed (d : ℕ) (w : World ι τ) (m : Move (Call ι τ)) : Prop :=
  NoConflict (view d : Memory → DataPacket τ) Field.get (fun call => call.op.Owns) w m ∧
    BreakAlone w m

/-- What is left of a `bond()` or a `breakBond()` after its `getDataPacket()`. -/
def Underway (d : ℕ) (eps : ι → RealTimeIPC τ) (call : Call ι τ)
    (q : Access (Outcome τ (Reply τ))) : Prop :=
  match call.op with
  | .bond =>
      (∃ o, q = .done o ∧ (o.ret = .bool true ∨
        o.ret = .bool false ∧ (eps call.endpoint).alreadyBonded ∈ o.printed)) ∨
      ∃ g o, q = .write g (.done o) ∧ o.ret = .bool true ∧
        ∃ v : DataPacket τ, WritesBack (view d) q v ∧ v.header_.bond_flag_ = 1
  | .breakBond => q.isEnded = true ∨
      ∃ v : DataPacket τ, WritesBack (view d) q v ∧ v.header_.bond_flag_ = 0
  | .update _ _ _ | .setHardRT | .setSoftRT => True

/-- Every call is underway in the way its operation is. -/
abbrev AllUnderway (d : ℕ) (eps : ι → RealTimeIPC τ) (w : World ι τ) : Prop :=
  ∀ (c : ℕ) call q, w.calls[c]? = some (call, q) → Underway d eps call q

/-- The invariant of undisturbed steps: no pending write takes anything back, and the calls are
underway in the way their operations are. -/
structure Consistent (d : ℕ) (eps : ι → RealTimeIPC τ) (w : World ι τ) : Prop where
  fresh : Fresh (view d : Memory → DataPacket τ) Field.get (fun call => call.op.Owns) w
  underway : AllUnderway d eps w

/-- A `breakBond()` has cleared the flag when it ends. -/
theorem flag_of_breakBond {c : ℕ} {i : ι} {p : Access (Outcome τ (Reply τ))}
    (hunder : AllUnderway d eps w) (hc : w.calls[c]? = some (⟨i, .breakBond⟩, p))
    (hstep : World.step eps w (.access c) = some w') :
    (w'.packet d).header_.bond_flag_ = 0 := by
  obtain ⟨_, p', q, s, hc', hp, rfl⟩ := Threads.step_access hstep
  obtain ⟨rfl, rfl⟩ := Prod.mk.inj (Option.some.inj (hc.symm.trans hc'))
  -- it has an access left, so it is about to write the cleared flag
  rcases hunder c _ p hc with hended | ⟨v, ⟨g, o, rfl, hg⟩, hv⟩
  · rw [Routine.access_of_isEnded hended] at hp
    cases hp
  · obtain ⟨-, rfl⟩ := Prod.mk.inj (Option.some.inj hp)
    rw [World.packet]
    show (view d (g w.shared) : DataPacket τ).header_.bond_flag_ = 0
    rw [hg, hv]

/-- Operations that do not overlap are undisturbed. -/
theorem undisturbed_of_solo (h : Threads.Solo w m) : Undisturbed d w m := by
  cases m with
  | call call => exact ⟨trivial, trivial⟩
  | access c =>
    refine ⟨fun s l p q _ _ c' l' q' hne hc' hq' => ?_, fun i p hc c' i' q hc' => ?_⟩
    · rw [h.isEnded hne hc'] at hq'
      cases hq'
    · refine h.isEnded ?_ hc'
      rintro rfl
      cases hc.symm.trans hc'

section Lawful

variable [LawfulDoubleBytes τ]

/-- The calls are underway in the way their operations are. -/
theorem underway_step (hattached : ∀ i, (eps i).Attached d)
    (h : AllUnderway d eps w) (hstep : World.step eps w m = some w') : AllUnderway d eps w' := by
  -- after the `getDataPacket()`, and after the `setDataPacket()`
  refine Threads.calls_step (fun call s => ?_) (fun call p s q s' hp hs => ?_) h hstep
  · obtain ⟨i, op⟩ := call
    cases op with
    | bond =>
      show Underway d eps _ ((Op.access (eps i) .bond).start s).1
      rw [Op.access_eq (hattached i) .bond trivial]
      show Underway d eps _ (Op.writeBack d (Op.edit (eps i) .bond (view d s))
        (Op.outcome (eps i) .bond (view d s)))
      by_cases hbond : (view d s : DataPacket τ).header_.bond_flag_ = 1
      · simp only [Op.edit, Op.outcome, hbond, if_true]
        exact .inl ⟨_, rfl, .inr ⟨rfl, by simp⟩⟩
      · have hw := Op.edit_bond (e := eps i) hbond
        have hfits := (Op.edit_spec (hattached i) .bond fits_view hw).1
        rw [hw, Op.outcome, if_neg hbond]
        exact .inr ⟨_, _, rfl, rfl, _, Op.writesBack_store hfits _, rfl⟩
    | breakBond =>
      show Underway d eps _ ((Op.access (eps i) .breakBond).start s).1
      rw [Op.access_eq (hattached i) .breakBond trivial]
      have hfits := (Op.edit_spec (hattached i) .breakBond (fits_view (m := s)) rfl).1
      exact .inr ⟨_, Op.writesBack_store hfits _, rfl⟩
    | _ => trivial
  · obtain ⟨i, op⟩ := call
    cases op with
    | bond =>
      rcases hp with ⟨o, rfl, -⟩ | ⟨g, o, rfl, ho, -⟩
      · cases hs
      · obtain ⟨rfl, -⟩ := Prod.mk.inj (Option.some.inj hs)
        exact .inl ⟨o, rfl, .inl ho⟩
    | breakBond =>
      rcases hp with hended | ⟨v, ⟨g, o, rfl, -⟩, -⟩
      · rw [Routine.access_of_isEnded hended] at hs
        cases hs
      · obtain ⟨rfl, -⟩ := Prod.mk.inj (Option.some.inj hs)
        exact .inl rfl
    | _ => trivial

/-- The segment after some `breakBond()`, made when there were `n` calls: the flag is cleared, or
a `bond()` called later has set it. -/
structure Released (d n : ℕ) (w : World ι τ) : Prop where
  le_length : n ≤ w.calls.length
  bond_ended : ∀ (c : ℕ) (i : ι) q, c < n → w.calls[c]? = some (⟨i, .bond⟩, q) →
    q.isEnded = true
  flag : (w.packet d).header_.bond_flag_ = 0 ∨ ∃ (c : ℕ) (i : ι) (o : Outcome τ (Reply τ)),
    n ≤ c ∧ w.calls[c]? = some (⟨i, .bond⟩, .done o) ∧ o.ret = .bool true

/-- Consistent steps keep the bond released. -/
theorem released_step (hattached : ∀ i, (eps i).Attached d) {n : ℕ}
    (hcons : Consistent d eps w) (h : Released d n w) (hstep : World.step eps w m = some w') :
    Released d n w' := by
  -- whoever set the flag has ended, and stays in the list
  have hkeep : (∃ (c : ℕ) (i : ι) (o : Outcome τ (Reply τ)), n ≤ c ∧
      w.calls[c]? = some (⟨i, .bond⟩, .done o) ∧ o.ret = .bool true) →
      ∃ (c : ℕ) (i : ι) (o : Outcome τ (Reply τ)), n ≤ c ∧
        w'.calls[c]? = some (⟨i, .bond⟩, .done o) ∧ o.ret = .bool true := by
    rintro ⟨c, i, o, hn, hc, ho⟩
    exact ⟨c, i, o, hn, Threads.getElem?_of_isEnded hc rfl hstep, ho⟩
  cases m with
  | call call =>
    obtain rfl := Option.some.inj hstep
    have hshared := ((Op.snapshots (hattached call.endpoint) call.op).start w.shared).1
    refine ⟨?_, fun c i q hn hc => ?_, ?_⟩
    · simpa using Nat.le_succ_of_le h.le_length
    · rcases List.getElem?_concat_cases hc with hc | ⟨rfl, -⟩
      · exact h.bond_ended c i q hn hc
      · exact absurd hn (Nat.not_lt.mpr h.le_length)
    · refine h.flag.imp (fun hflag => ?_) hkeep
      rw [World.packet]
      show (view d ((call.op.access (eps call.endpoint)).start w.shared).2
        : DataPacket τ).header_.bond_flag_ = 0
      rw [hshared]
      exact hflag
  | access c =>
    obtain ⟨⟨i, op⟩, p, q, s, hc, hp, hw'⟩ := Threads.step_access hstep
    refine ⟨?_, fun c' i' q' hn hc' => ?_, ?_⟩
    · rw [hw', List.length_set]
      exact h.le_length
    · rw [hw'] at hc'
      rcases List.getElem?_set_cases hc' with ⟨rfl, hq⟩ | ⟨-, hc'⟩
      · -- a `bond()` called before the break has no access left
        obtain ⟨hcall, rfl⟩ := Prod.mk.inj hq
        rw [← hcall] at hc
        rw [Routine.access_of_isEnded (h.bond_ended c' i' p hn hc)] at hp
        cases hp
      · exact h.bond_ended c' i' q' hn hc'
    · by_cases hown : op.Owns .bond_flag_
      · cases op with
        | update ibuffer time n_bytes => rcases hown with hown | hown <;> cases hown
        | setHardRT => cases hown
        | setSoftRT => cases hown
        | bond =>
          -- it was called after the break, and its write is the witness
          rcases hcons.underway c _ p hc with ⟨o, rfl, -⟩ | ⟨g, o, rfl, ho, -⟩
          · cases hp
          · obtain ⟨rfl, -⟩ := Prod.mk.inj (Option.some.inj hp)
            have hn : n ≤ c := Nat.le_of_not_lt fun hlt =>
              Bool.noConfusion (h.bond_ended c i _ hlt hc)
            obtain ⟨hlt, -⟩ := List.getElem?_eq_some_iff.mp hc
            refine .inr ⟨c, i, o, hn, ?_, ho⟩
            rw [hw', List.getElem?_set_self hlt]
        | breakBond => exact .inl (flag_of_breakBond hcons.underway hc hstep)
      · refine h.flag.imp (fun hflag => ?_) hkeep
        have hframe : (w'.packet d).header_.bond_flag_ = (w.packet d).header_.bond_flag_ :=
          Threads.frame_step hcons.fresh hc hstep hown
        rw [hframe, hflag]

theorem Consistent.step (hattached : ∀ i, (eps i).Attached d) (h : Consistent d eps w)
    (hm : Undisturbed d w m) (hstep : World.step eps w m = some w') : Consistent d eps w' where
  fresh := by
    refine Threads.fresh_step (fun call => ?_) h.fresh hm.1 hstep
    exact Op.snapshots (hattached call.endpoint) call.op
  underway := underway_step hattached h.underway hstep

/-- Undisturbed runs are consistent. -/
theorem consistent_of_run (hattached : ∀ i, (eps i).Attached d)
    (halong : Along (World.step eps) (Undisturbed d) ⟨segment, []⟩ ms)
    (hrun : run (World.step eps) ⟨segment, []⟩ ms = some w) : Consistent d eps w := by
  refine run_invariant_along (Consistent d eps) (fun w m w' hI hC hs => hI.step hattached hC hs)
    ⟨?_, ?_⟩ halong hrun
  · intro c l q hc
    cases hc
  · intro c l q hc
    cases hc

/-- **Writes change owned fields only.** In every interleaving of calls from any number of
attached endpoints whose steps are all undisturbed:

* every `setDataPacket()` leaves the fields alone that its operation does not own, so that in
  particular no flag operation takes a command back;
* after a `breakBond()` the flag stays cleared, until a `bond()` called later has set it. -/
theorem frame_of_undisturbed (hattached : ∀ i, (eps i).Attached d)
    (halong : Along (World.step eps) (Undisturbed d) ⟨segment, []⟩ ms)
    (hrun : run (World.step eps) ⟨segment, []⟩ ms = some w) :
    (∀ pre c post w₁ w₂ call p, ms = pre ++ .access c :: post →
      run (World.step eps) ⟨segment, []⟩ pre = some w₁ → w₁.calls[c]? = some (call, p) →
      World.step eps w₁ (.access c) = some w₂ →
      ∀ f : Field, ¬ call.op.Owns f → f.get (w₂.packet d) = f.get (w₁.packet d)) ∧
    ∀ pre c post w₁ w₂ i p, ms = pre ++ .access c :: post →
      run (World.step eps) ⟨segment, []⟩ pre = some w₁ →
      w₁.calls[c]? = some (⟨i, .breakBond⟩, p) → World.step eps w₁ (.access c) = some w₂ →
      (w.packet d).header_.bond_flag_ = 0 ∨ ∃ (c' : ℕ) (j : ι) (o : Outcome τ (Reply τ)),
        w₂.calls.length ≤ c' ∧ w.calls[c']? = some (⟨j, .bond⟩, .done o) ∧
        o.ret = .bool true := by
  constructor
  · intro pre c post w₁ w₂ call p hms hpre hc hstep f hf
    subst hms
    have hcons := consistent_of_run hattached ((along_append hpre).mp halong).1 hpre
    exact Threads.frame_step hcons.fresh hc hstep hf
  · intro pre c post w₁ w₂ i p hms hpre hc hstep
    subst hms
    obtain ⟨hbefore, ⟨hcond, hafter⟩⟩ := (along_append hpre).mp halong
    have hcons := consistent_of_run hattached hbefore hpre
    have hpost : run (World.step eps) w₂ post = some w := by
      obtain ⟨t, ht, hrest⟩ := run_append_eq_some.mp hrun
      obtain rfl := Option.some.inj (hpre.symm.trans ht)
      obtain ⟨t, ht, hrest⟩ := run_cons_eq_some.mp hrest
      obtain rfl := Option.some.inj (hstep.symm.trans ht)
      exact hrest
    have hreleased : Released d w₂.calls.length w₂ := by
      refine ⟨Nat.le_refl _, fun c' j q _ hc' => ?_,
        .inl (flag_of_breakBond hcons.underway hc hstep)⟩
      -- a `bond()` that was called already has ended, as the break was alone
      obtain ⟨l, p', q', s, hc'', hp, rfl⟩ := Threads.step_access hstep
      rcases List.getElem?_set_cases hc' with ⟨rfl, hq⟩ | ⟨-, hc'⟩
      · obtain ⟨hcall, rfl⟩ := Prod.mk.inj hq
        obtain ⟨rfl, rfl⟩ := Prod.mk.inj (Option.some.inj (hc.symm.trans hc''))
        cases hcall
      · exact hcond.2 i p hc c' j q hc'
    have hinv := run_invariant_along
      (fun w => Consistent d eps w ∧ Released d w₂.calls.length w)
      (fun w m w' hI hC hs => ⟨hI.1.step hattached hC hs, released_step hattached hI.1 hI.2 hs⟩)
      ⟨hcons.step hattached hcond hstep, hreleased⟩ (hafter w₂ hstep) hpost
    exact hinv.2.flag

end Lawful

/-! ## Two endpoints on a segment with one byte of payload -/

/-- Calls on two handles of the segment. -/
abbrev World.stepTwo : World Bool Binary64 → Move (Call Bool Binary64) →
    Option (World Bool Binary64) :=
  World.step fun _ => oneByteServer

/-- A `bond()` and a `breakBond()` that do not overlap. -/
theorem frame_of_undisturbed_break :
    ∃ w, run World.stepTwo ⟨fun _ => 0, []⟩ [.call ⟨true, .bond⟩, .access 0,
        .call ⟨false, .breakBond⟩, .access 1] = some w ∧
      ((w.packet 1).header_.bond_flag_ = 0 ∨ ∃ (c : ℕ) (j : Bool) (o : Outcome Binary64 _),
        2 ≤ c ∧ w.calls[c]? = some (⟨j, .bond⟩, .done o) ∧ o.ret = .bool true) := by
  refine ⟨_, rfl, ?_⟩
  have halong : Along World.stepTwo (Undisturbed 1) ⟨fun _ => 0, []⟩ [.call ⟨true, .bond⟩,
      .access 0, .call ⟨false, .breakBond⟩, .access 1] :=
    Along.imp (fun _ _ => undisturbed_of_solo) (by decide)
  exact (@frame_of_undisturbed _ _ _ _ _ 1 _ _ _ _ (fun _ => attached_oneByteServer) halong
    rfl).2 [.call ⟨true, .bond⟩, .access 0, .call ⟨false, .breakBond⟩] 1 [] _ _ _ _ rfl rfl rfl rfl

/-- An `update()` reads the bonded packet, a `breakBond()` runs from call to return, and the
`update()` writes the packet back: the segment is bonded again, though no `bond()` was called. -/
theorem update_undoes_breakBond :
    ∃ w₁ w₂ : World Bool Binary64,
      run World.stepTwo ⟨fun _ => 0, []⟩ [.call ⟨true, .bond⟩, .access 0,
        .call ⟨true, .update (fun _ => 7) (Double.ofRat 1) 1⟩, .call ⟨false, .breakBond⟩,
        .access 2] = some w₁ ∧
      (w₁.packet 1).header_.bond_flag_ = 0 ∧ w₁.stepTwo (.access 1) = some w₂ ∧
      (w₂.packet 1).header_.bond_flag_ = 1 :=
  ⟨_, _, rfl, rfl, rfl, rfl⟩

end RealtimeUtilities
