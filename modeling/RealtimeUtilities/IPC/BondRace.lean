import RealtimeUtilities.IPC.Interleaving

/-!
# Who wins the bond

`bond()` tests the flag under one lock and sets it under another. Two calls that both read a
cleared flag both return `true`, and an operation that read the cleared flag before a `bond()`
set it clears the flag again.

`bond_exclusive` says when the bond is exclusive without a `breakBond()`: if every `bond()`
writes while no other operation is between its two accesses. Then at most one `bond()` returns
`true`, and the others return `false` with their message. `two_bonds_win` is the race.
-/

namespace RealtimeUtilities

open DataPacket Execution
open Routine (Threads Move)
open Routine.Threads (WritesBack)

variable {τ : Type} [Double τ] [DoubleBytes τ] {ι : Type} {eps : ι → RealTimeIPC τ} {d : ℕ}
  {segment : Memory} {w w' : World ι τ} {m : Move (Call ι τ)} {ms : List (Move (Call ι τ))}

omit [Double τ] [DoubleBytes τ] in
/-- A `bond()` writes while all other calls have ended. -/
def BondAlone (w : World ι τ) : Move (Call ι τ) → Prop
  | .call _ => True
  | .access c => ∀ (i : ι) (p : Access (Outcome τ (Reply τ))),
      w.calls[c]? = some (⟨i, .bond⟩, p) → Threads.Solo w (.access c)

omit [Double τ] [DoubleBytes τ] in
theorem bondAlone_of_solo (h : Threads.Solo w m) : BondAlone w m := by
  cases m with
  | call call => trivial
  | access c => exact fun _ _ _ => h

omit [Double τ] [DoubleBytes τ] in
/-- No `bond()` has returned `true` so far. -/
def Unbonded (w : World ι τ) : Prop :=
  ∀ (c : ℕ) (i : ι) (o : Outcome τ (Reply τ)), w.calls[c]? = some (⟨i, .bond⟩, .done o) →
    o.ret ≠ .bool true

/-- The call `c₀` alone has returned `true`, and nobody is about to clear the flag it has set. -/
structure BondedBy (d c₀ : ℕ) (w : World ι τ) : Prop where
  flag : (w.packet d).header_.bond_flag_ = 1
  unique : ∀ (c : ℕ) (i : ι) (o : Outcome τ (Reply τ)),
    w.calls[c]? = some (⟨i, .bond⟩, .done o) → o.ret = .bool true → c = c₀
  pending : ∀ (c : ℕ) (call : Call ι τ) q, w.calls[c]? = some (call, q) → q.isEnded = true ∨
    (∀ i, call ≠ ⟨i, .bond⟩) ∧
      ∃ v : DataPacket τ, WritesBack (view d) q v ∧ v.header_.bond_flag_ = 1

/-- A `bond()` ends with its `getDataPacket()` if and only if the flag is set, and then it
returns `false`. -/
theorem start_bond (hattached : ∀ i, (eps i).Attached d) (i : ι) (s : Memory) :
    (∀ o, ((Call.body eps ⟨i, .bond⟩).start s).1 = .done o → o.ret = .bool false) ∧
    ((view d s : DataPacket τ).header_.bond_flag_ = 1 →
      ((Call.body eps ⟨i, .bond⟩).start s).1.isEnded = true) := by
  show (∀ o, ((Op.access (eps i) .bond).start s).1 = .done o → _) ∧
    (_ → ((Op.access (eps i) .bond).start s).1.isEnded = true)
  rw [Op.access_eq (hattached i) .bond trivial]
  show (∀ o, Op.writeBack d (Op.edit (eps i) .bond (view d s))
      (Op.outcome (eps i) .bond (view d s)) = .done o → _) ∧
    (_ → (Op.writeBack d (Op.edit (eps i) .bond (view d s))
      (Op.outcome (eps i) .bond (view d s))).isEnded = true)
  by_cases hbond : (view d s : DataPacket τ).header_.bond_flag_ = 1
  · -- already bonded: nothing is written back
    simp only [Op.edit, Op.outcome, hbond, if_true]
    refine ⟨fun o ho => ?_, fun _ => rfl⟩
    obtain rfl := Routine.done.inj ho
    rfl
  · simp only [Op.edit, Op.outcome, hbond, if_false]
    exact ⟨fun o ho => (by cases ho), fun h => h.elim⟩

variable [LawfulDoubleBytes τ]

/-- While the bond is held, every step but a call of `breakBond()` leaves it held. -/
theorem BondedBy.step {c₀ : ℕ} (hattached : ∀ i, (eps i).Attached d) (h : BondedBy d c₀ w)
    (hbreak : ∀ i, m ≠ .call ⟨i, .breakBond⟩) (hstep : World.step eps w m = some w') :
    BondedBy d c₀ w' := by
  cases m with
  | call call =>
    obtain rfl := Option.some.inj hstep
    have hstart := (Op.snapshots (hattached call.endpoint) call.op).start w.shared
    refine ⟨?_, fun c i o hc ho => ?_, fun c call' q hc => ?_⟩
    · show (view d ((call.op.access (eps call.endpoint)).start w.shared).2
        : DataPacket τ).header_.bond_flag_ = 1
      rw [hstart.1]
      exact h.flag
    · rcases List.getElem?_concat_cases hc with hc | ⟨-, hq⟩
      · exact h.unique c i o hc ho
      · -- a new `bond()` that has returned was refused
        obtain ⟨rfl, hq⟩ := Prod.mk.inj hq
        have hfalse := (start_bond hattached i w.shared).1 o hq.symm
        rw [ho] at hfalse
        cases hfalse
    · rcases List.getElem?_concat_cases hc with hc | ⟨-, hq⟩
      · exact h.pending c call' q hc
      · obtain ⟨rfl, rfl⟩ := Prod.mk.inj hq
        by_cases hop : call'.op = .bond
        · obtain ⟨i, op⟩ := call'
          obtain rfl : op = .bond := hop
          exact .inl ((start_bond hattached i w.shared).2 h.flag)
        · refine hstart.2.imp_right fun ⟨v, hv, hframe⟩ => ⟨?_, v, hv, ?_⟩
          · rintro i rfl
            exact hop rfl
          · -- the snapshot shows the set flag, and the operation does not own it
            have hown : ¬ call'.op.Owns .bond_flag_ := by
              obtain ⟨i, op⟩ := call'
              cases op with
              | bond => exact absurd rfl hop
              | breakBond => exact absurd rfl (hbreak i)
              | _ => simp [Op.Owns]
            exact (hframe .bond_flag_ hown).trans h.flag
  | access c =>
    obtain ⟨call, p, q, s, hc, hp, rfl⟩ := Threads.step_access hstep
    -- whoever writes now was pending, and writes the set flag back
    rcases h.pending c call p hc with hended | ⟨hop, v, ⟨g, o, rfl, hg⟩, hv⟩
    · rw [Routine.access_of_isEnded hended] at hp
      cases hp
    · obtain ⟨rfl, rfl⟩ := Prod.mk.inj (Option.some.inj hp)
      refine ⟨?_, fun c' i o' hc' ho' => ?_, fun c' call' q hc' => ?_⟩
      · show (view d (g w.shared) : DataPacket τ).header_.bond_flag_ = 1
        rw [hg, hv]
      · rcases List.getElem?_set_cases hc' with ⟨-, hq⟩ | ⟨-, hc'⟩
        · exact absurd (Prod.mk.inj hq).1.symm (hop i)
        · exact h.unique c' i o' hc' ho'
      · rcases List.getElem?_set_cases hc' with ⟨-, hq⟩ | ⟨-, hc'⟩
        · obtain ⟨-, rfl⟩ := Prod.mk.inj hq
          exact .inl rfl
        · exact h.pending c' call' q hc'

omit [LawfulDoubleBytes τ] in
/-- While nobody holds the bond, a step leaves it so, or a `bond()` takes it alone. -/
theorem Unbonded.step (hattached : ∀ i, (eps i).Attached d) (h : Unbonded w)
    (hunder : AllUnderway d eps w) (halone : BondAlone w m) (hstep : World.step eps w m = some w') :
    Unbonded w' ∨ ∃ c₀, BondedBy d c₀ w' := by
  cases m with
  | call call =>
    obtain rfl := Option.some.inj hstep
    refine .inl fun c i o hc ho => ?_
    rcases List.getElem?_concat_cases hc with hc | ⟨-, hq⟩
    · exact h c i o hc ho
    · obtain ⟨rfl, hq⟩ := Prod.mk.inj hq
      have hfalse := (start_bond hattached i w.shared).1 o hq.symm
      rw [ho] at hfalse
      cases hfalse
  | access c =>
    obtain ⟨⟨i, op⟩, p, q, s, hc, hp, hw'⟩ := Threads.step_access hstep
    by_cases hop : op = .bond
    · -- this call takes the bond, while all others have ended
      subst hop
      rcases hunder c _ p hc with ⟨o, rfl, -⟩ | ⟨g, o, rfl, ho, v, ⟨g', o', hgo, hg⟩, hv⟩
      · cases hp
      · obtain ⟨rfl, rfl⟩ := Prod.mk.inj (Option.some.inj hp)
        obtain ⟨rfl, -⟩ := Routine.write.inj hgo
        refine .inr ⟨c, ?_, fun c' j o' hc' ho' => ?_, fun c' call' q hc' => ?_⟩
        · rw [hw']
          show (view d (g w.shared) : DataPacket τ).header_.bond_flag_ = 1
          rw [hg, hv]
        · rw [hw'] at hc'
          rcases List.getElem?_set_cases hc' with ⟨rfl, -⟩ | ⟨-, hc'⟩
          · rfl
          · exact absurd ho' (h c' j o' hc')
        · rw [hw'] at hc'
          rcases List.getElem?_set_cases hc' with ⟨-, hq⟩ | ⟨hne, hc'⟩
          · obtain ⟨-, rfl⟩ := Prod.mk.inj hq
            exact .inl rfl
          · exact .inl ((halone i _ hc).isEnded hne hc')
    · refine .inl fun c' j o hc' ho => ?_
      rw [hw'] at hc'
      rcases List.getElem?_set_cases hc' with ⟨-, hq⟩ | ⟨-, hc'⟩
      · cases (Prod.mk.inj hq).1
        exact hop rfl
      · exact h c' j o hc' ho

/-- **When the bond is exclusive.** In every interleaving of calls from any number of attached
endpoints without a `breakBond()`, in which every `bond()` writes while no other operation is
between its two accesses: at most one `bond()` returns `true`, and every other one that has
returned has returned `false` and printed that the segment is already bonded. -/
theorem bond_exclusive (hattached : ∀ i, (eps i).Attached d)
    (hbreak : ∀ i, Move.call ⟨i, .breakBond⟩ ∉ ms)
    (halong : Along (World.step eps) BondAlone ⟨segment, []⟩ ms)
    (hrun : run (World.step eps) ⟨segment, []⟩ ms = some w) :
    (∀ (c c' : ℕ) (i i' : ι) (o o' : Outcome τ (Reply τ)),
      w.calls[c]? = some (⟨i, .bond⟩, .done o) → o.ret = .bool true →
      w.calls[c']? = some (⟨i', .bond⟩, .done o') → o'.ret = .bool true → c = c') ∧
    ∀ (c : ℕ) (i : ι) (q : Access (Outcome τ (Reply τ))), w.calls[c]? = some (⟨i, .bond⟩, q) →
      q.isEnded = true → ∃ o, q = .done o ∧ (o.ret = .bool true ∨
        o.ret = .bool false ∧ (eps i).alreadyBonded ∈ o.printed) := by
  have hno : Along (World.step eps) (fun _ m => ∀ i, m ≠ .call ⟨i, .breakBond⟩)
      ⟨segment, []⟩ ms := by
    refine along_of_forall_mem fun m hm i hi => ?_
    subst hi
    exact hbreak i hm
  -- up to some write nobody holds the bond, and from then on one call does
  have hinv := run_invariant_along
    (fun w => AllUnderway d eps w ∧ (Unbonded w ∨ ∃ c₀, BondedBy d c₀ w))
    (fun w m w' hI hC hs => ?_) ⟨?_, .inl ?_⟩ (halong.and hno) hrun
  · obtain ⟨hunder, hphase⟩ := hinv
    refine ⟨fun c c' i i' o o' hc ho hc' ho' => ?_, fun c i q hc hq => ?_⟩
    · rcases hphase with hnone | ⟨c₀, hheld⟩
      · exact absurd ho (hnone c i o hc)
      · rw [hheld.unique c i o hc ho, hheld.unique c' i' o' hc' ho']
    · rcases hunder c _ q hc with hdone | ⟨g, o, rfl, -⟩
      · exact hdone
      · cases hq
  · refine ⟨underway_step hattached hI.1 hs, ?_⟩
    rcases hI.2 with hnone | ⟨c₀, hheld⟩
    · exact hnone.step hattached hI.1 hC.1 hs
    · exact .inr ⟨c₀, hheld.step hattached hC.2 hs⟩
  · intro c call q hc
    cases hc
  · intro c i o hc
    cases hc

/-- Two calls of `bond()` with an `update()` between them. -/
theorem bond_exclusive_two :
    ∃ (w : World Bool Binary64) (o : Outcome Binary64 (Reply Binary64)),
      run World.stepTwo ⟨fun _ => 0, []⟩ [.call ⟨true, .bond⟩, .access 0,
        .call ⟨true, .update (fun _ => 7) (Double.ofRat 1) 1⟩, .access 1,
        .call ⟨false, .bond⟩] = some w ∧
      w.calls[2]? = some (⟨false, .bond⟩, .done o) ∧
      (o.ret = .bool true ∨ o.ret = .bool false ∧ oneByteServer.alreadyBonded ∈ o.printed) := by
  refine ⟨_, _, rfl, rfl, ?_⟩
  have halong : Along World.stepTwo BondAlone ⟨fun _ => 0, []⟩ [.call ⟨true, .bond⟩, .access 0,
      .call ⟨true, .update (fun _ => 7) (Double.ofRat 1) 1⟩, .access 1, .call ⟨false, .bond⟩] :=
    Along.imp (fun _ _ => bondAlone_of_solo) (by decide)
  obtain ⟨o, hq, ho⟩ := (@bond_exclusive _ _ _ _ _ 1 _ _ _ _ (fun _ => attached_oneByteServer)
    (by simp) halong rfl).2 2 false _ rfl rfl
  obtain rfl := Routine.done.inj hq
  exact ho

/-- Two calls of `bond()` both read the cleared flag, and both return `true`. -/
theorem two_bonds_win :
    ∃ (w : World Bool Binary64) (o o' : Outcome Binary64 (Reply Binary64)),
      run World.stepTwo ⟨fun _ => 0, []⟩ [.call ⟨true, .bond⟩, .call ⟨false, .bond⟩,
        .access 0, .access 1] = some w ∧
      w.calls = [(⟨true, .bond⟩, .done o), (⟨false, .bond⟩, .done o')] ∧
      o.ret = .bool true ∧ o'.ret = .bool true :=
  ⟨_, _, _, rfl, rfl, rfl, rfl⟩

end RealtimeUtilities
