import RealtimeUtilities.IPC.Endpoint

/-!
# The operations that write to the segment

`update()`, `bond()`, `breakBond()`, `setHardRT()` and `setSoftRT()` read the whole packet, edit
it, and write the whole packet back. Here they are one type of operations: `Op.access` runs one
on an endpoint, and `access_eq` says what it comes to on an attached endpoint, through the
packet it writes back (`Op.edit`) and what it returns (`Op.outcome`).

An operation owns the fields it is there to change. `edit_spec` and `snapshots` say that it
writes all others back as it has read them.
-/

namespace RealtimeUtilities

open DataPacket
open Routine.Threads (WritesBack Snapshots)

/-- The operations that write to the segment, with their arguments. -/
inductive Op (τ : Type) where
  | update (ibuffer : Memory) (time : τ) (n_bytes : ℕ)
  | bond
  | breakBond
  | setHardRT
  | setSoftRT

/-- The return value of an operation. -/
inductive Reply (τ : Type) where
  | bool (b : Bool)
  | code (c : ErrorCode)
  | flushed (f : Flushed τ)

/-- The fields of a packet. -/
inductive Field where
  | bond_flag_
  | rt_flag_
  | time_
  | buffer
  deriving DecidableEq, Repr

/-- What a field holds. -/
def Field.Val (τ : Type) : Field → Type
  | bond_flag_ => UInt8
  | rt_flag_ => UInt8
  | time_ => τ
  | buffer => Fin MAX_IPC_BUF_LENGHT → UInt8

/-- The value of a field. -/
def Field.get {τ : Type} : (f : Field) → DataPacket τ → f.Val τ
  | bond_flag_, p => p.header_.bond_flag_
  | rt_flag_, p => p.header_.rt_flag_
  | time_, p => p.header_.time_
  | buffer, p => p.buffer

variable {τ : Type}

/-- Another type for the return value. -/
def Outcome.map {ρ ρ' : Type} (o : Outcome τ ρ) (g : ρ → ρ') : Outcome τ ρ' :=
  { o with ret := g o.ret }

namespace Op

/-- The fields that an operation is there to change. -/
def Owns : Op τ → Field → Prop
  | update _ _ _, f => f = .time_ ∨ f = .buffer
  | bond, f => f = .bond_flag_
  | breakBond, f => f = .bond_flag_ ∨ f = .rt_flag_
  | setHardRT, f => f = .rt_flag_
  | setSoftRT, f => f = .rt_flag_

variable {e : RealTimeIPC τ} {d : ℕ} {ibuffer : Memory} {time : τ} {shmem : DataPacket τ}

/-- A command of the size of the segment fits in it. -/
theorem fits_command (h : e.Attached d) (hp : shmem.Fits d) :
    (e.command ibuffer time shmem).Fits d := by
  intro i hi
  simp only [RealTimeIPC.command]
  rw [h.payloadSize_eq, memcpy_of_le _ _ hi, bufferMemory, dif_pos i.isLt]
  exact hp i hi

variable [Double τ] [DoubleBytes τ]

/-- The operation, called on the endpoint `e`. -/
def access (e : RealTimeIPC τ) : Op τ → Access (Outcome τ (Reply τ))
  | update ibuffer time n_bytes => do
      let o ← e.update ibuffer time n_bytes
      return o.map .code
  | bond => do
      let o ← e.bond
      return o.map .bool
  | breakBond => do
      let o ← e.breakBond
      return o.map .bool
  | setHardRT => do
      let o ← e.setHardRT
      return o.map .bool
  | setSoftRT => do
      let o ← e.setSoftRT
      return o.map .bool

/-- The packet that an operation of matching size writes back when it saw `shmem`, nothing if
it writes nothing. -/
def edit (e : RealTimeIPC τ) : Op τ → DataPacket τ → Option (DataPacket τ)
  | update ibuffer time _, shmem =>
      some (if shmem.header_.bond_flag_ = 1 then e.command ibuffer time shmem else shmem)
  | bond, shmem =>
      if shmem.header_.bond_flag_ = 1 then none
      else some { shmem with header_ := { shmem.header_ with bond_flag_ := 1 } }
  | breakBond, shmem =>
      some { shmem with header_ := { shmem.header_ with rt_flag_ := 0, bond_flag_ := 0 } }
  | setHardRT, shmem => some { shmem with header_ := { shmem.header_ with rt_flag_ := 1 } }
  | setSoftRT, shmem => some { shmem with header_ := { shmem.header_ with rt_flag_ := 0 } }

/-- What an operation of matching size returns and prints when it saw `shmem`. -/
def outcome (e : RealTimeIPC τ) : Op τ → DataPacket τ → Outcome τ (Reply τ)
  | update _ _ _, _ => ⟨.code .NONE_ERROR, e, []⟩
  | bond, shmem =>
      if shmem.header_.bond_flag_ = 1 then
        ⟨.bool false, e, [⟨"[ %s ] [START] Bonding\n", [.str e.name_]⟩, e.alreadyBonded]⟩
      else
        ⟨.bool true, e, [⟨"[ %s ] [START] Bonding\n", [.str e.name_]⟩,
          ⟨"[ %s ] [DONE] Bonding\n", [.str e.name_]⟩]⟩
  | breakBond, _ => ⟨.bool true, e, [⟨"[ %s ] Break Bond\n", [.str e.name_]⟩]⟩
  | setHardRT, shmem =>
      ⟨.bool true, e, [⟨"[ %s ] [START] Set Hard RT\n", [.str e.name_]⟩] ++
        (if shmem.header_.rt_flag_ = 1 then [⟨"[ %s ] Already hard RT!\n", [.str e.name_]⟩]
          else []) ++
        [⟨"[ %s ] [ DONE] Set Hard RT\n", [.str e.name_]⟩]⟩
  | setSoftRT, _ =>
      ⟨.bool true, e, [⟨"[ %s ] [START] Set Soft RT\n", [.str e.name_]⟩,
        ⟨"[ %s ] [ DONE]Set soft RT\n", [.str e.name_]⟩]⟩

/-- The size the operation asks for is the payload size `d`. -/
def Matches (d : ℕ) : Op τ → Prop
  | update _ _ n_bytes => n_bytes = d
  | _ => True

/-- Write back what there is to write back, and return `o`. -/
def writeBack (d : ℕ) (w : Option (DataPacket τ)) (o : Outcome τ (Reply τ)) :
    Access (Outcome τ (Reply τ)) :=
  match w with
  | none => .done o
  | some w => .write (w.store d) (.done o)

/-- An operation of matching size reads the packet, and writes it back edited. -/
theorem access_eq (h : e.Attached d) (op : Op τ) (hop : op.Matches d) :
    op.access e = .read fun segment =>
      writeBack d (op.edit e (view d segment)) (op.outcome e (view d segment)) := by
  cases op with
  | update ibuffer time n_bytes =>
    obtain rfl : n_bytes = d := hop
    rw [access, h.update_eq]
    rfl
  | bond =>
    rw [access, h.bond_eq, Routine.read_bind]
    congr 1
    ext segment : 1
    -- a refused `bond()` writes nothing back
    by_cases hbond : (view d segment : DataPacket τ).header_.bond_flag_ = 1
    · simp only [edit, outcome, hbond, if_true]
      rfl
    · simp only [edit, outcome, hbond, if_false]
      rfl
  | breakBond =>
    rw [access, h.breakBond_eq]
    rfl
  | setHardRT =>
    rw [access, h.setHardRT_eq]
    rfl
  | setSoftRT =>
    rw [access, h.setSoftRT_eq]
    rfl

/-- An operation of another size ends before it accesses the segment. -/
theorem isEnded_of_not_matches (h : e.Attached d) (op : Op τ) (hop : ¬ op.Matches d) :
    (op.access e).isEnded = true := by
  cases op with
  | update ibuffer time n_bytes =>
    rw [access, h.update_of_ne _ _ hop]
    rfl
  | _ => exact absurd trivial hop

omit [Double τ] [DoubleBytes τ] in
theorem outcome_self (op : Op τ) : (op.outcome e shmem).self = e := by
  cases op with
  | bond =>
    rw [outcome]
    split_ifs <;> rfl
  | _ => rfl

/-- An operation leaves the endpoint as it is, whatever it finds in the segment. -/
theorem observe_eq (h : e.Attached d) (op : Op τ) (seen : ℕ → Memory) :
    ∃ o, (op.access e).observe seen = .ok o ∧ o.self = e := by
  by_cases hop : op.Matches d
  · refine ⟨op.outcome e (view d (seen 0)), ?_, op.outcome_self⟩
    rw [access_eq h op hop]
    show (writeBack d (op.edit e (view d (seen 0))) _).observe _ = _
    cases op.edit e (view d (seen 0)) <;> rfl
  · cases op with
    | update ibuffer time n_bytes =>
      rw [access, h.update_of_ne _ _ hop]
      exact ⟨_, rfl, rfl⟩
    | _ => exact absurd trivial hop

omit [Double τ] [DoubleBytes τ] in
theorem edit_bond (hbond : shmem.header_.bond_flag_ ≠ 1) :
    bond.edit e shmem =
      some { shmem with header_ := { shmem.header_ with bond_flag_ := 1 } } := by
  rw [edit, if_neg hbond]

omit [Double τ] [DoubleBytes τ] in
/-- What an operation writes back fits in the segment and differs in its own fields only. -/
theorem edit_spec (h : e.Attached d) (op : Op τ) {w : DataPacket τ} (hp : shmem.Fits d)
    (hw : op.edit e shmem = some w) :
    w.Fits d ∧ ∀ f, ¬ op.Owns f → f.get w = f.get shmem := by
  cases op with
  | update ibuffer time n_bytes =>
    obtain rfl := Option.some.inj hw
    -- bonded, the stamp and the buffer are new; otherwise nothing is
    split_ifs
    · refine ⟨fits_command h hp, fun f hf => ?_⟩
      cases f with
      | bond_flag_ => rfl
      | rt_flag_ => rfl
      | time_ => exact absurd (.inl rfl) hf
      | buffer => exact absurd (.inr rfl) hf
    · exact ⟨hp, fun _ _ => rfl⟩
  | bond =>
    simp only [edit] at hw
    split_ifs at hw
    obtain rfl := Option.some.inj hw
    refine ⟨hp, fun f hf => ?_⟩
    cases f with
    | bond_flag_ => exact absurd rfl hf
    | _ => rfl
  | breakBond =>
    obtain rfl := Option.some.inj hw
    refine ⟨hp, fun f hf => ?_⟩
    cases f with
    | bond_flag_ => exact absurd (.inl rfl) hf
    | rt_flag_ => exact absurd (.inr rfl) hf
    | time_ => rfl
    | buffer => rfl
  | setHardRT | setSoftRT =>
    obtain rfl := Option.some.inj hw
    refine ⟨hp, fun f hf => ?_⟩
    cases f with
    | rt_flag_ => exact absurd rfl hf
    | _ => rfl

variable [LawfulDoubleBytes τ]

/-- A packet that fits is what the segment shows after the write. -/
theorem writesBack_store {w : DataPacket τ} (hw : w.Fits d) (o : Outcome τ (Reply τ)) :
    WritesBack (view d) (writeBack d (some w) o) w :=
  ⟨w.store d, o, rfl, fun _ => view_store hw⟩

/-- The operations take one snapshot and write it back with nothing but their own fields
changed. -/
theorem snapshots (h : e.Attached d) (op : Op τ) :
    Snapshots (view d : Memory → DataPacket τ) Field.get op.Owns (op.access e) := by
  by_cases hop : op.Matches d
  · refine .inr ⟨_, access_eq h op hop, fun segment => ?_⟩
    -- whether there is anything to write back depends on the snapshot
    rcases hw : op.edit e (view d segment) with _ | w
    · exact .inl rfl
    · obtain ⟨hfits, hframe⟩ := edit_spec h op fits_view hw
      exact .inr ⟨w, writesBack_store hfits _, hframe⟩
  · exact .inl (isEnded_of_not_matches h op hop)

end Op

end RealtimeUtilities
