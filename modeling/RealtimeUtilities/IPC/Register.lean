import RealtimeUtilities.IPC.Operations

/-!
# The segment as a gated register

What the segment of `RealTimeIPC` is for, when operations do not overlap: a register with two
flags, a time stamp and a payload. Only `update()` stores a command, and only while the register
is bonded; everybody may read, but sees zeros while it is not.

`Represents m r` says that the bytes `m` of the segment are those of the register `r`. Every
operation of every attached endpoint keeps the relation and answers as the register does
(`simulates`), whatever the endpoint has seen before.
-/

namespace RealtimeUtilities

open DataPacket

/-- The operations of an endpoint, with the contents of the output parameters of a `flush()`
before the call and its clock reading. -/
inductive Request (τ : Type) where
  | write (op : Op τ)
  | isBonded
  | isHardRT
  | flush (obuffer : Memory) (time latency_time : τ) (n_bytes : ℕ) (flush_ts : timespec)

/-- What the segment holds, for payload size `d`. -/
@[ext]
structure Register (τ : Type) (d : ℕ) where
  bonded : Bool
  hard : Bool
  stamp : τ
  payload : Fin d → UInt8

variable {τ : Type} {d : ℕ}

/-- The operation, called on the endpoint `e`. -/
def Request.access [Double τ] [DoubleBytes τ] (e : RealTimeIPC τ) :
    Request τ → Access (Outcome τ (Reply τ))
  | write op => op.access e
  | isBonded => do
      let o ← e.isBonded
      return o.map .bool
  | isHardRT => do
      let o ← e.isHardRT
      return o.map .bool
  | flush obuffer time latency_time n_bytes flush_ts => do
      let o ← e.flush obuffer time latency_time n_bytes flush_ts
      return o.map .flushed

/-- The request writes to the segment. -/
def Request.Writes : Request τ → Prop
  | write _ => True
  | isBonded | isHardRT | flush _ _ _ _ _ => False

namespace Register

/-- The register of a segment that was just created. -/
def zero [Double τ] : Register τ d where
  bonded := false
  hard := false
  stamp := Double.ofRat 0
  payload := fun _ => 0

/-- What a request makes of the register. -/
def apply (r : Register τ d) : Request τ → Register τ d
  | .write .bond => if r.bonded then r else { r with bonded := true }
  | .write .breakBond => { r with bonded := false, hard := false }
  | .write .setHardRT => { r with hard := true }
  | .write .setSoftRT => { r with hard := false }
  | .write (.update ibuffer time n_bytes) =>
      if r.bonded ∧ n_bytes = d then { r with stamp := time, payload := fun i => ibuffer i } else r
  | .isBonded | .isHardRT | .flush _ _ _ _ _ => r

/-- What a `flush()` of the right size by an endpoint with mode `mode` leaves in its output
parameters. -/
structure Delivers [Double τ] (r : Register τ d) (mode : AccessMode) (obuffer : Memory)
    (f : Flushed τ) : Prop where
  time : f.time = if r.bonded then r.stamp else Double.ofRat 0
  code : f.code = .NONE_ERROR ∨ f.code = .WATCHDOG
  payload : ∀ j : Fin d, f.obuffer j =
    if r.bonded ∧ ¬ (mode.isServer = true ∧ f.code = .WATCHDOG) then r.payload j else 0
  beyond : ∀ j, d ≤ j → f.obuffer j = obuffer j

/-- The answers of the register to a request by an endpoint with mode `mode`. -/
def Answers [Double τ] (r : Register τ d) (mode : AccessMode) : Request τ → Reply τ → Prop
  | .write .bond, reply => reply = .bool (!r.bonded)
  | .write .breakBond, reply => reply = .bool true
  | .write .setHardRT, reply => reply = .bool true
  | .write .setSoftRT, reply => reply = .bool true
  | .write (.update _ _ n_bytes), reply =>
      reply = .code (if n_bytes = d then .NONE_ERROR else .UNMACTHED_DATA_DIMENSION)
  | .isBonded, reply => reply = .bool r.bonded
  | .isHardRT, reply => reply = .bool r.hard
  | .flush obuffer time latency_time n_bytes _, reply =>
      if n_bytes = d then ∃ f, reply = .flushed f ∧ r.Delivers mode obuffer f
      else reply = .flushed ⟨.UNMACTHED_DATA_DIMENSION, obuffer, time, latency_time⟩

/-- The packet with the contents of the register. -/
def packet (r : Register τ d) : DataPacket τ where
  header_ :=
    { bond_flag_ := if r.bonded then 1 else 0
      rt_flag_ := if r.hard then 1 else 0
      time_ := r.stamp }
  buffer i := if h : i < d then r.payload ⟨i, h⟩ else 0

theorem bond_flag_packet (r : Register τ d) :
    r.packet.header_.bond_flag_ = 1 ↔ r.bonded = true := by
  by_cases hbonded : r.bonded = true
  · simp [packet, hbonded]
  · simp [packet, hbonded]

theorem rt_flag_packet (r : Register τ d) : r.packet.header_.rt_flag_ = 1 ↔ r.hard = true := by
  by_cases hhard : r.hard = true
  · simp [packet, hhard]
  · simp [packet, hhard]

theorem fits_packet (r : Register τ d) : r.packet.Fits d := by
  intro i hi
  exact dif_neg (Nat.not_lt.mpr hi)

theorem packet_buffer_of_lt (r : Register τ d) {i : Fin MAX_IPC_BUF_LENGHT} (hi : i.val < d) :
    r.packet.buffer i = r.payload ⟨i, hi⟩ :=
  dif_pos hi

theorem bufferMemory_packet (r : Register τ d) (hd : d ≤ MAX_IPC_BUF_LENGHT) (j : Fin d) :
    r.packet.bufferMemory j = r.payload j := by
  rw [bufferMemory, dif_pos (Nat.lt_of_lt_of_le j.isLt hd)]
  exact r.packet_buffer_of_lt j.isLt

/-- The segment `m` holds the register `r`, byte for byte. -/
def Represents [DoubleBytes τ] (m : Memory) (r : Register τ d) : Prop :=
  ∀ k < d + sizeofHeader, m k = r.packet.bytes k

variable [Double τ] [DoubleBytes τ] [LawfulDoubleBytes τ] {m : Memory} {r : Register τ d}

/-- A segment holds the register if the packet seen in it does. -/
theorem represents_iff (hd : d ≤ MAX_IPC_BUF_LENGHT) :
    Represents m r ↔ view d m = r.packet := by
  constructor
  · intro h
    calc view d m = view d (r.packet.store d m) := by
          apply ofBytes_congr
          intro k _
          by_cases hin : k < d + sizeofHeader
          · rw [memcpy_of_lt _ _ hin, memcpy_of_lt _ _ hin, store, memcpy_of_lt _ _ hin]
            exact h k hin
          · rw [memcpy_of_le _ _ (by omega), memcpy_of_le _ _ (by omega)]
      _ = r.packet := view_store r.fits_packet
  · intro h k hk
    rw [← h, bytes_view hd hk]

/-- A zeroed segment holds the zero register. -/
theorem represents_zero (hd : d ≤ MAX_IPC_BUF_LENGHT) (hm : ∀ k < d + sizeofHeader, m k = 0) :
    Represents m (zero : Register τ d) := by
  intro k hk
  have hclear : (zero : Register τ d).packet = clear := by
    refine DataPacket.ext rfl (funext fun i => ?_)
    by_cases hi : i.val < d
    · exact dif_pos hi
    · exact dif_neg hi
  rw [hm k hk, hclear, bytes_clear]
  unfold sizeofDataPacket
  omega

/-! ## Every request answers as the register does -/

variable {e : RealTimeIPC τ}

/-- An operation that writes leaves the segment with the new contents of the register. -/
theorem simulates_write (h : e.Attached d) (hrep : Represents m r) (op : Op τ) :
    ∃ o, ((op.access e).exec m).1 = .ok o ∧ o.self = e ∧
      r.Answers e.access_mode_ (.write op) o.ret ∧
      Represents ((op.access e).exec m).2 (r.apply (.write op)) := by
  have hview : view d m = r.packet := (represents_iff h.le_max).mp hrep
  by_cases hop : op.Matches d
  -- by the spec of the operations, on a segment whose packet is that of the register
  · rw [Op.access_eq h op hop, Routine.exec_read, hview]
    -- what is written back is the packet of the new register
    have hstored : ∀ r' : Register τ d, Represents (r'.packet.store d m) r' := fun r' =>
      (represents_iff h.le_max).mpr (view_store r'.fits_packet)
    cases op with
    | bond =>
      by_cases hbonded : r.bonded = true
      · rw [Op.edit, Op.outcome, if_pos (r.bond_flag_packet.mpr hbonded),
          if_pos (r.bond_flag_packet.mpr hbonded), apply, if_pos hbonded]
        exact ⟨_, rfl, rfl, by simp [Answers, hbonded], hrep⟩
      · have hflag := mt r.bond_flag_packet.mp hbonded
        rw [Op.edit, Op.outcome, if_neg hflag, if_neg hflag, apply, if_neg hbonded]
        exact ⟨_, rfl, rfl, by simp [Answers, hbonded], hstored { r with bonded := true }⟩
    | breakBond => exact ⟨_, rfl, rfl, rfl, hstored { r with bonded := false, hard := false }⟩
    | setHardRT => exact ⟨_, rfl, rfl, rfl, hstored { r with hard := true }⟩
    | setSoftRT => exact ⟨_, rfl, rfl, rfl, hstored { r with hard := false }⟩
    | update ibuffer time n_bytes =>
      obtain rfl : n_bytes = d := hop
      refine ⟨_, rfl, rfl, by simp [Answers, Op.outcome], ?_⟩
      by_cases hbonded : r.bonded = true
      · rw [apply, if_pos ⟨hbonded, rfl⟩, Op.edit, if_pos (r.bond_flag_packet.mpr hbonded)]
        -- the command in the old packet is the packet of the new register
        have hcommand : e.command ibuffer time r.packet =
            packet (d := n_bytes) { r with stamp := time, payload := fun i => ibuffer i } := by
          refine DataPacket.ext rfl (funext fun i => ?_)
          simp only [RealTimeIPC.command, h.payloadSize_eq]
          by_cases hi : i.val < n_bytes
          · rw [memcpy_of_lt _ _ hi, packet_buffer_of_lt _ hi]
          · have hle : n_bytes ≤ i := Nat.le_of_not_lt hi
            rw [memcpy_of_le _ _ hle, bufferMemory, dif_pos i.isLt]
            exact (r.fits_packet i hle).trans (fits_packet _ i hle).symm
        rw [hcommand]
        exact hstored _
      · have hflag := mt r.bond_flag_packet.mp hbonded
        rw [apply, if_neg fun hand => hbonded hand.1, Op.edit, if_neg hflag]
        exact hstored r
  · -- only an `update()` can have the wrong size
    cases op with
    | update ibuffer time n_bytes =>
      have hn : n_bytes ≠ d := hop
      rw [Op.access, h.update_of_ne _ _ hn, apply, if_neg fun hand => hn hand.2]
      exact ⟨_, rfl, rfl, by rw [Answers, if_neg hn]; rfl, hrep⟩
    | _ => exact absurd trivial hop

section Flush

omit [DoubleBytes τ] [LawfulDoubleBytes τ]

/-- A bonded `flush()` copies the payload. -/
theorem delivers_copy {mode : AccessMode} {obuffer : Memory} {latency_time : τ} {code : ErrorCode}
    (hd : d ≤ MAX_IPC_BUF_LENGHT) (hbonded : r.bonded = true)
    (hcode : code = .NONE_ERROR ∨ code = .WATCHDOG)
    (hkept : ¬ (mode.isServer = true ∧ code = .WATCHDOG)) :
    r.Delivers mode obuffer
      ⟨code, memcpy obuffer r.packet.bufferMemory d, r.stamp, latency_time⟩ where
  time := (if_pos hbonded).symm
  code := hcode
  payload j := by
    rw [if_pos ⟨hbonded, hkept⟩]
    exact (memcpy_of_lt _ _ j.isLt).trans (r.bufferMemory_packet hd j)
  beyond j hj := memcpy_of_le _ _ hj

/-- The watchdog of a server takes the copy back. -/
theorem delivers_reset {mode : AccessMode} {obuffer : Memory} {latency_time : τ}
    (hbonded : r.bonded = true) (hserver : mode.isServer = true) :
    r.Delivers mode obuffer
      ⟨.WATCHDOG, memset (memcpy obuffer r.packet.bufferMemory d) 0 d, r.stamp, latency_time⟩ where
  time := (if_pos hbonded).symm
  code := .inr rfl
  payload j := by
    rw [if_neg fun hand => hand.2 ⟨hserver, rfl⟩]
    exact memset_of_lt _ _ j.isLt
  beyond j hj := (memset_of_le _ _ hj).trans (memcpy_of_le _ _ hj)

/-- A `flush()` that is not bonded writes zeros. -/
theorem delivers_zeros {mode : AccessMode} {obuffer : Memory} {latency_time : τ}
    {code : ErrorCode} (hbonded : ¬ r.bonded = true)
    (hcode : code = .NONE_ERROR ∨ code = .WATCHDOG) :
    r.Delivers mode obuffer ⟨code, memset obuffer 0 d, Double.ofRat 0, latency_time⟩ where
  time := (if_neg hbonded).symm
  code := hcode
  payload j := by
    rw [if_neg fun hand => hbonded hand.1]
    exact memset_of_lt _ _ j.isLt
  beyond j hj := memset_of_le _ _ hj

/-- A `flush()` of the right size delivers what the register holds. -/
theorem delivers_flushPacket (h : e.Attached d) (obuffer : Memory) (flush_ts : timespec) :
    r.Delivers e.access_mode_ obuffer (e.flushPacket obuffer flush_ts r.packet).ret := by
  by_cases hbonded : r.bonded = true
  · have hflag := r.bond_flag_packet.mpr hbonded
    have hcode := e.checkWatchdog_code (Double.sub r.packet.header_.time_ e.data_time_prev_)
      (timer_to_s flush_ts)
    simp only [RealTimeIPC.flushPacket, hflag, h.payloadSize_eq, decide_true, if_true]
    split_ifs with hclient hwatchdog hrt hserver
    · -- the early return of a client
      have hmode : ¬ e.access_mode_.isServer = true := by
        rw [Bool.and_eq_true] at hclient
        exact e.access_mode_.not_isServer_of_isClient hclient.1
      exact delivers_copy h.le_max hbonded (.inr rfl) fun hand => hmode hand.1
    · exact delivers_reset hbonded hserver
    · exact delivers_copy h.le_max hbonded (.inr rfl) fun hand => hserver hand.1
    · exact delivers_copy h.le_max hbonded (.inl rfl) (by simp)
    · exact delivers_copy h.le_max hbonded hcode fun hand => hwatchdog hand.2
  · have hflag := mt r.bond_flag_packet.mp hbonded
    simp only [RealTimeIPC.flushPacket, hflag, h.payloadSize_eq, decide_false, if_false,
      Bool.false_eq_true]
    split_ifs
    · exact delivers_zeros hbonded (.inr rfl)
    · exact delivers_zeros hbonded (.inl rfl)

end Flush

/-- **Every request answers as the register does.** Whatever the endpoint has seen before, it
runs to its end, stays attached, leaves the segment with the new contents of the register, and
changes no byte of the segment if it does not write. -/
theorem simulates (h : e.Attached d) (hrep : Represents m r) (request : Request τ) :
    ∃ o, ((request.access e).exec m).1 = .ok o ∧ o.self.Attached d ∧
      o.self.access_mode_ = e.access_mode_ ∧ r.Answers e.access_mode_ request o.ret ∧
      Represents ((request.access e).exec m).2 (r.apply request) ∧
      (¬ request.Writes → ((request.access e).exec m).2 = m) := by
  -- the packet that the endpoint sees is that of the register
  have hview : view d m = r.packet := (represents_iff h.le_max).mp hrep
  cases request with
  | write op =>
    obtain ⟨o, ho, hself, hanswers, hrep'⟩ := simulates_write h hrep op
    exact ⟨o, ho, hself ▸ h, by rw [hself], hanswers, hrep', fun hwrites => absurd trivial hwrites⟩
  | isBonded =>
    rw [Request.access, h.isBonded_eq]
    refine ⟨_, rfl, ?_, ?_, ?_, hrep, fun _ => rfl⟩
    · show (e.isBondedPacket (view d m)).self.Attached d
      rw [RealTimeIPC.isBondedPacket_self]
      exact h.remember _ _ _ _ _
    · show (e.isBondedPacket (view d m)).self.access_mode_ = _
      rw [RealTimeIPC.isBondedPacket_self]
    · show Reply.bool (e.isBondedPacket (view d m)).ret = .bool r.bonded
      rw [RealTimeIPC.isBondedPacket_ret, hview]
      simp [r.bond_flag_packet]
  | isHardRT =>
    rw [Request.access, h.isHardRT_eq]
    refine ⟨_, rfl, ?_, ?_, ?_, hrep, fun _ => rfl⟩
    · show (e.isHardRTPacket (view d m)).self.Attached d
      rw [RealTimeIPC.isHardRTPacket_self]
      exact h.remember _ _ _ _ _
    · show (e.isHardRTPacket (view d m)).self.access_mode_ = _
      rw [RealTimeIPC.isHardRTPacket_self]
    · show Reply.bool (e.isHardRTPacket (view d m)).ret = .bool r.hard
      rw [RealTimeIPC.isHardRTPacket_ret, hview]
      simp [r.rt_flag_packet]
  | flush obuffer time latency_time n_bytes flush_ts =>
    by_cases hn : n_bytes = d
    · subst hn
      rw [Request.access, h.flush_eq]
      obtain ⟨hattached, hmode⟩ := RealTimeIPC.attached_flushPacket h obuffer flush_ts
        (view n_bytes m)
      refine ⟨_, rfl, hattached, hmode, ?_, hrep, fun _ => rfl⟩
      rw [Answers, if_pos rfl]
      refine ⟨_, rfl, ?_⟩
      rw [hview]
      exact delivers_flushPacket h obuffer flush_ts
    · -- a wrong size is answered before the segment is read
      rw [Request.access, h.flush_of_ne _ _ _ hn]
      refine ⟨_, rfl, h, rfl, ?_, hrep, fun _ => rfl⟩
      rw [Answers, if_neg hn]
      rfl

end Register

end RealtimeUtilities
