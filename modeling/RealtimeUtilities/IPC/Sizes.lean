import RealtimeUtilities.IPC.Detached

/-!
# The size of a segment

A server chooses the size of the segment, its clients read the size from the mapping, and all of
them copy that many bytes to and from a packet on their stacks. The packet has room for
`MAX_IPC_BUF_LENGHT` bytes of payload. The constructor does not compare, so what keeps the copies
within the packet is the assertion on `dim_with_header_`, which a release build does not have and
which fails for a packet that is full.

## Main definitions

* `Sharing`: a server, and the clients that attach to its segment while it runs;
* `Use.Fits`: an operation meets the assertion and copies no more than there is room for;
* `AllFit`: all operations of all runs do.

## Main result

* `fits_iff`: the sizes for which they do.
-/

namespace RealtimeUtilities

open Execution

variable {τ : Type}

/-- A server with the clients of its segment. -/
structure Sharing (τ : Type) where
  name : String
  /-- The size of the segment that the server has created, if it has. -/
  segment : Option ℕ
  endpoints : List (RealTimeIPC τ)

/-- What happens to a segment. -/
inductive SharingEvent (τ : Type) where
  /-- A client attaches to the segment, which it finds in the machine `found`. -/
  | client (found : Machine) (fails : BoostCall → Bool) (watchdog_decimation : τ) (dim : ℕ)
      (ndebug : Bool)
  /-- The endpoint `i` runs an operation, which finds the segment as `seen n` at its access
  number `n`. -/
  | use (i : ℕ) (seen : ℕ → Memory) (u : Use τ)

/-- The operation copies payload to or from a buffer of its caller. -/
def Use.CopiesBuffer : Use τ → Prop
  | .request (.write (.update _ _ _)) | .request (.flush _ _ _ _ _) => True
  | .request (.write .bond) | .request (.write .breakBond) | .request (.write .setHardRT)
  | .request (.write .setSoftRT) | .request .isBonded | .request .isHardRT | .dump
  | .destruct => False

variable [Double τ] [DoubleBytes τ]

/-- The assertion on the size holds where the operation comes to it, and the copies between packet
and segment and between packet and buffer are not longer than the packet and its buffer. -/
structure Use.Fits (e : RealTimeIPC τ) (u : Use τ) : Prop where
  assertion : ¬ u.Stopped e → e.dim_with_header_ < sizeofDataPacket
  packet : Reaches (u.access e) → e.mutex_ = true → e.shared_map_ ≤ sizeofDataPacket
  buffer : Reaches (u.access e) → e.mutex_ = true → u.CopiesBuffer →
    e.payloadSize ≤ MAX_IPC_BUF_LENGHT

namespace Sharing

omit [Double τ] [DoubleBytes τ] in
/-- A server that was just constructed. Its segment is what it has mapped. -/
def start (e : RealTimeIPC τ) : Sharing τ where
  name := e.name_
  segment := if e.mutex_ then some e.shared_map_ else none
  endpoints := [e]

/-- One step. The contents of the segment are left open, and its names are not removed: a client
that does not find them does not attach. -/
def step (s : Sharing τ) : SharingEvent τ → Option (Sharing τ)
  | .client found fails watchdog_decimation dim ndebug =>
      match RealTimeIPC.create fails found s.name watchdog_decimation .SHMEM_CLIENT dim ndebug with
      | .returned e _ =>
          if (found.segments s.name).map SharedMemory.size = s.segment ∧ e.mutex_ = true then
            some { s with endpoints := s.endpoints ++ [e] }
          else none
      | .threw _ | .aborted _ _ => none
  | .use i seen u => do
      let e ← s.endpoints[i]?
      let e' ← Use.step e (seen, u)
      return { s with endpoints := s.endpoints.set i e' }

/-- The operation of the step fits. -/
def Fits (s : Sharing τ) : SharingEvent τ → Prop
  | .client _ _ _ _ _ => True
  | .use i _ u => ∀ e, s.endpoints[i]? = some e → u.Fits e

/-- In every run of the server `e` and of its clients, all operations fit. -/
def AllFit (e : RealTimeIPC τ) : Prop :=
  ∀ es, Along Sharing.step Fits (start e) es

/-- All endpoints have the size `size`, and map as many bytes if they are attached. -/
structure HasSize (s : Sharing τ) (size : ℕ) : Prop where
  segment : ∀ n, s.segment = some n → n = size ∧ sizeofHeader < size
  dim : ∀ e ∈ s.endpoints, e.dim_with_header_ = size
  map : ∀ e ∈ s.endpoints, e.mutex_ = true → e.shared_map_ = size ∧ sizeofHeader < size

variable {s s' : Sharing τ} {x : SharingEvent τ} {size : ℕ}

omit [DoubleBytes τ] in
/-- A client that attaches takes over the size that it finds. -/
theorem attached_client {found after : Machine} {fails : BoostCall → Bool} {name : String}
    {watchdog_decimation : τ} {dim : ℕ} {ndebug : Bool} {e : RealTimeIPC τ}
    (h : RealTimeIPC.create fails found name watchdog_decimation .SHMEM_CLIENT dim ndebug =
      .returned e after) (hmutex : e.mutex_ = true) :
    (found.segments name).map SharedMemory.size = some e.dim_with_header_ ∧
      e.shared_map_ = e.dim_with_header_ := by
  have he := RealTimeIPC.returned_client h
  -- the mutex says that the client has found both objects
  cases hsegment : found.segments name with
  | none =>
    rw [hsegment] at he
    obtain rfl := he
    cases hmutex
  | some object =>
    rw [hsegment] at he
    cases hfound : found.mutexes name with
    | false =>
      rw [hfound] at he
      obtain rfl := he
      cases hmutex
    | true =>
      rw [hfound] at he
      obtain rfl := he
      exact ⟨rfl, rfl⟩

/-- **A step keeps the size.** -/
theorem HasSize.step (h : s.HasSize size) (hs' : s.step x = some s') : s'.HasSize size := by
  cases x with
  | client found fails watchdog_decimation dim ndebug =>
    simp only [Sharing.step] at hs'
    split at hs'
    · next e after hcreate =>
      split_ifs at hs' with hattached
      obtain ⟨hfound, hmutex⟩ := hattached
      obtain rfl := Option.some.inj hs'
      obtain ⟨hsize, hmap⟩ := attached_client hcreate hmutex
      obtain ⟨hdim, hheader⟩ := h.segment _ (hfound.symm.trans hsize)
      -- the new endpoint has the size of the segment, and the others keep theirs
      refine ⟨h.segment, ?_, ?_⟩
      · intro e' he'
        rcases List.mem_append.mp he' with he' | he'
        · exact h.dim e' he'
        · rw [List.mem_singleton.mp he']
          exact hdim
      · intro e' he'
        rcases List.mem_append.mp he' with he' | he'
        · exact h.map e' he'
        · rw [List.mem_singleton.mp he']
          exact fun _ => ⟨hmap.trans hdim, hheader⟩
    · cases hs'
    · cases hs'
  | use i seen u =>
    simp only [Sharing.step, Option.bind_eq_bind, Option.bind_eq_some_iff] at hs'
    obtain ⟨e, he, e', hstep, hset⟩ := hs'
    obtain rfl := Option.some.inj hset
    have hmem := List.mem_of_getElem? he
    -- no operation changes a size
    have hmembers := Use.sameMembers_step hstep
    refine ⟨h.segment, ?_, ?_⟩
    · intro e₁ he₁
      rcases List.mem_or_eq_of_mem_set he₁ with he₁ | rfl
      · exact h.dim e₁ he₁
      · exact hmembers.dim_with_header_.trans (h.dim e hmem)
    · intro e₁ he₁
      rcases List.mem_or_eq_of_mem_set he₁ with he₁ | rfl
      · exact h.map e₁ he₁
      · rw [hmembers.mutex_, hmembers.shared_map_]
        exact h.map e hmem

/-- Operations on a segment with room for the header and less than `MAX_IPC_BUF_LENGHT` bytes
fit. -/
theorem HasSize.fits (h : s.HasSize size) (hlt : size < sizeofDataPacket) : s.Fits x := by
  cases x with
  | client found fails watchdog_decimation dim ndebug => trivial
  | use i seen u =>
    intro e he
    have hmem := List.mem_of_getElem? he
    -- the assertion, the copy of the packet and the copy of the payload
    refine ⟨fun _ => ?_, fun _ hmutex => ?_, fun _ hmutex _ => ?_⟩
    · rw [h.dim e hmem]
      exact hlt
    · rw [(h.map e hmem hmutex).1]
      exact hlt.le
    · have hheader := (h.map e hmem hmutex).2
      rw [RealTimeIPC.payloadSize, h.dim e hmem]
      unfold sizeofDataPacket at hlt
      unfold sizeofHeader at hlt hheader ⊢
      unfold MAX_IPC_BUF_LENGHT at hlt ⊢
      omega

variable {fails : BoostCall → Bool} {m after : Machine} {identifier : String}
  {watchdog_decimation : τ} {dim : ℕ} {ndebug : Bool} {e : RealTimeIPC τ}

omit [DoubleBytes τ] in
/-- A server starts with the size that it was given. -/
theorem hasSize_start
    (h : RealTimeIPC.create fails m identifier watchdog_decimation .SHMEM_SERVER dim ndebug =
      .returned e after) : (start e).HasSize ((dim + sizeofHeader) % 2 ^ 64) := by
  rcases RealTimeIPC.returned_server h with ⟨-, -, rfl⟩ | ⟨hheader, -, -, rfl⟩
  · -- there is no segment that a client could attach to
    refine ⟨fun n hn => ?_, ?_, ?_⟩
    · cases hn
    · intro e he
      rw [List.mem_singleton.mp he]
      rfl
    · intro e he hmutex
      rw [List.mem_singleton.mp he] at hmutex
      cases hmutex
  · refine ⟨fun n hn => ⟨(Option.some.inj hn).symm, hheader⟩, ?_, ?_⟩
    · intro e he
      rw [List.mem_singleton.mp he]
      rfl
    · intro e he _
      rw [List.mem_singleton.mp he]
      exact ⟨rfl, hheader⟩

/-- **The sizes that fit.** For every size that the constructor of a server lets through: in every
run of the server and of any number of clients on its segment, all operations meet the assertion
and copy no more than there is room for, if and only if the payload is smaller than
`MAX_IPC_BUF_LENGHT`, or so large that the sum of the sizes wraps around and no segment is
created. -/
theorem fits_iff (hdim : dim < 2 ^ 64)
    (h : RealTimeIPC.create fails m identifier watchdog_decimation .SHMEM_SERVER dim ndebug =
      .returned e after) :
    AllFit e ↔ dim < MAX_IPC_BUF_LENGHT ∨ 2 ^ 64 ≤ dim + sizeofHeader := by
  have hstart := hasSize_start h
  have hfits : (dim + sizeofHeader) % 2 ^ 64 < sizeofDataPacket ↔
      dim < MAX_IPC_BUF_LENGHT ∨ 2 ^ 64 ≤ dim + sizeofHeader := by
    unfold sizeofDataPacket sizeofHeader MAX_IPC_BUF_LENGHT
    omega
  rw [← hfits]
  constructor
  · intro hall
    -- `isBonded()` comes to the assertion
    have hfirst := (hall [.use 0 (fun _ _ => 0) (.request .isBonded)]).1 e rfl
    have hsize := hstart.dim e (List.mem_singleton_self e)
    by_cases hheader : e.dim_with_header_ = sizeofHeader
    · rw [← hsize, hheader]
      decide
    · rw [← hsize]
      exact hfirst.assertion hheader
  · intro hlt es
    refine along_of_prefix fun _ _ _ t _ hrun => ?_
    have hkept : t.HasSize ((dim + sizeofHeader) % 2 ^ 64) :=
      run_invariant (fun t => t.HasSize ((dim + sizeofHeader) % 2 ^ 64))
        (fun _ _ _ ht hs' => ht.step hs') hstart hrun
    exact hkept.fits hlt

/-- A server with `dim` bytes of payload on a machine without named objects. -/
def freshServer (dim : ℕ) (ndebug : Bool) : RealTimeIPC ℚ :=
  (RealTimeIPC.construct "ipc" 1 .SHMEM_SERVER dim ndebug).attach (dim + sizeofHeader)

theorem fits_iff_almost_full : AllFit (freshServer 1023 false) :=
  (@fits_iff ℚ _ _ (fun _ => false) noObjects _ "ipc" 1 1023 false (freshServer 1023 false)
    (by decide) rfl).mpr (.inl (by decide))

/-- With a payload of `MAX_IPC_BUF_LENGHT` bytes the assertion fails. With one byte more, a build
without assertions copies beyond the packet. -/
theorem overrun_of_full :
    (∃ after, RealTimeIPC.create (fun _ => false) noObjects "ipc" 1 .SHMEM_SERVER 1024 false =
      .returned (freshServer 1024 false) after) ∧
    (∀ seen, (freshServer 1024 false).isBonded.observe seen =
      .error (.assertion "dim_with_header_ < sizeof(RealTimeIPC::DataPacket)")) ∧
    (∃ after, RealTimeIPC.create (fun _ => false) noObjects "ipc" 1 .SHMEM_SERVER 1025 true =
      .returned (freshServer 1025 true) after) ∧
    (∀ seen, (freshServer 1025 true).isBonded.observe seen = .error .overrun) ∧
    ¬ AllFit (freshServer 1024 false) := by
  refine ⟨⟨_, rfl⟩, fun _ => rfl, ⟨_, rfl⟩, fun _ => rfl, fun hall => ?_⟩
  have hfirst := (hall [.use 0 (fun _ _ => 0) (.request .isBonded)]).1 _ rfl
  have hentered : ¬ (freshServer 1024 false).dim_with_header_ = sizeofHeader := by decide
  exact absurd (hfirst.assertion hentered) (by decide)

end Sharing

end RealtimeUtilities
