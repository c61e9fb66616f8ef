import RealtimeUtilities.Double

/-!
# The data packet of `RealTimeIPC`

A packet is a packed header (two flags and a time stamp) and a buffer of
`MAX_IPC_BUF_LENGHT` bytes. It travels through the shared segment as raw bytes: `memcpy` of
the first `d + sizeof(Header)` of them, where `d` is the payload size of the segment.

Memory is a function from offsets to bytes. `view d` is what a `getDataPacket()` sees of a
segment with payload size `d`, `store d p` what a `setDataPacket()` makes of it.

## Main results

* `ofBytes_bytes` and `bytes_ofBytes`: a packet and its bytes determine each other;
* `view_store`: what was stored is what is seen, if it fits in the segment.
-/

namespace RealtimeUtilities

/-- The bytes from some address on. -/
abbrev Memory := ℕ → UInt8

/-- `std::memcpy(dst, src, n)`. -/
def memcpy (dst src : Memory) (n : ℕ) : Memory := fun i =>
  if i < n then src i else dst i

/-- `std::memset(dst, c, n)`. -/
def memset (dst : Memory) (c : UInt8) (n : ℕ) : Memory := fun i =>
  if i < n then c else dst i

theorem memcpy_of_lt (dst src : Memory) {n i : ℕ} (h : i < n) : memcpy dst src n i = src i :=
  if_pos h

theorem memcpy_of_le (dst src : Memory) {n i : ℕ} (h : n ≤ i) : memcpy dst src n i = dst i :=
  if_neg (Nat.not_lt.mpr h)

theorem memset_of_lt (dst : Memory) (c : UInt8) {n i : ℕ} (h : i < n) : memset dst c n i = c :=
  if_pos h

theorem memset_of_le (dst : Memory) (c : UInt8) {n i : ℕ} (h : n ≤ i) :
    memset dst c n i = dst i :=
  if_neg (Nat.not_lt.mpr h)

/-- The macro of `realtime_ipc.h`, with its default. -/
def MAX_IPC_BUF_LENGHT : ℕ := 1024

/-- `RealTimeIPC::DataPacket::Header`. -/
@[ext]
structure Header (τ : Type) where
  bond_flag_ : UInt8
  rt_flag_ : UInt8
  time_ : τ

/-- `RealTimeIPC::DataPacket`. -/
@[ext]
structure DataPacket (τ : Type) where
  header_ : Header τ
  buffer : Fin MAX_IPC_BUF_LENGHT → UInt8

/-- `sizeof(Header)`: the header is packed. -/
def sizeofHeader : ℕ := 10

/-- `sizeof(DataPacket)`: nothing follows the buffer. -/
def sizeofDataPacket : ℕ := sizeofHeader + MAX_IPC_BUF_LENGHT

namespace DataPacket

variable {τ : Type}

/-- The buffer as memory. Nothing reads past its end. -/
def bufferMemory (p : DataPacket τ) : Memory := fun j =>
  if h : j < MAX_IPC_BUF_LENGHT then p.buffer ⟨j, h⟩ else 0

/-- The buffer is zero from `d` on, so that the packet fits in a segment with payload size
`d`. -/
def Fits (d : ℕ) (p : DataPacket τ) : Prop :=
  ∀ i : Fin MAX_IPC_BUF_LENGHT, d ≤ i → p.buffer i = 0

variable [DoubleBytes τ]

/-- The bytes of a packet in memory. -/
def bytes (p : DataPacket τ) : Memory := fun k =>
  -- packed: flag, flag, the eight bytes of the stamp, and the buffer right after them
  if k = 0 then p.header_.bond_flag_
  else if k = 1 then p.header_.rt_flag_
  else if h : k < sizeofHeader then
    DoubleBytes.toBytes p.header_.time_ ⟨k - 2, by unfold sizeofHeader at h; omega⟩
  else p.bufferMemory (k - sizeofHeader)

/-- The packet with the given bytes. -/
def ofBytes (m : Memory) : DataPacket τ where
  header_ :=
    { bond_flag_ := m 0
      rt_flag_ := m 1
      time_ := DoubleBytes.ofBytes fun i => m (2 + i) }
  buffer := fun i => m (sizeofHeader + i)

/-- What `setDataPacket()` makes of a segment with payload size `d`. -/
def store (d : ℕ) (p : DataPacket τ) (m : Memory) : Memory :=
  memcpy m p.bytes (d + sizeofHeader)

variable {d : ℕ} {p : DataPacket τ} {m m' : Memory}

theorem bytes_time (p : DataPacket τ) (i : Fin 8) :
    p.bytes (2 + i) = DoubleBytes.toBytes p.header_.time_ i := by
  have hlt : 2 + i.val < sizeofHeader := by
    unfold sizeofHeader
    omega
  rw [bytes, if_neg (by omega), if_neg (by omega), dif_pos hlt]
  congr 1
  ext
  simp

theorem bytes_buffer (p : DataPacket τ) (i : Fin MAX_IPC_BUF_LENGHT) :
    p.bytes (sizeofHeader + i) = p.buffer i := by
  have hle : ¬ sizeofHeader + i.val < sizeofHeader := by omega
  have hpos : 1 < sizeofHeader := by decide
  rw [bytes, if_neg (by omega), if_neg (by omega), dif_neg hle, Nat.add_sub_cancel_left,
    bufferMemory, dif_pos i.isLt]

/-- `ofBytes` reads no further than `sizeof(DataPacket)`. -/
theorem ofBytes_congr (h : ∀ k < sizeofDataPacket, m k = m' k) :
    (ofBytes m : DataPacket τ) = ofBytes m' := by
  -- the header lies within the packet
  have hheader : ∀ k < sizeofHeader, m k = m' k := fun k hk => h k (by
    unfold sizeofDataPacket
    omega)
  unfold sizeofHeader at hheader
  refine DataPacket.ext (Header.ext (hheader 0 (by omega)) (hheader 1 (by omega)) ?_)
    (funext fun i => h _ ?_)
  · exact congrArg DoubleBytes.ofBytes (funext fun i => hheader _ (by omega))
  · unfold sizeofDataPacket
    omega

variable [Double τ]

/-- `clear()`, which the constructor calls too. -/
def clear : DataPacket τ where
  header_ := { bond_flag_ := 0, rt_flag_ := 0, time_ := Double.ofRat 0 }
  buffer := fun _ => 0

/-- What `getDataPacket()` sees of a segment with payload size `d`: `clear()`, then `memcpy`. -/
def view (d : ℕ) (m : Memory) : DataPacket τ :=
  ofBytes (memcpy (clear : DataPacket τ).bytes m (d + sizeofHeader))

variable [LawfulDoubleBytes τ]

/-- A packet is determined by its bytes. -/
theorem ofBytes_bytes (p : DataPacket τ) : ofBytes p.bytes = p := by
  refine DataPacket.ext (Header.ext rfl rfl ?_) (funext fun i => bytes_buffer p i)
  show DoubleBytes.ofBytes (fun i : Fin 8 => p.bytes (2 + i)) = p.header_.time_
  simp only [bytes_time]
  exact LawfulDoubleBytes.ofBytes_toBytes _

/-- The bytes of a packet are those it was made of. -/
theorem bytes_ofBytes (m : Memory) {k : ℕ} (h : k < sizeofDataPacket) :
    (ofBytes m : DataPacket τ).bytes k = m k := by
  by_cases hheader : k < sizeofHeader
  -- the two flags, then a byte of the stamp
  · rcases k with _ | _ | k
    · rfl
    · rfl
    · have hk : k < 8 := by
        unfold sizeofHeader at hheader
        omega
      rw [show k + 1 + 1 = 2 + k by omega]
      rw [bytes_time (ofBytes m : DataPacket τ) ⟨k, hk⟩]
      show DoubleBytes.toBytes (DoubleBytes.ofBytes _ : τ) _ = _
      rw [LawfulDoubleBytes.toBytes_ofBytes]
  · obtain ⟨j, rfl⟩ := Nat.exists_eq_add_of_le (Nat.le_of_not_lt hheader)
    unfold sizeofDataPacket at h
    exact bytes_buffer (ofBytes m : DataPacket τ) ⟨j, by omega⟩

/-- A cleared packet is all zeros. -/
theorem clear_eq : (clear : DataPacket τ) = ofBytes fun _ => 0 := by
  have htime : (fun _ : Fin 8 => (0 : UInt8)) = DoubleBytes.toBytes (Double.ofRat 0 : τ) := by
    funext i
    rw [LawfulDoubleBytes.toBytes_zero]
  refine DataPacket.ext (Header.ext rfl rfl ?_) rfl
  show Double.ofRat 0 = DoubleBytes.ofBytes fun _ : Fin 8 => (0 : UInt8)
  rw [htime, LawfulDoubleBytes.ofBytes_toBytes]

theorem bytes_clear {k : ℕ} (h : k < sizeofDataPacket) : (clear : DataPacket τ).bytes k = 0 := by
  rw [clear_eq, bytes_ofBytes _ h]

/-! ## Through the segment -/

/-- Inside the segment, the bytes of what is seen are those of the segment. -/
theorem bytes_view {k : ℕ} (hd : d ≤ MAX_IPC_BUF_LENGHT) (h : k < d + sizeofHeader) :
    (view d m : DataPacket τ).bytes k = m k := by
  rw [view, bytes_ofBytes, memcpy_of_lt _ _ h]
  unfold sizeofDataPacket
  omega

/-- Beyond the segment, what is seen is zero. -/
theorem fits_view : (view d m : DataPacket τ).Fits d := by
  intro i hi
  show memcpy _ m (d + sizeofHeader) (sizeofHeader + i) = 0
  rw [memcpy_of_le _ _ (by omega)]
  apply bytes_clear
  unfold sizeofDataPacket
  omega

/-- What was stored is what is seen, whatever was in the segment. -/
theorem view_store (hp : p.Fits d) : view d (p.store d m) = p := by
  rw [view]
  calc ofBytes (memcpy (clear : DataPacket τ).bytes (p.store d m) (d + sizeofHeader))
      = ofBytes p.bytes := by
        apply ofBytes_congr
        intro k hk
        by_cases hin : k < d + sizeofHeader
        · rw [memcpy_of_lt _ _ hin, store, memcpy_of_lt _ _ hin]
        · -- both are zero beyond the segment
          obtain ⟨j, rfl⟩ := Nat.exists_eq_add_of_le (show sizeofHeader ≤ k by omega)
          rw [memcpy_of_le _ _ (by omega), bytes_clear hk]
          unfold sizeofDataPacket at hk
          rw [bytes_buffer p ⟨j, by omega⟩]
          exact (hp ⟨j, by omega⟩ (show d ≤ j by omega)).symm
    _ = p := ofBytes_bytes p

end DataPacket

end RealtimeUtilities
