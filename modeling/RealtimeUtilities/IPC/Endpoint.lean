import RealtimeUtilities.IPC.Packet
import RealtimeUtilities.Timer.Basic
import RealtimeUtilities.ToMathlib.Routine

/-!
# The endpoints of `RealTimeIPC`

The members of the class `RealTimeIPC` and its operations on the shared segment. The named
mutex is held for one `memcpy` at a time, so an operation is a `Routine` whose only accesses
are those of `getDataPacket()` and `setDataPacket()`.

An operation returns its result, the endpoint after it, and what it printed. It is aborted
where the code runs into a failed `assert`, a null mutex or a `memcpy` past the end of a packet.

## Main definitions

* `RealTimeIPC`, with one function for each operation under the source's name;
* `Attached e d`: the endpoint `e` is attached to a segment with payload size `d`.

## Main results

For attached endpoints, `bond_eq`, `breakBond_eq`, `setHardRT_eq`, `setSoftRT_eq`, `update_eq`,
`isBonded_eq`, `isHardRT_eq` and `flush_eq` say what is left of the operations: one snapshot of
the segment, and then a result or a write of an edited packet.
-/

namespace RealtimeUtilities

open DataPacket

/-- `RealTimeIPC::Skin`. -/
inductive Skin where
  | POSIX
  | RT_POSIX
  | RT_ALCHEMY
  deriving DecidableEq, Repr

/-- `RealTimeIPC::AccessMode`. -/
inductive AccessMode where
  | PIPE_SERVER
  | SHMEM_SERVER
  | MQUEUE_SERVER
  | PIPE_CLIENT
  | SHMEM_CLIENT
  | MQUEUE_CLIENT
  deriving DecidableEq, Repr

/-- `RealTimeIPC::isClient`. -/
def AccessMode.isClient (mode : AccessMode) : Bool :=
  mode = PIPE_CLIENT || mode = SHMEM_CLIENT || mode = MQUEUE_CLIENT

/-- `RealTimeIPC::isServer`. -/
def AccessMode.isServer (mode : AccessMode) : Bool :=
  mode = PIPE_SERVER || mode = SHMEM_SERVER || mode = MQUEUE_SERVER

theorem AccessMode.not_isServer_of_isClient (mode : AccessMode) (h : mode.isClient = true) :
    ¬ mode.isServer = true := by
  cases mode <;> simp [isClient, isServer] at h ⊢

/-- `RealTimeIPC::ErrorCode`. -/
inductive ErrorCode where
  | NONE_ERROR
  | UNMACTHED_DATA_DIMENSION
  | UNCORRECT_CALL
  | WATCHDOG
  deriving DecidableEq, Repr

/-- How an operation can fail to return. -/
inductive Fault where
  /-- An `assert` failed. -/
  | assertion (expression : String)
  /-- The null `mutex_` was dereferenced. -/
  | nullMutex
  /-- The `memcpy` between packet and segment is longer than a packet. -/
  | overrun
  deriving DecidableEq, Repr

/-- An argument of `printf`. -/
inductive PrintfArg (τ : Type) where
  | str (s : String)
  | num (x : τ)
  | size (n : ℕ)

/-- A call of `printf`. -/
structure Printf (τ : Type) where
  format : String
  args : List (PrintfArg τ)

/-- The members of `RealTimeIPC` that its operations read. -/
structure RealTimeIPC (τ : Type) where
  access_mode_ : AccessMode
  rt_skin_ : Skin
  watchdog_ : τ
  name_ : String
  dim_with_header_ : ℕ
  /-- `shared_map_.get_size()`. -/
  shared_map_ : ℕ
  /-- `mutex_` is not null. -/
  mutex_ : Bool
  start_watchdog_time_ : τ
  data_time_prev_ : τ
  flush_time_prev_ : τ
  bonded_prev_ : Bool
  is_hard_rt_prev_ : Bool
  /-- The process was compiled with `NDEBUG`, so that `assert` checks nothing. -/
  ndebug : Bool

/-- The return value of an operation, the endpoint after it, and what it printed. -/
structure Outcome (τ ρ : Type) where
  ret : ρ
  self : RealTimeIPC τ
  printed : List (Printf τ)

/-- The routines on the shared segment. -/
abbrev Access := Routine Memory Fault

/-- What `flush()` returns and leaves in its output parameters. -/
structure Flushed (τ : Type) where
  code : ErrorCode
  obuffer : Memory
  time : τ
  latency_time : τ

namespace RealTimeIPC

variable {τ : Type}

/-- The end of `init()` in the two `SHMEM` modes, when the segment of `size` bytes was mapped and
the mutex opened. A server has created the segment with `size = dim_with_header_`. -/
def attach (e : RealTimeIPC τ) (size : ℕ) : RealTimeIPC τ :=
  { e with shared_map_ := size, mutex_ := true, dim_with_header_ := size }

/-- `assert(condition)`. -/
def assert (e : RealTimeIPC τ) (condition : Bool) (expression : String) :
    Access Unit :=
  if e.ndebug || condition then .done () else .abort (.assertion expression)

/-- What the `memcpy` under the lock relies on. -/
def lock (e : RealTimeIPC τ) : Access Unit :=
  if e.mutex_ = false then .abort .nullMutex
  else if sizeofDataPacket < e.shared_map_ then .abort .overrun
  else .done ()

/-- The payload size the endpoint works with, `dim_with_header_ - sizeof(Header)` as a `size_t`
of 64 bits. -/
def payloadSize (e : RealTimeIPC τ) : ℕ :=
  (2 ^ 64 - sizeofHeader + e.dim_with_header_) % 2 ^ 64

/-- The packet with the command that `update()` writes if the segment is bonded. -/
def command (e : RealTimeIPC τ) (ibuffer : Memory) (time : τ) (shmem : DataPacket τ) :
    DataPacket τ where
  header_ := { shmem.header_ with time_ := time }
  buffer i := memcpy shmem.bufferMemory ibuffer e.payloadSize i

/-- `isHardRT()` after its `getDataPacket()`. -/
def isHardRTPacket (e : RealTimeIPC τ) (shmem : DataPacket τ) : Outcome τ Bool :=
  let is_hard_rt : Bool := shmem.header_.rt_flag_ = 1
  if e.is_hard_rt_prev_ ≠ is_hard_rt then
    { ret := shmem.header_.rt_flag_ = 1
      self := { e with is_hard_rt_prev_ := is_hard_rt }
      printed := [⟨"[ %s ] RT State Changed from '%s' to '%s'\n", [.str e.name_,
        .str (if e.is_hard_rt_prev_ then "HARD" else "SOFT"),
        .str (if is_hard_rt then "HARD" else "SOFT")]⟩] }
  else
    { ret := shmem.header_.rt_flag_ = 1, self := e, printed := [] }

/-- `isBonded()` after its `getDataPacket()`. -/
def isBondedPacket (e : RealTimeIPC τ) (shmem : DataPacket τ) : Outcome τ Bool :=
  let is_bonded : Bool := shmem.header_.bond_flag_ = 1
  if e.bonded_prev_ ≠ is_bonded then
    { ret := shmem.header_.bond_flag_ = 1
      self := { e with bonded_prev_ := is_bonded }
      printed := [⟨"[ %s ] Bonding State Changed from '%s' to '%s'\n", [.str e.name_,
        .str (if e.bonded_prev_ then "BONDED" else "UNBONDED"),
        .str (if is_bonded then "BONDED" else "UNBONDED")]⟩] }
  else
    { ret := shmem.header_.bond_flag_ = 1, self := e, printed := [] }

/-- What `bond()` prints when it finds the segment bonded. -/
def alreadyBonded (e : RealTimeIPC τ) : Printf τ :=
  ⟨"[ %s ] Already Bonded! Abort. \n\n****** RESET CMD FOR SAFETTY **** \n", [.str e.name_]⟩

/-- `setDataPacket()`. -/
def setDataPacket [DoubleBytes τ] (e : RealTimeIPC τ) (shmem : DataPacket τ) : Access Unit := do
  e.assert (e.dim_with_header_ < sizeofDataPacket)
    "dim_with_header_ < sizeof(RealTimeIPC::DataPacket)"
  match e.access_mode_ with
  | .PIPE_SERVER => e.assert (e.rt_skin_ = .RT_ALCHEMY) "rt_skin_ == RT_ALCHEMY"
  | .PIPE_CLIENT => e.assert (e.rt_skin_ = .POSIX) "rt_skin_ == POSIX"
  | .SHMEM_SERVER | .SHMEM_CLIENT =>
      e.assert (e.rt_skin_ = .POSIX) "rt_skin_ == POSIX"
      e.lock
      .write (fun segment => memcpy segment shmem.bytes e.shared_map_) (.done ())
  | .MQUEUE_SERVER | .MQUEUE_CLIENT =>
      e.assert (e.rt_skin_ = .RT_POSIX) "rt_skin_ == RT_POSIX"

variable [Double τ]

/-- The constructor up to `init()`, and the `rt_skin_` that `init()` sets. The sum of the sizes is
a `size_t` of 64 bits. -/
def construct (identifier : String) (watchdog_decimation : τ) (mode : AccessMode) (dim : ℕ)
    (ndebug : Bool) : RealTimeIPC τ where
  access_mode_ := mode
  rt_skin_ := .POSIX
  watchdog_ := watchdog_decimation
  name_ := identifier
  dim_with_header_ := (dim + sizeofHeader) % 2 ^ 64
  shared_map_ := 0
  mutex_ := false
  start_watchdog_time_ := Double.ofRat (-1)
  data_time_prev_ := Double.ofRat 0
  flush_time_prev_ := Double.ofRat 0
  bonded_prev_ := false
  is_hard_rt_prev_ := false
  ndebug := ndebug

/-- The watchdog of a bonded `flush()`: its verdict, and the new `start_watchdog_time_`. -/
def checkWatchdog (e : RealTimeIPC τ) (latency_time flush_time : τ) : ErrorCode × τ :=
  -- the client cycle time is acceptable
  if Double.lt latency_time e.watchdog_ && Double.lt (Double.ofRat (1 / 100000)) latency_time then
    (.NONE_ERROR, Double.ofRat (-1))
  else if Double.lt e.watchdog_ latency_time then
    (.WATCHDOG, e.start_watchdog_time_)
  -- the client is not writing new data
  else if Double.lt latency_time (Double.ofRat (1 / 100000)) then
    if Double.beq e.start_watchdog_time_ (Double.ofRat (-1)) then (.NONE_ERROR, flush_time)
    else if Double.lt e.watchdog_ (Double.sub flush_time e.start_watchdog_time_) then
      (.WATCHDOG, e.start_watchdog_time_)
    else (.NONE_ERROR, e.start_watchdog_time_)
  else (.NONE_ERROR, e.start_watchdog_time_)

/-- What a bonded `flush()` prints about its watchdog. The two messages of a watchdog that went
off are behind `scrn_cnt++ % 1000`, which is zero in every call. -/
def watchdogPrinted (e : RealTimeIPC τ) (latency_time time : τ) : List (Printf τ) :=
  if Double.lt latency_time e.watchdog_ && Double.lt (Double.ofRat (1 / 100000)) latency_time then
    []
  else if Double.lt e.watchdog_ latency_time then
    [⟨"Latency overcome the watchdog (%f,%f,%f)!\n",
      [.num latency_time, .num time, .num e.data_time_prev_]⟩]
  else []

/-- `flush()` after its `getDataPacket()`, with the clock reading `flush_ts`. -/
def flushPacket (e : RealTimeIPC τ) (obuffer : Memory) (flush_ts : timespec)
    (shmem : DataPacket τ) : Outcome τ (Flushed τ) :=
  let bonded : Bool := shmem.header_.bond_flag_ = 1
  let time := if bonded then shmem.header_.time_ else Double.ofRat 0
  let obuffer :=
    if bonded then memcpy obuffer shmem.bufferMemory e.payloadSize
    else memset obuffer 0 e.payloadSize
  let latency_time := Double.sub time e.data_time_prev_
  let flush_time := timer_to_s flush_ts
  -- this return skips the watchdog, and leaves `data_time_prev_` and `flush_time_prev_` alone
  if e.access_mode_.isClient &&
      Double.lt (Double.mul (Double.ofRat 2) e.watchdog_)
        (Double.fabs (Double.sub flush_time time)) then
    { ret := ⟨.WATCHDOG, obuffer, time, latency_time⟩
      self := e
      printed := [⟨"Data not updated! (%f,%f,%f)!\n",
        [.num flush_time, .num time, .num e.watchdog_]⟩] }
  else if bonded then
    let check := e.checkWatchdog latency_time flush_time
    let self :=
      { e with
        start_watchdog_time_ := check.2
        data_time_prev_ := time
        flush_time_prev_ := flush_time }
    let printed := e.watchdogPrinted latency_time time
    -- in soft RT the verdict of the watchdog is dropped
    if check.1 = .WATCHDOG then
      if shmem.header_.rt_flag_ = 1 then
        { ret := ⟨.WATCHDOG,
            if e.access_mode_.isServer then memset obuffer 0 e.payloadSize else obuffer,
            time, latency_time⟩
          self := self
          printed := printed }
      else
        { ret := ⟨.NONE_ERROR, obuffer, time, latency_time⟩, self := self, printed := printed }
    else { ret := ⟨check.1, obuffer, time, latency_time⟩, self := self, printed := printed }
  else
    { ret := ⟨.NONE_ERROR, obuffer, time, latency_time⟩
      self := { e with data_time_prev_ := time, flush_time_prev_ := flush_time }
      printed := [] }

variable [DoubleBytes τ]

/-- `getDataPacket()`. -/
def getDataPacket (e : RealTimeIPC τ) : Access (DataPacket τ) := do
  e.assert (e.dim_with_header_ < sizeofDataPacket)
    "dim_with_header_ < sizeof(RealTimeIPC::DataPacket)"
  match e.access_mode_ with
  | .PIPE_SERVER =>
      e.assert (e.rt_skin_ = .RT_ALCHEMY) "rt_skin_ == RT_ALCHEMY"
      return clear
  | .PIPE_CLIENT =>
      e.assert (e.rt_skin_ = .POSIX) "rt_skin_ == POSIX"
      return clear
  | .SHMEM_SERVER | .SHMEM_CLIENT =>
      e.assert (e.rt_skin_ = .POSIX) "rt_skin_ == POSIX"
      e.lock
      .read fun segment =>
        .done (ofBytes (memcpy (clear : DataPacket τ).bytes segment e.shared_map_))
  | .MQUEUE_SERVER | .MQUEUE_CLIENT =>
      e.assert (e.rt_skin_ = .RT_POSIX) "rt_skin_ == RT_POSIX"
      e.assert false "0"
      return clear

/-- `isHardRT()`. -/
def isHardRT (e : RealTimeIPC τ) : Access (Outcome τ Bool) :=
  if e.dim_with_header_ = sizeofHeader then
    return { ret := false, self := e, printed := [] }
  else do
    let shmem ← e.getDataPacket
    return e.isHardRTPacket shmem

/-- `setHardRT()`. -/
def setHardRT (e : RealTimeIPC τ) : Access (Outcome τ Bool) :=
  if e.dim_with_header_ = sizeofHeader then
    return { ret := false, self := e, printed := [] }
  else do
    let shmem ← e.getDataPacket
    let already : List (Printf τ) :=
      if shmem.header_.rt_flag_ = 1 then [⟨"[ %s ] Already hard RT!\n", [.str e.name_]⟩] else []
    e.setDataPacket { shmem with header_ := { shmem.header_ with rt_flag_ := 1 } }
    return {
      ret := true
      self := e
      printed := [⟨"[ %s ] [START] Set Hard RT\n", [.str e.name_]⟩] ++ already ++
        [⟨"[ %s ] [ DONE] Set Hard RT\n", [.str e.name_]⟩] }

/-- `setSoftRT()`. -/
def setSoftRT (e : RealTimeIPC τ) : Access (Outcome τ Bool) :=
  if e.dim_with_header_ = sizeofHeader then
    return { ret := false, self := e, printed := [] }
  else do
    let shmem ← e.getDataPacket
    e.setDataPacket { shmem with header_ := { shmem.header_ with rt_flag_ := 0 } }
    return {
      ret := true
      self := e
      printed := [⟨"[ %s ] [START] Set Soft RT\n", [.str e.name_]⟩,
        ⟨"[ %s ] [ DONE]Set soft RT\n", [.str e.name_]⟩] }

/-- `isBonded()`. -/
def isBonded (e : RealTimeIPC τ) : Access (Outcome τ Bool) :=
  if e.dim_with_header_ = sizeofHeader then
    return { ret := false, self := e, printed := [] }
  else do
    let shmem ← e.getDataPacket
    return e.isBondedPacket shmem

/-- `bond()`. -/
def bond (e : RealTimeIPC τ) : Access (Outcome τ Bool) :=
  if e.dim_with_header_ = sizeofHeader then
    return { ret := false, self := e, printed := [] }
  else do
    let shmem ← e.getDataPacket
    if shmem.header_.bond_flag_ = 1 then
      return {
        ret := false
        self := e
        printed := [⟨"[ %s ] [START] Bonding\n", [.str e.name_]⟩, e.alreadyBonded] }
    else do
      e.setDataPacket { shmem with header_ := { shmem.header_ with bond_flag_ := 1 } }
      return {
        ret := true
        self := e
        printed := [⟨"[ %s ] [START] Bonding\n", [.str e.name_]⟩,
          ⟨"[ %s ] [DONE] Bonding\n", [.str e.name_]⟩] }

/-- `breakBond()`. -/
def breakBond (e : RealTimeIPC τ) : Access (Outcome τ Bool) := do
  -- unlike the other operations it does not look at `dim_with_header_` first
  let shmem ← e.getDataPacket
  e.setDataPacket
    { shmem with header_ := { shmem.header_ with rt_flag_ := 0, bond_flag_ := 0 } }
  return { ret := true, self := e, printed := [⟨"[ %s ] Break Bond\n", [.str e.name_]⟩] }

/-- `update()`. -/
def update (e : RealTimeIPC τ) (ibuffer : Memory) (time : τ) (n_bytes : ℕ) :
    Access (Outcome τ ErrorCode) :=
  if e.payloadSize ≠ n_bytes then
    return {
      ret := .UNMACTHED_DATA_DIMENSION
      self := e
      printed :=
        [⟨"FATAL ERROR! Shared memory map '%zu' bytes, while the input is of '%zu' bytes\n",
          [.size e.payloadSize, .size n_bytes]⟩] }
  else if e.payloadSize ≤ 0 then
    return { ret := .NONE_ERROR, self := e, printed := [] }
  else do
    let shmem ← e.getDataPacket
    -- the packet is written back even if it was not changed
    e.setDataPacket
      (if shmem.header_.bond_flag_ = 1 then e.command ibuffer time shmem else shmem)
    return { ret := .NONE_ERROR, self := e, printed := [] }

/-- `flush()`, with the contents of its output parameters before the call and the clock reading
`flush_ts`. -/
def flush (e : RealTimeIPC τ) (obuffer : Memory) (time latency_time : τ) (n_bytes : ℕ)
    (flush_ts : timespec) : Access (Outcome τ (Flushed τ)) :=
  if e.payloadSize ≠ n_bytes then
    return {
      ret := ⟨.UNMACTHED_DATA_DIMENSION, obuffer, time, latency_time⟩
      self := e
      printed := [⟨"FATAL ERROR! Wrong Memory Dimensions.\n", []⟩] }
  else if e.payloadSize ≤ 0 then
    return { ret := ⟨.NONE_ERROR, obuffer, time, latency_time⟩, self := e, printed := [] }
  else do
    let shmem ← e.getDataPacket
    return e.flushPacket obuffer flush_ts shmem

/-! ## Attached endpoints -/

omit [Double τ] [DoubleBytes τ] in
/-- The endpoint is attached to a segment with payload size `d`, which no `assert` of its process
objects to. -/
structure Attached (e : RealTimeIPC τ) (d : ℕ) : Prop where
  mode : e.access_mode_ = .SHMEM_SERVER ∨ e.access_mode_ = .SHMEM_CLIENT
  skin : e.rt_skin_ = .POSIX
  mutex : e.mutex_ = true
  dim : e.dim_with_header_ = d + sizeofHeader
  map : e.shared_map_ = d + sizeofHeader
  pos : 0 < d
  le_max : d ≤ MAX_IPC_BUF_LENGHT
  lt_max : e.ndebug = true ∨ d < MAX_IPC_BUF_LENGHT

omit [DoubleBytes τ] in
/-- `init()` attaches an endpoint to every segment of the sizes that `assert` lets through. -/
theorem attached_attach {identifier : String} {watchdog : τ} {mode : AccessMode}
    {dim d : ℕ} {ndebug : Bool} (hmode : mode = .SHMEM_SERVER ∨ mode = .SHMEM_CLIENT)
    (hpos : 0 < d) (hlt : d < MAX_IPC_BUF_LENGHT) :
    Attached ((construct identifier watchdog mode dim ndebug).attach (d + sizeofHeader)) d :=
  ⟨hmode, rfl, rfl, rfl, rfl, hpos, Nat.le_of_lt hlt, .inr hlt⟩

variable {e : RealTimeIPC τ} {d : ℕ}

omit [Double τ] [DoubleBytes τ] in
theorem Attached.payloadSize_eq (h : Attached e d) : e.payloadSize = d := by
  have hle := h.le_max
  unfold MAX_IPC_BUF_LENGHT at hle
  rw [payloadSize, h.dim, sizeofHeader]
  omega

omit [Double τ] [DoubleBytes τ] in
/-- What an endpoint remembers from one operation to the next does not matter. -/
theorem Attached.remember (h : Attached e d) (start_watchdog_time data_time flush_time : τ)
    (bonded is_hard_rt : Bool) :
    Attached
      { e with
        start_watchdog_time_ := start_watchdog_time
        data_time_prev_ := data_time
        flush_time_prev_ := flush_time
        bonded_prev_ := bonded
        is_hard_rt_prev_ := is_hard_rt } d :=
  ⟨h.mode, h.skin, h.mutex, h.dim, h.map, h.pos, h.le_max, h.lt_max⟩

omit [Double τ] [DoubleBytes τ] in
theorem Attached.dim_ne (h : Attached e d) : e.dim_with_header_ ≠ sizeofHeader := by
  have := h.pos
  rw [h.dim]
  omega

omit [Double τ] [DoubleBytes τ] in
/-- The `assert` on the size passes. -/
theorem Attached.assert_dim (h : Attached e d) (expression : String) :
    e.assert (e.dim_with_header_ < sizeofDataPacket) expression = .done () := by
  rw [assert, h.dim]
  rcases h.lt_max with hndebug | hlt
  · simp [hndebug]
  · have : d + sizeofHeader < sizeofDataPacket := by
      unfold sizeofDataPacket
      omega
    simp [this]

omit [Double τ] [DoubleBytes τ] in
theorem Attached.assert_skin (h : Attached e d) (expression : String) :
    e.assert (e.rt_skin_ = .POSIX) expression = .done () := by
  simp [assert, h.skin]

omit [Double τ] [DoubleBytes τ] in
theorem Attached.lock_eq (h : Attached e d) : e.lock = .done () := by
  have hle : ¬ sizeofDataPacket < d + sizeofHeader := by
    have := h.le_max
    unfold sizeofDataPacket
    omega
  simp [lock, h.mutex, h.map, hle]

/-- An attached endpoint sees the segment. -/
theorem Attached.getDataPacket_eq (h : Attached e d) :
    e.getDataPacket = .read fun segment => .done (view d segment) := by
  unfold getDataPacket
  rw [h.assert_dim, h.assert_skin, h.lock_eq, h.map]
  -- server and client run the same branch
  rcases h.mode with hmode | hmode
  · rw [hmode]
    rfl
  · rw [hmode]
    rfl

omit [Double τ] in
/-- An attached endpoint stores a packet in the segment. -/
theorem Attached.setDataPacket_eq (h : Attached e d) (shmem : DataPacket τ) :
    e.setDataPacket shmem = .write (shmem.store d) (.done ()) := by
  unfold setDataPacket
  rw [h.assert_dim, h.assert_skin, h.lock_eq, h.map]
  rcases h.mode with hmode | hmode
  · rw [hmode]
    rfl
  · rw [hmode]
    rfl

/-! ## What the operations of an attached endpoint do -/

/-- `bond()` refuses on a set flag, and otherwise writes the packet back with the flag set. -/
theorem Attached.bond_eq (h : Attached e d) :
    e.bond = .read fun segment =>
      let shmem : DataPacket τ := view d segment
      if shmem.header_.bond_flag_ = 1 then
        .done ⟨false, e, [⟨"[ %s ] [START] Bonding\n", [.str e.name_]⟩, e.alreadyBonded]⟩
      else
        .write (store d { shmem with header_ := { shmem.header_ with bond_flag_ := 1 } })
          (.done ⟨true, e, [⟨"[ %s ] [START] Bonding\n", [.str e.name_]⟩,
            ⟨"[ %s ] [DONE] Bonding\n", [.str e.name_]⟩]⟩) := by
  rw [bond, if_neg h.dim_ne, h.getDataPacket_eq, Routine.read_bind]
  congr 1
  ext segment : 1
  -- both branches of the test on the flag
  rw [Routine.done_bind]
  by_cases hbond : (view d segment : DataPacket τ).header_.bond_flag_ = 1
  · simp only [hbond, if_true]
    rfl
  · simp only [hbond, if_false, h.setDataPacket_eq]
    rfl

/-- `breakBond()` writes the packet back with both flags cleared. -/
theorem Attached.breakBond_eq (h : Attached e d) :
    e.breakBond = .read fun segment =>
      let shmem : DataPacket τ := view d segment
      .write
        (store d { shmem with header_ := { shmem.header_ with rt_flag_ := 0, bond_flag_ := 0 } })
        (.done ⟨true, e, [⟨"[ %s ] Break Bond\n", [.str e.name_]⟩]⟩) := by
  rw [breakBond, h.getDataPacket_eq, Routine.read_bind]
  congr 1
  ext segment : 1
  rw [Routine.done_bind, h.setDataPacket_eq]
  rfl

/-- `setHardRT()` writes the packet back with `rt_flag_` set. -/
theorem Attached.setHardRT_eq (h : Attached e d) :
    e.setHardRT = .read fun segment =>
      let shmem : DataPacket τ := view d segment
      .write (store d { shmem with header_ := { shmem.header_ with rt_flag_ := 1 } })
        (.done ⟨true, e, [⟨"[ %s ] [START] Set Hard RT\n", [.str e.name_]⟩] ++
          (if shmem.header_.rt_flag_ = 1 then [⟨"[ %s ] Already hard RT!\n", [.str e.name_]⟩]
            else []) ++
          [⟨"[ %s ] [ DONE] Set Hard RT\n", [.str e.name_]⟩]⟩) := by
  rw [setHardRT, if_neg h.dim_ne, h.getDataPacket_eq, Routine.read_bind]
  congr 1
  ext segment : 1
  rw [Routine.done_bind, h.setDataPacket_eq]
  rfl

/-- `setSoftRT()` writes the packet back with `rt_flag_` cleared. -/
theorem Attached.setSoftRT_eq (h : Attached e d) :
    e.setSoftRT = .read fun segment =>
      let shmem : DataPacket τ := view d segment
      .write (store d { shmem with header_ := { shmem.header_ with rt_flag_ := 0 } })
        (.done ⟨true, e, [⟨"[ %s ] [START] Set Soft RT\n", [.str e.name_]⟩,
          ⟨"[ %s ] [ DONE]Set soft RT\n", [.str e.name_]⟩]⟩) := by
  rw [setSoftRT, if_neg h.dim_ne, h.getDataPacket_eq, Routine.read_bind]
  congr 1
  ext segment : 1
  rw [Routine.done_bind, h.setDataPacket_eq]
  rfl

/-- An `update()` of the right size writes the packet back, with the command in it if the
segment is bonded. -/
theorem Attached.update_eq (h : Attached e d) (ibuffer : Memory) (time : τ) :
    e.update ibuffer time d = .read fun segment =>
      let shmem : DataPacket τ := view d segment
      .write
        (store d (if shmem.header_.bond_flag_ = 1 then e.command ibuffer time shmem else shmem))
        (.done ⟨.NONE_ERROR, e, []⟩) := by
  have hpos : ¬ e.payloadSize ≤ 0 := by
    rw [h.payloadSize_eq]
    exact Nat.not_le.mpr h.pos
  rw [update, if_neg (not_not.mpr h.payloadSize_eq), if_neg hpos, h.getDataPacket_eq,
    Routine.read_bind]
  congr 1
  ext segment : 1
  rw [Routine.done_bind, h.setDataPacket_eq]
  rfl

/-- An `update()` of another size accesses nothing. -/
theorem Attached.update_of_ne (h : Attached e d) (ibuffer : Memory) (time : τ) {n_bytes : ℕ}
    (hn : n_bytes ≠ d) :
    e.update ibuffer time n_bytes = .done ⟨.UNMACTHED_DATA_DIMENSION, e,
      [⟨"FATAL ERROR! Shared memory map '%zu' bytes, while the input is of '%zu' bytes\n",
        [.size d, .size n_bytes]⟩]⟩ := by
  rw [update, if_pos (by rw [h.payloadSize_eq]; exact hn.symm), h.payloadSize_eq]
  rfl

/-- `isBonded()` reads the packet and changes no member but `bonded_prev_`. -/
theorem Attached.isBonded_eq (h : Attached e d) :
    e.isBonded = .read fun segment => .done (e.isBondedPacket (view d segment)) := by
  rw [isBonded, if_neg h.dim_ne, h.getDataPacket_eq]
  rfl

omit [Double τ] [DoubleBytes τ] in
theorem isBondedPacket_ret (shmem : DataPacket τ) :
    (e.isBondedPacket shmem).ret = decide (shmem.header_.bond_flag_ = 1) := by
  by_cases hprev : e.bonded_prev_ = decide (shmem.header_.bond_flag_ = 1)
  · simp [isBondedPacket, ← hprev]
  · simp [isBondedPacket, hprev]

omit [Double τ] [DoubleBytes τ] in
theorem isBondedPacket_self (shmem : DataPacket τ) :
    (e.isBondedPacket shmem).self =
      { e with bonded_prev_ := shmem.header_.bond_flag_ = 1 } := by
  by_cases hprev : e.bonded_prev_ = decide (shmem.header_.bond_flag_ = 1)
  · simp [isBondedPacket, ← hprev]
  · simp [isBondedPacket, hprev]

/-- `isHardRT()` reads the packet and changes no member but `is_hard_rt_prev_`. -/
theorem Attached.isHardRT_eq (h : Attached e d) :
    e.isHardRT = .read fun segment => .done (e.isHardRTPacket (view d segment)) := by
  rw [isHardRT, if_neg h.dim_ne, h.getDataPacket_eq]
  rfl

omit [Double τ] [DoubleBytes τ] in
theorem isHardRTPacket_ret (shmem : DataPacket τ) :
    (e.isHardRTPacket shmem).ret = decide (shmem.header_.rt_flag_ = 1) := by
  by_cases hprev : e.is_hard_rt_prev_ = decide (shmem.header_.rt_flag_ = 1)
  · simp [isHardRTPacket, ← hprev]
  · simp [isHardRTPacket, hprev]

omit [Double τ] [DoubleBytes τ] in
theorem isHardRTPacket_self (shmem : DataPacket τ) :
    (e.isHardRTPacket shmem).self =
      { e with is_hard_rt_prev_ := shmem.header_.rt_flag_ = 1 } := by
  by_cases hprev : e.is_hard_rt_prev_ = decide (shmem.header_.rt_flag_ = 1)
  · simp [isHardRTPacket, ← hprev]
  · simp [isHardRTPacket, hprev]

/-- A `flush()` of the right size reads the packet and works on it. -/
theorem Attached.flush_eq (h : Attached e d) (obuffer : Memory) (time latency_time : τ)
    (flush_ts : timespec) :
    e.flush obuffer time latency_time d flush_ts =
      .read fun segment => .done (e.flushPacket obuffer flush_ts (view d segment)) := by
  have hpos : ¬ e.payloadSize ≤ 0 := by
    rw [h.payloadSize_eq]
    exact Nat.not_le.mpr h.pos
  rw [flush, if_neg (not_not.mpr h.payloadSize_eq), if_neg hpos, h.getDataPacket_eq,
    Routine.read_bind]
  rfl

/-- A `flush()` of another size accesses nothing and leaves its output parameters alone. -/
theorem Attached.flush_of_ne (h : Attached e d) (obuffer : Memory) (time latency_time : τ)
    {n_bytes : ℕ} (hn : n_bytes ≠ d) (flush_ts : timespec) :
    e.flush obuffer time latency_time n_bytes flush_ts =
      .done ⟨⟨.UNMACTHED_DATA_DIMENSION, obuffer, time, latency_time⟩, e,
        [⟨"FATAL ERROR! Wrong Memory Dimensions.\n", []⟩]⟩ := by
  rw [flush, if_pos (by rw [h.payloadSize_eq]; exact hn.symm)]
  rfl

omit [DoubleBytes τ] in
/-- The watchdog returns one of two codes. -/
theorem checkWatchdog_code (e : RealTimeIPC τ) (latency_time flush_time : τ) :
    (e.checkWatchdog latency_time flush_time).1 = .NONE_ERROR ∨
      (e.checkWatchdog latency_time flush_time).1 = .WATCHDOG := by
  unfold checkWatchdog
  split_ifs <;> simp

omit [DoubleBytes τ] in
/-- The endpoint that a `flush()` leaves is attached as before. -/
theorem attached_flushPacket (h : Attached e d) (obuffer : Memory) (flush_ts : timespec)
    (shmem : DataPacket τ) : (e.flushPacket obuffer flush_ts shmem).self.Attached d ∧
      (e.flushPacket obuffer flush_ts shmem).self.access_mode_ = e.access_mode_ := by
  simp only [flushPacket]
  split_ifs
  -- every branch changes at most what the endpoint remembers
  all_goals exact ⟨h.remember _ _ _ _ _, rfl⟩

end RealTimeIPC

/-! ## A server and a client with one byte of payload -/

/-- A server with one byte of payload. -/
def oneByteServer : RealTimeIPC Binary64 :=
  (RealTimeIPC.construct "ipc" (Double.ofRat 1) .SHMEM_SERVER 1 false).attach (1 + sizeofHeader)

theorem attached_oneByteServer : oneByteServer.Attached 1 :=
  RealTimeIPC.attached_attach (.inl rfl) (by decide) (by decide)

/-- A client with one byte of payload. -/
def oneByteClient : RealTimeIPC Binary64 :=
  (RealTimeIPC.construct "ipc" (Double.ofRat 1) .SHMEM_CLIENT 1 false).attach (1 + sizeofHeader)

theorem attached_oneByteClient : oneByteClient.Attached 1 :=
  RealTimeIPC.attached_attach (.inr rfl) (by decide) (by decide)

end RealtimeUtilities
