import Mathlib.Tactic.Ring
import RealtimeUtilities.ToMathlib.Loop
import RealtimeUtilities.ToMathlib.Stride

/-!
# Pre-faulting

A thread that meets a page for the first time is delayed by a page fault, so a real-time program
touches its pages before it starts. `reserve_process_memory()` does so with a buffer on the heap and
`prove_thread_stack_use_is_safe()` with one on the stack: both write one byte in every page size,
from the start of the buffer on. The buffer need not start where a page does.

## Main definitions

* `touchPages`: the loop of the two functions;
* `TouchesAllPages`: what the writes to a buffer are for.

## Main results

* `mem_touchPages_iff`: what the loop writes;
* `prefaults_iff`: the buffers all of whose pages are touched.
-/

namespace RealtimeUtilities

/-! ## The functions -/

/-- The members of `struct rusage` that are read. -/
structure rusage where
  ru_majflt : ℤ
  ru_minflt : ℤ

/-- The static variables of `show_new_pagefault_count()`. -/
structure PagefaultCount where
  last_majflt : ℤ
  last_minflt : ℤ

/-- The line that `show_new_pagefault_count()` prints. -/
structure PagefaultLine where
  logtext : String
  majflt : ℤ
  allowed_maj : String
  minflt : ℤ
  allowed_min : String

/-- The conversion of a `long` to an `int`. -/
def longToInt (n : ℤ) : ℤ :=
  n.bmod (2 ^ 32)

/-- `show_new_pagefault_count(logtext, allowed_maj, allowed_min)`, where `getrusage()` gives
`usage`: what it returns, the line, and the static variables after it. -/
def show_new_pagefault_count (count : PagefaultCount) (usage : rusage)
    (logtext allowed_maj allowed_min : String) : Bool × PagefaultLine × PagefaultCount :=
  (true,
    { logtext
      majflt := usage.ru_majflt - count.last_majflt
      allowed_maj
      minflt := usage.ru_minflt - count.last_minflt
      allowed_min },
    { last_majflt := longToInt usage.ru_majflt
      last_minflt := longToInt usage.ru_minflt })

/-- The variable `i` of the loop, and the bytes that were written to `buffer`, with their
indices. -/
structure PageLoop where
  i : ℕ
  writes : List (ℕ × UInt8)

/-- `buffer[i] = value(i)`, and then `i += sysconf(_SC_PAGESIZE)` in the type `size_t`. -/
def PageLoop.turn (pagesize : ℕ) (value : ℕ → UInt8) (s : PageLoop) : PageLoop where
  i := (s.i + pagesize) % 2 ^ 64
  writes := s.writes ++ [(s.i, value s.i)]

/-- The loop `for (i = 0; i < size; …)` over a buffer of `size` bytes, given up after `fuel`
turns. -/
def touchPages (fuel pagesize size : ℕ) (value : ℕ → UInt8) : Option (List (ℕ × UInt8)) :=
  (Loop.whileDo (fun s => decide (s.i < size)) (fun s => some (s.turn pagesize value)) fuel
    ⟨0, []⟩).map PageLoop.writes

/-- What `prove_thread_stack_use_is_safe()` returns and does. -/
structure StackUse where
  ret : Bool
  writes : List (ℕ × UInt8)
  printed : PagefaultLine
  count : PagefaultCount

/-- `prove_thread_stack_use_is_safe(stacksize)`. The index is converted to a `char`. -/
def prove_thread_stack_use_is_safe (count : PagefaultCount) (usage : rusage)
    (fuel pagesize stacksize : ℕ) : Option StackUse := do
  let writes ← touchPages fuel pagesize stacksize fun i => UInt8.ofNat i
  let (ret, printed, count) :=
    show_new_pagefault_count count usage "Caused by using thread stack" "0" "0"
  return { ret, writes, printed, count }

/-- What `reserve_process_memory()` returns and does. -/
structure Reserved where
  ret : Bool
  writes : List (ℕ × UInt8)

/-- `reserve_process_memory(size)`, where `malloc(size)` succeeds. -/
def reserve_process_memory (fuel pagesize size : ℕ) : Option Reserved := do
  let writes ← touchPages fuel pagesize size fun _ => 0
  return { ret := true, writes }

/-! ## What the loop writes -/

/-- The pages of a buffer at the address `buffer` are touched: each page that contains one of its
bytes contains one that was written. No byte was written beyond its end. -/
structure TouchesAllPages (pagesize buffer size : ℕ) (writes : List (ℕ × UInt8)) : Prop where
  pages : ∀ i < size, ∃ x ∈ writes, (buffer + x.1) / pagesize = (buffer + i) / pagesize
  bounds : ∀ x ∈ writes, x.1 < size

/-- A function whose result after `fuel` turns is `run fuel` ends, and has touched the pages of its
buffer then. -/
def Prefaults (run : ℕ → Option (List (ℕ × UInt8))) (pagesize buffer size : ℕ) : Prop :=
  ∃ writes n, (∀ fuel ≥ n, run fuel = some writes) ∧ TouchesAllPages pagesize buffer size writes

/-- No sum of the loop wraps around. -/
def NoWrap (pagesize size : ℕ) : Prop :=
  ∀ k, k * pagesize < size → (k + 1) * pagesize < 2 ^ 64

/-- The loop has come to a multiple of the page size, and has written at all before. -/
structure Touched (pagesize size : ℕ) (value : ℕ → UInt8) (s : PageLoop) : Prop where
  i : s.i = s.writes.length * pagesize
  writes : s.writes =
    (List.range s.writes.length).map fun k => (k * pagesize, value (k * pagesize))
  below : ∀ k < s.writes.length, k * pagesize < size

variable {fuel pagesize size buffer : ℕ} {value : ℕ → UInt8} {s : PageLoop}

theorem touched_start : Touched pagesize size value ⟨0, []⟩ where
  i := (Nat.zero_mul _).symm
  writes := rfl
  below _ hk := absurd hk (Nat.not_lt_zero _)

/-- A turn writes at the next multiple. -/
theorem Touched.turn (h : Touched pagesize size value s) (hwrap : NoWrap pagesize size)
    (hlt : s.i < size) : Touched pagesize size value (s.turn pagesize value) := by
  have hlength : (s.turn pagesize value).writes.length = s.writes.length + 1 := by
    simp [PageLoop.turn]
  have hnext := hwrap s.writes.length (h.i ▸ hlt)
  refine ⟨?_, ?_, fun k hk => ?_⟩
  · rw [hlength, PageLoop.turn, h.i, ← Nat.succ_mul, Nat.mod_eq_of_lt hnext]
  · rw [hlength, List.range_succ, List.map_append, ← h.writes, List.map_singleton, ← h.i]
    rfl
  · rw [hlength, Nat.lt_succ_iff_lt_or_eq] at hk
    rcases hk with hk | rfl
    · exact h.below k hk
    · exact h.i ▸ hlt

/-- The loop writes at the multiples of the page size below `size`. -/
theorem mem_touchPages_iff (hwrap : NoWrap pagesize size) {writes : List (ℕ × UInt8)}
    (h : touchPages fuel pagesize size value = some writes) {x : ℕ × UInt8} :
    x ∈ writes ↔ ∃ k, k * pagesize < size ∧ x = (k * pagesize, value (k * pagesize)) := by
  obtain ⟨s, hs, rfl⟩ := Option.map_eq_some_iff.mp h
  have hturn : ∀ s s' : PageLoop, Touched pagesize size value s → decide (s.i < size) = true →
      some (s.turn pagesize value) = some s' → Touched pagesize size value s' := by
    rintro s _ htouched hcond ⟨⟩
    exact htouched.turn hwrap (of_decide_eq_true hcond)
  obtain ⟨htouched, hend⟩ := Loop.whileDo_invariant _ hturn touched_start hs
  -- the loop has ended at the first multiple that is not below `size`
  have hsize : size ≤ s.writes.length * pagesize := htouched.i ▸ not_lt.mp (of_decide_eq_false hend)
  rw [htouched.writes, List.mem_map]
  constructor
  · rintro ⟨k, hk, rfl⟩
    exact ⟨k, htouched.below k (List.mem_range.mp hk), rfl⟩
  · rintro ⟨k, hk, rfl⟩
    exact ⟨k, List.mem_range.mpr (lt_of_mul_lt_mul_right (hk.trans_le hsize) (Nat.zero_le _)), rfl⟩

/-- The loop ends. -/
theorem exists_touchPages (hp : 0 < pagesize) (hwrap : NoWrap pagesize size)
    (value : ℕ → UInt8) (hfuel : size < fuel) :
    ∃ writes, touchPages fuel pagesize size value = some writes := by
  have hends : ∃ s, Loop.whileDo (fun s : PageLoop => decide (s.i < size))
      (fun s => some (s.turn pagesize value)) fuel ⟨0, []⟩ = some s := by
    refine Loop.exists_whileDo (Touched pagesize size value) (fun s => size - s.i)
      (fun s htouched hcond => ?_) touched_start hfuel
    have hlt := of_decide_eq_true hcond
    have hturn := htouched.turn hwrap hlt
    refine ⟨_, rfl, hturn, ?_⟩
    -- the variable has grown by the page size
    have hi := hturn.i
    rw [PageLoop.turn, List.length_append, List.length_singleton, Nat.succ_mul, ← htouched.i] at hi
    simp only [PageLoop.turn] at hi ⊢
    omega
  obtain ⟨s, hs⟩ := hends
  exact ⟨s.writes, Option.map_eq_some_iff.mpr ⟨s, hs, rfl⟩⟩

/-! ## The pages of a buffer -/

/-- The writes are the samples of the buffer. -/
theorem touchesAllPages_iff (hwrap : NoWrap pagesize size) {writes : List (ℕ × UInt8)}
    (h : touchPages fuel pagesize size value = some writes) :
    TouchesAllPages pagesize buffer size writes ↔
      Stride.blocks pagesize buffer size ⊆ Stride.samples pagesize buffer size := by
  constructor
  · rintro htouches _ ⟨i, hi, rfl⟩
    obtain ⟨x, hx, hpage⟩ := htouches.pages i hi
    obtain ⟨k, hk, rfl⟩ := (mem_touchPages_iff hwrap h).mp hx
    exact ⟨k, hk, hpage⟩
  · intro hsubset
    refine ⟨fun i hi => ?_, fun x hx => ?_⟩
    · obtain ⟨k, hk, hpage⟩ := hsubset ⟨i, hi, rfl⟩
      exact ⟨_, (mem_touchPages_iff hwrap h).mpr ⟨k, hk, rfl⟩, hpage⟩
    · obtain ⟨k, hk, rfl⟩ := (mem_touchPages_iff hwrap h).mp hx
      exact hk

theorem prefaults_touchPages_iff (hp : 0 < pagesize) (hwrap : NoWrap pagesize size)
    (value : ℕ → UInt8) :
    Prefaults (fun fuel => touchPages fuel pagesize size value) pagesize buffer size ↔
      buffer % pagesize + (size - 1) % pagesize < pagesize := by
  rw [← Stride.blocks_subset_samples_iff hp]
  constructor
  · rintro ⟨writes, n, hends, htouches⟩
    exact (touchesAllPages_iff hwrap (hends n le_rfl)).mp htouches
  · intro hsubset
    obtain ⟨writes, hwrites⟩ := exists_touchPages hp hwrap value (Nat.lt_succ_self size)
    refine ⟨writes, size + 1, fun fuel hfuel => ?_, (touchesAllPages_iff hwrap hwrites).mpr hsubset⟩
    obtain ⟨s, hs, rfl⟩ := Option.map_eq_some_iff.mp hwrites
    exact Option.map_eq_some_iff.mpr ⟨s, Loop.whileDo_mono hs hfuel, rfl⟩

/-- **The loops touch all pages of a buffer exactly if the offset of the buffer in its first page
and the part of `size - 1` beyond whole pages make up less than a page.** Otherwise the buffer has
its last byte in one page more than they touch. -/
theorem prefaults_iff (hp : 0 < pagesize) (hwrap : NoWrap pagesize size) (buffer : ℕ) :
    (Prefaults (fun fuel => (reserve_process_memory fuel pagesize size).map Reserved.writes)
        pagesize buffer size ↔
      buffer % pagesize + (size - 1) % pagesize < pagesize) ∧
    ∀ count usage, Prefaults (fun fuel =>
        (prove_thread_stack_use_is_safe count usage fuel pagesize size).map StackUse.writes)
        pagesize buffer size ↔
      buffer % pagesize + (size - 1) % pagesize < pagesize := by
  have hreserve : ∀ fuel, (reserve_process_memory fuel pagesize size).map Reserved.writes =
      touchPages fuel pagesize size fun _ => 0 := by
    intro fuel
    rw [reserve_process_memory]
    cases touchPages fuel pagesize size fun _ => 0 <;> rfl
  have hprove : ∀ count usage fuel,
      (prove_thread_stack_use_is_safe count usage fuel pagesize size).map StackUse.writes =
        touchPages fuel pagesize size fun i => UInt8.ofNat i := by
    intro count usage fuel
    rw [prove_thread_stack_use_is_safe]
    cases touchPages fuel pagesize size fun i => UInt8.ofNat i <;> rfl
  simp only [hreserve, hprove]
  exact ⟨prefaults_touchPages_iff hp hwrap _, fun _ _ => prefaults_touchPages_iff hp hwrap _⟩

/-- A buffer that starts where a page does. -/
theorem prefaults_iff_aligned :
    Prefaults (fun fuel => (reserve_process_memory fuel 4096 10000).map Reserved.writes)
      4096 0x11000 10000 :=
  (prefaults_iff (by decide) (fun k hk => by grind) 0x11000).1.mpr (by decide)

/-- A buffer of two pages that starts 16 bytes into a page has bytes in three, and two are
touched. -/
theorem not_prefaults_of_malloc :
    ¬ Prefaults (fun fuel => (reserve_process_memory fuel 4096 8192).map Reserved.writes)
      4096 0x11010 8192 := by
  rintro ⟨writes, n, hends, htouches⟩
  obtain rfl : [(0, 0), (4096, 0)] = writes := Option.some.inj (hends (n + 3) (by omega))
  obtain ⟨x, hx, hpage⟩ := htouches.pages 8191 (by decide)
  -- the last byte is in the third page
  rcases List.mem_cons.mp hx with rfl | hx
  · exact absurd hpage (by decide)
  · obtain rfl := List.mem_singleton.mp hx
    exact absurd hpage (by decide)

end RealtimeUtilities
