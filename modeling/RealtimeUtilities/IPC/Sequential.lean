import Mathlib.Logic.Function.Basic
import RealtimeUtilities.IPC.Register
import RealtimeUtilities.ToMathlib.Execution

/-!
# Operations that do not overlap

Any number of endpoints is attached to a segment that a server has created, and their operations
run one after the other. Then the segment is the gated register of `Register`, in every run
(`segment_refines_register`).

The contents of the register are a matter of history: it is bonded if a `bond()` came after the
last `breakBond()` (`BondedAfter`), and it holds the command of the latest `update()` of the
right size that found it bonded (`Latest`). Breaking the bond and bonding again leave the
command alone, so a `flush()` delivers the command of an earlier bond until the first
`update()` of the new one (`delivered_command`, `broken_command_delivered`).
-/

namespace RealtimeUtilities

open DataPacket Execution

/-- The segment and the endpoints attached to it. -/
structure System (ι τ : Type) where
  segment : Memory
  endpoints : ι → RealTimeIPC τ

variable {ι τ : Type} {d : ℕ}

/-- The endpoint `i` runs a whole request: its reply and the system after it, nothing if the
request is aborted. -/
def System.request [DecidableEq ι] [Double τ] [DoubleBytes τ] (s : System ι τ) (i : ι)
    (request : Request τ) : Option (Reply τ × System ι τ) :=
  match (request.access (s.endpoints i)).exec s.segment with
  | (.ok o, m) =>
      some (o.ret, { segment := m, endpoints := Function.update s.endpoints i o.self })
  | (.error _, _) => none

/-- One request of one endpoint. -/
def System.step [DecidableEq ι] [Double τ] [DoubleBytes τ] (s : System ι τ)
    (x : ι × Request τ) : Option (System ι τ) :=
  (s.request x.1 x.2).map Prod.snd

/-- The register after the requests `reqs`. -/
def registerAfter [Double τ] (d : ℕ) (reqs : List (ι × Request τ)) : Register τ d :=
  reqs.foldl (fun r x => r.apply x.2) Register.zero

/-! ## Histories -/

/-- A `bond()` came after the last `breakBond()`. -/
def BondedAfter (reqs : List (ι × Request τ)) : Prop :=
  ∃ pre i post, reqs = pre ++ (i, .write .bond) :: post ∧ ∀ x ∈ post, x.2 ≠ .write .breakBond

/-- The request between `pre` and `post` is the latest `update()` with `d` bytes that found the
segment bonded. -/
structure Latest (d : ℕ) (reqs pre : List (ι × Request τ)) (i : ι) (ibuffer : Memory) (time : τ)
    (post : List (ι × Request τ)) : Prop where
  split : reqs = pre ++ (i, .write (.update ibuffer time d)) :: post
  bonded : BondedAfter pre
  last : ∀ a j ib t b, post = a ++ (j, .write (.update ib t d)) :: b →
    ¬ BondedAfter (pre ++ (i, .write (.update ibuffer time d)) :: a)

theorem not_bondedAfter_nil : ¬ BondedAfter ([] : List (ι × Request τ)) := by
  rintro ⟨pre, i, post, h, -⟩
  simp at h

/-- One more request bonds the segment, or leaves it bonded if it is not a `breakBond()`. -/
theorem bondedAfter_concat {reqs : List (ι × Request τ)} {x : ι × Request τ} :
    BondedAfter (reqs ++ [x]) ↔
      x.2 = .write .bond ∨ (BondedAfter reqs ∧ x.2 ≠ .write .breakBond) := by
  constructor
  · rintro ⟨pre, i, post, h, hpost⟩
    -- the `bond()` is the last request, or came before it
    rcases List.concat_eq_append_cons h with ⟨-, -, rfl⟩ | ⟨post', rfl, rfl⟩
    · exact .inl rfl
    · exact .inr ⟨⟨pre, i, post', rfl, fun y hy => hpost y (by simp [hy])⟩, hpost x (by simp)⟩
  · rintro (hx | ⟨⟨pre, i, post, rfl, hpost⟩, hx⟩)
    · refine ⟨reqs, x.1, [], ?_, by simp⟩
      rw [← hx]
    · refine ⟨pre, i, post ++ [x], by simp, fun y hy => ?_⟩
      rcases List.mem_append.mp hy with hy | hy
      · exact hpost y hy
      · rw [List.mem_singleton.mp hy]
        exact hx

/-- In a bonded history nothing broke the bond since the last `bond()` that came in an unbonded
one. -/
theorem exists_bond_of_bondedAfter {reqs : List (ι × Request τ)}
    (h : BondedAfter reqs) :
    ∃ a k b, reqs = a ++ (k, .write .bond) :: b ∧ ¬ BondedAfter a ∧
      ∀ x ∈ b, x.2 ≠ .write .breakBond := by
  induction reqs using List.reverseRecOn with
  | nil => exact absurd h not_bondedAfter_nil
  | append_singleton reqs x ih =>
    by_cases hbonded : BondedAfter reqs
    · obtain ⟨a, k, b, rfl, ha, hb⟩ := ih hbonded
      refine ⟨a, k, b ++ [x], by simp, ha, fun y hy => ?_⟩
      rcases List.mem_append.mp hy with hy | hy
      · exact hb y hy
      · rw [List.mem_singleton.mp hy]
        rcases bondedAfter_concat.mp h with hx | hx
        · rw [hx]
          simp
        · exact hx.2
    · -- the last request is the `bond()`
      have hx : x.2 = .write .bond := (bondedAfter_concat.mp h).resolve_right fun hx =>
        hbonded hx.1
      exact ⟨reqs, x.1, [], by rw [← hx], hbonded, by simp⟩

/-- The latest command is younger than the bond if an `update()` came under this bond. -/
theorem Latest.length_lt_iff {reqs a pre b post : List (ι × Request τ)} {i k : ι} {ibuffer : Memory}
    {time : τ} (h : Latest d reqs pre i ibuffer time post)
    (hsplit : reqs = a ++ (k, .write .bond) :: b) (hb : ∀ x ∈ b, x.2 ≠ .write .breakBond) :
    a.length < pre.length ↔
      ∃ x ∈ b, ∃ ib t, x.2 = .write (.update ib t d) := by
  have heq : pre ++ (i, .write (.update ibuffer time d)) :: post = a ++ (k, .write .bond) :: b :=
    h.split.symm.trans hsplit
  -- the `update()` came before the `bond()`, or after it
  rcases List.append_eq_append_iff.mp heq with ⟨c, rfl, hc⟩ | ⟨c, rfl, hc⟩
  · refine iff_of_false (by simp) ?_
    rintro ⟨⟨j, request⟩, hx, ib, t, rfl⟩
    obtain ⟨b₁, b₂, rfl⟩ := List.append_of_mem hx
    cases c with
    | nil => cases hc
    | cons y c =>
      obtain ⟨rfl, rfl⟩ := List.cons_eq_cons.mp hc
      -- under this bond a later `update()` would have replaced the command
      have hpost : c ++ (k, .write .bond) :: (b₁ ++ (j, .write (.update ib t d)) :: b₂) =
          (c ++ (k, .write .bond) :: b₁) ++ (j, .write (.update ib t d)) :: b₂ := by simp
      refine h.last _ j ib t b₂ hpost ?_
      exact ⟨pre ++ (i, .write (.update ibuffer time d)) :: c, k, b₁, by simp,
        fun x hx => hb x (List.mem_append_left _ hx)⟩
  · cases c with
    | nil => cases hc
    | cons y c =>
      obtain ⟨rfl, rfl⟩ := List.cons_eq_cons.mp hc
      have hmem : (i, .write (.update ibuffer time d)) ∈
          c ++ (i, .write (.update ibuffer time d)) :: post := List.mem_append_right c (by simp)
      exact iff_of_true (by simp) ⟨_, hmem, ibuffer, time, rfl⟩

theorem registerAfter_concat [Double τ] (reqs : List (ι × Request τ)) (x : ι × Request τ) :
    registerAfter d (reqs ++ [x]) = (registerAfter d reqs).apply x.2 := by
  rw [registerAfter, List.foldl_append]
  rfl

/-- What a request makes of the flag of the bond. -/
theorem Register.bonded_apply (r : Register τ d) (request : Request τ) :
    (r.apply request).bonded = true ↔
      request = .write .bond ∨ (r.bonded = true ∧ request ≠ .write .breakBond) := by
  cases request with
  | write op =>
    cases op with
    | bond => by_cases hbonded : r.bonded = true <;> simp [apply, hbonded]
    | update ibuffer time n_bytes =>
      by_cases hstore : r.bonded = true ∧ n_bytes = d <;> simp [apply, hstore]
    | _ => simp [apply]
  | _ => simp [apply]

/-- The register is bonded if the history says so. -/
theorem bonded_registerAfter [Double τ] (reqs : List (ι × Request τ)) :
    (registerAfter d reqs).bonded = true ↔ BondedAfter reqs := by
  induction reqs using List.reverseRecOn with
  | nil => exact iff_of_false Bool.false_ne_true not_bondedAfter_nil
  | append_singleton reqs x ih =>
    rw [registerAfter_concat, Register.bonded_apply, ih, bondedAfter_concat]

/-- What a request makes of the command: an `update()` of the right size that finds the register
bonded replaces it, and nothing else touches it. -/
theorem Register.command_apply (r : Register τ d) (request : Request τ) :
    (∃ ibuffer time, request = .write (.update ibuffer time d) ∧ r.bonded = true ∧
      (r.apply request).stamp = time ∧ ∀ j, (r.apply request).payload j = ibuffer j) ∨
    ((∀ ibuffer time, request = .write (.update ibuffer time d) → ¬ r.bonded = true) ∧
      (r.apply request).stamp = r.stamp ∧ (r.apply request).payload = r.payload) := by
  by_cases hstore : ∃ ibuffer time, request = .write (.update ibuffer time d) ∧ r.bonded = true
  · obtain ⟨ibuffer, time, rfl, hbonded⟩ := hstore
    refine .inl ⟨ibuffer, time, rfl, hbonded, ?_⟩
    simp [apply, hbonded]
  · refine .inr ⟨fun ibuffer time heq hbonded => hstore ⟨ibuffer, time, heq, hbonded⟩, ?_⟩
    cases request with
    | write op =>
      cases op with
      | update ibuffer time n_bytes =>
        -- the gate is closed
        have hgate : ¬ (r.bonded = true ∧ n_bytes = d) := by
          rintro ⟨hbonded, rfl⟩
          exact hstore ⟨ibuffer, time, rfl, hbonded⟩
        rw [apply, if_neg hgate]
        exact ⟨rfl, rfl⟩
      | bond =>
        rw [apply]
        split_ifs <;> exact ⟨rfl, rfl⟩
      | _ => exact ⟨rfl, rfl⟩
    | _ => exact ⟨rfl, rfl⟩

/-- The register holds the command of the latest `update()` of the right size that found it
bonded, and zeros if there was none. -/
theorem command_registerAfter [Double τ] (reqs : List (ι × Request τ)) :
    (∃ pre i ibuffer time post, Latest d reqs pre i ibuffer time post ∧
      (registerAfter d reqs).stamp = time ∧ ∀ j, (registerAfter d reqs).payload j = ibuffer j) ∨
    ((∀ pre i ibuffer time post, reqs = pre ++ (i, .write (.update ibuffer time d)) :: post →
        ¬ BondedAfter pre) ∧
      (registerAfter d reqs).stamp = Double.ofRat 0 ∧
      ∀ j, (registerAfter d reqs).payload j = 0) := by
  induction reqs using List.reverseRecOn with
  | nil => exact .inr ⟨fun pre i ib t post h => by simp at h, rfl, fun _ => rfl⟩
  | append_singleton reqs x ih =>
    obtain ⟨k, request⟩ := x
    rw [registerAfter_concat]
    rcases (registerAfter d reqs).command_apply request with
      ⟨ib, t, rfl, hbonded, hstamp, hpayload⟩ | ⟨hnone, hstamp, hpayload⟩
    · -- the last request is the latest one that stores a command
      refine .inl ⟨reqs, k, ib, t, [], ⟨rfl, (bonded_registerAfter reqs).mp hbonded, ?_⟩, hstamp,
        hpayload⟩
      intro a j ib' t' b h
      simp at h
    · rw [hstamp, hpayload]
      -- the last request stores nothing, so what holds is what held before it
      have hlast : ∀ ib t, request = .write (.update ib t d) → ¬ BondedAfter reqs :=
        fun ib t heq hb => hnone ib t heq ((bonded_registerAfter reqs).mpr hb)
      rcases ih with ⟨pre, i, ib, t, post, hlatest, hvalues⟩ | ⟨hnever, hvalues⟩
      · refine .inl ⟨pre, i, ib, t, post ++ [(k, request)], ⟨?_, hlatest.bonded, ?_⟩, hvalues⟩
        · rw [hlatest.split]
          simp
        · intro a j ib' t' b h
          rcases List.concat_eq_append_cons h with ⟨-, rfl, heq⟩ | ⟨b', -, hpost⟩
          · rw [← hlatest.split]
            exact hlast ib' t' (Prod.mk.inj heq).2
          · exact hlatest.last a j ib' t' b' hpost
      · refine .inr ⟨fun pre i ib t post h => ?_, hvalues⟩
        rcases List.concat_eq_append_cons h with ⟨-, rfl, heq⟩ | ⟨b', -, hreqs⟩
        · exact hlast ib t (Prod.mk.inj heq).2
        · exact hnever pre i ib t b' hreqs

/-! ## Runs -/

/-- The endpoints `eps` right after a server has created their segment with payload size `d`,
in memory that held `garbage`. -/
def System.created (d : ℕ) (garbage : Memory) (eps : ι → RealTimeIPC τ) : System ι τ where
  segment := memset garbage 0 (d + sizeofHeader)
  endpoints := eps

/-- The segment holds the register `r`, and the endpoints are attached in the modes of `eps`. -/
structure Holds [DoubleBytes τ] (eps : ι → RealTimeIPC τ) (r : Register τ d)
    (s : System ι τ) : Prop where
  attached : ∀ i, (s.endpoints i).Attached d
  mode : ∀ i, (s.endpoints i).access_mode_ = (eps i).access_mode_
  represents : r.Represents s.segment

section Runs

variable [DecidableEq ι] [Double τ] [DoubleBytes τ] [LawfulDoubleBytes τ]
variable {eps : ι → RealTimeIPC τ} {r : Register τ d} {s : System ι τ} {garbage : Memory}
variable {reqs : List (ι × Request τ)}

/-- A request runs to its end, is answered as by the register, and leaves its new contents. -/
theorem Holds.request (h : Holds eps r s) (i : ι) (request : Request τ) :
    ∃ reply s', s.request i request = some (reply, s') ∧
      r.Answers (eps i).access_mode_ request reply ∧ Holds eps (r.apply request) s' ∧
      (¬ request.Writes → s'.segment = s.segment) := by
  obtain ⟨o, ho, hself, hmode, hanswers, hrep, hsame⟩ :=
    Register.simulates (h.attached i) h.represents request
  -- only the endpoint that ran the request can have changed
  refine ⟨o.ret, ⟨((request.access (s.endpoints i)).exec s.segment).2,
    Function.update s.endpoints i o.self⟩, ?_, ?_, ⟨fun j => ?_, fun j => ?_, hrep⟩, hsame⟩
  · rw [System.request]
    split
    · next o' m heq =>
      rw [heq] at ho
      obtain rfl := Except.ok.inj ho
      simp only [heq]
    · next heq =>
      rw [heq] at ho
      cases ho
  · rw [← h.mode i]
    exact hanswers
  · by_cases hj : j = i
    · subst hj
      simpa using hself
    · simpa [hj] using h.attached j
  · by_cases hj : j = i
    · subst hj
      simpa [h.mode j] using hmode
    · simpa [hj] using h.mode j

/-- A `flush()` of the right size delivers what the register holds. -/
theorem Holds.flush (h : Holds eps r s) (i : ι) (obuffer : Memory) (time latency_time : τ)
    (flush_ts : timespec) :
    ∃ f s', s.request i (.flush obuffer time latency_time d flush_ts) = some (.flushed f, s') ∧
      r.Delivers (eps i).access_mode_ obuffer f := by
  obtain ⟨reply, s', hrequest, hanswers, -⟩ :=
    h.request i (.flush obuffer time latency_time d flush_ts)
  rw [Register.Answers, if_pos rfl] at hanswers
  obtain ⟨f, rfl, hdelivers⟩ := hanswers
  exact ⟨f, s', hrequest, hdelivers⟩

/-- Requests run one after the other leave the register that they make. -/
theorem Holds.run (h : Holds eps r s) (reqs : List (ι × Request τ)) :
    ∃ s', Execution.run System.step s reqs = some s' ∧
      Holds eps (reqs.foldl (fun r x => r.apply x.2) r) s' := by
  induction reqs generalizing r s with
  | nil => exact ⟨s, rfl, h⟩
  | cons x reqs ih =>
    obtain ⟨reply, t, hrequest, -, ht, -⟩ := h.request x.1 x.2
    obtain ⟨s', hrun, hs'⟩ := ih ht
    refine ⟨s', run_cons_eq_some.mpr ⟨t, ?_, hrun⟩, hs'⟩
    rw [System.step, hrequest]
    rfl

/-- The register after the requests `reqs` to a new segment is what the segment then holds. -/
theorem holds_registerAfter (hd : d ≤ MAX_IPC_BUF_LENGHT)
    (hattached : ∀ i, (eps i).Attached d) (garbage : Memory) (reqs : List (ι × Request τ)) :
    ∃ s, run System.step (System.created d garbage eps) reqs = some s ∧
      Holds eps (registerAfter d reqs) s := by
  refine Holds.run ⟨hattached, fun _ => rfl, ?_⟩ reqs
  exact Register.represents_zero hd fun k hk => memset_of_lt _ _ hk

/-- **Operations that do not overlap see a gated register.** Every sequence of requests by
attached endpoints to a segment that was just created runs to its end, and then

* the segment holds the register that the requests make;
* every further request is answered as by this register, and leaves the segment with its new
  contents, or as it is if the request does not write;
* the register is bonded if a `bond()` came after the last `breakBond()`, and it has the stamp and
  the payload of the latest `update()` of the right size that found it bonded, zeros if there
  was none. -/
theorem segment_refines_register (hd : d ≤ MAX_IPC_BUF_LENGHT)
    (hattached : ∀ i, (eps i).Attached d) (garbage : Memory) (reqs : List (ι × Request τ)) :
    ∃ s, run System.step (System.created d garbage eps) reqs = some s ∧
      (registerAfter d reqs).Represents s.segment ∧
      (∀ i request, ∃ reply s', s.request i request = some (reply, s') ∧
        (registerAfter d reqs).Answers (eps i).access_mode_ request reply ∧
        ((registerAfter d reqs).apply request).Represents s'.segment ∧
        (¬ request.Writes → s'.segment = s.segment)) ∧
      ((registerAfter d reqs).bonded = true ↔ BondedAfter reqs) ∧
      ((∃ pre i ibuffer time post, Latest d reqs pre i ibuffer time post ∧
          (registerAfter d reqs).stamp = time ∧
          ∀ j, (registerAfter d reqs).payload j = ibuffer j) ∨
        ((∀ pre i ibuffer time post, reqs = pre ++ (i, .write (.update ibuffer time d)) :: post →
            ¬ BondedAfter pre) ∧
          (registerAfter d reqs).stamp = Double.ofRat 0 ∧
          ∀ j, (registerAfter d reqs).payload j = 0)) := by
  obtain ⟨s, hrun, hs⟩ := holds_registerAfter hd hattached garbage reqs
  refine ⟨s, hrun, hs.represents, fun i request => ?_, bonded_registerAfter reqs,
    command_registerAfter reqs⟩
  obtain ⟨reply, s', hrequest, hanswers, hs', hsame⟩ := hs.request i request
  exact ⟨reply, s', hrequest, hanswers, hs'.represents, hsame⟩

/-! ## Commands and bonds -/

/-- After the requests `a`, a `bond()` of the endpoint `k` returns `true`. -/
def System.Bonds (s₀ : System ι τ) (a : List (ι × Request τ)) (k : ι) : Prop :=
  ∃ s s', run System.step s₀ a = some s ∧ s.request k (.write .bond) = some (.bool true, s')

/-- The request between `a` and `b` is the most recent `bond()` that returned `true`. -/
structure LastBond (s₀ : System ι τ) (reqs a : List (ι × Request τ)) (k : ι)
    (b : List (ι × Request τ)) : Prop where
  split : reqs = a ++ (k, .write .bond) :: b
  bonds : s₀.Bonds a k
  last : ∀ a' k' b', b = a' ++ (k', .write .bond) :: b' →
    ¬ s₀.Bonds (a ++ (k, .write .bond) :: a') k'

/-- A `bond()` returns `true` if the segment is not bonded. -/
theorem bonds_iff (hattached : ∀ i, (eps i).Attached d) {k : ι} :
    (System.created d garbage eps).Bonds reqs k ↔ ¬ BondedAfter reqs := by
  obtain ⟨s, hrun, hs⟩ := holds_registerAfter (hattached k).le_max hattached garbage reqs
  obtain ⟨reply, s', hrequest, hanswers, -⟩ := hs.request k (.write .bond)
  have hreply : reply = .bool (!(registerAfter d reqs).bonded) := hanswers
  rw [← bonded_registerAfter (d := d)]
  constructor
  · -- a `bond()` that found the segment bonded was refused
    rintro ⟨t, t', ht, htrue⟩ hbonded
    obtain rfl := Option.some.inj (hrun.symm.trans ht)
    rw [hrequest, hreply, hbonded] at htrue
    simp at htrue
  · intro hbonded
    refine ⟨s, s', hrun, ?_⟩
    rw [hrequest, hreply, Bool.eq_false_iff.mpr hbonded]
    rfl

/-- A segment that is bonded was bonded by a `bond()` that returned `true`, and nothing broke the
bond since. -/
theorem exists_lastBond (garbage : Memory) (hattached : ∀ i, (eps i).Attached d)
    (h : BondedAfter reqs) :
    ∃ a k b, LastBond (System.created d garbage eps) reqs a k b ∧
      ∀ x ∈ b, x.2 ≠ .write .breakBond := by
  obtain ⟨a, k, b, hsplit, ha, hb⟩ := exists_bond_of_bondedAfter h
  refine ⟨a, k, b, ⟨hsplit, (bonds_iff hattached).mpr ha, ?_⟩, hb⟩
  rintro a' k' b' rfl
  rw [bonds_iff hattached, not_not]
  exact ⟨a, k, a', rfl, fun x hx => hb x (by simp [hx])⟩

/-- A `flush()` of the right size by a client of a bonded segment delivers the payload. -/
theorem flush_of_client (garbage : Memory) (hattached : ∀ i, (eps i).Attached d) {i : ι}
    (hclient : ¬ (eps i).access_mode_.isServer = true) (hbonded : BondedAfter reqs)
    (obuffer : Memory) (time latency_time : τ) (flush_ts : timespec) :
    ∃ s s' f, run System.step (System.created d garbage eps) reqs = some s ∧
      s.request i (.flush obuffer time latency_time d flush_ts) = some (.flushed f, s') ∧
      ∀ j : Fin d, f.obuffer j = (registerAfter d reqs).payload j := by
  obtain ⟨s, hrun, hs⟩ := holds_registerAfter (hattached i).le_max hattached garbage reqs
  obtain ⟨f, s', hrequest, hdelivers⟩ := hs.flush i obuffer time latency_time flush_ts
  refine ⟨s, s', f, hrun, hrequest, fun j => ?_⟩
  rw [hdelivers.payload j, if_pos ⟨(bonded_registerAfter reqs).mpr hbonded, fun h => hclient h.1⟩]

/-- **A delivered command is the latest one written under a bond.** If a `flush()` of the right
size delivers a nonzero byte, then it delivers the payload of the latest `update()` of this size
that found the segment bonded, and the segment is bonded. The `update()` came after the most
recent `bond()` that returned `true` if there was one since; otherwise the command is from an
earlier bond. -/
theorem delivered_command (hattached : ∀ i, (eps i).Attached d) {i : ι}
    {obuffer : Memory} {time latency_time : τ} {flush_ts : timespec} {f : Flushed τ}
    {s' : System ι τ} (hrun : run System.step (System.created d garbage eps) reqs = some s)
    (hflush : s.request i (.flush obuffer time latency_time d flush_ts) =
      some (.flushed f, s')) {j : ℕ} (hj : j < d) (hne : f.obuffer j ≠ 0) :
    BondedAfter reqs ∧ ∃ pre k ibuffer t post, Latest d reqs pre k ibuffer t post ∧
      (∀ j < d, f.obuffer j = ibuffer j) ∧
      ∃ a l b, LastBond (System.created d garbage eps) reqs a l b ∧
        (a.length < pre.length ↔ ∃ x ∈ b, ∃ ib t', x.2 = .write (.update ib t' d)) := by
  obtain ⟨t, ht, hs⟩ := holds_registerAfter (hattached i).le_max hattached garbage reqs
  obtain rfl := Option.some.inj (hrun.symm.trans ht)
  obtain ⟨g, s'', hrequest, hdelivers⟩ := hs.flush i obuffer time latency_time flush_ts
  obtain ⟨hreply, -⟩ := Prod.mk.inj (Option.some.inj (hrequest.symm.trans hflush))
  obtain rfl := Reply.flushed.inj hreply
  -- a nonzero byte comes from the payload of a bonded register
  have hcond : (registerAfter d reqs).bonded = true ∧
      ¬ ((eps i).access_mode_.isServer = true ∧ g.code = .WATCHDOG) := by
    by_contra hnot
    exact hne ((hdelivers.payload ⟨j, hj⟩).trans (if_neg hnot))
  have hpayload : ∀ j : Fin d, g.obuffer j = (registerAfter d reqs).payload j := fun j =>
    (hdelivers.payload j).trans (if_pos hcond)
  rcases command_registerAfter (d := d) reqs with
    ⟨pre, k, ib, t, post, hlatest, -, hcommand⟩ | ⟨-, -, hzero⟩
  · have hbonded : BondedAfter reqs := (bonded_registerAfter reqs).mp hcond.1
    obtain ⟨a, l, b, hlast, hb⟩ := exists_lastBond garbage hattached hbonded
    exact ⟨hbonded, pre, k, ib, t, post, hlatest,
      fun j hj => (hpayload ⟨j, hj⟩).trans (hcommand ⟨j, hj⟩), a, l, b, hlast,
      hlatest.length_lt_iff hlast.split hb⟩
  · exact absurd ((hpayload ⟨j, hj⟩).trans (hzero ⟨j, hj⟩)) hne

end Runs

/-! ## A server and a client -/

/-- The server is `true`, the client is `false`. -/
def serverAndClient : Bool → RealTimeIPC Binary64
  | true => oneByteServer
  | false => oneByteClient

theorem attached_serverAndClient : ∀ i, (serverAndClient i).Attached 1
  | true => attached_oneByteServer
  | false => attached_oneByteClient

/-- The server bonds, and the client writes the byte `7`. -/
def bondAndUpdate : List (Bool × Request Binary64) :=
  [(true, .write .bond), (false, .write (.update (fun _ => 7) (Double.ofRat 1) 1))]

/-- The bond is broken, and the server bonds again. -/
def bondAgain : List (Bool × Request Binary64) :=
  bondAndUpdate ++ [(true, .write .breakBond), (true, .write .bond)]

theorem segment_refines_register_update :
    ∃ s, run System.step (System.created 1 (fun _ => 255) serverAndClient) bondAndUpdate = some s ∧
      (registerAfter 1 bondAndUpdate).Represents s.segment := by
  obtain ⟨s, hrun, hrep, -⟩ := segment_refines_register (by decide) attached_serverAndClient
    (fun _ => 255) bondAndUpdate
  exact ⟨s, hrun, hrep⟩

/-- The client reads its own command back. -/
theorem delivered_command_client :
    ∃ pre k ibuffer t post, Latest 1 bondAndUpdate pre k ibuffer t post ∧
      ∃ s s' f, run System.step (System.created 1 (fun _ => 255) serverAndClient) bondAndUpdate =
          some s ∧
        s.request false (.flush (fun _ => 255) (Double.ofRat 0) (Double.ofRat 0) 1 ⟨1, 0⟩) =
          some (.flushed f, s') ∧
        ∀ j < 1, f.obuffer j = ibuffer j := by
  have hbonded : BondedAfter bondAndUpdate := ⟨[], true, _, rfl, by simp⟩
  obtain ⟨s, s', f, hrun, hflush, hpayload⟩ := flush_of_client (fun _ => 255)
    attached_serverAndClient (i := false) (by decide) hbonded (fun _ => 255) (Double.ofRat 0)
    (Double.ofRat 0) ⟨1, 0⟩
  have hseven : f.obuffer 0 = 7 := hpayload 0
  obtain ⟨-, pre, k, ibuffer, t, post, hlatest, hcommand, -⟩ :=
    delivered_command attached_serverAndClient hrun hflush (show 0 < 1 by decide)
      (by rw [hseven]; decide)
  exact ⟨pre, k, ibuffer, t, post, hlatest, s, s', f, hrun, hflush, hcommand⟩

/-- The bond under which the client wrote its command is broken, and the server bonds again. The
next `flush()` delivers the command, though no `update()` came under the new bond. -/
theorem broken_command_delivered :
    ∃ a s s' f,
      LastBond (System.created 1 (fun _ => 255) serverAndClient) bondAgain a true [] ∧
      run System.step (System.created 1 (fun _ => 255) serverAndClient) bondAgain = some s ∧
      s.request false (.flush (fun _ => 255) (Double.ofRat 0) (Double.ofRat 0) 1 ⟨1, 0⟩) =
        some (.flushed f, s') ∧
      f.obuffer 0 = 7 := by
  have hbonded : BondedAfter bondAgain :=
    ⟨bondAndUpdate ++ [(true, .write .breakBond)], true, [], rfl, by simp⟩
  have hbroken : ¬ BondedAfter (bondAndUpdate ++ [(true, .write .breakBond)]) := by
    rw [bondedAfter_concat]
    simp
  obtain ⟨s, s', f, hrun, hflush, hpayload⟩ := flush_of_client (fun _ => 255)
    attached_serverAndClient (i := false) (by decide) hbonded (fun _ => 255) (Double.ofRat 0)
    (Double.ofRat 0) ⟨1, 0⟩
  refine ⟨bondAndUpdate ++ [(true, .write .breakBond)], s, s', f, ⟨rfl, ?_, ?_⟩, hrun, hflush,
    hpayload 0⟩
  · exact (bonds_iff attached_serverAndClient).mpr hbroken
  · intro a' k' b' h
    simp at h

end RealtimeUtilities
