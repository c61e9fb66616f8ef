import Mathlib.Data.List.DropRight
import RealtimeUtilities.Diagnostics.Interface
import RealtimeUtilities.ToMathlib.Execution

/-!
# The queue of messages

Messages are added to one queue and drained from it at three levels. What is queued at a level is
what was added at that level since it was drained last (`filter_status`), whatever happens at
the other levels.

A drain decides by level whether there is something to report, and what to remove, but it reports
the whole queue, and no key/value pairs. So it reports each message once, at its own level, as
long as all messages that it finds are of its level and have no pairs (`drained_once`), and only
then, if no pair looks like a message (`drains_exactly_iff`). Nothing drains the stale messages
(`drained_empty_iff`).
-/

namespace RealtimeUtilities

open Execution

/-- A call on the queue. -/
inductive DiagnosticsCall where
  | addDiagnosticsMessage (level summary : String) (key_values : List (String × String))
      (report : Option String)
  | diagnosticsInfo (time : String)
  | diagnosticsWarn (time : String)
  | diagnosticsError (time : String)
  deriving DecidableEq, Repr

namespace DiagnosticsCall

/-- The level that the call drains. -/
def drained : DiagnosticsCall → Option DiagnosticLevel
  | addDiagnosticsMessage _ _ _ _ => none
  | diagnosticsInfo _ => some .OK
  | diagnosticsWarn _ => some .WARN
  | diagnosticsError _ => some .ERROR

/-- The message that the call adds to the queue of `d`. -/
def added (d : DiagnosticsInterface) : DiagnosticsCall → Option DiagnosticStatus
  | addDiagnosticsMessage level summary key_values _ => some (d.message level summary key_values)
  | _ => none

/-- What the call does to its wrapper, and the queue after it. -/
def call (d : DiagnosticsInterface) : DiagnosticsCall → List StatCall × DiagnosticsInterface
  | addDiagnosticsMessage level summary key_values report =>
      ([], (d.addDiagnosticsMessage level summary key_values report).2)
  | diagnosticsInfo time => d.diagnosticsInfo time
  | diagnosticsWarn time => d.diagnosticsWarn time
  | diagnosticsError time => d.diagnosticsError time

variable {d : DiagnosticsInterface} {c : DiagnosticsCall} {l : DiagnosticLevel}

/-- A drain is one of `diagnostics()`. -/
theorem call_of_drained (h : c.drained = some l) :
    ∃ time, c.call d = d.diagnostics l.toInt time := by
  cases c with
  | addDiagnosticsMessage _ _ _ _ => cases h
  | diagnosticsInfo time | diagnosticsWarn time | diagnosticsError time =>
    obtain rfl := Option.some.inj h
    exact ⟨time, rfl⟩

/-- A call appends a message, or removes those of a level. -/
theorem call_cases (d : DiagnosticsInterface) (c : DiagnosticsCall) :
    (∃ m, c.added d = some m ∧ c.drained = none ∧
      (c.call d).2 = { d with status := d.status ++ [m] }) ∨
    ∃ l, c.added d = none ∧ c.drained = some l ∧
      (c.call d).2 = { d with status := d.status.filter fun s => decide (s.level ≠ l) } := by
  cases c with
  | addDiagnosticsMessage level summary key_values report => exact .inl ⟨_, rfl, rfl, rfl⟩
  | diagnosticsInfo time => exact .inr ⟨.OK, rfl, rfl, d.diagnostics_snd .OK time⟩
  | diagnosticsWarn time => exact .inr ⟨.WARN, rfl, rfl, d.diagnostics_snd .WARN time⟩
  | diagnosticsError time => exact .inr ⟨.ERROR, rfl, rfl, d.diagnostics_snd .ERROR time⟩

end DiagnosticsCall

open DiagnosticsCall

/-- The queue after a call. -/
def DiagnosticsInterface.step (d : DiagnosticsInterface) (c : DiagnosticsCall) :
    Option DiagnosticsInterface :=
  some (c.call d).2

/-- The messages of level `l` that the calls have added since they drained this level last, in
the order in which they were added. -/
def queuedSince (d : DiagnosticsInterface) (l : DiagnosticLevel) (calls : List DiagnosticsCall) :
    List DiagnosticStatus :=
  ((calls.rtakeWhile fun c => decide (c.drained ≠ some l)).filterMap (added d)).filter
    fun m => decide (m.level = l)

variable {d s : DiagnosticsInterface} {c : DiagnosticsCall} {calls : List DiagnosticsCall}
  {l : DiagnosticLevel}

/-- The calls change nothing but the queue. -/
theorem ids_of_run (hrun : run DiagnosticsInterface.step d calls = some s) :
    s.name_id_ = d.name_id_ ∧ s.hardware_id_ = d.hardware_id_ := by
  refine run_invariant (fun s => s.name_id_ = d.name_id_ ∧ s.hardware_id_ = d.hardware_id_) ?_
    ⟨rfl, rfl⟩ hrun
  intro t c t' ht hstep
  obtain rfl := Option.some.inj hstep
  rcases call_cases t c with ⟨m, -, -, hcall⟩ | ⟨l, -, -, hcall⟩
  · rw [hcall]
    exact ht
  · rw [hcall]
    exact ht

theorem added_of_ids (h : s.name_id_ = d.name_id_ ∧ s.hardware_id_ = d.hardware_id_)
    (c : DiagnosticsCall) : c.added s = c.added d := by
  cases c with
  | addDiagnosticsMessage level summary key_values report =>
    simp only [added, DiagnosticsInterface.message, h.1, h.2]
  | _ => rfl

/-- **What is queued at a level** is what was added at this level since it was drained last. -/
theorem filter_status (hempty : d.status = [])
    (hrun : run DiagnosticsInterface.step d calls = some s) (l : DiagnosticLevel) :
    s.status.filter (fun m => decide (m.level = l)) = queuedSince d l calls := by
  induction calls using List.reverseRecOn generalizing s with
  | nil =>
    obtain rfl := Option.some.inj hrun
    rw [hempty]
    rfl
  | append_singleton calls c ih =>
    obtain ⟨t, ht, hstep⟩ := run_concat_eq_some.mp hrun
    obtain rfl := Option.some.inj hstep
    have hbefore := ih ht
    have hadded := added_of_ids (ids_of_run ht) c
    unfold queuedSince at hbefore ⊢
    rw [List.rtakeWhile_concat]
    rcases call_cases t c with ⟨m, hm, hdrained, hcall⟩ | ⟨l', hnone, hdrained, hcall⟩
    · -- the message is appended, and counts if it is of level `l`
      rw [hcall, List.filter_append, hbefore, if_pos (by simp [hdrained]), List.filterMap_append,
        List.filter_append]
      simp [← hadded, hm]
    · by_cases hl : l' = l
      · -- the level is drained
        subst hl
        rw [hcall, if_neg (by simp [hdrained])]
        simp
      · -- another level is drained
        rw [hadded] at hnone
        rw [hcall, if_pos (by simp [hdrained, hl]), List.filterMap_append]
        simp only [List.filterMap_cons, hnone, List.filterMap_nil, List.append_nil, ← hbefore,
          List.filter_filter]
        refine List.filter_congr fun m _ => ?_
        by_cases hm : m.level = l
        · simp [hm, Ne.symm hl]
        · simp [hm]

/-! ## Reports -/

/-- What a report has to say about a message: its summary and its key/value pairs. -/
def DiagnosticStatus.entries (m : DiagnosticStatus) : List KeyValue :=
  ⟨m.name, m.message⟩ :: m.values

/-- The drain `c` at level `l`, after the calls `pre` on `d` have led to `s`, reports and removes
exactly the messages queued at this level since it was drained last. -/
structure DrainsExactly (d s : DiagnosticsInterface) (l : DiagnosticLevel)
    (pre : List DiagnosticsCall) (c : DiagnosticsCall) : Prop where
  reports : reported (c.call s).1 = (queuedSince d l pre).flatMap DiagnosticStatus.entries
  removes : s.status.filter (fun m => decide (m.level = l)) = queuedSince d l pre
  leaves : (c.call s).2.status = s.status.filter fun m => decide (m.level ≠ l)

/-- If the call drains a level at which a message is queued, then all messages in the queue are of
this level and have no key/value pairs. -/
def OneLevel (s : DiagnosticsInterface) (c : DiagnosticsCall) : Prop :=
  ∀ l ∈ c.drained, (∃ m ∈ s.status, m.level = l) → ∀ m ∈ s.status, m.level = l ∧ m.values = []

instance (s : DiagnosticsInterface) (c : DiagnosticsCall) : Decidable (OneLevel s c) := by
  unfold OneLevel
  infer_instance

/-- If all messages are of the level of the drain and have no pairs, they are what it reports. -/
theorem reported_of_oneLevel (h : OneLevel s c) (hdrained : c.drained = some l) :
    reported (c.call s).1 =
      (s.status.filter fun m => decide (m.level = l)).flatMap DiagnosticStatus.entries := by
  obtain ⟨time, hcall⟩ := call_of_drained (d := s) hdrained
  rw [hcall, s.reported_diagnostics]
  split_ifs with hany
  · -- the whole queue is of this level
    have hall := h l hdrained hany
    have hfilter : s.status.filter (fun m => decide (m.level = l)) = s.status := by
      rw [List.filter_eq_self]
      exact fun m hm => decide_eq_true (hall m hm).1
    rw [hfilter, List.map_eq_flatMap]
    refine List.flatMap_congr fun m hm => ?_
    rw [DiagnosticStatus.entries, (hall m hm).2]
  · -- nothing is of this level, and nothing is reported
    have hfilter : s.status.filter (fun m => decide (m.level = l)) = [] := by
      rw [List.filter_eq_nil_iff]
      exact fun m hm hl => hany ⟨m, hm, of_decide_eq_true hl⟩
    rw [hfilter]
    rfl

/-- A drain of a queue of one level reports and removes what is queued at this level. -/
theorem drainsExactly_of_oneLevel (hempty : d.status = [])
    (hrun : run DiagnosticsInterface.step d calls = some s) (hdrained : c.drained = some l)
    (h : OneLevel s c) : DrainsExactly d s l calls c := by
  refine ⟨?_, filter_status hempty hrun l, ?_⟩
  · rw [reported_of_oneLevel h hdrained, filter_status hempty hrun]
  · obtain ⟨time, hcall⟩ := call_of_drained (d := s) hdrained
    rw [hcall, s.diagnostics_snd]

/-- **Every message is reported once, at its own level**, in every sequence of calls in which a
drain that finds a message of its level finds no message of another level, and none with key/value
pairs: the drain reports the messages that were added at its level since the last drain at this
level, removes them, and leaves the others in their order. -/
theorem drained_once (hempty : d.status = [])
    (halong : Along DiagnosticsInterface.step OneLevel d calls) :
    ∀ pre c post s l, calls = pre ++ c :: post → run DiagnosticsInterface.step d pre = some s →
      c.drained = some l → DrainsExactly d s l pre c := by
  rintro pre c post s l rfl hrun hdrained
  obtain ⟨-, hc⟩ := (along_append hrun).mp halong
  exact drainsExactly_of_oneLevel hempty hrun hdrained hc.1

/-- Two warnings are drained in the order in which they were added. -/
theorem drained_once_warnings :
    ∃ s, run DiagnosticsInterface.step ⟨"hw", "id", []⟩
        [.addDiagnosticsMessage "WARN" "hot" [] none,
          .addDiagnosticsMessage "WARN" "slow" [] none] = some s ∧
      DrainsExactly ⟨"hw", "id", []⟩ s .WARN
        [.addDiagnosticsMessage "WARN" "hot" [] none, .addDiagnosticsMessage "WARN" "slow" [] none]
        (.diagnosticsWarn "120000") :=
  ⟨_, rfl, drained_once rfl (by decide) _ _ [] _ _ rfl rfl rfl⟩

/-- A warning is drained while an error is in the queue: the error is reported with it, and stays
in the queue. A warning with a key/value pair is reported without the pair. -/
theorem drained_with_others :
    (∃ s, run DiagnosticsInterface.step ⟨"hw", "id", []⟩
        [.addDiagnosticsMessage "WARN" "hot" [] none,
          .addDiagnosticsMessage "ERROR" "broken" [] none] = some s ∧
      reported (s.diagnosticsWarn "120000").1 = [⟨"id", "hot"⟩, ⟨"id", "broken"⟩] ∧
      ¬ DrainsExactly ⟨"hw", "id", []⟩ s .WARN
        [.addDiagnosticsMessage "WARN" "hot" [] none,
          .addDiagnosticsMessage "ERROR" "broken" [] none] (.diagnosticsWarn "120000")) ∧
    ∃ s, run DiagnosticsInterface.step ⟨"hw", "id", []⟩
        [.addDiagnosticsMessage "WARN" "hot" [("celsius", "90")] none] = some s ∧
      reported (s.diagnosticsWarn "120000").1 = [⟨"id", "hot"⟩] ∧
      ¬ DrainsExactly ⟨"hw", "id", []⟩ s .WARN
        [.addDiagnosticsMessage "WARN" "hot" [("celsius", "90")] none]
        (.diagnosticsWarn "120000") := by
  refine ⟨⟨_, rfl, by decide, fun h => ?_⟩, _, rfl, by decide, fun h => ?_⟩
  · exact absurd h.reports (by decide)
  · exact absurd h.reports (by decide)

/-! ## Only such queues are reported right -/

/-- All messages in the queue carry the name of the interface, and no pair has it as its key. -/
def Named (d s : DiagnosticsInterface) : Prop :=
  ∀ m ∈ s.status, m.name = d.name_id_ ∧ ∀ kv ∈ m.values, kv.key ≠ d.name_id_

/-- The name of the interface is not the key of a pair that the call adds. -/
def KeepsName (d : DiagnosticsInterface) (c : DiagnosticsCall) : Prop :=
  ∀ m ∈ c.added d, ∀ kv ∈ m.values, kv.key ≠ d.name_id_

/-- The queue stays named if no pair has the name as its key. -/
theorem named_of_run (hempty : d.status = []) (hkeeps : ∀ c ∈ calls, KeepsName d c)
    (hrun : run DiagnosticsInterface.step d calls = some s) : Named d s := by
  have hnil : Named d d := by
    intro m hm
    rw [hempty] at hm
    cases hm
  refine (run_invariant_along
    (fun s => Named d s ∧ s.name_id_ = d.name_id_ ∧ s.hardware_id_ = d.hardware_id_) ?_
    ⟨hnil, rfl, rfl⟩ (along_of_forall_mem hkeeps) hrun).1
  rintro t c t' ⟨ht, hids⟩ hc hstep
  obtain rfl := Option.some.inj hstep
  rcases call_cases t c with ⟨m, hm, -, hcall⟩ | ⟨l, -, -, hcall⟩
  · -- the new message is named, too
    rw [hcall]
    refine ⟨fun x hx => ?_, hids⟩
    rcases List.mem_append.mp hx with hx | hx
    · exact ht x hx
    · rw [List.mem_singleton.mp hx]
      rw [added_of_ids hids] at hm
      refine ⟨?_, hc m hm⟩
      cases c with
      | addDiagnosticsMessage level summary key_values report =>
        obtain rfl := Option.some.inj hm
        simp only [DiagnosticsInterface.message]
        split_ifs <;> rfl
      | _ => cases hm
  · rw [hcall]
    exact ⟨fun x hx => ht x (List.mem_of_mem_filter hx), hids⟩

/-- A drain of a named queue that reports what is queued at its level finds nothing else. -/
theorem oneLevel_of_drainsExactly (hnamed : Named d s) (hdrained : c.drained = some l)
    (h : DrainsExactly d s l calls c) : OneLevel s c := by
  intro l' hl' hany
  obtain rfl : l' = l := Option.some.inj (hl'.symm.trans hdrained)
  obtain ⟨time, hcall⟩ := call_of_drained (d := s) hdrained
  have hreports := h.reports
  rw [hcall, s.reported_diagnostics, if_pos hany, ← h.removes] at hreports
  -- a pair would be reported, and would have the name as its key
  have hvalues : ∀ m ∈ s.status, m.level = l' → m.values = [] := by
    intro m hm hlevel
    rw [List.eq_nil_iff_forall_not_mem]
    intro kv hkv
    have hmem : kv ∈ (s.status.filter fun m => decide (m.level = l')).flatMap
        DiagnosticStatus.entries :=
      List.mem_flatMap.mpr ⟨m, List.mem_filter.mpr ⟨hm, decide_eq_true hlevel⟩,
        List.mem_cons_of_mem _ hkv⟩
    rw [← hreports] at hmem
    obtain ⟨x, hx, rfl⟩ := List.mem_map.mp hmem
    exact (hnamed m hm).2 _ hkv (hnamed x hx).1
  -- without pairs, one message is one entry
  have hentries : (s.status.filter fun m => decide (m.level = l')).flatMap
      DiagnosticStatus.entries =
      (s.status.filter fun m => decide (m.level = l')).map fun m => ⟨m.name, m.message⟩ := by
    rw [List.map_eq_flatMap]
    refine List.flatMap_congr fun m hm => ?_
    obtain ⟨hm, hlevel⟩ := List.mem_filter.mp hm
    rw [DiagnosticStatus.entries, hvalues m hm (of_decide_eq_true hlevel)]
  have hlength := congrArg List.length (hreports.trans hentries)
  rw [List.length_map, List.length_map] at hlength
  intro m hm
  have hlevel := of_decide_eq_true (List.length_filter_eq_length_iff.mp hlength.symm m hm)
  exact ⟨hlevel, hvalues m hm hlevel⟩

/-- If no key/value pair has the name of the interface as its key, every message is reported once,
at its own level, if and only if every drain that finds a message of its level finds no other and
no pairs. -/
theorem drains_exactly_iff (hempty : d.status = []) (hkeeps : ∀ c ∈ calls, KeepsName d c) :
    (∀ pre c post s l, calls = pre ++ c :: post → run DiagnosticsInterface.step d pre = some s →
      c.drained = some l → DrainsExactly d s l pre c) ↔
      Along DiagnosticsInterface.step OneLevel d calls := by
  constructor
  · intro h
    refine along_of_prefix fun pre c post s hcalls hrun l hl => ?_
    have hnamed : Named d s := named_of_run hempty
      (fun c' hc' => hkeeps c' (by rw [hcalls]; exact List.mem_append_left _ hc')) hrun
    exact oneLevel_of_drainsExactly hnamed hl (h pre c post s l hcalls hrun hl) l hl
  · rintro halong pre c post s l rfl hrun hdrained
    obtain ⟨-, hc⟩ := (along_append hrun).mp halong
    exact drainsExactly_of_oneLevel hempty hrun hdrained hc.1

/-! ## Emptying the queue -/

/-- Drains alone keep the messages of the levels that none of them drains. -/
theorem status_of_drains {drains : List DiagnosticsCall} (hdrains : ∀ c ∈ drains, c.drained ≠ none)
    (hrun : run DiagnosticsInterface.step d drains = some s) :
    s.status = d.status.filter fun m => decide (some m.level ∉ drains.map drained) := by
  induction drains generalizing d with
  | nil =>
    obtain rfl := Option.some.inj hrun
    simp
  | cons c drains ih =>
    obtain ⟨t, ht, hrest⟩ := run_cons_eq_some.mp hrun
    obtain rfl := Option.some.inj ht
    rw [ih (fun c' hc' => hdrains c' (List.mem_cons_of_mem c hc')) hrest]
    rcases call_cases d c with ⟨m, -, hnone, -⟩ | ⟨l, -, hdrained, hcall⟩
    · exact absurd hnone (hdrains c List.mem_cons_self)
    · rw [hcall, List.filter_filter]
      refine List.filter_congr fun m _ => ?_
      simp [hdrained, Bool.and_comm]

/-- No call drains the stale messages. -/
theorem queuedSince_stale (d : DiagnosticsInterface) (calls : List DiagnosticsCall) :
    queuedSince d .STALE calls =
      (calls.filterMap (added d)).filter fun m => decide (m.level = .STALE) := by
  have hall : (calls.rtakeWhile fun c => decide (c.drained ≠ some .STALE)) = calls := by
    rw [List.rtakeWhile_eq_self_iff]
    intro c _
    cases c <;> simp [drained]
  rw [queuedSince, hall]

/-- The stale messages of the queue are all that were added. -/
theorem queuedSince_stale_eq_nil_iff (d : DiagnosticsInterface) (calls : List DiagnosticsCall) :
    queuedSince d .STALE calls = [] ↔ ∀ level summary key_values report,
      .addDiagnosticsMessage level summary key_values report ∈ calls → level ≠ "STALE" := by
  rw [queuedSince_stale, List.filter_eq_nil_iff]
  constructor
  · intro h level summary key_values report hmem hlevel
    refine h (d.message level summary key_values) (List.mem_filterMap.mpr ⟨_, hmem, rfl⟩) ?_
    exact decide_eq_true ((d.level_message_eq_stale_iff _ _ _).mpr hlevel)
  · intro h m hm hstale
    obtain ⟨c, hc, hadded⟩ := List.mem_filterMap.mp hm
    cases c with
    | addDiagnosticsMessage level summary key_values report =>
      obtain rfl := Option.some.inj hadded
      exact h level summary key_values report hc
        ((d.level_message_eq_stale_iff _ _ _).mp (of_decide_eq_true hstale))
    | _ => cases hadded

/-- Every sequence of calls can be made. -/
theorem exists_run (d : DiagnosticsInterface) (calls : List DiagnosticsCall) :
    ∃ s, run DiagnosticsInterface.step d calls = some s := by
  induction calls generalizing d with
  | nil => exact ⟨d, rfl⟩
  | cons c calls ih =>
    obtain ⟨s, hs⟩ := ih (c.call d).2
    exact ⟨s, run_cons_eq_some.mpr ⟨_, rfl, hs⟩⟩

/-- **The queue is emptied by one more drain at each level exactly if no message was stale**,
whatever was added and drained before, and in whatever order the three drains come. -/
theorem drained_empty_iff (hempty : d.status = []) (calls : List DiagnosticsCall)
    {drains : List DiagnosticsCall}
    (hdrains : (drains.map drained).Perm [some .OK, some .WARN, some .ERROR]) :
    ∃ s, run DiagnosticsInterface.step d (calls ++ drains) = some s ∧
      (s.status = [] ↔ ∀ level summary key_values report,
        .addDiagnosticsMessage level summary key_values report ∈ calls → level ≠ "STALE") := by
  obtain ⟨s, hrun⟩ := exists_run d (calls ++ drains)
  refine ⟨s, hrun, ?_⟩
  obtain ⟨t, ht, hrest⟩ := run_append_eq_some.mp hrun
  -- each of the three calls drains one of the levels
  have hnotAdd : ∀ c ∈ drains, c.drained ≠ none := by
    intro c hc hnone
    have hmem := hdrains.mem_iff.mp (List.mem_map_of_mem hc)
    simp [hnone] at hmem
  -- what is left is stale
  have hleft : s.status = t.status.filter fun m => decide (m.level = .STALE) := by
    rw [status_of_drains hnotAdd hrest]
    refine List.filter_congr fun m _ => ?_
    rw [decide_eq_decide, hdrains.mem_iff]
    cases m.level <;> simp
  rw [hleft, filter_status hempty ht, queuedSince_stale_eq_nil_iff]

/-- A warning, drained in the order Error, Warn, Info. -/
theorem drained_empty_iff_warning :
    ∃ s, run DiagnosticsInterface.step ⟨"hw", "id", []⟩
        ([.addDiagnosticsMessage "WARN" "hot" [] none] ++
          [.diagnosticsError "120000", .diagnosticsWarn "120000", .diagnosticsInfo "120000"]) =
        some s ∧
      (s.status = [] ↔ ∀ level summary key_values report,
        .addDiagnosticsMessage level summary key_values report ∈
          ([.addDiagnosticsMessage "WARN" "hot" [] none] : List DiagnosticsCall) →
        level ≠ "STALE") :=
  drained_empty_iff rfl _ (by decide)

/-- A stale message is still in the queue after all three drains. -/
theorem stale_message_stays :
    ∃ s, run DiagnosticsInterface.step ⟨"hw", "id", []⟩
        ([.addDiagnosticsMessage "STALE" "silent" [] none] ++
          [.diagnosticsInfo "120000", .diagnosticsWarn "120000", .diagnosticsError "120000"]) =
        some s ∧
      s.status.map DiagnosticStatus.message = ["silent"] ∧ s.status ≠ [] :=
  ⟨_, rfl, by decide, by decide⟩

end RealtimeUtilities
