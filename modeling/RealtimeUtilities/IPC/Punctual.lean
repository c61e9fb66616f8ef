import RealtimeUtilities.IPC.Watchdog

/-!
# A punctual writer

A client that writes in time must not set off the watchdog of the server. From one `flush()` to
the next it does not, but the first `flush()` of a bond compares the stamp with `data_time_prev_`,
and that is no stamp of this bond: it is zero for a server that was just constructed or has found
the bond broken, and else the last stamp of the bond before. Stamps are readings of a clock that
may run for long, so the first command of a bond sets the watchdog off and is dropped.

`Session` is a server at a segment that holds a register. The requests to the register are those
of the server and of the other endpoints, one after the other.

## Main definitions

* `Session.Punctual`: what the writer keeps to, at every bonded `flush()`;
* `Session.FirstInTime`: the first `flush()` of a bond finds a stamp that is not too far from
  `data_time_prev_`;
* `Session.Delivers`: the `flush()` does not return `WATCHDOG`, and delivers the last command.

## Main results

* `Session.step_of_exec`: a step is what the server does with the bytes of the segment;
* `Session.delivers_iff`: in the runs of a punctual writer, all calls of `flush()` deliver exactly
  if the first ones of all bonds are in time.
-/

namespace RealtimeUtilities

open DataPacket Execution

/-- A server at a segment that holds a register. -/
structure Session (τ : Type) (d : ℕ) where
  endpoint : RealTimeIPC τ
  register : Register τ d
  /-- The stamp that the preceding `flush()` has seen, if it was one of this bond. -/
  preceding : Option τ
  /-- An update was stored under this bond, and since the preceding `flush()`. -/
  updated : Bool
  /-- The payload of the last update that was stored. -/
  command : Fin d → UInt8

namespace Session

variable {τ : Type} {d : ℕ}

section Step

variable [Double τ]

/-- A server that was just constructed, with the segment that it has created. -/
def init (identifier : String) (watchdog : τ) (d : ℕ) (ndebug : Bool) : Session τ d where
  endpoint := .server identifier watchdog d ndebug
  register := .zero
  preceding := none
  updated := false
  command := fun _ => 0

/-- What a `flush()` of the right size returns. -/
def flushed (s : Session τ d) (obuffer : Memory) (flush_ts : timespec) : Flushed τ :=
  (s.endpoint.flushPacket obuffer flush_ts s.register.packet).ret

/-- One request. Those that do not write are made by the server. -/
def step (s : Session τ d) : Request τ → Option (Session τ d)
  | .write .breakBond =>
      some { s with
        register := s.register.apply (.write .breakBond)
        preceding := none
        updated := false }
  | .write (.update ibuffer time n_bytes) =>
      -- an update is stored if it is of the right size and finds the register bonded
      if s.register.bonded ∧ n_bytes = d then
        some { s with
          register := s.register.apply (.write (.update ibuffer time n_bytes))
          updated := true
          command := fun i => ibuffer i }
      else some s
  | .write op => some { s with register := s.register.apply (.write op) }
  | .isBonded => some { s with endpoint := (s.endpoint.isBondedPacket s.register.packet).self }
  | .isHardRT => some { s with endpoint := (s.endpoint.isHardRTPacket s.register.packet).self }
  | .flush obuffer _ _ n_bytes flush_ts =>
      if n_bytes = d then
        some { s with
          endpoint := (s.endpoint.flushPacket obuffer flush_ts s.register.packet).self
          -- the next one is the first of a bond unless this one was bonded
          preceding := if s.register.bonded then some s.register.stamp else none
          updated := false }
      else some s

variable {s s' : Session τ d} {request : Request τ}

/-- A step changes the register as the request does. -/
theorem register_step (hs' : s.step request = some s') :
    s'.register = s.register.apply request := by
  cases request with
  | write op =>
    cases op with
    | update ibuffer time n_bytes =>
      rw [step] at hs'
      split_ifs at hs' with hstored
      · obtain rfl := Option.some.inj hs'
        rfl
      · obtain rfl := Option.some.inj hs'
        rw [Register.apply, if_neg hstored]
    | bond | breakBond | setHardRT | setSoftRT =>
      obtain rfl := Option.some.inj hs'
      rfl
  | isBonded | isHardRT =>
    obtain rfl := Option.some.inj hs'
    rfl
  | flush obuffer time latency_time n_bytes flush_ts =>
    rw [step] at hs'
    split_ifs at hs' <;> obtain rfl := Option.some.inj hs' <;> rfl

/-- A write leaves the server alone. -/
theorem step_write (s : Session τ d) (op : Op τ) :
    ∃ s', s.step (.write op) = some s' ∧ s'.endpoint = s.endpoint := by
  cases op with
  | update ibuffer time n_bytes =>
    rw [step]
    split_ifs
    · exact ⟨_, rfl, rfl⟩
    · exact ⟨_, rfl, rfl⟩
  | bond | breakBond | setHardRT | setSoftRT => exact ⟨_, rfl, rfl⟩

/-- A step is what the server does with the bytes of a segment that holds the register. -/
theorem step_of_exec [DoubleBytes τ] [LawfulDoubleBytes τ] {m : Memory}
    (h : s.endpoint.Attached d) (hrep : Register.Represents m s.register) (request : Request τ) :
    ∃ o s', ((request.access s.endpoint).exec m).1 = .ok o ∧ s.step request = some s' ∧
      s'.endpoint = o.self ∧
      Register.Represents ((request.access s.endpoint).exec m).2 s'.register ∧
      ∀ obuffer time latency_time flush_ts,
        request = .flush obuffer time latency_time d flush_ts →
          o.ret = .flushed (s.flushed obuffer flush_ts) := by
  obtain ⟨o, ho, -, -, -, hrep', -⟩ := Register.simulates h hrep request
  have hview : view d m = s.register.packet := (Register.represents_iff h.le_max).mp hrep
  -- what is said about the register follows from `register_step`
  suffices hsame : ∃ s', s.step request = some s' ∧ s'.endpoint = o.self ∧
      ∀ obuffer time latency_time flush_ts,
        request = .flush obuffer time latency_time d flush_ts →
          o.ret = .flushed (s.flushed obuffer flush_ts) by
    obtain ⟨s', hs', hself, hret⟩ := hsame
    exact ⟨o, s', ho, hs', hself, register_step hs' ▸ hrep', hret⟩
  cases request with
  | write op =>
    obtain ⟨o', ho', hself, -⟩ := Register.simulates_write h hrep op
    obtain rfl := Except.ok.inj (ho.symm.trans ho')
    obtain ⟨s', hs', hendpoint⟩ := s.step_write op
    exact ⟨s', hs', hendpoint.trans hself.symm, by rintro _ _ _ _ ⟨⟩⟩
  | isBonded =>
    rw [Request.access, h.isBonded_eq] at ho
    obtain rfl := Except.ok.inj ho
    rw [hview]
    exact ⟨_, rfl, rfl, by rintro _ _ _ _ ⟨⟩⟩
  | isHardRT =>
    rw [Request.access, h.isHardRT_eq] at ho
    obtain rfl := Except.ok.inj ho
    rw [hview]
    exact ⟨_, rfl, rfl, by rintro _ _ _ _ ⟨⟩⟩
  | flush obuffer time latency_time n_bytes flush_ts =>
    by_cases hn : n_bytes = d
    · subst hn
      rw [Request.access, h.flush_eq] at ho
      obtain rfl := Except.ok.inj ho
      rw [hview]
      refine ⟨_, if_pos rfl, rfl, ?_⟩
      rintro _ _ _ _ ⟨⟩
      rfl
    · -- a flush of another size does nothing
      rw [Request.access, h.flush_of_ne _ _ _ hn] at ho
      obtain rfl := Except.ok.inj ho
      refine ⟨s, if_neg hn, rfl, ?_⟩
      rintro _ _ _ _ ⟨⟩
      exact absurd rfl hn

end Step

/-! ## A punctual writer -/

/-- Before every bonded `flush()` an update was stored, in hard RT. Its stamp is a little ahead
of that of the preceding `flush()`, or just a reading of the clock at the first one of a bond. -/
def Punctual (s : Session ℚ d) : Request ℚ → Prop
  | .flush _ _ _ n_bytes flush_ts =>
      n_bytes = d → s.register.bonded = true →
        s.register.hard = true ∧ s.updated = true ∧
          (∀ stamp, s.preceding = some stamp →
            1 / 100000 < s.register.stamp - stamp ∧
              s.register.stamp - stamp < s.endpoint.watchdog_) ∧
          (s.preceding = none → 0 < s.register.stamp ∧ s.register.stamp ≤ timer_to_s flush_ts)
  | .write _ | .isBonded | .isHardRT => True

/-- The first `flush()` of a bond finds a stamp that is not too far ahead of `data_time_prev_`.
If it is not ahead at all, the timer is not running, or has not run for too long. -/
def FirstInTime (s : Session ℚ d) : Request ℚ → Prop
  | .flush _ _ _ n_bytes flush_ts =>
      n_bytes = d → s.register.bonded = true → s.preceding = none →
        s.register.stamp - s.endpoint.data_time_prev_ ≤ s.endpoint.watchdog_ ∧
          (s.register.stamp - s.endpoint.data_time_prev_ < 1 / 100000 →
            s.endpoint.start_watchdog_time_ = -1 ∨
              timer_to_s flush_ts - s.endpoint.start_watchdog_time_ ≤ s.endpoint.watchdog_)
  | .write _ | .isBonded | .isHardRT => True

/-- The `flush()` does not return `WATCHDOG`, and delivers the last command if it is bonded. -/
def Delivers (s : Session ℚ d) : Request ℚ → Prop
  | .flush obuffer _ _ n_bytes flush_ts =>
      n_bytes = d → (s.flushed obuffer flush_ts).code ≠ .WATCHDOG ∧
        (s.register.bonded = true →
          ∀ j : Fin d, (s.flushed obuffer flush_ts).obuffer j = s.command j)
  | .write _ | .isBonded | .isHardRT => True

/-- What the server remembers of the register. -/
structure Remembers (s : Session ℚ d) : Prop where
  attached : s.endpoint.Attached d
  server : s.endpoint.access_mode_ = .SHMEM_SERVER
  preceding : ∀ stamp, s.preceding = some stamp → s.endpoint.data_time_prev_ = stamp
  command : s.register.payload = s.command

variable {s s' : Session ℚ d} {request : Request ℚ}

/-- Every request keeps what the server remembers. -/
theorem Remembers.step (h : Remembers s) (hs' : s.step request = some s') : Remembers s' := by
  cases request with
  | write op =>
    cases op with
    | update ibuffer time n_bytes =>
      rw [Session.step] at hs'
      split_ifs at hs' with hstored
      · obtain rfl := Option.some.inj hs'
        refine ⟨h.attached, h.server, h.preceding, ?_⟩
        show (s.register.apply _).payload = _
        rw [Register.apply, if_pos hstored]
      · obtain rfl := Option.some.inj hs'
        exact h
    | bond =>
      obtain rfl := Option.some.inj hs'
      refine ⟨h.attached, h.server, h.preceding, ?_⟩
      show (s.register.apply _).payload = _
      rw [Register.apply, ← h.command]
      split_ifs <;> rfl
    | breakBond =>
      obtain rfl := Option.some.inj hs'
      exact ⟨h.attached, h.server, by rintro _ ⟨⟩, h.command⟩
    | setHardRT | setSoftRT =>
      obtain rfl := Option.some.inj hs'
      exact ⟨h.attached, h.server, h.preceding, h.command⟩
  | isBonded =>
    obtain rfl := Option.some.inj hs'
    rw [RealTimeIPC.isBondedPacket_self]
    exact ⟨h.attached.remember _ _ _ _ _, h.server, h.preceding, h.command⟩
  | isHardRT =>
    obtain rfl := Option.some.inj hs'
    rw [RealTimeIPC.isHardRTPacket_self]
    exact ⟨h.attached.remember _ _ _ _ _, h.server, h.preceding, h.command⟩
  | flush obuffer time latency_time n_bytes flush_ts =>
    by_cases hn : n_bytes = d
    · rw [Session.step, if_pos hn] at hs'
      obtain rfl := Option.some.inj hs'
      obtain ⟨hattached, hmode⟩ := RealTimeIPC.attached_flushPacket h.attached obuffer flush_ts
        s.register.packet
      refine ⟨hattached, hmode.trans h.server, fun stamp hstamp => ?_, h.command⟩
      -- a bonded `flush()` keeps the stamp that it has seen
      dsimp only at hstamp ⊢
      split_ifs at hstamp with hbonded
      rw [RealTimeIPC.flushPacket_time h.server,
        RealTimeIPC.flushPacket_time_of_bonded (s.register.bond_flag_packet.mpr hbonded)]
      exact Option.some.inj hstamp
    · rw [Session.step, if_neg hn] at hs'
      obtain rfl := Option.some.inj hs'
      exact h

/-- A `flush()` delivers the last command unless the watchdog goes off. -/
theorem Remembers.flushed_iff (h : Remembers s) {obuffer : Memory} {flush_ts : timespec} :
    ((s.flushed obuffer flush_ts).code ≠ .WATCHDOG ∧
      (s.register.bonded = true →
        ∀ j : Fin d, (s.flushed obuffer flush_ts).obuffer j = s.command j)) ↔
      (s.register.bonded = true → s.register.hard = true →
        (s.endpoint.checkWatchdog (s.register.stamp - s.endpoint.data_time_prev_)
          (timer_to_s flush_ts)).1 ≠ .WATCHDOG) := by
  have hcode : (s.flushed obuffer flush_ts).code = .WATCHDOG ↔ _ :=
    RealTimeIPC.flushPacket_code_iff h.server
  rw [s.register.bond_flag_packet, s.register.rt_flag_packet] at hcode
  have hdelivers := Register.delivers_flushPacket h.attached obuffer flush_ts (r := s.register)
  constructor
  · rintro ⟨hne, -⟩ hbonded hhard hcheck
    exact hne (hcode.mpr ⟨hbonded, hhard, hcheck⟩)
  · -- a command that is not reset is the one in the register
    intro hcheck
    have hne : (s.flushed obuffer flush_ts).code ≠ .WATCHDOG := fun hcode' =>
      have hgone := hcode.mp hcode'
      hcheck hgone.1 hgone.2.1 hgone.2.2
    refine ⟨hne, fun hbonded j => ?_⟩
    rw [← h.command]
    exact (hdelivers.payload j).trans (if_pos ⟨hbonded, fun hand => hne hand.2⟩)

/-- A request of a run with a punctual writer delivers exactly if it is no first `flush()` of a
bond that comes out of time. -/
theorem Remembers.firstInTime_iff (h : Remembers s) (hpunctual : s.Punctual request) :
    s.FirstInTime request ↔ s.Delivers request := by
  cases request with
  | write op => exact Iff.rfl
  | isBonded => exact Iff.rfl
  | isHardRT => exact Iff.rfl
  | flush obuffer time latency_time n_bytes flush_ts =>
    rw [FirstInTime, Delivers, h.flushed_iff]
    refine forall_congr' fun hn => forall_congr' fun hbonded => ?_
    obtain ⟨hhard, -, hahead, -⟩ := hpunctual hn hbonded
    rw [forall_prop_of_true hhard, Ne, RealTimeIPC.checkWatchdog_code_iff]
    -- the first call of a bond, or a later one
    cases hpreceding : s.preceding with
    | some stamp =>
      -- the distance from the preceding stamp is acceptable
      obtain ⟨hlow, hhigh⟩ := hahead stamp hpreceding
      rw [h.preceding stamp hpreceding]
      refine iff_of_true (by simp) ?_
      rintro (hlate | ⟨hidle, -⟩)
      · exact lt_asymm hlate hhigh
      · exact lt_asymm hidle hlow
    | none =>
      rw [forall_prop_of_true rfl, not_or, not_lt, not_and, not_and, not_lt]
      refine and_congr_right fun _ => forall_congr' fun _ => ?_
      exact ⟨fun hor hrunning => hor.resolve_left hrunning,
        fun himp => or_iff_not_imp_left.mpr himp⟩

variable {identifier : String} {watchdog : ℚ} {ndebug : Bool} {requests : List (Request ℚ)}

/-- **All commands of a punctual writer are delivered if and only if the first ones of all bonds
come in time.** For every run of requests to a new segment, in which bonds may be made and broken
at any point: if the writer is punctual at every bonded `flush()`, then no `flush()` returns
`WATCHDOG` and every bonded one delivers the payload of the last update, exactly if at the first
`flush()` of every bond the stamp is at most `watchdog_` ahead of `data_time_prev_`, and the timer
has not run for too long if the stamp is not ahead. -/
theorem delivers_iff (hattached : (RealTimeIPC.server identifier watchdog d ndebug).Attached d)
    (hpunctual : Along step Punctual (init identifier watchdog d ndebug) requests) :
    Along step FirstInTime (init identifier watchdog d ndebug) requests ↔
      Along step Delivers (init identifier watchdog d ndebug) requests :=
  along_congr Remembers (fun _ _ _ h _ hs' => h.step hs') (fun _ _ h hp => h.firstInTime_iff hp)
    ⟨hattached, rfl, by rintro _ ⟨⟩, rfl⟩ hpunctual

/-! ## The first command of a bond -/

/-- The server makes a bond, and the client writes the byte `7` with the given stamp. -/
def firstCommand (stamp : ℚ) : List (Request ℚ) :=
  [.write .bond, .write .setHardRT, .write (.update (fun _ => 7) stamp 1)]

/-- The server after the first command of a bond. -/
def commanded (stamp : ℚ) : Session ℚ 1 where
  endpoint := .server "ipc" 1 1 false
  register := ⟨true, true, stamp, fun _ => 7⟩
  preceding := none
  updated := true
  command := fun _ => 7

theorem run_firstCommand (stamp : ℚ) :
    run step (init "ipc" 1 1 false) (firstCommand stamp) = some (commanded stamp) := rfl

/-- A condition on the calls of `flush()` is one on those after the first command. -/
theorem along_firstCommand {C : Session ℚ 1 → Request ℚ → Prop}
    (hwrite : ∀ s op, C s (.write op)) (stamp : ℚ) (request : Request ℚ) :
    Along step C (init "ipc" 1 1 false) (firstCommand stamp ++ [request]) ↔
      C (commanded stamp) request := by
  have hbefore : Along step C (init "ipc" 1 1 false) (firstCommand stamp) :=
    ⟨hwrite _ _, fun _ _ => ⟨hwrite _ _, fun _ _ => ⟨hwrite _ _, fun _ _ => trivial⟩⟩⟩
  rw [along_append (run_firstCommand stamp), and_iff_right hbefore]
  exact and_iff_left fun _ _ => trivial

theorem attached_commanded (stamp : ℚ) : (commanded stamp).endpoint.Attached 1 :=
  RealTimeIPC.attached_attach (.inl rfl) (by decide) (by decide)

/-- The first command comes half a second after the clock has started. -/
theorem delivers_iff_early : Along step Delivers (init "ipc" 1 1 false)
    (firstCommand (1 / 2) ++ [.flush (fun _ => 255) 0 0 1 ⟨1, 0⟩]) := by
  refine (delivers_iff (attached_commanded (1 / 2)) ?_).mp ?_
  · refine (along_firstCommand (fun _ _ => trivial) _ _).mpr fun _ _ => ⟨rfl, rfl, ?_, fun _ => ?_⟩
    · rintro _ ⟨⟩
    · rw [timer_to_s_sec]
      norm_num [commanded]
  · refine (along_firstCommand (fun _ _ => trivial) _ _).mpr fun _ _ _ => ⟨?_, fun _ => .inl rfl⟩
    norm_num [commanded, RealTimeIPC.server, RealTimeIPC.construct, RealTimeIPC.attach,
      Double.ofRat]

/-- The clock has run for a hundred seconds before the first command. It sets off the watchdog
and is dropped, although its stamp is that of the clock. -/
theorem first_command_dropped :
    Along step Punctual (init "ipc" 1 1 false)
        (firstCommand 100 ++ [.flush (fun _ => 255) 0 0 1 ⟨100, 0⟩]) ∧
      ((commanded 100).flushed (fun _ => 255) ⟨100, 0⟩).code = .WATCHDOG ∧
      ((commanded 100).flushed (fun _ => 255) ⟨100, 0⟩).obuffer 0 = 0 ∧
      (commanded 100).command 0 = 7 ∧
      ¬ Along step Delivers (init "ipc" 1 1 false)
        (firstCommand 100 ++ [.flush (fun _ => 255) 0 0 1 ⟨100, 0⟩]) := by
  have hreset : ((commanded 100).flushed (fun _ => 255) ⟨100, 0⟩).code = .WATCHDOG ∧
      ∀ j < (commanded 100).endpoint.payloadSize,
        ((commanded 100).flushed (fun _ => 255) ⟨100, 0⟩).obuffer j = 0 := by
    refine RealTimeIPC.flushPacket_of_watchdog rfl rfl rfl (RealTimeIPC.checkWatchdog_of_late ?_)
    norm_num [commanded, RealTimeIPC.server, RealTimeIPC.construct, RealTimeIPC.attach,
      Register.packet, Double.ofRat]
  refine ⟨?_, hreset.1, hreset.2 0 ?_, rfl, ?_⟩
  · refine (along_firstCommand (fun _ _ => trivial) _ _).mpr fun _ _ => ⟨rfl, rfl, ?_, fun _ => ?_⟩
    · rintro _ ⟨⟩
    · rw [timer_to_s_sec]
      norm_num [commanded]
  · rw [(attached_commanded 100).payloadSize_eq]
    exact Nat.one_pos
  · rw [along_firstCommand fun _ _ => trivial]
    exact fun hdelivers => (hdelivers rfl).1 hreset.1

end Session

end RealtimeUtilities
