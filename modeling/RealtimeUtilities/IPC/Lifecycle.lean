import RealtimeUtilities.IPC.HostInvariant

/-!
# Servers, clients and the names between them

A name stands for one object after the other. An object outlives its name, so an endpoint of an
earlier server can be used as before, and it never meets the endpoints of the next server.

## Main results

* `generation_is_register`: each object is a gated register of its own, made by the requests and
  destructors of the endpoints that map it;
* `server_unique`: at most one living server has a name, and whoever opens the name meets its
  object;
* `name_iff_server`: as long as destructors run, names are taken by living servers only.
-/

namespace RealtimeUtilities

open DataPacket Execution

namespace Host

variable {τ : Type} [Double τ] [DoubleBytes τ] [LawfulDoubleBytes τ] {h : Host τ} {i j : ℕ}
  {x y : Mapping τ} {umask : ℕ} {events : List (HostEvent τ)}

/-! ## Every object is a register -/

omit [Double τ] [DoubleBytes τ] [LawfulDoubleBytes τ] in
/-- A use of an object leaves the other objects alone. -/
theorem used_frame {k : ℕ} (hk : x.object = some k) (u : Use τ) (e : RealTimeIPC τ) (m : Memory) :
    (h.used i x u e m).uses = h.uses ++ [(k, u)] ∧
      ∀ l, l ≠ k → (h.used i x u e m).objects[l]? = h.objects[l]? := by
  unfold used
  rw [hk]
  refine ⟨rfl, fun l hl => ?_⟩
  show (h.objects.modify k fun object => { object with memory := m })[l]? = _
  simp [Ne.symm hl]

/-- **Each object is a gated register of its own.** After any events on a host, let a living
endpoint work on an object with `d` bytes of payload, a size that the assertions let through. The
object holds the register that the uses of this object make, from zero on, whatever has happened
under its name before and since. Every request of the endpoint is answered as by this register and
is the next use of it, so is the destructor, and both leave all other objects alone. -/
theorem generation_is_register (hrun : run Host.step (Host.fresh umask) events = some h)
    (hx : h.mapping i = some x) {k d : ℕ} (hk : x.object = some k)
    (hdim : x.endpoint.dim_with_header_ = d + sizeofHeader) (hpos : 0 < d)
    (hlt : d < MAX_IPC_BUF_LENGHT) :
    (∃ object, h.objects[k]? = some object ∧
      (Register.ofUses d h.uses k : Register τ d).Represents object.memory) ∧
    (∀ r, ∃ reply h', h.request i x r = some (reply, h') ∧
      (Register.ofUses d h.uses k : Register τ d).Answers x.endpoint.access_mode_ r reply ∧
      h'.uses = h.uses ++ [(k, .request r)] ∧ ∀ l, l ≠ k → h'.objects[l]? = h.objects[l]?) ∧
    ∃ h', h.destruct i x = some h' ∧ h'.uses = h.uses ++ [(k, .destruct)] ∧
      ∀ l, l ≠ k → h'.objects[l]? = h.objects[l]? := by
  have hs := sound_of_run hrun
  obtain ⟨object, hobject, hworks⟩ := (hs.maps i x hx).works hk
  have hsize : object.size = d + sizeofHeader := hworks.dim.symm.trans hdim
  have hattached := attached_of_worksOn hworks hsize hpos hlt
  have hrep := hs.represents d k object hobject hsize hpos hlt
  have hmemory : h.memory x = object.memory := memory_eq hk hobject
  refine ⟨⟨object, hobject, hrep⟩, fun r => ?_, ?_⟩
  · obtain ⟨o, ho, -, -, hanswers, -⟩ := Register.simulates hattached hrep r
    obtain ⟨m, hexec⟩ : ∃ m, (r.access x.endpoint).exec object.memory = (.ok o, m) :=
      ⟨_, Prod.ext ho rfl⟩
    refine ⟨o.ret, h.used i x (.request r) o.self m, ?_, hanswers, used_frame hk _ _ _⟩
    rw [Host.request, hmemory, hexec]
  · obtain ⟨o, m, hexec, -⟩ := Register.simulates_destruct hattached hrep
    rw [Host.destruct, hmemory, hexec]
    obtain ⟨huses, hobjects⟩ := used_frame (h := h) (i := i) hk .destruct o.self m
    refine ⟨_, rfl, ?_, fun l hl => ?_⟩
    · split_ifs <;> exact huses
    · rw [← hobjects l hl]
      split_ifs <;> rfl

/-! ## Who has a name -/

omit [DoubleBytes τ] [LawfulDoubleBytes τ] in
/-- A server whose name is taken fails in its first call of Boost. -/
theorem construct_server_of_named (hnamed : h.Named) {name : String} (hname : h.names name ≠ none)
    (fails : BoostCall → Bool) (watchdog_decimation : τ) {dim : ℕ}
    (hdim : sizeofHeader < (dim + sizeofHeader) % 2 ^ 64) (ndebug : Bool) :
    h.construct fails name watchdog_decimation .SHMEM_SERVER dim ndebug =
      { h with umask := 0 } := by
  have hsegment : (h.machine.segments name).isSome = true :=
    Option.isSome_iff_ne_none.mpr ((hnamed.segments_eq_none_iff name).not.mpr hname)
  rw [construct, RealTimeIPC.create_server]
  simp only [not_le.mpr hdim, if_false, hsegment, Bool.true_or, if_true]
  exact adopt_setUmask ..

/-- **One server for a name.** After any events on a host:

* two living servers with segments of one name are the same endpoint;
* while such a server lives, its name stands for its object, the constructor of another server of
  this name returns no endpoint and leaves all objects and names as they are, and the constructor of
  a client of this name, if it returns, returns one that works on the object of the server. -/
theorem server_unique (hrun : run Host.step (Host.fresh umask) events = some h) :
    (∀ i j x y, h.mapping i = some x → h.mapping j = some y → x.Serves → y.Serves →
      x.endpoint.name_ = y.endpoint.name_ → i = j) ∧
    ∀ i x, h.mapping i = some x → x.Serves → h.names x.endpoint.name_ = x.object ∧
      ∀ fails watchdog_decimation dim ndebug,
        (sizeofHeader < (dim + sizeofHeader) % 2 ^ 64 →
          h.construct fails x.endpoint.name_ watchdog_decimation .SHMEM_SERVER dim ndebug =
            { h with umask := 0 }) ∧
        ∀ y, (h.construct fails x.endpoint.name_ watchdog_decimation .SHMEM_CLIENT dim
            ndebug).mapping h.endpoints.length = some y → y.object = x.object := by
  have hs := sound_of_run hrun
  refine ⟨fun i j x y hx hy hxs hys hname => hs.unique i j x y hx hy hxs hys ?_,
    fun i x hx hserves => ?_⟩
  · rw [← ((hs.maps i x hx).server hxs).1, ← ((hs.maps j y hy).server hys).1, hname]
  obtain ⟨hname, hlocked⟩ := (hs.maps i x hx).server hserves
  obtain ⟨k, object, hk, hobject, hworks⟩ := (hs.maps i x hx).attached hserves.2
  have hsegment : h.machine.segments x.endpoint.name_ = some object := by
    simp [machine, hname, hk, hobject]
  refine ⟨hname, fun fails watchdog_decimation dim ndebug => ⟨fun hsize => ?_, fun y hy => ?_⟩⟩
  · refine construct_server_of_named hs.named ?_ fails watchdog_decimation hsize ndebug
    rw [hname, hk]
    exact Option.some_ne_none k
  · have hnone : h.mapping h.endpoints.length = none := by
      simp [mapping]
    have hobjectOf : ∀ {e : RealTimeIPC τ},
        (h.addEndpoint e).mapping h.endpoints.length = some y → e.mutex_ = true →
        e.name_ = x.endpoint.name_ → y.object = x.object := by
      intro e hy hmutex hename
      rw [mapping_addEndpoint, if_pos rfl] at hy
      rw [← Option.some.inj hy, map, if_pos hmutex, hename, hname]
    have hmutexes : h.machine.mutexes x.endpoint.name_ = true := hlocked
    rw [construct, RealTimeIPC.create_client] at hy
    simp only [hsegment, hmutexes, Bool.not_true, Bool.false_eq_true, if_false] at hy
    -- the constructor threw, was aborted, or opened the segment with its mutex
    split_ifs at hy <;> simp only [adopt_machine] at hy
    · exact absurd (hnone.symm.trans hy) (by simp)
    · exact absurd (hnone.symm.trans hy) (by simp)
    · exact hobjectOf hy rfl rfl
    · exact absurd (hnone.symm.trans hy) (by simp)

/-! ## Orderly processes -/

/-- The event leaves no name behind that no server owns: the calls of Boost after the first one do
not fail on their own, and a process that was given an endpoint destroys it. -/
def Orderly (h : Host τ) : HostEvent τ → Prop
  | .construct fails _ _ _ _ _ => ∀ call, call ≠ .segment → fails call = false
  | .request i r => ∀ x, h.mapping i = some x → (h.request i x r).isSome = true
  | .destruct i => ∀ x, h.mapping i = some x → (h.destruct i x).isSome = true
  | .crash _ => False

omit [LawfulDoubleBytes τ] in
/-- Every name is that of a living server. -/
def Owned (h : Host τ) : Prop :=
  ∀ name, h.names name ≠ none → ∃ i x, h.mapping i = some x ∧ x.Serves ∧ x.endpoint.name_ = name

omit [Double τ] [DoubleBytes τ] [LawfulDoubleBytes τ] in
theorem mapping_lt (hx : h.mapping i = some x) : i < h.endpoints.length :=
  (List.getElem?_eq_some_iff.mp (mapping_eq_some_iff.mp hx)).1

omit [Double τ] [DoubleBytes τ] [LawfulDoubleBytes τ] in
theorem Owned.addEndpoint (ho : h.Owned) (e : RealTimeIPC τ) : (h.addEndpoint e).Owned := by
  intro name hname
  obtain ⟨i, x, hx, hserves⟩ := ho name hname
  refine ⟨i, x, ?_, hserves⟩
  rw [mapping_addEndpoint, if_neg (Nat.ne_of_lt (mapping_lt hx)), hx]

omit [LawfulDoubleBytes τ] in
theorem Owned.built (hs : h.Sound) (ho : h.Owned) {fails : BoostCall → Bool} {identifier : String}
    (hfails : ∀ call, call ≠ .segment → fails call = false) {h' : Host τ}
    (hbuilt : Built h fails identifier h') : h'.Owned := by
  cases hbuilt with
  | failed umask => exact ho
  | detached => exact ho.addEndpoint _
  | client => exact ho.addEndpoint _
  | leftover hname hlate =>
    rcases hlate with hlocked | ⟨call, hcall, hfail⟩
    · exact absurd hname (hs.locked _ hlocked)
    · exact absurd ((hfails call hcall).symm.trans hfail) (by simp)
  | @server e size hname hmutex hsize hmode hidentifier hworks =>
    intro name hnamed
    have hlen : (((h.addObject identifier ⟨size, fun _ => 0⟩).lock identifier)).endpoints.length =
        h.endpoints.length := rfl
    by_cases hid : name = identifier
    · refine ⟨h.endpoints.length,
        ((h.addObject identifier ⟨size, fun _ => 0⟩).lock identifier).map e, ?_,
        ⟨hmode, hworks.mutex⟩, hidentifier.trans hid.symm⟩
      rw [mapping_addEndpoint, if_pos hlen.symm]
    · have hold : h.names name ≠ none := by
        have hnamed' : (h.addObject identifier ⟨size, fun _ => 0⟩).names name ≠ none := hnamed
        rwa [names_addObject_of_ne hid] at hnamed'
      obtain ⟨i, x, hx, hserves⟩ := ho name hold
      refine ⟨i, x, ?_, hserves⟩
      rw [mapping_addEndpoint, if_neg (by rw [hlen]; exact Nat.ne_of_lt (mapping_lt hx))]
      exact hx

omit [Double τ] [DoubleBytes τ] [LawfulDoubleBytes τ] in
theorem names_used (u : Use τ) (e : RealTimeIPC τ) (m : Memory) :
    (h.used i x u e m).names = h.names := by
  unfold used
  split <;> rfl

omit [Double τ] [DoubleBytes τ] [LawfulDoubleBytes τ] in
theorem Owned.used (ho : h.Owned) (hx : h.mapping i = some x) {u : Use τ} {e : RealTimeIPC τ}
    (m : Memory) (hsame : x.endpoint.SameMembers e) (hname : e.name_ = x.endpoint.name_) :
    (h.used i x u e m).Owned := by
  intro name hnamed
  rw [names_used] at hnamed
  obtain ⟨j, y, hy, hserves, hyname⟩ := ho name hnamed
  by_cases hj : j = i
  · subst hj
    obtain rfl := Option.some.inj (hx.symm.trans hy)
    refine ⟨j, { x with endpoint := e }, ?_, ?_, hname.trans hyname⟩
    · rw [mapping_used hx, if_pos rfl]
    · exact ⟨hsame.access_mode_.trans hserves.1, hsame.mutex_.trans hserves.2⟩
  · refine ⟨j, y, ?_, hserves, hyname⟩
    rw [mapping_used hx, if_neg hj, hy]

omit [LawfulDoubleBytes τ] in
theorem Owned.destruct (hs : h.Sound) (ho : h.Owned) (hx : h.mapping i = some x) {h' : Host τ}
    (hdestruct : h.destruct i x = some h') : h'.Owned := by
  unfold Host.destruct at hdestruct
  split at hdestruct
  · next o m hexec =>
    obtain rfl := Option.some.inj hdestruct
    obtain ⟨hname, hremoves⟩ := (ends_destruct_removes x.endpoint).exec hexec
    have hsame := (ends_destruct x.endpoint).exec hexec
    -- the names that are left, if the endpoint was not the server of one of them
    have hkill : ∀ name, h.names name ≠ none → (x.Serves → name ≠ x.endpoint.name_) →
        ∃ j y, ((h.used i x .destruct o.self m).kill i).mapping j = some y ∧ y.Serves ∧
          y.endpoint.name_ = name := by
      intro name hnamed hother
      obtain ⟨j, y, hy, hserves, hyname⟩ := ho name hnamed
      have hj : j ≠ i := by
        rintro rfl
        obtain rfl := Option.some.inj (hx.symm.trans hy)
        exact hother hserves hyname.symm
      refine ⟨j, y, ?_, hserves, hyname⟩
      rw [mapping_kill, if_neg hj, mapping_used hx, if_neg hj, hy]
    intro name hnamed
    split_ifs at hnamed ⊢ with hret
    · have hnamed' : Function.update (h.used i x .destruct o.self m).names o.self.name_ none name ≠
          none := hnamed
      have hid : name ≠ x.endpoint.name_ := by
        rintro rfl
        rw [hname, Function.update_self] at hnamed'
        exact hnamed' rfl
      rw [hname, Function.update_of_ne hid, names_used] at hnamed'
      exact hkill name hnamed' fun _ => hid
    · have hnamed' : (h.used i x .destruct o.self m).names name ≠ none := hnamed
      rw [names_used] at hnamed'
      refine hkill name hnamed' fun hserves => absurd (hremoves.mpr ⟨hserves.1, ?_⟩) hret
      -- a server has a segment with a payload
      obtain ⟨k, object, -, hobject, hworks⟩ := (hs.maps i x hx).attached hserves.2
      rw [hworks.dim]
      exact (hs.sizes object (List.mem_of_getElem? hobject)).resolve_left hworks.nonempty
  · cases hdestruct

omit [LawfulDoubleBytes τ] in
theorem Owned.step (hs : h.Sound) (ho : h.Owned) {event : HostEvent τ} {h' : Host τ}
    (horderly : h.Orderly event) (hstep : Host.step h event = some h') : h'.Owned := by
  cases event with
  | construct fails identifier watchdog_decimation mode dim ndebug =>
    obtain rfl := Option.some.inj hstep
    exact ho.built hs horderly (built_construct hs.named ..)
  | request i r =>
    obtain ⟨x, hx, rfl⟩ := Option.map_eq_some_iff.mp hstep
    obtain ⟨⟨reply, h'⟩, hrequest⟩ := Option.isSome_iff_exists.mp (horderly x hx)
    rw [hrequest]
    unfold Host.request at hrequest
    split at hrequest
    · next o m hexec =>
      obtain ⟨-, rfl⟩ := Prod.mk.inj (Option.some.inj hrequest)
      exact ho.used hx m ((r.ends_sameMembers _).exec hexec) ((r.ends_name _).exec hexec)
    · cases hrequest
  | destruct i =>
    obtain ⟨x, hx, rfl⟩ := Option.map_eq_some_iff.mp hstep
    obtain ⟨h', hdestruct⟩ := Option.isSome_iff_exists.mp (horderly x hx)
    rw [hdestruct]
    exact ho.destruct hs hx hdestruct
  | crash i => exact absurd horderly id

/-- A server and a client exchange a command, the server is destroyed, and another server takes its
name. The client is still there. -/
def succession : List (HostEvent Binary64) :=
  [.construct (fun _ => false) "ipc" (Double.ofRat 1) .SHMEM_SERVER 1 false,
    .construct (fun _ => false) "ipc" (Double.ofRat 1) .SHMEM_CLIENT 1 false,
    .request 0 (.write .bond),
    .request 1 (.write (.update (fun _ => 7) (Double.ofRat 1) 1)),
    .destruct 0,
    .construct (fun _ => false) "ipc" (Double.ofRat 1) .SHMEM_SERVER 1 false]

/-- The client works on the object of the first server, which the destructor has left unbonded. -/
theorem generation_is_register_succession :
    ∃ h x, run Host.step (Host.fresh 18) succession = some h ∧ h.mapping 1 = some x ∧
      ∃ reply h', h.request 1 x .isBonded = some (reply, h') ∧
        (Register.ofUses 1 h.uses 0 : Register Binary64 1).Answers x.endpoint.access_mode_
          .isBonded reply := by
  refine ⟨_, _, rfl, rfl, ?_⟩
  obtain ⟨reply, h', hrequest, hanswers, -⟩ := (@generation_is_register Binary64 _ _ _ _ 1 _ 18
    succession rfl rfl 0 1 rfl rfl (by decide) (by decide)).2.1 .isBonded
  exact ⟨reply, h', hrequest, hanswers⟩

theorem server_unique_succession :
    ∃ h x, run Host.step (Host.fresh 18) succession = some h ∧ h.mapping 2 = some x ∧
      h.construct (fun _ => false) "ipc" (Double.ofRat 1) .SHMEM_SERVER 1 false =
        { h with umask := 0 } := by
  refine ⟨_, _, rfl, rfl, ?_⟩
  exact (((@server_unique Binary64 _ _ _ _ 18 succession rfl).2 2 _ rfl ⟨rfl, rfl⟩).2
    (fun _ => false) (Double.ofRat 1) 1 false).1 (by decide)

end Host

end RealtimeUtilities
