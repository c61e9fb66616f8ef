import RealtimeUtilities.IPC.Host

/-!
# The invariant of a host

What holds on a host after any constructions, requests, destructions and deaths of processes
(`Sound`). Every object is the register that its uses have made. Every endpoint with a mutex works
on an object that is as large as the endpoint takes it for, and no two living servers work on one.
The name of a living server stands for its object, so a destructor removes the names of its own
endpoint only.

An object that has lost its name is an object like any other: nothing in the invariant asks whether
it has one.
-/

namespace RealtimeUtilities

open DataPacket Execution

/-! ## Reached hosts -/

/-- The endpoint is a server with the segment of its name. -/
def Mapping.Serves {τ : Type} (x : Mapping τ) : Prop :=
  x.endpoint.access_mode_ = .SHMEM_SERVER ∧ x.endpoint.mutex_ = true

namespace Host

variable {τ : Type} {h : Host τ} {i j : ℕ} {x y : Mapping τ}

/-- The endpoint works on an object of the host, which has its name if it is a server, or it has no
mutex. -/
structure Maps (h : Host τ) (x : Mapping τ) : Prop where
  detached : x.endpoint.mutex_ = false → x.object = none ∧
    (x.endpoint.access_mode_ = .SHMEM_SERVER → x.endpoint.dim_with_header_ ≤ sizeofHeader)
  attached : x.endpoint.mutex_ = true → ∃ k object, x.object = some k ∧
    h.objects[k]? = some object ∧ x.endpoint.WorksOn object
  server : x.Serves → h.names x.endpoint.name_ = x.object ∧ h.mutexes x.endpoint.name_ = true

/-- The objects of a host are registers, and its endpoints work on them. -/
structure Sound [Double τ] [DoubleBytes τ] (h : Host τ) : Prop where
  named : h.Named
  locked : ∀ name, h.mutexes name = true → h.names name ≠ none
  sizes : ∀ object ∈ h.objects, object.size = 0 ∨ sizeofHeader < object.size
  uses_lt : ∀ y ∈ h.uses, y.1 < h.objects.length
  maps : ∀ i x, h.mapping i = some x → h.Maps x
  unique : ∀ i j x y, h.mapping i = some x → h.mapping j = some y → x.Serves → y.Serves →
    x.object = y.object → i = j
  represents : ∀ d k object, h.objects[k]? = some object → object.size = d + sizeofHeader →
    0 < d → d < MAX_IPC_BUF_LENGHT →
    (Register.ofUses d h.uses k : Register τ d).Represents object.memory

theorem Maps.works {k : ℕ} (hmaps : h.Maps x) (hk : x.object = some k) :
    ∃ object, h.objects[k]? = some object ∧ x.endpoint.WorksOn object := by
  have hmutex : x.endpoint.mutex_ = true := by
    by_contra hmutex
    obtain ⟨hnone, -⟩ := hmaps.detached (Bool.eq_false_iff.mpr hmutex)
    rw [hnone] at hk
    cases hk
  obtain ⟨l, object, hl, hobject, hworks⟩ := hmaps.attached hmutex
  obtain rfl := Option.some.inj (hk.symm.trans hl)
  exact ⟨object, hobject, hworks⟩

theorem mapping_eq_some_iff : h.mapping i = some x ↔ h.endpoints[i]? = some (some x) := by
  rw [mapping, Option.join_eq_some_iff]

theorem mapping_kill (h : Host τ) (i j : ℕ) :
    (h.kill i).mapping j = if j = i then none else h.mapping j := by
  by_cases hj : j = i
  · subst hj
    rw [if_pos rfl, mapping, kill, List.getElem?_set_self']
    cases h.endpoints[j]? <;> rfl
  · rw [if_neg hj, mapping, kill, List.getElem?_set_ne (Ne.symm hj)]
    rfl

theorem mapping_addEndpoint (h : Host τ) (e : RealTimeIPC τ) (j : ℕ) :
    (h.addEndpoint e).mapping j =
      if j = h.endpoints.length then some (h.map e) else h.mapping j := by
  by_cases hj : j = h.endpoints.length
  · subst hj
    simp [mapping, addEndpoint]
  · rw [if_neg hj, mapping, mapping, addEndpoint]
    by_cases hlt : j < h.endpoints.length
    · rw [List.getElem?_append_left hlt]
    · rw [List.getElem?_eq_none (by simp; omega), List.getElem?_eq_none (by omega)]

theorem mapping_setMapping (hx : h.mapping i = some x) (y : Mapping τ) (j : ℕ) :
    (h.setMapping i y).mapping j = if j = i then some y else h.mapping j := by
  have hlt : i < h.endpoints.length :=
    (List.getElem?_eq_some_iff.mp (mapping_eq_some_iff.mp hx)).1
  rw [mapping, setMapping]
  by_cases hj : j = i
  · subst hj
    rw [if_pos rfl, List.getElem?_set_self hlt]
    rfl
  · rw [if_neg hj, List.getElem?_set_ne (Ne.symm hj), mapping]

theorem mapping_used (hx : h.mapping i = some x) (u : Use τ) (e : RealTimeIPC τ) (m : Memory)
    (j : ℕ) : (h.used i x u e m).mapping j =
      if j = i then some { x with endpoint := e } else h.mapping j := by
  rw [← mapping_setMapping hx]
  unfold used
  split <;> rfl

theorem names_addObject_self (identifier : String) (object : SharedMemory) :
    (h.addObject identifier object).names identifier = some h.objects.length :=
  Function.update_self ..

theorem names_addObject_of_ne {identifier name : String} {object : SharedMemory}
    (hname : name ≠ identifier) : (h.addObject identifier object).names name = h.names name :=
  Function.update_of_ne hname ..

theorem names_addObject_cases {identifier name : String} {object : SharedMemory} {k : ℕ}
    (hk : (h.addObject identifier object).names name = some k) :
    (name = identifier ∧ k = h.objects.length) ∨ h.names name = some k := by
  by_cases hname : name = identifier
  · subst hname
    rw [names_addObject_self] at hk
    exact .inl ⟨rfl, (Option.some.inj hk).symm⟩
  · exact .inr (names_addObject_of_ne hname ▸ hk)

variable [Double τ] [DoubleBytes τ]

theorem sound_fresh (umask : ℕ) : (fresh umask : Host τ).Sound := by
  constructor <;> simp [fresh, Named, mapping]

theorem Sound.setUmask (hs : h.Sound) (umask : ℕ) : { h with umask := umask }.Sound :=
  { hs with maps := fun i x hx => ⟨(hs.maps i x hx).1, (hs.maps i x hx).2, (hs.maps i x hx).3⟩ }

theorem Sound.kill (hs : h.Sound) (i : ℕ) : (h.kill i).Sound := by
  have hliving : ∀ {j x}, (h.kill i).mapping j = some x → h.mapping j = some x := by
    intro j x hx
    rw [mapping_kill] at hx
    split_ifs at hx
    exact hx
  exact
    { named := hs.named
      locked := hs.locked
      sizes := hs.sizes
      uses_lt := hs.uses_lt
      maps := fun j x hx =>
        have hmaps := hs.maps j x (hliving hx)
        ⟨hmaps.1, hmaps.2, hmaps.3⟩
      unique := fun j k x y hx hy => hs.unique j k x y (hliving hx) (hliving hy)
      represents := hs.represents }

/-- One more endpoint that works on an object, unless it is a second server. -/
theorem Sound.addEndpoint (hs : h.Sound) {e : RealTimeIPC τ} (hmaps : h.Maps (h.map e))
    (hserver : (h.map e).Serves → ∀ j y, h.mapping j = some y → y.Serves →
      y.object ≠ (h.map e).object) : (h.addEndpoint e).Sound := by
  have hcases : ∀ {j x}, (h.addEndpoint e).mapping j = some x →
      (j = h.endpoints.length ∧ x = h.map e) ∨ h.mapping j = some x := by
    intro j x hx
    rw [mapping_addEndpoint] at hx
    split_ifs at hx with hj
    · exact .inl ⟨hj, (Option.some.inj hx).symm⟩
    · exact .inr hx
  refine ⟨hs.named, hs.locked, hs.sizes, hs.uses_lt, fun j x hx => ?_,
    fun j k x y hx hy hxs hys hobject => ?_, hs.represents⟩
  · have hold : h.Maps x := by
      rcases hcases hx with ⟨-, rfl⟩ | hx
      · exact hmaps
      · exact hs.maps j x hx
    exact ⟨hold.1, hold.2, hold.3⟩
  · rcases hcases hx with ⟨rfl, rfl⟩ | hx' <;> rcases hcases hy with ⟨rfl, rfl⟩ | hy'
    · rfl
    · exact absurd hobject.symm (hserver hxs k y hy' hys)
    · exact absurd hobject (hserver hys j x hx' hxs)
    · exact hs.unique j k x y hx' hy' hxs hys hobject

theorem Sound.lock (hs : h.Sound) {identifier : String} (hname : h.names identifier ≠ none) :
    (h.lock identifier).Sound :=
  { hs with
    locked := fun name hlocked => by
      by_cases hid : name = identifier
      · exact hid ▸ hname
      · have hold : Function.update h.mutexes identifier true name = true := hlocked
        rw [Function.update_of_ne hid] at hold
        exact hs.locked name hold
    maps := fun i x hx => by
      have hmaps := hs.maps i x hx
      refine ⟨hmaps.1, hmaps.2, fun hserves => ⟨(hmaps.3 hserves).1, ?_⟩⟩
      show Function.update h.mutexes identifier true x.endpoint.name_ = true
      by_cases hid : x.endpoint.name_ = identifier
      · rw [hid, Function.update_self]
      · rw [Function.update_of_ne hid]
        exact (hmaps.3 hserves).2 }

/-- Without its names, an object lives on for the endpoints that map it. No server is left that
could remove the names again. -/
theorem Sound.remove (hs : h.Sound) {name : String}
    (hserver : ∀ i x, h.mapping i = some x → x.Serves → x.endpoint.name_ ≠ name) :
    (h.remove name).Sound := by
  refine ⟨fun name' k hk => ?_, fun name' hlocked => ?_, hs.sizes, hs.uses_lt, fun i x hx => ?_,
    hs.unique, hs.represents⟩
  · have hk' : Function.update h.names name none name' = some k := hk
    by_cases hname : name' = name
    · subst hname
      rw [Function.update_self] at hk'
      cases hk'
    · rw [Function.update_of_ne hname] at hk'
      exact hs.named name' k hk'
  · have hlocked' : Function.update h.mutexes name false name' = true := hlocked
    by_cases hname : name' = name
    · subst hname
      rw [Function.update_self] at hlocked'
      cases hlocked'
    · rw [Function.update_of_ne hname] at hlocked'
      show Function.update h.names name none name' ≠ none
      rw [Function.update_of_ne hname]
      exact hs.locked name' hlocked'
  · have hold := hs.maps i x hx
    refine ⟨hold.1, hold.2, fun hserves => ?_⟩
    show Function.update h.names name none x.endpoint.name_ = x.object ∧
      Function.update h.mutexes name false x.endpoint.name_ = true
    rw [Function.update_of_ne (hserver i x hx hserves),
      Function.update_of_ne (hserver i x hx hserves)]
    exact hold.server hserves

/-- An endpoint that changes in what it remembers only. -/
theorem Sound.setMapping (hs : h.Sound) (hx : h.mapping i = some x) {e : RealTimeIPC τ}
    (hsame : x.endpoint.SameMembers e) (hname : e.name_ = x.endpoint.name_) :
    (h.setMapping i { x with endpoint := e }).Sound := by
  have hserves : ({ x with endpoint := e } : Mapping τ).Serves ↔ x.Serves := by
    rw [Mapping.Serves, Mapping.Serves, hsame.access_mode_, hsame.mutex_]
  -- every living endpoint works on the object that it worked on
  have hold : ∀ {j y}, (h.setMapping i { x with endpoint := e }).mapping j = some y →
      ∃ y', h.mapping j = some y' ∧ y.object = y'.object ∧ (y.Serves → y'.Serves) := by
    intro j y hy
    rw [mapping_setMapping hx] at hy
    split_ifs at hy with hj
    · obtain rfl := Option.some.inj hy
      exact ⟨x, hj ▸ hx, rfl, hserves.mp⟩
    · exact ⟨y, hy, rfl, id⟩
  refine ⟨hs.named, hs.locked, hs.sizes, hs.uses_lt, fun j y hy => ?_,
    fun j k y z hy hz hys hzs hobject => ?_, hs.represents⟩
  · rw [mapping_setMapping hx] at hy
    split_ifs at hy with hj
    · obtain rfl := Option.some.inj hy
      have hmaps := hs.maps i x hx
      refine ⟨fun hmutex => ?_, fun hmutex => ?_, fun hserves' => ?_⟩
      · obtain ⟨hobject, hdim⟩ := hmaps.detached (hsame.mutex_ ▸ hmutex)
        refine ⟨hobject, fun hmode => ?_⟩
        show e.dim_with_header_ ≤ sizeofHeader
        rw [hsame.dim_with_header_]
        exact hdim (hsame.access_mode_ ▸ hmode)
      · obtain ⟨k, object, hxk, hk, hworks⟩ := hmaps.attached (hsame.mutex_ ▸ hmutex)
        exact ⟨k, object, hxk, hk, hsame.shared hworks.shared, hmutex,
          hsame.dim_with_header_.trans hworks.dim, hsame.shared_map_.trans hworks.map,
          hworks.nonempty⟩
      · show h.names e.name_ = x.object ∧ h.mutexes e.name_ = true
        rw [hname]
        exact hmaps.server (hserves.mp hserves')
    · have hmaps := hs.maps j y hy
      exact ⟨hmaps.1, hmaps.2, hmaps.3⟩
  · obtain ⟨y', hy', hyo, hys'⟩ := hold hy
    obtain ⟨z', hz', hzo, hzs'⟩ := hold hz
    exact hs.unique j k y' z' hy' hz' (hys' hys) (hzs' hzs) (hyo ▸ hzo ▸ hobject)

/-- The object after a use, if it is the register after the use. -/
theorem Sound.store (hs : h.Sound) {k : ℕ} {u : Use τ} {m : Memory} (hk : k < h.objects.length)
    (hrep : ∀ object d, h.objects[k]? = some object → object.size = d + sizeofHeader → 0 < d →
      d < MAX_IPC_BUF_LENGHT → ((Register.ofUses d h.uses k : Register τ d).use u).Represents m) :
    (h.store k u m).Sound := by
  have hlen : (h.store k u m).objects.length = h.objects.length := List.length_modify _ _ _
  -- the objects are those of before, but for the memory of one
  have hobject : ∀ {l object}, (h.store k u m).objects[l]? = some object →
      ∃ object', h.objects[l]? = some object' ∧ object.size = object'.size ∧
        object.memory = if l = k then m else object'.memory := by
    intro l object hl
    have hl' : (h.objects.modify k fun object => { object with memory := m })[l]? =
        some object := hl
    rw [List.getElem?_modify] at hl'
    obtain ⟨object', hold, rfl⟩ := Option.map_eq_some_iff.mp hl'
    refine ⟨object', hold, ?_⟩
    by_cases hlk : l = k
    · simp [hlk]
    · simp [hlk, Ne.symm hlk]
  refine ⟨fun name l hl => hlen ▸ hs.named name l hl, hs.locked, fun object hobj => ?_,
    fun y hy => ?_, fun i x hx => ?_, hs.unique, fun d l object hl hd hpos hlt => ?_⟩
  · obtain ⟨l, hl⟩ := List.getElem?_of_mem hobj
    obtain ⟨object', hl', hsize, -⟩ := hobject hl
    rw [hsize]
    exact hs.sizes object' (List.mem_of_getElem? hl')
  · rw [hlen]
    rcases List.mem_append.mp hy with hy | hy
    · exact hs.uses_lt y hy
    · rw [List.mem_singleton.mp hy]
      exact hk
  · have hold := hs.maps i x hx
    refine ⟨hold.1, fun hmutex => ?_, hold.3⟩
    obtain ⟨l, object, hxl, hl, hworks⟩ := hold.attached hmutex
    refine ⟨l, if k = l then { object with memory := m } else object, hxl, ?_, hworks.shared,
      hworks.mutex, ?_, ?_, ?_⟩
    · show (h.objects.modify k fun object => { object with memory := m })[l]? = _
      rw [List.getElem?_modify, hl]
      rfl
    · split_ifs <;> exact hworks.dim
    · split_ifs <;> exact hworks.map
    · split_ifs <;> exact hworks.nonempty
  · obtain ⟨object', hl', hsize, hmemory⟩ := hobject hl
    rw [hsize] at hd
    rw [hmemory]
    show (Register.ofUses d (h.uses ++ [(k, u)]) l : Register τ d).Represents _
    by_cases hlk : l = k
    · subst hlk
      rw [if_pos rfl, Register.ofUses_concat_self]
      exact hrep object' d hl' hd hpos hlt
    · rw [if_neg hlk, Register.ofUses_concat_of_ne _ (Ne.symm hlk)]
      exact hs.represents d l object' hl' hd hpos hlt

/-- An endpoint used its object: it works on it as before, and the object is the register after the
use. -/
theorem Sound.used (hs : h.Sound) (hx : h.mapping i = some x) {u : Use τ} {e : RealTimeIPC τ}
    {m : Memory} (hsame : x.endpoint.SameMembers e) (hname : e.name_ = x.endpoint.name_)
    (hrep : ∀ k object d, x.object = some k → h.objects[k]? = some object →
      object.size = d + sizeofHeader → 0 < d → d < MAX_IPC_BUF_LENGHT →
      ((Register.ofUses d h.uses k : Register τ d).use u).Represents m) :
    (h.used i x u e m).Sound := by
  have hset := hs.setMapping hx hsame hname
  unfold Host.used
  cases hk : x.object with
  | none => rw [hk] at hset; exact hset
  | some k =>
    rw [hk] at hset
    obtain ⟨object, hobject, -⟩ := (hs.maps i x hx).works hk
    have hlt := (List.getElem?_eq_some_iff.mp hobject).1
    exact hset.store hlt fun object d => hrep k object d hk

variable [LawfulDoubleBytes τ]

/-- One more object, under a name that was free. -/
theorem Sound.addObject (hs : h.Sound) {identifier : String} {size : ℕ}
    (hname : h.names identifier = none) (hsize : size = 0 ∨ sizeofHeader < size) :
    (h.addObject identifier ⟨size, fun _ => 0⟩).Sound := by
  have hobject : ∀ {k object}, h.objects[k]? = some object →
      (h.objects ++ [(⟨size, fun _ => 0⟩ : SharedMemory)])[k]? = some object := fun hk => by
    rw [List.getElem?_append_left (List.getElem?_eq_some_iff.mp hk).1, hk]
  refine
    { named := fun name k hk => ?_
      locked := fun name hlocked => ?_
      sizes := fun object hobj => ?_
      uses_lt := fun y hy => ?_
      maps := fun i x hx => ?_
      unique := hs.unique
      represents := fun d k object hk hd hpos hlt => ?_ }
  · show k < (h.objects ++ [_]).length
    rw [List.length_append]
    rcases names_addObject_cases hk with ⟨-, rfl⟩ | hk
    · simp
    · exact Nat.lt_add_right _ (hs.named name k hk)
  · by_cases hid : name = identifier
    · rw [hid, names_addObject_self]
      exact Option.some_ne_none _
    · rw [names_addObject_of_ne hid]
      exact hs.locked name hlocked
  · rcases List.mem_append.mp hobj with hobj | hobj
    · exact hs.sizes object hobj
    · rw [List.mem_singleton.mp hobj]
      exact hsize
  · show y.1 < (h.objects ++ [_]).length
    rw [List.length_append]
    exact Nat.lt_add_right _ (hs.uses_lt y hy)
  · have hold := hs.maps i x hx
    refine ⟨hold.detached, fun hmutex => ?_, fun hserves => ?_⟩
    · obtain ⟨k, object, hxk, hk, hworks⟩ := hold.attached hmutex
      exact ⟨k, object, hxk, hobject hk, hworks⟩
    · -- the name of a living server was not free
      obtain ⟨k, object, hxk, -⟩ := hold.attached hserves.2
      have hid : x.endpoint.name_ ≠ identifier := by
        rintro rfl
        rw [(hold.server hserves).1, hxk] at hname
        cases hname
      rw [names_addObject_of_ne hid]
      exact hold.server hserves
  · have hk' : (h.objects ++ [(⟨size, fun _ => 0⟩ : SharedMemory)])[k]? = some object := hk
    rw [List.getElem?_append] at hk'
    split_ifs at hk' with hold
    · exact hs.represents d k object hk' hd hpos hlt
    · obtain rfl := List.mem_singleton.mp (List.mem_of_getElem? hk')
      show (Register.ofUses d h.uses k : Register τ d).Represents fun _ => 0
      rw [Register.ofUses_of_forall_ne fun y hy => by have := hs.uses_lt y hy; omega]
      exact Register.represents_zero (Nat.le_of_lt hlt) fun _ _ => rfl

/-- A constructor keeps the host sound, whether it returns or not. -/
theorem Sound.built (hs : h.Sound) {fails : BoostCall → Bool} {identifier : String} {h' : Host τ}
    (hbuilt : Built h fails identifier h') : h'.Sound := by
  cases hbuilt with
  | failed umask => exact hs.setUmask umask
  | @detached e hmutex hserver =>
    have hmap : h.map e = ⟨e, none⟩ := by simp [Host.map, hmutex]
    refine hs.addEndpoint ?_ ?_
    · rw [hmap]
      refine ⟨fun _ => ⟨rfl, hserver⟩, fun hmutex' => ?_, fun hserves => ?_⟩
      · exact absurd (hmutex.symm.trans hmutex') (by simp)
      · exact absurd (hmutex.symm.trans hserves.2) (by simp)
    · rw [hmap]
      exact fun hserves => absurd (hmutex.symm.trans hserves.2) (by simp)
  | @client e k object hname hobject hmutex hmode hidentifier hworks =>
    have hmap : h.map e = ⟨e, some k⟩ := by simp [Host.map, hworks.mutex, hidentifier, hname]
    have hnot : ¬ (h.map e).Serves := by
      rw [hmap]
      exact fun hserves => absurd (hmode.symm.trans hserves.1) (by simp)
    refine hs.addEndpoint ?_ fun hserves => absurd hserves hnot
    rw [hmap] at hnot ⊢
    refine ⟨fun hmutex' => ?_, fun _ => ⟨k, object, rfl, hobject, hworks⟩,
      fun hserves => absurd hserves hnot⟩
    exact absurd (hworks.mutex.symm.trans hmutex') (by simp)
  | leftover hname hlate hsize => exact (hs.addObject hname hsize).setUmask _
  | @server e size hname hmutex hsize hmode hidentifier hworks =>
    have hnamed := names_addObject_self identifier (⟨size, fun _ => 0⟩ : SharedMemory) (h := h)
    have hnew := (hs.addObject hname (.inr hsize)).lock
      (hnamed ▸ Option.some_ne_none h.objects.length)
    have hmap : ((h.addObject identifier ⟨size, fun _ => 0⟩).lock identifier).map e =
        ⟨e, some h.objects.length⟩ := by
      rw [Host.map, if_pos hworks.mutex, hidentifier]
      exact congrArg _ hnamed
    refine hnew.addEndpoint ?_ ?_
    · rw [hmap]
      refine ⟨fun hmutex' => ?_, fun _ => ⟨h.objects.length, _, rfl, ?_, hworks⟩, fun _ => ?_⟩
      · exact absurd (hworks.mutex.symm.trans hmutex') (by simp)
      · exact List.getElem?_concat_length
      · show _ = some h.objects.length ∧ Function.update h.mutexes identifier true e.name_ = true
        rw [hidentifier, Function.update_self]
        exact ⟨hnamed, rfl⟩
    · -- the object of another server is an older one
      rw [hmap]
      intro _ j y hy hserves hobject
      have hy' : h.mapping j = some y := hy
      obtain ⟨k, object, hk, hobject', -⟩ := (hs.maps j y hy').attached hserves.2
      have hlt := (List.getElem?_eq_some_iff.mp hobject').1
      rw [hk] at hobject
      exact absurd (Option.some.inj hobject) (Nat.ne_of_lt hlt)

omit [Double τ] [DoubleBytes τ] [LawfulDoubleBytes τ] in
theorem memory_eq {k : ℕ} {object : SharedMemory} (hk : x.object = some k)
    (hobject : h.objects[k]? = some object) : h.memory x = object.memory := by
  rw [memory, hk, Option.bind_some, hobject]

omit [Double τ] [DoubleBytes τ] [LawfulDoubleBytes τ] in
/-- An endpoint that works on a segment of a size that the assertions let through is attached to
it. -/
theorem attached_of_worksOn {e : RealTimeIPC τ} {object : SharedMemory} {d : ℕ}
    (hworks : e.WorksOn object) (hsize : object.size = d + sizeofHeader) (hpos : 0 < d)
    (hlt : d < MAX_IPC_BUF_LENGHT) : e.Attached d :=
  ⟨hworks.shared.1, hworks.shared.2, hworks.mutex, hworks.dim.trans hsize,
    hworks.map.trans hsize, hpos, Nat.le_of_lt hlt, .inr hlt⟩

theorem Sound.request (hs : h.Sound) (hx : h.mapping i = some x) {r : Request τ} {reply : Reply τ}
    {h' : Host τ} (hrequest : h.request i x r = some (reply, h')) : h'.Sound := by
  unfold Host.request at hrequest
  split at hrequest
  · next o m hexec =>
    obtain ⟨-, rfl⟩ := Prod.mk.inj (Option.some.inj hrequest)
    refine hs.used hx ((r.ends_sameMembers _).exec hexec) ((r.ends_name _).exec hexec) ?_
    intro k object d hk hobject hsize hpos hlt
    obtain ⟨object', hobject', hworks⟩ := (hs.maps i x hx).works hk
    obtain rfl := Option.some.inj (hobject.symm.trans hobject')
    rw [memory_eq hk hobject] at hexec
    obtain ⟨-, -, -, -, -, hrep, -⟩ := Register.simulates
      (attached_of_worksOn hworks hsize hpos hlt)
      (hs.represents d k object hobject hsize hpos hlt) r
    rw [hexec] at hrep
    exact hrep
  · cases hrequest

theorem Sound.destruct (hs : h.Sound) (hx : h.mapping i = some x) {h' : Host τ}
    (hdestruct : h.destruct i x = some h') : h'.Sound := by
  unfold Host.destruct at hdestruct
  split at hdestruct
  · next o m hexec =>
    obtain rfl := Option.some.inj hdestruct
    obtain ⟨hname, hremoves⟩ := (ends_destruct_removes x.endpoint).exec hexec
    have hused : ((h.used i x .destruct o.self m).kill i).Sound := by
      refine (hs.used hx ((ends_destruct x.endpoint).exec hexec) hname ?_).kill i
      intro k object d hk hobject hsize hpos hlt
      obtain ⟨object', hobject', hworks⟩ := (hs.maps i x hx).works hk
      obtain rfl := Option.some.inj (hobject.symm.trans hobject')
      rw [memory_eq hk hobject] at hexec
      obtain ⟨o', m', hexec', hrep, -⟩ := Register.simulates_destruct
        (attached_of_worksOn hworks hsize hpos hlt)
        (hs.represents d k object hobject hsize hpos hlt)
      obtain ⟨-, rfl⟩ := Prod.mk.inj (hexec.symm.trans hexec')
      exact hrep
    split_ifs with hret
    · refine hused.remove fun j y hy hserves hsame => ?_
      -- a living server with this name would be the one that was destroyed
      rw [mapping_kill] at hy
      split_ifs at hy with hj
      rw [mapping_used hx, if_neg hj] at hy
      obtain ⟨hmode, hdim⟩ := hremoves.mp hret
      have hmutex : x.endpoint.mutex_ = true := by
        by_contra hmutex
        have := ((hs.maps i x hx).detached (Bool.eq_false_iff.mpr hmutex)).2 hmode
        omega
      refine hj (hs.unique j i y x hy hx hserves ⟨hmode, hmutex⟩ ?_)
      rw [← ((hs.maps j y hy).server hserves).1, hsame, hname]
      exact ((hs.maps i x hx).server ⟨hmode, hmutex⟩).1
    · exact hused
  · cases hdestruct

theorem Sound.step (hs : h.Sound) {event : HostEvent τ} {h' : Host τ}
    (hstep : Host.step h event = some h') : h'.Sound := by
  cases event with
  | construct fails identifier watchdog_decimation mode dim ndebug =>
    obtain rfl := Option.some.inj hstep
    exact hs.built (built_construct hs.named ..)
  | request i r =>
    obtain ⟨x, hx, rfl⟩ := Option.map_eq_some_iff.mp hstep
    cases hrequest : h.request i x r with
    | none => exact hs.kill i
    | some y => exact hs.request hx (hrequest.trans (congrArg some Prod.mk.eta.symm))
  | destruct i =>
    obtain ⟨x, hx, rfl⟩ := Option.map_eq_some_iff.mp hstep
    cases hdestruct : h.destruct i x with
    | none => exact hs.kill i
    | some h' => exact hs.destruct hx hdestruct
  | crash i =>
    obtain ⟨x, -, rfl⟩ := Option.map_eq_some_iff.mp hstep
    exact hs.kill i

variable {umask : ℕ} {events : List (HostEvent τ)}

theorem sound_of_run (hrun : run Host.step (Host.fresh umask) events = some h) : h.Sound :=
  run_invariant Sound (fun _ _ _ hI hstep => hI.step hstep) (sound_fresh umask) hrun

end Host

end RealtimeUtilities
