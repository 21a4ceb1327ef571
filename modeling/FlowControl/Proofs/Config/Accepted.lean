import FlowControl.Proofs.Config.SetOption
import FlowControl.Proofs.Config.Sound

/-!
# Values that are accepted again

A sound configuration holds values that have passed their checks. The checks do not depend on what
is stored elsewhere, the order of the water marks aside, so a configuration of the same kind accepts
these values whatever it holds itself (`Config.exists_store`). Of the same kind means: as many
socket layers, and a registry that declares the same options and judges their values in the same way
(`Config.Like`).
-/

set_option autoImplicit false

namespace FlowControl

/-! ## The core -/

namespace Core

theorem countValue_eq (n : Nat) :
    ∃ m : Int32, countValue n = .i32 m ∧ m.toInt = (min n 2147483647 : Nat) := by
  refine ⟨_, rfl, Int32.toInt_ofNat_of_lt ?_⟩
  omega

theorem positive_eq_ok_of_pos {o : CoreOption} {n : Int32} (h : 0 < n.toInt) :
    positive o n = .ok n.toInt.toNat := by
  unfold positive
  rw [if_neg (by omega)]

/-- Every core accepts the values of a sound one, if they are not about the water marks. -/
theorem Sound.exists_store {c : Core} (hc : c.Sound) {o : CoreOption} (ho : ¬ o.key.IsMark)
    (c' : Core) : ∃ core, c'.store o (c.get o) = .ok core := by
  cases o with
  | highMark | lowMark | marks => exact absurd (by decide) ho
  | autoRead | sizing | estimator => exact ⟨_, rfl⟩
  | connectTimeout =>
    obtain ⟨n, hn, hvalue⟩ := countValue_eq c.connectTimeout
    simp only [get, hn, store, withConnectTimeout]
    rw [if_neg (by omega)]
    exact ⟨_, rfl⟩
  | maxMessages =>
    obtain ⟨n, hn, hvalue⟩ := countValue_eq c.handle.limit.toNat
    have hpos : 0 < n.toInt := by
      have := hc.limit
      omega
    simp only [get, hn, store, withMaxMessages, positive_eq_ok_of_pos hpos]
    exact ⟨_, rfl⟩
  | writeSpinCount =>
    obtain ⟨n, hn, hvalue⟩ := countValue_eq c.writeSpinCount
    have hpos : 0 < n.toInt := by
      have := hc.writeSpinCount
      omega
    simp only [get, hn, store, withWriteSpinCount, positive_eq_ok_of_pos hpos]
    exact ⟨_, rfl⟩

end Core

/-! ## Socket layers -/

namespace SocketOptions

theorem checkedSize_eq_ok_of_pos {o : SocketOption} {n : Int32} (h : 0 < n.toInt) :
    checkedSize o n = .ok n := by
  unfold checkedSize
  rw [if_neg (by omega)]

theorem Sound.exists_set {s : SocketOptions} (hs : s.Sound) {o : SocketOption} {v : Value}
    (h : s.get? o = some v) (s' : SocketOptions) : ∃ options, s'.set o v = .ok options := by
  cases o with
  | tcpNoDelay | keepAlive | reuseAddress => cases h; exact ⟨_, rfl⟩
  | receiveBufferSize =>
    obtain ⟨n, hn, rfl⟩ := Option.map_eq_some_iff.1 h
    have hpos := hs.receiveBufferSize n hn
    simp only [SocketOptions.set, withReceiveBufferSize, checkedSize_eq_ok_of_pos hpos]
    exact ⟨_, rfl⟩
  | sendBufferSize =>
    obtain ⟨n, hn, rfl⟩ := Option.map_eq_some_iff.1 h
    have hpos := hs.sendBufferSize n hn
    simp only [SocketOptions.set, withSendBufferSize, checkedSize_eq_ok_of_pos hpos]
    exact ⟨_, rfl⟩
  | linger =>
    cases h
    have hlinger := hs.linger
    simp only [SocketOptions.set, withLinger]
    rw [if_neg (by omega)]
    exact ⟨_, rfl⟩

end SocketOptions

/-! ## Registries -/

variable {verdict : Nat → Value → Option String} {t : OptionTable}

/-- What a declared option says about a value: nothing if it has no hook. -/
def Declared.judge (verdict : Nat → Value → Option String) (d : Declared) (v : Value) :
    Option String := d.hook.bind (verdict · v)

namespace Registry

/-- The same options are declared, and their values are judged in the same way. -/
def SameOptions (verdict : Nat → Value → Option String) (r r' : Registry) : Prop :=
  ∀ k, (r.find? k).map (Declared.judge verdict) = (r'.find? k).map (Declared.judge verdict)

theorem SameOptions.store {r r' : Registry} (h : r.SameOptions verdict r') (k : OptionKey)
    (v : Value) : r.SameOptions verdict (r'.store k v) := by
  intro k'
  rw [h k', find?_store, Option.map_map]
  refine congrArg (fun f => (r'.find? k').map f) ?_
  funext d
  simp only [Function.comp_apply]
  split <;> rfl

theorem SameOptions.contains_eq {r r' : Registry} (h : r.SameOptions verdict r') (k : OptionKey) :
    r'.contains k = r.contains k := by
  have hk := congrArg Option.isSome (h k)
  rw [Option.isSome_map, Option.isSome_map] at hk
  exact hk.symm

/-- A registry accepts the values of one that declares the same options. -/
theorem Sound.exists_write (ht : t.Coherent) {r r' : Registry}
    (hr : r.Sound t (Accepts verdict)) (hsame : r.SameOptions verdict r') {k : OptionKey}
    (hk : k ∈ t.keys) {v : Value} (h : r.value? k = some v) :
    ∃ registry, r'.write verdict k v = some (.ok registry) := by
  have htype : v.type = k.type := hr.type_of_value? ht hk h
  obtain ⟨d, hd, rfl⟩ := Option.map_eq_some_iff.1 h
  have hjudge : d.judge verdict d.value = none := by
    unfold Declared.judge
    cases hhook : d.hook with
    | none => rfl
    | some n => exact hr.accepted d (List.mem_of_find?_eq_some hd) n hhook
  have hmap := hsame k
  rw [hd, Option.map_some] at hmap
  obtain ⟨d', hd', hjudges⟩ := Option.map_eq_some_iff.1 hmap.symm
  have hjudge' : d'.hook.bind (verdict · d.value) = none := by
    rw [← hjudges] at hjudge
    exact hjudge
  refine ⟨r'.store k d.value, ?_⟩
  simp only [write, hd', Option.map_some, OptionKey.expectType, htype, if_true, hjudge']

end Registry

/-! ## Configurations -/

namespace Config

/-- The configuration `c'` is of the same kind as `c`. -/
structure Like (verdict : Nat → Value → Option String) (c c' : Config Empty) : Prop where
  length : c'.layers.length = c.layers.length
  onlySockets : c'.OnlySockets
  registry : c.registry.SameOptions verdict c'.registry

theorem Like.store {c c' c'' : Config Empty} (h : c.Like verdict c') {k : OptionKey} {v : Value}
    (hstore : c'.store verdict k v = some (.ok c'')) : c.Like verdict c'' := by
  obtain ⟨slot, -, hslot⟩ := List.exists_of_findSome?_eq_some hstore
  cases slot with
  | core =>
    obtain ⟨o, -, hok⟩ := Option.map_eq_some_iff.1 hslot
    obtain ⟨core, -, rfl⟩ := map_eq_ok_iff.1 hok
    exact ⟨h.length, h.onlySockets, h.registry⟩
  | registry =>
    obtain ⟨_, hwrite, hok⟩ := Option.map_eq_some_iff.1 hslot
    obtain ⟨r, rfl, rfl⟩ := map_eq_ok_iff.1 hok
    obtain ⟨_, -, -, -, rfl⟩ := Registry.eq_store_of_write hwrite
    exact ⟨h.length, h.onlySockets, h.registry.store k v⟩
  | layer i =>
    obtain ⟨_, hbind, hok⟩ := Option.map_eq_some_iff.1 hslot
    obtain ⟨l, hi, hl⟩ := Option.bind_eq_some_iff.1 hbind
    obtain ⟨l', rfl, rfl⟩ := map_eq_ok_iff.1 hok
    obtain ⟨options, rfl⟩ := h.onlySockets l (List.mem_of_getElem? hi)
    obtain ⟨_, hset, hok⟩ := Option.map_eq_some_iff.1 hl
    obtain ⟨options', rfl, rfl⟩ := map_eq_ok_iff.1 hok
    refine ⟨List.length_set.trans h.length, ?_, h.registry⟩
    intro l₁ hl₁
    rcases List.mem_or_eq_of_mem_set hl₁ with hl₁ | rfl
    · exact h.onlySockets l₁ hl₁
    · exact ⟨options', rfl⟩

/-- Asking the chain: the core first, then the layers in their order, the registry last. -/
theorem findSome?_chain {κ α : Type} (c : Config κ) (f : Slot → Option α) :
    c.chain.findSome? f = (f .core).or
      (((List.range c.layers.length).findSome? fun i => f (.layer i)).or (f .registry)) := by
  have hrange : ((List.range c.layers.length).map Slot.layer).findSome? f =
      (List.range c.layers.length).findSome? fun i => f (.layer i) := List.findSome?_map
  unfold chain
  rw [List.cons_append, List.findSome?_cons, List.findSome?_append, hrange,
    List.findSome?_singleton]
  cases f .core <;> rfl

/-- An option that neither the core nor a socket layer claims is the matter of the registry. -/
theorem findSome?_chain_registry {α : Type} {c : Config Empty} (hc : c.OnlySockets)
    {f : Slot → Option α} (hcore : f .core = none)
    (hlayer : ∀ i options, c.layers[i]? = some (.socket options) → f (.layer i) = none) :
    c.chain.findSome? f = f .registry := by
  have hlayers : ((List.range c.layers.length).findSome? fun i => f (.layer i)) = none := by
    rw [List.findSome?_eq_none_iff]
    intro i hi
    have hlt : i < c.layers.length := List.mem_range.1 hi
    obtain ⟨options, hl⟩ := hc _ (List.getElem_mem hlt)
    exact hlayer i options (by rw [List.getElem?_eq_getElem hlt, hl])
  rw [findSome?_chain, hcore, hlayers, Option.none_or, Option.none_or]

section Accepted

variable {c c' : Config Empty} {k : OptionKey} {v : Value}

theorem tryGet_of_registry (hc : c.OnlySockets) (hcore : CoreOption.ofKey? k = none)
    (hsocket : SocketOption.ofKey? k = none) : c.tryGet k = c.registry.value? k := by
  refine findSome?_chain_registry hc ?_ ?_
  · simp only [tryGetAt, Core.tryGet, hcore, Option.map_none]
  · intro i options hi
    simp only [tryGetAt, hi, Option.bind_some, Layer.tryGet, SocketOptions.tryGet, hsocket,
      Option.bind_none]

theorem store_of_registry (hc : c.OnlySockets) (hcore : CoreOption.ofKey? k = none)
    (hsocket : SocketOption.ofKey? k = none) :
    c.store verdict k v = c.storeAt verdict k v .registry := by
  refine findSome?_chain_registry hc ?_ ?_
  · simp only [storeAt, hcore, Option.map_none]
  · intro i options hi
    simp only [storeAt, hi, Option.bind_some, Layer.store, SocketOptions.trySet, hsocket,
      Option.map_none]

theorem exists_store_of_core (hc : c.core.Sound) {o : CoreOption}
    (ho : CoreOption.ofKey? k = some o) (hmark : ¬ o.key.IsMark) (h : c.tryGet k = some v) :
    ∃ c'', c'.store verdict k v = some (.ok c'') := by
  rw [tryGet, findSome?_chain] at h
  simp only [tryGetAt, Core.tryGet, ho, Option.map_some, Option.some_or, Option.some.injEq] at h
  obtain ⟨core, hstore⟩ := hc.exists_store hmark c'.core
  refine ⟨{ c' with core }, ?_⟩
  rw [store, findSome?_chain, storeAt, ho, Option.map_some, ← h, hstore]
  rfl

/-- A socket option that the core does not claim is the matter of the first socket layer. -/
theorem exists_store_of_layer (hlike : c.Like verdict c') {i : Nat} {s : SocketOptions}
    (hi : c.layers[i]? = some (.socket s)) (hs : s.Sound) (hcore : CoreOption.ofKey? k = none)
    (h : s.tryGet k = some v) : ∃ c'', c'.store verdict k v = some (.ok c'') := by
  obtain ⟨o, ho, hget⟩ := Option.bind_eq_some_iff.1 h
  have hlt : i < c'.layers.length := by
    rw [hlike.length]
    exact (List.getElem?_eq_some_iff.1 hi).1
  cases hl : c'.layers with
  | nil =>
    rw [hl] at hlt
    cases hlt
  | cons l rest =>
    have hmem : l ∈ c'.layers := by
      rw [hl]
      exact List.mem_cons_self
    obtain ⟨s', rfl⟩ := hlike.onlySockets l hmem
    obtain ⟨s'', hset⟩ := hs.exists_set hget s'
    have hfirst : c'.storeAt verdict k v (.layer 0) =
        some (.ok (c'.setLayer 0 (.socket s''))) := by
      simp only [storeAt, hl, List.getElem?_cons_zero, Option.bind_some, Layer.store,
        SocketOptions.trySet, ho, Option.map_some, hset]
      rfl
    refine ⟨c'.setLayer 0 (.socket s''), ?_⟩
    rw [store, findSome?_chain, hl, List.length_cons, List.range_succ_eq_map, List.findSome?_cons,
      hfirst]
    simp only [storeAt, hcore, Option.map_none, Option.none_or, Option.some_or]

theorem exists_store_of_socket (hc : c.Sound t (Accepts verdict)) (hsockets : c.OnlySockets)
    (hlike : c.Like verdict c') (hcore : CoreOption.ofKey? k = none)
    (hown : ¬ c.registry.contains k) (h : c.tryGet k = some v) :
    ∃ c'', c'.store verdict k v = some (.ok c'') := by
  have hfirst : c.tryGetAt k .core = none := by
    simp only [tryGetAt, Core.tryGet, hcore, Option.map_none]
  have hlast : c.tryGetAt k .registry = none := Registry.value?_eq_none_iff.2 hown
  rw [tryGet, findSome?_chain, hfirst, hlast, Option.none_or, Option.or_none] at h
  obtain ⟨i, -, hi⟩ := List.exists_of_findSome?_eq_some h
  obtain ⟨l, hl, hget⟩ := Option.bind_eq_some_iff.1 hi
  have hmem := List.mem_of_getElem? hl
  obtain ⟨s, rfl⟩ := hsockets l hmem
  exact exists_store_of_layer hlike hl (hc.sockets s hmem) hcore hget

theorem exists_store_of_registry (ht : t.Coherent) (hc : c.Sound t (Accepts verdict))
    (hsockets : c.OnlySockets) (hlike : c.Like verdict c') (hk : k ∈ t.keys)
    (hcore : CoreOption.ofKey? k = none) (hsocket : SocketOption.ofKey? k = none)
    (h : c.tryGet k = some v) : ∃ c'', c'.store verdict k v = some (.ok c'') := by
  rw [tryGet_of_registry hsockets hcore hsocket] at h
  obtain ⟨r, hwrite⟩ := hc.registry.exists_write ht hlike.registry hk h
  rw [store_of_registry hlike.onlySockets hcore hsocket, storeAt, hwrite]
  exact ⟨_, rfl⟩

/-- A configuration accepts every value that one of its kind holds, if that is sound and has no
built-in options among those it declares. -/
theorem exists_store (ht : t.Coherent) (hc : c.Sound t (Accepts verdict)) (hsockets : c.OnlySockets)
    (hown : ∀ k ∈ OptionKey.builtIns, ¬ c.registry.contains k) (hlike : c.Like verdict c')
    (hk : k ∈ t.keys) (hmark : ¬ k.IsMark) (h : c.tryGet k = some v) :
    ∃ c'', c'.store verdict k v = some (.ok c'') := by
  cases hcore : CoreOption.ofKey? k with
  | some o =>
    have hkey : o.key = k := ht.eq_builtIn hk o.key_mem_builtIns (CoreOption.id_of_ofKey? hcore)
    exact exists_store_of_core hc.core hcore (hkey ▸ hmark) h
  | none =>
    cases hsocket : SocketOption.ofKey? k with
    | some o =>
      have hkey : o.key = k :=
        ht.eq_builtIn hk o.key_mem_builtIns (SocketOption.id_of_ofKey? hsocket)
      exact exists_store_of_socket hc hsockets hlike hcore (hown k (hkey ▸ o.key_mem_builtIns)) h
    | none => exact exists_store_of_registry ht hc hsockets hlike hk hcore hsocket h

end Accepted

end Config

end FlowControl
