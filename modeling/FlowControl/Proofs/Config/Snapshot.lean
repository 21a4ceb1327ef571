import FlowControl.Layer.Audit
import FlowControl.Proofs.Config.Layers

/-!
# Snapshots and reads

A read goes through the chain from front to back and takes the first answer. A snapshot goes the
other way and lets every layer write over what the layers behind it have written. This file shows
that the two agree, option by option (`Config.find?_getOptions`), whatever the chain is made of: the
same option may be held by several layers, and a socket layer may leave an option unanswered so that
one behind it shows through.

All that is asked of a layer is that it puts into a snapshot exactly what it answers (`Collects`).
The core and the socket layer do. A registry does because it declares no option twice, which holds
of every registry that is written through its operations; for a layer that an application defines it
is a condition.
-/

set_option autoImplicit false

namespace FlowControl

/-- A layer puts into a snapshot exactly what it answers, and leaves the rest of the snapshot as it
found it. -/
def Collects (collect : OptionMap → OptionMap) (answer : OptionKey → Option Value) : Prop :=
  ∀ m k, (collect m).find? k = (answer k).or (m.find? k)

/-! ## One layer -/

/-- What a layer adds that goes through things with options of different numbers and stores a value
for each of them that has one. -/
theorem OptionMap.find?_foldl_insert {α : Type} (key : α → OptionKey) (value? : α → Option Value)
    (k : OptionKey) {xs : List α} (hxs : xs.Pairwise fun x y => (key x).id ≠ (key y).id)
    (m : OptionMap) :
    (xs.foldl (fun m x => match value? x with
      | some v => m.insert (key x) v
      | none => m) m).find? k =
      ((xs.find? fun x => (key x).same k).bind value?).or (m.find? k) := by
  induction xs generalizing m with
  | nil => rfl
  | cons x rest ih =>
    obtain ⟨hfirst, hrest⟩ := List.pairwise_cons.1 hxs
    rw [List.foldl_cons, ih hrest, List.find?_cons]
    by_cases hx : (key x).same k = true
    · -- Nothing behind `x` is about its option.
      have hnone : rest.find? (fun y => (key y).same k) = none := by
        rw [List.find?_eq_none]
        intro y hy hsame
        rw [OptionKey.same_iff] at hx hsame
        exact hfirst y hy (hx.trans hsame.symm)
      simp only [hnone, hx, Option.bind_none, Option.bind_some, Option.none_or]
      cases value? x with
      | none => rfl
      | some v => simp only [find?_insert, OptionKey.same_iff.1 hx, if_true, Option.some_or]
    · have hne : (key x).id ≠ k.id := fun hid => hx (OptionKey.same_iff.2 hid)
      rw [Bool.not_eq_true] at hx
      simp only [hx]
      cases value? x with
      | none => rfl
      | some v => simp only [find?_insert, hne, if_false]

theorem Core.collects (c : Core) : Collects c.collect fun k => c.tryGet k := by
  intro m k
  have hdistinct : CoreOption.all.Pairwise fun o o' => o.key.id ≠ o'.key.id := by decide
  simp only [Core.tryGet, Option.map_eq_bind]
  exact OptionMap.find?_foldl_insert CoreOption.key (fun o => some (c.get o)) k hdistinct m

theorem SocketOptions.collects (s : SocketOptions) : Collects s.collect fun k => s.tryGet k := by
  intro m k
  have hdistinct : SocketOption.all.Pairwise fun o o' => o.key.id ≠ o'.key.id := by decide
  exact OptionMap.find?_foldl_insert SocketOption.key (fun o => s.get? o) k hdistinct m

theorem Registry.Sound.collects {t : OptionTable} {accepts : Nat → Value → Prop} {r : Registry}
    (hr : r.Sound t accepts) : Collects r.collect fun k => r.value? k := by
  intro m k
  simp only [Registry.value?, Option.map_eq_bind]
  exact OptionMap.find?_foldl_insert Declared.key (fun d => some d.value) k hr.distinct m

namespace Config

variable {κ : Type} [OptionLayer κ]

/-! ## The chain -/

/-- Every registry of the chain is one that operations lead to, as it is after any calls
(`Config.Changes.reached`). Of the other layers nothing is asked: their states may be any at all. -/
structure Reached (t : OptionTable) (c : Config κ) : Prop where
  registry : c.registry.Reached t fun _ _ => True
  layers : ∀ r, .registry r ∈ c.layers → r.Reached t fun _ _ => True

/-- The layers that the application defines put into a snapshot exactly what they answer. -/
def CustomCollects (c : Config κ) : Prop :=
  ∀ l, .custom l ∈ c.layers → Collects (OptionLayer.collect l) fun k => OptionLayer.tryGet k l

variable {t : OptionTable} {c : Config κ}

theorem collectAt_collects (ht : t.Coherent) (hc : c.Reached t) (hcustom : c.CustomCollects)
    (slot : Slot) : Collects (c.collectAt · slot) fun k => c.tryGetAt k slot := by
  cases slot with
  | core => exact c.core.collects
  | registry => exact (hc.registry.sound ht).collects
  | layer i =>
    intro m k
    simp only [collectAt, tryGetAt]
    cases hi : c.layers[i]? with
    | none => rfl
    | some l =>
      have hmem : l ∈ c.layers := List.mem_of_getElem? hi
      cases l with
      | socket options => exact options.collects m k
      | registry r => exact ((hc.layers r hmem).sound ht).collects m k
      | custom l => exact hcustom l hmem m k

/-- The layer that is nearest to the front has written last. -/
theorem find?_foldl_collectAt
    (hcollects : ∀ slot, Collects (c.collectAt · slot) fun k => c.tryGetAt k slot) (k : OptionKey)
    (slots : List Slot) (m : OptionMap) :
    (slots.reverse.foldl c.collectAt m).find? k =
      (slots.findSome? (c.tryGetAt k)).or (m.find? k) := by
  induction slots with
  | nil => rfl
  | cons slot rest ih =>
    have hslot : ∀ m, (c.collectAt m slot).find? k = (c.tryGetAt k slot).or (m.find? k) :=
      fun m => hcollects slot m k
    rw [List.reverse_cons, List.foldl_append, List.foldl_cons, List.foldl_nil, hslot, ih,
      List.findSome?_cons]
    cases c.tryGetAt k slot <;> rfl

theorem find?_getOptions (ht : t.Coherent) (hc : c.Reached t) (hcustom : c.CustomCollects)
    (k : OptionKey) : c.getOptions.find? k = c.tryGet k := by
  have hfold := find?_foldl_collectAt (collectAt_collects ht hc hcustom) k c.chain .empty
  rw [OptionMap.find?_empty, Option.or_none] at hfold
  exact hfold

end Config

/-! ## The types of values -/

theorem Core.type_get (o : CoreOption) (c : Core) : (c.get o).type = o.key.type := by
  cases o <;> rfl

theorem SocketOptions.type_of_get? {o : SocketOption} {s : SocketOptions} {v : Value}
    (h : s.get? o = some v) : v.type = o.key.type := by
  cases o with
  | tcpNoDelay | keepAlive | reuseAddress | linger => cases h; rfl
  | receiveBufferSize | sendBufferSize =>
    obtain ⟨n, -, rfl⟩ := Option.map_eq_some_iff.1 h
    rfl

section Types

variable {t : OptionTable} {k : OptionKey} {v : Value}

/-- An option of the table that has the number of a built-in option is that option. -/
theorem OptionTable.Coherent.eq_builtIn (ht : t.Coherent) (hk : k ∈ t.keys) {k' : OptionKey}
    (hk' : k' ∈ OptionKey.builtIns) (hid : k'.id = k.id) : k' = k :=
  ht.unique k' (ht.builtIn k' hk') k hk hid

theorem CoreOption.key_mem_builtIns (o : CoreOption) : o.key ∈ OptionKey.builtIns := by
  cases o <;> decide

theorem SocketOption.key_mem_builtIns (o : SocketOption) : o.key ∈ OptionKey.builtIns := by
  cases o <;> decide

theorem Core.type_of_tryGet (ht : t.Coherent) (hk : k ∈ t.keys) {c : Core}
    (h : c.tryGet k = some v) : v.type = k.type := by
  obtain ⟨o, ho, rfl⟩ := Option.map_eq_some_iff.1 h
  rw [← ht.eq_builtIn hk o.key_mem_builtIns (CoreOption.id_of_ofKey? ho)]
  exact c.type_get o

theorem SocketOptions.type_of_tryGet (ht : t.Coherent) (hk : k ∈ t.keys) {s : SocketOptions}
    (h : s.tryGet k = some v) : v.type = k.type := by
  obtain ⟨o, ho, hget⟩ := Option.bind_eq_some_iff.1 h
  rw [← ht.eq_builtIn hk o.key_mem_builtIns (SocketOption.id_of_ofKey? ho)]
  exact type_of_get? hget

theorem Registry.Sound.type_of_value? {accepts : Nat → Value → Prop} (ht : t.Coherent)
    (hk : k ∈ t.keys) {r : Registry} (hr : r.Sound t accepts) (h : r.value? k = some v) :
    v.type = k.type := by
  obtain ⟨d, hd, rfl⟩ := Option.map_eq_some_iff.1 h
  have hmem : d ∈ r.declared := List.mem_of_find?_eq_some hd
  have hid : d.key.id = k.id := OptionKey.same_iff.1 (same_of_find? hd)
  rw [← ht.unique d.key (hr.known d hmem) k hk hid]
  exact hr.typed d hmem

namespace Config

variable {κ : Type} [OptionLayer κ] {c : Config κ}

theorem type_of_tryGetAt (ht : t.Coherent) (hk : k ∈ t.keys) (hc : c.Reached t)
    (hbuilt : ∀ l, .custom l ∉ c.layers) {slot : Slot} (h : c.tryGetAt k slot = some v) :
    v.type = k.type := by
  cases slot with
  | core => exact Core.type_of_tryGet ht hk h
  | registry => exact (hc.registry.sound ht).type_of_value? ht hk h
  | layer i =>
    obtain ⟨l, hi, hl⟩ := Option.bind_eq_some_iff.1 h
    have hmem : l ∈ c.layers := List.mem_of_getElem? hi
    cases l with
    | socket options => exact SocketOptions.type_of_tryGet ht hk hl
    | registry r => exact ((hc.layers r hmem).sound ht).type_of_value? ht hk hl
    | custom l => exact absurd hmem (hbuilt l)

theorem getOption_eq_ok_iff : c.getOption k = .ok v ↔ c.tryGet k = some v ∧ v.type = k.type := by
  unfold getOption
  cases c.tryGet k with
  | none => simp
  | some v' =>
    dsimp only
    split
    · rename_i hv
      simp only [Except.ok.injEq, Option.some.injEq]
      exact ⟨fun h => ⟨h, h ▸ hv⟩, And.left⟩
    · rename_i hv
      simp only [reduceCtorEq, Option.some.injEq, false_iff, not_and]
      rintro rfl
      exact hv

end Config

end Types

/-! ## The result -/

namespace Config

variable {κ : Type} [OptionLayer κ]

/-- A snapshot has an option exactly if some layer answers for it, and has then the value of the
first layer that does, which is the one that a read gives. In a chain of built-in layers a read
never finds a value of a wrong type. -/
theorem getOptions_reads (requests : List OptionTable.Request) (c : Config κ)
    (hc : c.Reached (.serve requests)) (hcustom : c.CustomCollects) :
    (∀ k : OptionKey,
      (c.getOptions.contains k ↔ ∃ slot ∈ c.chain, (c.tryGetAt k slot).isSome) ∧
      (∀ front slot back v, c.chain = front ++ slot :: back → c.tryGetAt k slot = some v →
        (∀ slot' ∈ front, c.tryGetAt k slot' = none) → c.getOptions.find? k = some v) ∧
      ∀ v, c.getOption k = .ok v ↔ c.getOptions.find? k = some v ∧ v.type = k.type) ∧
    ((∀ l, .custom l ∉ c.layers) → ∀ k ∈ (OptionTable.serve requests).keys, ∀ option reason,
      c.getOption k ≠ .error (.illegalArgument option reason)) := by
  have ht := OptionTable.serve_coherent requests
  have hfind := find?_getOptions ht hc hcustom
  refine ⟨?_, ?_⟩
  · intro k
    refine ⟨?_, ?_, ?_⟩
    · rw [OptionMap.contains, hfind, tryGet, List.findSome?_isSome_iff]
    · intro front slot back v hchain hslot hfront
      rw [hfind, tryGet]
      exact List.findSome?_eq_some_iff.2 ⟨front, slot, back, hchain, hslot, hfront⟩
    · intro v
      rw [hfind]
      exact getOption_eq_ok_iff
  · intro hbuilt k hk option reason herror
    unfold getOption at herror
    cases hget : c.tryGet k with
    | none =>
      rw [hget] at herror
      cases herror
    | some v =>
      obtain ⟨slot, -, hslot⟩ := List.exists_of_findSome?_eq_some hget
      have htype := type_of_tryGetAt ht hk hc hbuilt hslot
      rw [hget] at herror
      simp only [htype, if_true] at herror
      cases herror

end Config

/-- An audit layer that shows up in snapshots shows up with what it answers. -/
theorem AuditLayer.collects_of_collects {l : AuditLayer} (hl : l.collects = true) :
    Collects (OptionLayer.collect l) fun k => OptionLayer.tryGet k l := by
  intro m k
  simp only [OptionLayer.collect, OptionLayer.tryGet, hl, if_true, OptionMap.find?_insert,
    OptionKey.same_iff]
  split <;> rfl

/-- A size that the socket layer has not set shows through from a registry behind it, past a layer
of the application; without that layer, no read is refused for its type. -/
theorem Config.getOptions_reads_behind :
    let behind : Registry := Registry.empty.put ⟨.receiveBufferSize, .i32 1024, none⟩
    let audit : AuditLayer := ⟨.tcpNoDelay, true, true, false, [.string "off"]⟩
    let c : Config AuditLayer := .ofLayers [.socket .standard, .custom audit, .registry behind]
    let c' : Config AuditLayer := .ofLayers [.socket .standard, .registry behind]
    c.Reached (.serve []) ∧ c.CustomCollects ∧
      c.getOptions.find? .receiveBufferSize = some (.i32 1024) ∧
      ∀ option reason, c'.getOption .tcpNoDelay ≠ .error (.illegalArgument option reason) := by
  intro behind audit c c'
  have hbehind : behind.Reached (.serve []) fun _ _ => True :=
    .change .empty (.declare ⟨⟨.receiveBufferSize, by decide⟩, .i32 1024, rfl⟩ none nofun)
  have hc : c.Reached (.serve []) := by
    refine ⟨.empty, ?_⟩
    intro r hr
    obtain rfl : r = behind := by simpa [c, ofLayers] using hr
    exact hbehind
  have hcustom : c.CustomCollects := by
    intro l hl
    obtain rfl : l = audit := by simpa [c, ofLayers] using hl
    exact AuditLayer.collects_of_collects rfl
  have hc' : c'.Reached (.serve []) := by
    refine ⟨.empty, ?_⟩
    intro r hr
    obtain rfl : r = behind := by simpa [c', ofLayers] using hr
    exact hbehind
  have hbuilt : ∀ l, .custom l ∉ c'.layers := by simp [c', ofLayers]
  have hcustom' : c'.CustomCollects := fun l hl => absurd hl (hbuilt l)
  refine ⟨hc, hcustom, ?_, (getOptions_reads [] c' hc' hcustom').2 hbuilt _ (by decide)⟩
  exact ((getOptions_reads [] c hc hcustom).1 .receiveBufferSize).2.1
    [.core, .layer 0, .layer 1] (.layer 2) [.registry] (.i32 1024) rfl rfl (by decide)

end FlowControl
