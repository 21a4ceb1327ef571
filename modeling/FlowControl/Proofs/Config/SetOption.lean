import FlowControl.Proofs.Config.Layers

/-!
# What setting an option changes

A write reaches one layer: the first that claims the option. A read takes the first layer that has a
value for it. The two go different ways through the chain, since a socket layer claims the write of
a size that it cannot yet read, so it is not enough that each layer reads back what was stored in
it. `Config.WrittenAt` says what a write at one place does to the reads at all places, and the
layers before that place are known not to claim the option, hence to have no value for it.

`Quiet.setOption_written` is the result for all configurations of built-in layers. It asks nothing
of the configuration; in particular the same option may be declared by several registries, and also
be one of the core or of a socket layer.
-/

set_option autoImplicit false

namespace FlowControl

namespace Config

section Statement

variable {κ : Type} [OptionLayer κ]

/-- The three options of the water marks read one pair. -/
structure ReadsMarks (marks : WaterMark) (c : Config κ) : Prop where
  high : c.getOption .writeBufferHighWaterMark = .ok (.u32 marks.high)
  low : c.getOption .writeBufferLowWaterMark = .ok (.u32 marks.low)
  pair : c.getOption .writeBufferWaterMark = .ok (.waterMark marks)

theorem readsMarks (c : Config κ) : c.ReadsMarks c.core.gate.marks := ⟨rfl, rfl, rfl⟩

/-- Between `c` and `c'` the option `k` has been set to `v`, and nothing else has changed. Where `k`
is about the water marks, the other two options of these read the new pair. -/
structure Written (k : OptionKey) (v : Value) (c c' : Config κ) : Prop where
  reads : c'.getOption k = .ok v
  keeps : ∀ k' : OptionKey, k'.id ≠ k.id → ¬ (k.IsMark ∧ k'.IsMark) →
    c'.getOption k' = c.getOption k'
  marks : c'.ReadsMarks c'.core.gate.marks
  /-- The sides of the pair that `k` does not name, the gate, and the read path. -/
  kept : Core.Kept k c.core c'.core

/-- What a write at one place of the chain does to the reads at every place. -/
structure WrittenAt (k : OptionKey) (v : Value) (slot : Slot) (c c' : Config κ) : Prop where
  chain : c'.chain = c.chain
  reads : c'.tryGetAt k slot = some v
  keeps : ∀ k' : OptionKey, k'.id ≠ k.id → ¬ (k.IsMark ∧ k'.IsMark) →
    c'.tryGetAt k' slot = c.tryGetAt k' slot
  elsewhere : ∀ (k' : OptionKey) (slot' : Slot), slot' ≠ slot →
    c'.tryGetAt k' slot' = c.tryGetAt k' slot'
  kept : Core.Kept k c.core c'.core

end Statement

variable {verdict : Nat → Value → Option String} {k : OptionKey} {v : Value}

/-! ## One place -/

theorem tryGetAt_of_storeAt {c : Config Empty} {slot : Slot}
    (h : c.storeAt verdict k v slot = none) : c.tryGetAt k slot = none := by
  cases slot with
  | core =>
    have hk : CoreOption.ofKey? k = none := Option.map_eq_none_iff.1 h
    simp only [tryGetAt, Core.tryGet, hk, Option.map_none]
  | layer i =>
    have hl : c.layers[i]?.bind (Layer.store verdict k v) = none := Option.map_eq_none_iff.1 h
    simp only [tryGetAt]
    cases hi : c.layers[i]? with
    | none => rfl
    | some l =>
      rw [hi, Option.bind_some] at hl
      exact Layer.tryGet_of_store hl
  | registry => exact Registry.value?_of_write (Option.map_eq_none_iff.1 h)

theorem writtenAt_core {c : Config Empty} {core : Core} {o : CoreOption}
    (ho : CoreOption.ofKey? k = some o) (hs : c.core.Stored o v core) :
    c.WrittenAt k v .core { c with core } where
  chain := rfl
  reads := by simp only [tryGetAt, Core.tryGet, ho, Option.map_some, hs.get_self]
  keeps k' hne hmark := by
    simp only [tryGetAt, Core.tryGet]
    cases ho' : CoreOption.ofKey? k' with
    | none => rfl
    | some o' =>
      have hid : o.key.id = k.id := CoreOption.id_of_ofKey? ho
      have hid' : o'.key.id = k'.id := CoreOption.id_of_ofKey? ho'
      rw [Option.map_some, Option.map_some, hs.get_other]
      · rintro rfl
        exact hne (hid'.symm.trans hid)
      · rw [OptionKey.isMark_congr hid, OptionKey.isMark_congr hid']
        exact hmark
  elsewhere _ slot' hslot := by
    cases slot' with
    | core => exact absurd rfl hslot
    | layer _ | registry => rfl
  kept := hs.kept (CoreOption.id_of_ofKey? ho)

theorem writtenAt_layer {c : Config Empty} {i : Nat} {l l' : Layer Empty}
    (hi : c.layers[i]? = some l) (hs : l.store verdict k v = some (.ok l')) :
    c.WrittenAt k v (.layer i) (c.setLayer i l') where
  chain := by simp only [chain, setLayer, List.length_set]
  reads := by
    have hlt : i < c.layers.length := (List.getElem?_eq_some_iff.1 hi).1
    simp only [tryGetAt, setLayer, List.getElem?_set_self hlt, Option.bind_some]
    exact (Layer.tryGet_of_store_eq hs).1
  keeps k' hne _ := by
    have hlt : i < c.layers.length := (List.getElem?_eq_some_iff.1 hi).1
    simp only [tryGetAt, setLayer, List.getElem?_set_self hlt, hi, Option.bind_some]
    exact (Layer.tryGet_of_store_eq hs).2 k' hne
  elsewhere k' slot' hslot := by
    cases slot' with
    | layer j =>
      have hij : i ≠ j := by
        rintro rfl
        exact hslot rfl
      simp only [tryGetAt, setLayer, List.getElem?_set_ne hij]
    | core | registry => rfl
  kept := Core.Kept.refl k c.core

theorem writtenAt_registry {c : Config Empty} {registry : Registry}
    (hs : c.registry.write verdict k v = some (.ok registry)) :
    c.WrittenAt k v .registry { c with registry } where
  chain := rfl
  reads := (Registry.value?_of_write_eq hs).1
  keeps k' hne _ := (Registry.value?_of_write_eq hs).2 k' hne
  elsewhere _ slot' hslot := by
    cases slot' with
    | registry => exact absurd rfl hslot
    | core | layer _ => rfl
  kept := Core.Kept.refl k c.core

theorem writtenAt_of_storeAt {c c' : Config Empty} {slot : Slot}
    (h : c.storeAt verdict k v slot = some (.ok c')) : c.WrittenAt k v slot c' := by
  cases slot with
  | core =>
    obtain ⟨o, ho, hok⟩ := Option.map_eq_some_iff.1 h
    obtain ⟨core, hcore, rfl⟩ := map_eq_ok_iff.1 hok
    exact writtenAt_core ho (Core.stored_of_store hcore)
  | layer i =>
    obtain ⟨_, hbind, hok⟩ := Option.map_eq_some_iff.1 h
    obtain ⟨l, hi, hl⟩ := Option.bind_eq_some_iff.1 hbind
    obtain ⟨l', rfl, rfl⟩ := map_eq_ok_iff.1 hok
    exact writtenAt_layer hi hl
  | registry =>
    obtain ⟨_, hwrite, hok⟩ := Option.map_eq_some_iff.1 h
    obtain ⟨registry, rfl, rfl⟩ := map_eq_ok_iff.1 hok
    exact writtenAt_registry hwrite

/-! ## The chain -/

theorem tryGet_of_store {c : Config Empty} (h : c.store verdict k v = none) :
    c.tryGet k = none := by
  rw [store, List.findSome?_eq_none_iff] at h
  rw [tryGet, List.findSome?_eq_none_iff]
  intro slot hslot
  exact tryGetAt_of_storeAt (h slot hslot)

theorem tryGet_of_store_eq {c c' : Config Empty} (h : c.store verdict k v = some (.ok c')) :
    c'.tryGet k = some v ∧ ∀ k' : OptionKey, k'.id ≠ k.id → ¬ (k.IsMark ∧ k'.IsMark) →
      c'.tryGet k' = c.tryGet k' := by
  obtain ⟨front, slot, back, hchain, hslot, hfront⟩ := List.findSome?_eq_some_iff.1 h
  have hw := writtenAt_of_storeAt hslot
  refine ⟨?_, ?_⟩
  · rw [tryGet, hw.chain]
    refine List.findSome?_eq_some_iff.2 ⟨front, slot, back, hchain, hw.reads, ?_⟩
    intro slot' hmem
    -- A place that does not claim the option is not the one that was written.
    have hnone := hfront slot' hmem
    have hne : slot' ≠ slot := by
      rintro rfl
      rw [hslot] at hnone
      cases hnone
    rw [hw.elsewhere k slot' hne]
    exact tryGetAt_of_storeAt hnone
  · intro k' hne hmark
    have hslots : c'.tryGetAt k' = c.tryGetAt k' := by
      funext slot'
      by_cases hs : slot' = slot
      · rw [hs]
        exact hw.keeps k' hne hmark
      · exact hw.elsewhere k' slot' hs
    rw [tryGet, tryGet, hw.chain, hslots]

theorem written_of_store {c c' : Config Empty} (hv : v.type = k.type)
    (h : c.store verdict k v = some (.ok c')) : c.Written k v c' := by
  obtain ⟨hread, hkeep⟩ := tryGet_of_store_eq h
  obtain ⟨slot, -, hslot⟩ := List.exists_of_findSome?_eq_some h
  exact {
    reads := by simp only [getOption, hread, if_pos hv]
    keeps k' hne hmark := by simp only [getOption, hkeep k' hne hmark]
    marks := readsMarks c'
    kept := (writtenAt_of_storeAt hslot).kept }

end Config

/-! ## The result -/

namespace Quiet

/-- Setting an option to a value of its type. If it is accepted, the option reads as that value and
everything else is as before. If it is refused, the configuration is as before. If it is not
claimed, the configuration is as before and has no value for it. -/
theorem setOption_written (verdict : Nat → Value → Option String) {k : OptionKey} {v : Value}
    (hv : v.type = k.type) (s : Quiet Empty) :
    let out := (host verdict).setOption k v s
    (out.1 = .ok true → s.config.Written k v out.2.config) ∧
      (out.1 = .ok false → out.2.config = s.config ∧
        out.2.config.getOption k = .error (.unsupportedOption k.name)) ∧
      ∀ e, out.1 = .error e → out.2.config = s.config := by
  rcases hout : (host verdict).setOption k v s with ⟨r, s'⟩
  rcases setOption_cases verdict hout with
    ⟨rfl, hstore⟩ | ⟨rfl, hconfig, hstore⟩ | ⟨e, rfl, hconfig, _⟩
  · refine ⟨?_, nofun, nofun⟩
    intro _
    exact Config.written_of_store hv hstore
  · refine ⟨nofun, ?_, nofun⟩
    intro _
    refine ⟨hconfig, ?_⟩
    show s'.config.getOption k = .error (.unsupportedOption k.name)
    simp only [Config.getOption, hconfig, Config.tryGet_of_store hstore]
  · refine ⟨nofun, nofun, ?_⟩
    intro _ _
    exact hconfig

/-- A socket layer claims the write of a size that it has not set yet, and that is still read from a
registry behind it. -/
theorem setOption_written_receiveBufferSize :
    let behind : Registry := ⟨[⟨.receiveBufferSize, .i32 1024, none⟩]⟩
    let c : Config Empty := .ofLayers [.socket .standard, .registry behind]
    let out := (host fun _ _ => none).setOption .receiveBufferSize (.i32 4096) (ofConfig c)
    c.getOption .receiveBufferSize = .ok (.i32 1024) ∧ out.1 = .ok true ∧
      c.Written .receiveBufferSize (.i32 4096) out.2.config := by
  intro behind c out
  exact ⟨rfl, rfl, (setOption_written (fun _ _ => none) rfl (ofConfig c)).1 rfl⟩

end Quiet

end FlowControl
