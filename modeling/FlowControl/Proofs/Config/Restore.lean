import FlowControl.Proofs.Config.Accepted

/-!
# Restoring a snapshot

A snapshot of one configuration can be put into another: into a freshly built one with the same
layers and the same declared options, it is accepted as a whole, and every option then reads as it
did in the first (`Quiet.trySetOptions_getOptions`). So a snapshot leaves out nothing that an option
can tell, and it holds no value that would be refused.

The result is put together from two halves that meet at the snapshot. On the one side, it lists
every option that has a value, once and with that value. On the other side, entries for different
options that are all accepted can be written one after the other without getting into each other's
way (`Config.Overwritten`). The three options of the water marks do get into each other's way; they
are the reason why a batch treats them as a whole.
-/

set_option autoImplicit false

namespace FlowControl

/-! ## What a snapshot lists -/

namespace Config

variable {t : OptionTable} {c : Config Empty}

theorem listed_collectAt (ht : t.Coherent) (hc : c.Reached t) {m : OptionMap} (hm : m.Listed t)
    (slot : Slot) : (c.collectAt m slot).Listed t := by
  have hregistry : ∀ {r : Registry}, r.Reached t (fun _ _ => True) → (r.collect m).Listed t := by
    intro r hr
    refine List.foldlRecOn _ _ hm ?_
    intro m hm d hd
    exact hm.insert ((hr.sound ht).known d hd) d.value
  cases slot with
  | core =>
    refine List.foldlRecOn _ _ hm ?_
    intro m hm o _
    exact hm.insert (ht.builtIn _ o.key_mem_builtIns) (c.core.get o)
  | registry => exact hregistry hc.registry
  | layer i =>
    simp only [collectAt]
    cases hi : c.layers[i]? with
    | none => exact hm
    | some l =>
      cases l with
      | registry r => exact hregistry (hc.layers r (List.mem_of_getElem? hi))
      | custom l => exact l.elim
      | socket options =>
        refine List.foldlRecOn _ _ hm ?_
        intro m hm o _
        split
        · exact hm.insert (ht.builtIn _ o.key_mem_builtIns) _
        · exact hm

theorem listed_getOptions (ht : t.Coherent) (hc : c.Reached t) : c.getOptions.Listed t := by
  refine List.foldlRecOn _ _ .empty ?_
  intro m hm slot _
  exact listed_collectAt ht hc hm slot

theorem find?_snapshot (ht : t.Coherent) (hc : c.Reached t) (k : OptionKey) :
    c.getOptions.find? k = c.tryGet k :=
  find?_getOptions ht hc (fun l => l.elim) k

theorem tryGet_of_mem_getOptions (ht : t.Coherent) (hc : c.Reached t) {e : OptionKey × Value}
    (he : e ∈ c.getOptions.entries) : c.tryGet e.1 = some e.2 := by
  rw [← find?_snapshot ht hc]
  exact (listed_getOptions ht hc).find?_eq he

theorem typed_getOptions (ht : t.Coherent) (hc : c.Reached t) : c.getOptions.Typed t := by
  intro e he
  have hk := (listed_getOptions ht hc).known e he
  obtain ⟨slot, -, hslot⟩ :=
    List.exists_of_findSome?_eq_some (tryGet_of_mem_getOptions ht hc he)
  exact ⟨hk, type_of_tryGetAt ht hk hc (fun l => l.elim) hslot⟩

/-- Every option that has a value has an entry. -/
theorem exists_mem_getOptions (ht : t.Coherent) (hc : c.Reached t) {k : OptionKey} {v : Value}
    (h : c.tryGet k = some v) : ∃ e ∈ c.getOptions.entries, e.1.id = k.id ∧ e.2 = v := by
  rw [← find?_snapshot ht hc] at h
  obtain ⟨e, he, hv⟩ := Option.map_eq_some_iff.1 h
  have hsame : e.1.same k = true := by simpa using List.find?_some he
  exact ⟨e, List.mem_of_find?_eq_some he, OptionKey.same_iff.1 hsame, hv⟩

theorem hasMark_getOptions (ht : t.Coherent) (hc : c.Reached t) : c.getOptions.HasMark := by
  rw [OptionMap.hasMark_iff]
  refine .inl ?_
  rw [OptionMap.contains, find?_snapshot ht hc]
  rfl

/-- A snapshot asks for the water marks that the configuration has. -/
theorem target_getOptions (ht : t.Coherent) (hc : c.Reached t) (current : WaterMark) :
    c.getOptions.targetLow current = c.core.gate.marks.low ∧
      c.getOptions.targetHigh current = c.core.gate.marks.high := by
  have hlow : c.tryGet .writeBufferLowWaterMark = some (.u32 c.core.gate.marks.low) := rfl
  have hhigh : c.tryGet .writeBufferHighWaterMark = some (.u32 c.core.gate.marks.high) := rfl
  simp only [OptionMap.targetLow, OptionMap.targetHigh, find?_snapshot ht hc, hlow, hhigh, and_self]

/-! ## Reads -/

/-- A read looks at the number of an option only. -/
theorem tryGet_of_id {k k' : OptionKey} (h : k.id = k'.id) (c : Config Empty) :
    c.tryGet k = c.tryGet k' := by
  have hsame : ∀ k₁ : OptionKey, k₁.same k = k₁.same k' := by
    intro k₁
    simp only [OptionKey.same, h]
  have hslots : c.tryGetAt k = c.tryGetAt k' := by
    funext slot
    cases slot with
    | core => simp only [tryGetAt, Core.tryGet, CoreOption.ofKey?, hsame]
    | registry => simp only [tryGetAt, Registry.value?, Registry.find?, hsame]
    | layer i =>
      have hlayer : Layer.tryGet k = (Layer.tryGet k' : Layer Empty → Option Value) := by
        funext l
        cases l with
        | socket options =>
          simp only [Layer.tryGet, SocketOptions.tryGet, SocketOption.ofKey?, hsame]
        | registry r => simp only [Layer.tryGet, Registry.value?, Registry.find?, hsame]
        | custom l => exact l.elim
      simp only [tryGetAt, hlayer]
  rw [tryGet, tryGet, hslots]

theorem tryGet_eq_none_iff {k : OptionKey} : c.tryGet k = none ↔
    CoreOption.ofKey? k = none ∧ (∀ l ∈ c.layers, l.tryGet k = none) ∧
      ¬ c.registry.contains k := by
  have hlayers : ((List.range c.layers.length).findSome? fun i => c.tryGetAt k (.layer i)) = none ↔
      ∀ l ∈ c.layers, l.tryGet k = none := by
    simp only [List.findSome?_eq_none_iff, List.mem_range, tryGetAt]
    constructor
    · intro h l hl
      obtain ⟨i, hi, rfl⟩ := List.getElem_of_mem hl
      simpa only [List.getElem?_eq_getElem hi, Option.bind_some] using h i hi
    · intro h i hi
      rw [List.getElem?_eq_getElem hi, Option.bind_some]
      exact h _ (List.getElem_mem hi)
  rw [tryGet, findSome?_chain, Option.or_eq_none_iff, Option.or_eq_none_iff, hlayers]
  simp only [tryGetAt, Core.tryGet, Option.map_eq_none_iff, Registry.value?_eq_none_iff]

/-- The options of the water marks read the pair of marks, whatever else there is. -/
theorem exists_read_of_isMark {k : OptionKey} (hk : k.IsMark) :
    ∃ read : WaterMark → Value, ∀ c : Config Empty, c.tryGet k = some (read c.core.gate.marks) := by
  rcases hk with (hid | hid) | hid | hid
  · exact ⟨fun marks => .u32 marks.high, fun c => tryGet_of_id hid c⟩
  · exact ⟨.waterMark, fun c => tryGet_of_id hid c⟩
  · exact ⟨fun marks => .u32 marks.low, fun c => tryGet_of_id hid c⟩
  · exact ⟨.waterMark, fun c => tryGet_of_id hid c⟩

/-! ## Writing entries -/

/-- The entries have been written: each of them is read, and an option without an entry reads as
before. -/
structure Overwritten (entries : List (OptionKey × Value)) (c c' : Config Empty) : Prop where
  reads : ∀ e ∈ entries, c'.tryGet e.1 = some e.2
  keeps : ∀ k : OptionKey, (∀ e ∈ entries, e.1.id ≠ k.id) → c'.tryGet k = c.tryGet k

theorem Overwritten.nil (c : Config Empty) : Overwritten [] c c where
  reads := nofun
  keeps _ _ := rfl

theorem Overwritten.cons {verdict : Nat → Value → Option String} {e : OptionKey × Value}
    {rest : List (OptionKey × Value)} {c c' c'' : Config Empty} (hmark : ¬ e.1.IsMark)
    (hne : ∀ e' ∈ rest, e.1.id < e'.1.id) (hstore : c.store verdict e.1 e.2 = some (.ok c'))
    (hrest : Overwritten rest c' c'') : Overwritten (e :: rest) c c'' := by
  obtain ⟨hread, hkeep⟩ := tryGet_of_store_eq hstore
  refine ⟨?_, ?_⟩
  · intro e' he'
    rcases List.mem_cons.1 he' with rfl | he'
    · rw [hrest.keeps _ fun e' he' => (Nat.ne_of_lt (hne e' he')).symm]
      exact hread
    · exact hrest.reads e' he'
  · intro k hk
    rw [hrest.keeps k fun e' he' => hk e' (List.mem_cons_of_mem _ he')]
    exact hkeep k (hk e List.mem_cons_self).symm fun h => hmark h.1

end Config

namespace Quiet

variable {verdict : Nat → Value → Option String} {t : OptionTable} {c : Config Empty}

theorem setEntry_of_store {e : OptionKey × Value} {s : Quiet Empty} {c' : Config Empty}
    (h : s.config.store verdict e.1 e.2 = some (.ok c')) :
    ((host verdict).setEntry e s).1 = none ∧ ((host verdict).setEntry e s).2.config = c' := by
  rcases hout : (host verdict).setOption e.1 e.2 s with ⟨r, s'⟩
  unfold Host.setEntry
  rw [hout]
  rcases setOption_cases verdict hout with ⟨rfl, hs⟩ | ⟨rfl, -, hs⟩ | ⟨_, rfl, -, hs⟩ <;>
    rw [h] at hs <;> cases hs
  exact ⟨rfl, rfl⟩

/-- Values of a sound configuration are written, all of them, into one of the same kind. -/
theorem setEntries_overwritten (ht : t.Coherent) (hc : c.Sound t (Accepts verdict))
    (hsockets : c.OnlySockets) (hown : ∀ k ∈ OptionKey.builtIns, ¬ c.registry.contains k)
    {entries : List (OptionKey × Value)}
    (hentries : ∀ e ∈ entries, e.1 ∈ t.keys ∧ ¬ e.1.IsMark ∧ c.tryGet e.1 = some e.2)
    (hordered : entries.Pairwise fun e e' => e.1.id < e'.1.id) {s : Quiet Empty}
    (hlike : c.Like verdict s.config) :
    ((host verdict).setEntries entries s).1 = [] ∧
      s.config.Overwritten entries ((host verdict).setEntries entries s).2.config := by
  induction entries generalizing s with
  | nil => exact ⟨rfl, .nil s.config⟩
  | cons e rest ih =>
    obtain ⟨hfirst, hrest⟩ := List.pairwise_cons.1 hordered
    obtain ⟨hk, hmark, hread⟩ := hentries e List.mem_cons_self
    obtain ⟨c', hstore⟩ := Config.exists_store ht hc hsockets hown hlike hk hmark hread
    obtain ⟨hanswer, hconfig⟩ := setEntry_of_store hstore
    have hlike' : c.Like verdict ((host verdict).setEntry e s).2.config := by
      rw [hconfig]
      exact hlike.store hstore
    obtain ⟨hanswers, hwritten⟩ :=
      ih (fun e' he' => hentries e' (List.mem_cons_of_mem _ he')) hrest hlike'
    rw [← hconfig] at hstore
    refine ⟨?_, .cons hmark hfirst hstore hwritten⟩
    simp only [Host.setEntries, hanswer, hanswers, Option.toList_none, List.append_nil]

/-- A snapshot of a sound configuration is accepted by one of the same kind. What has a value in the
first reads the same then; what has no value in either still has none. -/
theorem trySetOptions_snapshot (ht : t.Coherent) (hreached : c.Reached t)
    (hc : c.Sound t (Accepts verdict)) (hsockets : c.OnlySockets)
    (hown : ∀ k ∈ OptionKey.builtIns, ¬ c.registry.contains k) {s : Quiet Empty}
    (hlike : c.Like verdict s.config) :
    ((host verdict).trySetOptions c.getOptions s).1 = [] ∧
      ∀ k, (c.tryGet k = none → s.config.tryGet k = none) →
        ((host verdict).trySetOptions c.getOptions s).2.config.tryGet k = c.tryGet k := by
  have hlisted := Config.listed_getOptions ht hreached
  have hmarks := applyMarks_outcome ht (Hooks.discreet_judging verdict)
    (Config.typed_getOptions ht hreached) s
  rw [← host_eq_hostOf] at hmarks
  obtain ⟨hlow, hhigh⟩ := Config.target_getOptions ht hreached s.config.core.gate.marks
  unfold Host.trySetOptions
  generalize (host verdict).applyMarks c.getOptions s = out at hmarks ⊢
  cases hmarks with
  | none hmark => exact absurd (Config.hasMark_getOptions ht hreached) hmark
  | refused k hmark hk hcontains hlt =>
    rw [hlow, hhigh] at hlt
    exact absurd c.core.gate.marks.low_le_high (UInt32.not_le.2 hlt)
  | applied marks s' hmark hlow' hhigh' halike hgate =>
    obtain ⟨⟨gate, hconfig⟩, -⟩ := halike
    have hpair : s'.config.core.gate.marks = c.core.gate.marks := by
      rw [hgate, Gate.withMarks_marks]
      have hasked := WaterMark.ofPair_eq_ok_iff.2 ⟨hlow'.trans hlow, hhigh'.trans hhigh⟩
      rw [WaterMark.ofPair_self] at hasked
      exact (Except.ok.inj hasked).symm
    have hlike' : c.Like verdict s'.config := by
      rw [hconfig]
      exact ⟨hlike.length, hlike.onlySockets, hlike.registry⟩
    have hrest : (Host.withoutMarks c.getOptions).Listed t :=
      ((hlisted.erase _).erase _).erase _
    have hentries : ∀ e ∈ (Host.withoutMarks c.getOptions).entries,
        e.1 ∈ t.keys ∧ ¬ e.1.IsMark ∧ c.tryGet e.1 = some e.2 := by
      intro e he
      obtain ⟨he, hmark⟩ := Host.mem_withoutMarks.1 he
      exact ⟨hlisted.known e he, hmark, Config.tryGet_of_mem_getOptions ht hreached he⟩
    obtain ⟨hanswers, hwritten⟩ := setEntries_overwritten ht hc hsockets hown hentries
      hrest.ordered hlike'
    refine ⟨hanswers, ?_⟩
    intro k hk
    by_cases hmark : k.IsMark
    · -- No other entry is about the marks, so they are still those of the snapshot.
      obtain ⟨read, hread⟩ := Config.exists_read_of_isMark hmark
      rw [hwritten.keeps k, hread, hread, hpair]
      intro e he hid
      exact (hentries e he).2.1 ((OptionKey.isMark_congr hid).2 hmark)
    cases hread : c.tryGet k with
    | some v =>
      obtain ⟨e, he, hid, rfl⟩ := Config.exists_mem_getOptions ht hreached hread
      have hmem : e ∈ (Host.withoutMarks c.getOptions).entries :=
        Host.mem_withoutMarks.2 ⟨he, fun h => hmark ((OptionKey.isMark_congr hid).1 h)⟩
      rw [← Config.tryGet_of_id hid]
      exact hwritten.reads e hmem
    | none =>
      have hne : ∀ e ∈ (Host.withoutMarks c.getOptions).entries, e.1.id ≠ k.id := by
        intro e he hid
        have hread' := (hentries e he).2.2
        rw [Config.tryGet_of_id hid, hread] at hread'
        cases hread'
      rw [hwritten.keeps k hne, hconfig]
      -- The new gate does not show, since no option of the core is concerned.
      have hnone := Config.tryGet_eq_none_iff.1 (hk hread)
      exact Config.tryGet_eq_none_iff.2 hnone

/-! ## The result -/

/-- Declarations do not reach the layers. -/
theorem layers_performAll_declare (decls : List (Declaration t)) (s : Quiet Empty) :
    ((host verdict).performAll (decls.map .declare) s).config.layers = s.config.layers := by
  induction decls generalizing s with
  | nil => rfl
  | cons d rest ih =>
    refine (ih _).trans ?_
    obtain ⟨e, hook⟩ := d
    cases hook with
    | none => rfl
    | some n =>
      have hcheck : ((host verdict).registryHost .registry).check n e.value s =
          (verdict n e.value, s) := rfl
      simp only [Host.perform, RegistryHost.declareValidated, hcheck]
      cases verdict n e.value <;> rfl

/-- Restoring a snapshot. The source was built with socket layers that setters lead to and has been
used in any way; the target is built with the same layers, and the same options are declared in it
as in the source, with hooks that judge alike. The target then accepts the snapshot of the source as
a whole, and every option reads in it as in the source, also those that neither has. -/
theorem trySetOptions_getOptions (requests : List OptionTable.Request)
    (verdict : Nat → Value → Option String) {b b' : Builder Empty} {c c' : Config Empty}
    (hlayers : ∀ l ∈ b.layers, ∃ options : SocketOptions, options.Reached ∧ l = .socket options)
    (hb : b.build = .ok c) (hb' : b'.build = .ok c') (hsame : b'.layers = b.layers)
    (calls : List (Call (.serve requests))) (decls : List (Declaration (.serve requests))) :
    let source := ((host verdict).performAll calls (ofConfig c)).config
    let target := (host verdict).performAll (decls.map .declare) (ofConfig c')
    (∀ k ∈ OptionKey.builtIns, ¬ source.registry.contains k) →
    source.registry.SameOptions verdict target.config.registry →
      let out := (host verdict).trySetOptions source.getOptions target
      out.1 = [] ∧ ∀ k, out.2.config.getOption k = source.getOption k := by
  intro source target hown hoptions
  have ht := OptionTable.serve_coherent requests
  have hc : c.Sound (.serve requests) (Accepts verdict) := by
    refine Builder.sound_of_build hb ?_
    intro options hmem
    obtain ⟨_, hreached, heq⟩ := hlayers _ hmem
    cases heq
    exact hreached.sound
  have hsockets : ∀ {c : Config Empty}, c.layers = b.layers → c.OnlySockets := by
    intro c hc l hl
    obtain ⟨options, -, rfl⟩ := hlayers l (hc ▸ hl)
    exact ⟨options, rfl⟩
  have hlay : c.layers = b.layers := Builder.layers_of_build hb
  have hreached : c.Reached (.serve requests) := by
    refine ⟨Builder.registry_of_build hb ▸ .empty, ?_⟩
    intro r hr
    obtain ⟨_, heq⟩ := hsockets hlay _ hr
    cases heq
  have hchanges : Config.Changes (.serve requests) (Accepts verdict) c source :=
    performAll_changes verdict ht calls (ofConfig c)
  have htarget : target.config.layers = c.layers := by
    rw [hlay, ← hsame, ← Builder.layers_of_build hb']
    exact layers_performAll_declare decls (ofConfig c')
  have hlike : source.Like verdict target.config := by
    refine ⟨?_, hsockets (htarget.trans hlay), hoptions⟩
    rw [htarget, hchanges.length_layers]
  obtain ⟨hanswer, hreads⟩ := trySetOptions_snapshot ht (hchanges.reached hreached)
    (hchanges.sound ht hc) (hchanges.onlySockets (hsockets hlay)) hown hlike
  refine ⟨hanswer, ?_⟩
  intro k
  have hread : ((host verdict).trySetOptions source.getOptions target).2.config.tryGet k =
      source.tryGet k := by
    refine hreads k ?_
    intro hnone
    -- The layers of the target are those that the source once had.
    obtain ⟨hcore, hregistry⟩ := (Config.tryGet_eq_none_iff.1 hnone).imp_right And.right
    have hlayer := (Config.tryGet_eq_none_iff.1 (hchanges.tryGet_eq_none hnone)).2.1
    refine Config.tryGet_eq_none_iff.2 ⟨hcore, ?_, ?_⟩
    · rw [htarget]
      exact hlayer
    · rw [hoptions.contains_eq]
      exact hregistry
  simp only [Config.getOption, hread]

/-- Restoring a configuration that has a full queue, a low read limit and a rate that its hook would
refuse at 0. -/
theorem trySetOptions_getOptions_rate :
    let rate : OptionKey := ⟨1024, "rate", .u32⟩
    let verdict : Nat → Value → Option String :=
      fun _ v => if v = .u32 0 then some "no traffic" else none
    let b : Builder Empty := { writeSpinCount := some 4, layers := [.socket .standard] }
    let b' : Builder Empty := { layers := [.socket .standard] }
    let c : Config Empty :=
      { Config.ofLayers b.layers with core := { Core.standard with writeSpinCount := 4 } }
    let c' : Config Empty := .ofLayers b'.layers
    let declared (n : UInt32) : Declaration (.serve [.valueOf "rate" .u32]) :=
      ⟨⟨⟨rate, by decide⟩, .u32 n, rfl⟩, some 0⟩
    let source := ((host verdict).performAll [.declare (declared 5),
      .write ⟨rate, by decide⟩ (.u32 7), .setSocket .sendBufferSize (.i32 4096),
      .gate (.queue 100000), .set .maxMessages (.i32 3), .reportRead 64 64] (ofConfig c)).config
    let target := (host verdict).performAll ([declared 1].map .declare) (ofConfig c')
    let out := (host verdict).trySetOptions source.getOptions target
    b.build = .ok c ∧ b'.build = .ok c' ∧
      (∀ k ∈ OptionKey.builtIns, ¬ source.registry.contains k) ∧
      source.registry.SameOptions verdict target.config.registry ∧ out.1 = [] ∧
      out.2.config.getOption rate = .ok (.u32 7) ∧
      out.2.config.getOption .sendBufferSize = .ok (.i32 4096) := by
  intro rate verdict b b' c c' declared source target
  have hb : b.build = .ok c := rfl
  have hb' : b'.build = .ok c' := rfl
  have hsource : source.registry = ⟨[⟨rate, .u32 7, some 0⟩]⟩ := by decide +kernel
  have htarget : target.config.registry = ⟨[⟨rate, .u32 1, some 0⟩]⟩ := by decide +kernel
  have hown : ∀ k ∈ OptionKey.builtIns, ¬ source.registry.contains k := by
    rw [hsource]
    decide
  have hoptions : source.registry.SameOptions verdict target.config.registry := by
    intro k
    rw [hsource, htarget]
    cases hk : rate.same k with
    | true =>
      simp only [Registry.find?, List.find?_cons, hk, Option.map_some]
      rfl
    | false => simp only [Registry.find?, List.find?_cons, hk, List.find?_nil]
  have hlayers : ∀ l ∈ b.layers, ∃ options : SocketOptions,
      options.Reached ∧ l = .socket options := by
    intro l hl
    exact ⟨.standard, .standard, List.mem_singleton.1 hl⟩
  obtain ⟨hanswer, hreads⟩ :=
    trySetOptions_getOptions _ verdict hlayers hb hb' rfl _ _ hown hoptions
  refine ⟨hb, hb', hown, hoptions, hanswer, ?_, ?_⟩
  · rw [hreads, Config.getOption_eq_ok_iff]
    decide +kernel
  · rw [hreads, Config.getOption_eq_ok_iff]
    decide +kernel

end Quiet

end FlowControl
