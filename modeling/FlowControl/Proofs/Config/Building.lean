import FlowControl.Proofs.Config.Build
import FlowControl.Proofs.Profile.Apply

/-!
# Building a configuration and setting its options

The values of a builder can be given to the builder, or a configuration can be built without them
and then be given all of them in one batch. The two assemblies have little in common. Building sets
the strategy first and stops at the first value that is refused; a batch sets the marks first and
the rest by option number, and goes on after a refusal. `Builder.build_over` has said what the one
comes to, and `Quiet.trySetOptions_builder` says it of the other in the same terms; that the order
does not show is then a fact about what single values do (`Builder.foldl_overOption_eq`).

The strategy and the read limit are the pair that could make a difference, since the limit lives in
the handle that a new strategy throws away. It does not, because the new handle takes over the limit
of the old one, so that a limit is in force whether it is set before or after.

Nothing here depends on the other layers: the core is asked first and claims all of its options.
-/

set_option autoImplicit false

namespace FlowControl

namespace Builder

variable {κ : Type}

/-- The batch with the same values. -/
def batch (b : Builder κ) : OptionMap := .ofList (valued CoreOption.key b.value? CoreOption.all)

/-- The order in which a batch applies the values that are not marks. -/
def batchOrder : List CoreOption :=
  [.connectTimeout, .maxMessages, .writeSpinCount, .autoRead, .sizing, .estimator]

/-- A limit that is set before the strategy is taken over by its handle. -/
theorem foldl_overOption_eq (b : Builder κ) (c : Core) :
    batchOrder.foldl b.overOption (b.overOption c .marks) = order.foldl b.overOption c := by
  simp only [batchOrder, order, List.foldl_cons, List.foldl_nil, overOption]
  cases b.strategy <;> cases b.marks <;> rfl

/-! ## What the batch comes to -/

theorem batch_entries (b : Builder κ) :
    b.batch.entries = valued CoreOption.key b.value? CoreOption.all := by
  have hkeys : (CoreOption.all.map CoreOption.key).Pairwise fun k k' => k.id < k'.id := by decide
  have hvalued : ((valued CoreOption.key b.value? CoreOption.all).map (·.1)).Pairwise
      fun k k' => k.id < k'.id := hkeys.sublist (map_valued_sublist _)
  rw [List.pairwise_map] at hvalued
  exact OptionMap.ofList_entries hvalued

theorem find?_batch (b : Builder κ) (o : CoreOption) : b.batch.find? o.key = b.value? o := by
  rw [OptionMap.find?, batch_entries, find?_valued (CoreOption.same_key o),
    if_pos (CoreOption.mem_all o)]

theorem withoutMarks_batch (b : Builder κ) : (Host.withoutMarks b.batch).entries
    = valued CoreOption.key b.value? batchOrder := by
  rw [Host.withoutMarks_entries, batch_entries, Profile.filter_valued]
  rfl

end Builder

namespace Quiet

variable {κ : Type} [OptionLayer κ]

section Entries

variable (verdict : Nat → Value → Option String)

/-- An entry of the core that is there has its effect, and one that is not has none. -/
theorem setEntries_toList_effect {o : CoreOption} {s : Quiet κ} {v? : Option Value}
    {e? : Option ConfigError} {new : Core}
    (h : Effect (fun v => s.config.core.store o v) s.config.core v? e? new) :
    let out := (host verdict).setEntries ((v?.map fun v => (o.key, v)).toList) s
    out.1 = (e?.map fun e => ⟨o.key, e⟩).toList
      ∧ out.2.config = { s.config with core := new } := by
  cases h with
  | absent => exact ⟨rfl, rfl⟩
  | @stored v _ hok =>
    obtain ⟨hrefusal, hafter⟩ := setEntry_config verdict (o.key, v) s
    rw [Config.refusal_core, hok] at hrefusal
    rw [Config.after_core, hok] at hafter
    simp only [Option.map_some, Option.toList_some, Host.setEntries, hrefusal]
    exact ⟨rfl, hafter⟩
  | @refused v e herror =>
    obtain ⟨hrefusal, hafter⟩ := setEntry_config verdict (o.key, v) s
    rw [Config.refusal_core, herror] at hrefusal
    rw [Config.after_core, herror] at hafter
    simp only [Option.map_some, Option.toList_some, Host.setEntries, hrefusal]
    exact ⟨rfl, hafter⟩

/-- Entries of the core, each of which has its effect, one after the other. -/
theorem setEntries_effect {value? : CoreOption → Option Value}
    {fault : CoreOption → Option ConfigError} {next : Core → CoreOption → Core}
    (heffect : ∀ c o, Effect (fun v => c.store o v) c (value? o) (fault o) (next c o))
    (os : List CoreOption) (s : Quiet κ) :
    let out := (host verdict).setEntries (valued CoreOption.key value? os) s
    out.1 = os.filterMap (fun o => (fault o).map fun e => ⟨o.key, e⟩)
      ∧ out.2.config = { s.config with core := os.foldl next s.config.core } := by
  induction os generalizing s with
  | nil => exact ⟨rfl, rfl⟩
  | cons o rest ih =>
    obtain ⟨hrefused, hconfig⟩ := setEntries_toList_effect verdict (heffect s.config.core o)
    obtain ⟨hrest, hend⟩ := ih ((host verdict).setEntries
      (((value? o).map fun v => (o.key, v)).toList) s).2
    rw [hconfig] at hend
    rw [valued, filterMap_cons_toList, Host.setEntries_append, filterMap_cons_toList]
    exact ⟨congrArg₂ List.append hrefused hrest, hend⟩

end Entries

/-- A batch of a builder is applied in the order of batches, the marks first. -/
theorem trySetOptions_builder (verdict : Nat → Value → Option String) (b : Builder κ)
    (s : Quiet κ) :
    let out := (host verdict).trySetOptions b.batch s
    out.1 = Builder.batchOrder.filterMap (fun o => (b.fault o).map fun e => ⟨o.key, e⟩)
      ∧ out.2.config = { s.config with
          core := Builder.batchOrder.foldl b.overOption (b.overOption s.config.core .marks) } := by
  obtain ⟨hmarks, hconfig⟩ := applyMarks_pair verdict (Host.markRequest_pair
    (b.find?_batch .marks) (b.find?_batch .highMark) (b.find?_batch .lowMark)) s
  obtain ⟨hrefused, hend⟩ := setEntries_effect verdict b.effect Builder.batchOrder
    ((host verdict).applyMarks b.batch s).2
  rw [hconfig] at hend
  unfold Host.trySetOptions
  simp only [hmarks, b.withoutMarks_batch]
  exact ⟨hrefused, hend⟩

/-- A builder succeeds exactly if a configuration that was built with its layers alone accepts all
of its values in one batch, and then it builds what the batch makes of that configuration. Otherwise
its error is the first fault, in the order of timeout, spin count and read limit, while the batch
tells all of them by option number. -/
theorem trySetOptions_build (verdict : Nat → Value → Option String) (b : Builder κ) :
    let fresh : Config κ := Config.ofLayers b.layers
    let out := (host verdict).trySetOptions b.batch (ofConfig fresh)
    ({ layers := b.layers } : Builder κ).build = .ok fresh
      ∧ ((∃ c, b.build = .ok c) ↔ out.1 = [])
      ∧ (∀ c, b.build = .ok c → out.2.config = c)
      ∧ out.1 = [CoreOption.connectTimeout, .maxMessages, .writeSpinCount].filterMap
          (fun o => (b.fault o).map fun e => ⟨o.key, e⟩)
      ∧ ∀ e, b.build = .error e
        ↔ [CoreOption.connectTimeout, .writeSpinCount, .maxMessages].findSome? b.fault
          = some e := by
  intro fresh out
  obtain ⟨hrefused, hconfig⟩ := trySetOptions_builder verdict b (ofConfig fresh)
  have hbuild := b.build_over
  rw [b.findSome?_order] at hbuild
  have hrefusals : out.1 = [CoreOption.connectTimeout, .maxMessages, .writeSpinCount].filterMap
      (fun o => (b.fault o).map fun e => ⟨o.key, e⟩) := hrefused
  have hover : out.2.config
      = { fresh with core := Builder.order.foldl b.overOption .standard } := by
    rw [← b.foldl_overOption_eq]
    exact hconfig
  refine ⟨rfl, ?_, ?_, hrefusals, ?_⟩
  · rw [hbuild, hrefusals]
    simp only [List.findSome?_cons, List.filterMap_cons]
    cases b.fault .connectTimeout <;> cases b.fault .writeSpinCount <;>
      cases b.fault .maxMessages <;> simp [Builder.judged]
  · intro c hc
    rw [hbuild] at hc
    rw [hover]
    unfold Builder.judged at hc
    split at hc
    · exact Except.ok.inj hc
    · cases hc
  · intro e
    rw [hbuild]
    generalize List.findSome? b.fault _ = e?
    cases e? <;> simp [Builder.judged]

end Quiet

end FlowControl
