import FlowControl.Config.Builder
import FlowControl.Proofs.Profile.Effect

/-!
# What building comes to

A builder has up to seven values for the core, three of which may be refused. Building sets them one
after the other, the strategy first, and stops at the first that is refused. `Builder.build_over`
says what comes of this in terms of what one value does (`Builder.overOption`) and what is wrong
with it (`Builder.fault`); it is the one place where building is taken apart.

What a built configuration can be relied on for follows from that without a look at the builder's
values: its layers are those of the builder, its registry is empty, and its core has every property
that a fresh core has and that storing a value keeps (`Builder.build_keeps`).
-/

set_option autoImplicit false

namespace FlowControl

namespace Builder

variable {κ : Type}

/-- The settings that a builder has in common with a profile. The others are given to a builder as
they are, while a profile has to build them. -/
def plain (b : Builder κ) : Profile where
  connectTimeout := b.connectTimeout
  writeSpinCount := b.writeSpinCount
  maxMessages := b.maxMessages
  autoRead := b.autoRead

/-- The value that a builder has for an option. -/
def value? (b : Builder κ) : CoreOption → Option Value
  | .marks => b.marks.map .waterMark
  | .sizing => b.strategy.map .sizing
  | .estimator => b.estimator.map .estimator
  | o => b.plain.coreValue? o

/-- What is wrong with the value for an option, if there is one and it is not valid. -/
def fault (b : Builder κ) (o : CoreOption) : Option ConfigError := b.plain.coreFault o

/-- What the value for an option, if there is one and it is valid, does to the core. -/
def overOption (b : Builder κ) (c : Core) : CoreOption → Core
  | .marks => (b.marks.map (Core.store.remark c)).getD c
  | .sizing => (b.strategy.map c.withStrategy).getD c
  | .estimator => (b.estimator.map c.withEstimator).getD c
  | o => b.plain.overOption c o

/-- The order in which a builder applies its values. -/
def order : List CoreOption :=
  [.sizing, .connectTimeout, .writeSpinCount, .maxMessages, .autoRead, .marks, .estimator]

theorem effect (b : Builder κ) (c : Core) (o : CoreOption) :
    Effect (fun v => c.store o v) c (b.value? o) (b.fault o) (b.overOption c o) := by
  cases o with
  | marks =>
    simp only [value?, overOption]
    cases b.marks with
    | none => exact .absent
    | some marks => exact .stored rfl
  | sizing =>
    simp only [value?, overOption]
    cases b.strategy with
    | none => exact .absent
    | some strategy => exact .stored rfl
  | estimator =>
    simp only [value?, overOption]
    cases b.estimator with
    | none => exact .absent
    | some e => exact .stored rfl
  | connectTimeout => exact b.plain.core_effect c .connectTimeout
  | maxMessages => exact b.plain.core_effect c .maxMessages
  | writeSpinCount => exact b.plain.core_effect c .writeSpinCount
  | autoRead => exact b.plain.core_effect c .autoRead
  | highMark => exact b.plain.core_effect c .highMark
  | lowMark => exact b.plain.core_effect c .lowMark

/-! ## What building comes to -/

/-- A value, unless there is something wrong. -/
def judged {α : Type} (e? : Option ConfigError) (a : α) : Except ConfigError α :=
  match e? with
  | none => .ok a
  | some e => .error e

/-- What the value for an option, if there is one and it is valid, does to a configuration. -/
def overConfig (b : Builder κ) (c : Config κ) (o : CoreOption) : Config κ :=
  { c with core := b.overOption c.core o }

/-- A count that a builder tries is stored, or it is refused and nothing is built. -/
theorem trying_eq (b : Builder κ) (o : CoreOption) (n? : Option Int32)
    (f : Int32 → Core → Except ConfigError Core) (hvalue : b.value? o = n?.map .i32)
    (hstore : ∀ n c, c.store o (.i32 n) = f n c) (s : Quiet κ) :
    trying n? f s = judged (b.fault o) { s with config := b.overConfig s.config o } := by
  have heffect := b.effect s.config.core o
  rw [hvalue] at heffect
  unfold overConfig
  generalize b.fault o = e?, b.overOption s.config.core o = new at heffect
  cases n? with
  | none =>
    cases heffect with
    | absent => rfl
  | some n =>
    have hcore : (host.config s).core = s.config.core := rfl
    cases heffect with
    | stored hok =>
      rw [hstore] at hok
      simp only [trying, Host.tryCore, hcore, hok]
      rfl
    | refused herror =>
      rw [hstore] at herror
      simp only [trying, Host.tryCore, hcore, herror]
      rfl

theorem applying_strategy (b : Builder κ) (s : Quiet κ) :
    (applying b.strategy host.setStrategy s).config = b.overConfig s.config .sizing := by
  simp only [applying, overConfig, overOption]
  cases b.strategy <;> rfl

theorem applying_autoRead (b : Builder κ) (s : Quiet κ) :
    (applying b.autoRead host.setAutoRead s).config = b.overConfig s.config .autoRead := by
  simp only [applying, overConfig, overOption, plain, Profile.overOption]
  cases b.autoRead with
  | none => rfl
  | some on => exact Quiet.setAutoRead_config _ on s

theorem applying_marks (b : Builder κ) (s : Quiet κ) :
    (applying b.marks host.gateHost.setMarks s).config = b.overConfig s.config .marks := by
  simp only [applying, overConfig, overOption]
  cases b.marks with
  | none => rfl
  | some marks => exact Quiet.setMarks_config _ marks s

theorem applying_estimator (b : Builder κ) (s : Quiet κ) :
    (applying b.estimator (fun e => host.modifyCore (·.withEstimator e)) s).config
      = b.overConfig s.config .estimator := by
  simp only [applying, overConfig, overOption]
  cases b.estimator <;> rfl

/-- Only the three counts can have a fault. -/
theorem findSome?_order (b : Builder κ) : order.findSome? b.fault
    = [CoreOption.connectTimeout, .writeSpinCount, .maxMessages].findSome? b.fault := by
  have hothers : b.fault .sizing = none ∧ b.fault .autoRead = none ∧ b.fault .marks = none
      ∧ b.fault .estimator = none := ⟨rfl, rfl, rfl, rfl⟩
  simp only [order, List.findSome?_cons, hothers, List.findSome?_nil]

/-- Building applies the values in the order of the builder, up to the first fault. -/
theorem build_over (b : Builder κ) : b.build = judged (order.findSome? b.fault)
    { Config.ofLayers b.layers with core := order.foldl b.overOption .standard } := by
  have htimeout := b.trying_eq .connectTimeout b.connectTimeout Core.withConnectTimeout rfl
    fun _ _ => rfl
  have hspin := b.trying_eq .writeSpinCount b.writeSpinCount Core.withWriteSpinCount rfl
    fun _ _ => rfl
  have hlimit := b.trying_eq .maxMessages b.maxMessages Core.withMaxMessages rfl fun _ _ => rfl
  unfold build
  simp only [htimeout, hspin, hlimit, findSome?_order, List.findSome?_cons, List.findSome?_nil]
  cases b.fault .connectTimeout with
  | some e => rfl
  | none =>
    cases b.fault .writeSpinCount with
    | some e => rfl
    | none =>
      cases b.fault .maxMessages with
      | some e => rfl
      | none =>
        simp only [judged, bind, Except.bind, pure, Except.pure, applying_estimator,
          applying_marks, applying_autoRead, applying_strategy]
        rfl

/-! ## What is built -/

variable {b : Builder κ} {c : Config κ}

theorem eq_of_build (h : b.build = .ok c) : order.findSome? b.fault = none
    ∧ c = { Config.ofLayers b.layers with core := order.foldl b.overOption .standard } := by
  rw [build_over] at h
  unfold judged at h
  split at h
  case h_1 hnone => exact ⟨hnone, (Except.ok.inj h).symm⟩
  case h_2 => cases h

theorem layers_of_build (h : b.build = .ok c) : c.layers = b.layers := by
  obtain ⟨-, rfl⟩ := eq_of_build h
  rfl

theorem registry_of_build (h : b.build = .ok c) : c.registry = .empty := by
  obtain ⟨-, rfl⟩ := eq_of_build h
  rfl

/-- The values of a builder do nothing to a core that storing a value does not do. -/
theorem foldl_keeps {P : Core → Prop} {os : List CoreOption} {core : Core}
    (hstore : ∀ c, P c → ∀ o ∈ os, ∀ v c', c.store o v = .ok c' → P c') (hcore : P core) :
    P (os.foldl b.overOption core) := by
  refine List.foldlRecOn os _ hcore ?_
  intro c hc o ho
  have heffect := b.effect c o
  generalize b.value? o = v?, b.fault o = e?, b.overOption c o = c' at heffect ⊢
  cases heffect with
  | absent | refused => exact hc
  | stored hok => exact hstore c hc o ho _ _ hok

theorem build_keeps {P : Core → Prop} (hstandard : P .standard)
    (hstore : ∀ c, P c → ∀ o v c', c.store o v = .ok c' → P c') (h : b.build = .ok c) :
    P c.core := by
  obtain ⟨-, rfl⟩ := eq_of_build h
  exact foldl_keeps (fun c hc o _ => hstore c hc o) hstandard

end Builder

end FlowControl
