import FlowControl.Proofs.Config.Preserves

/-!
# What every call keeps

A property that looks at the gate and at the auto-read switch only, or at neither, is preserved by
most of what calls do for one reason: the gate and the switch are not touched. `Host.Keeps` says so
in one clause where `Host.Preserves` has a clause for each place, and every routine call keeps such
a property (`Host.Keeps.perform`).

The list is short because most settings are of one kind: stored, and nobody is told. The exceptions
are the auto-read switch and the gate, whose changes are told at once. Calls that are about the
count of the gate, or that register a listener of the switch, are not covered (`Call.Routine`); a
property that they keep has its own reasons to be kept.
-/

set_option autoImplicit false

namespace FlowControl

/-- The gate, the auto-read switch and its listeners are the same. -/
structure Core.SameSignals (c c' : Core) : Prop where
  gate : c'.gate = c.gate
  autoRead : c'.autoRead = c.autoRead
  autoReadListeners : c'.autoReadListeners = c.autoReadListeners

namespace Core

variable {c c' : Core}

theorem SameSignals.refl (c : Core) : c.SameSignals c := ⟨rfl, rfl, rfl⟩

theorem sameSignals_withConnectTimeout {millis : Int32}
    (h : c.withConnectTimeout millis = .ok c') : c.SameSignals c' := by
  unfold withConnectTimeout at h
  split at h <;> cases h
  exact ⟨rfl, rfl, rfl⟩

theorem sameSignals_withWriteSpinCount {count : Int32}
    (h : c.withWriteSpinCount count = .ok c') : c.SameSignals c' := by
  obtain ⟨_, -, rfl⟩ := map_eq_ok_iff.1 h
  exact ⟨rfl, rfl, rfl⟩

theorem sameSignals_withMaxMessages {limit : Int32}
    (h : c.withMaxMessages limit = .ok c') : c.SameSignals c' := by
  obtain ⟨_, -, rfl⟩ := map_eq_ok_iff.1 h
  exact ⟨rfl, rfl, rfl⟩

/-- The settings that nobody is told of. -/
theorem sameSignals_store {o : CoreOption} (ho : o.Silent) {v : Value}
    (h : c.store o v = .ok c') : c.SameSignals c' := by
  cases o with
  | connectTimeout =>
    cases v with
    | i32 n => exact sameSignals_withConnectTimeout h
    | _ => cases h
  | writeSpinCount =>
    cases v with
    | i32 n => exact sameSignals_withWriteSpinCount h
    | _ => cases h
  | sizing | estimator =>
    cases v <;> cases h
    exact ⟨rfl, rfl, rfl⟩
  | _ => exact ho.elim

end Core

namespace Host

variable {κ σ : Type}

/-- The property `P` of worlds is kept wherever a call touches the world. -/
structure Keeps (h : Host κ σ) (P : σ → Prop) : Prop where
  setConfig : ∀ {c : Config κ} {s : σ}, P s → (h.config s).core.SameSignals c.core →
    P (h.setConfig c s)
  note : ∀ (n : Notice) {s : σ}, P s → P (h.note n s)
  setEarlier : ∀ (handles : List RecvHandle) {s : σ}, P s → P (h.setEarlier handles s)
  check : ∀ (hook : Nat) (v : Value) {s : σ}, P s → P (h.check hook v s).2
  setAutoRead : ∀ (on : Bool) {s : σ}, P s → P (h.setAutoRead on s)
  setMarks : ∀ (marks : WaterMark) {s : σ}, P s → P (h.gateHost.setMarks marks s)
  addWritabilityListener : ∀ (listener : Nat) {s : σ}, P s → P (h.addWritabilityListener listener s)

namespace Keeps

variable {h : Host κ σ} {P : σ → Prop} {s : σ}

/-! ## The core -/

theorem modifyCore (hk : h.Keeps P) (hs : P s) {f : Core → Core}
    (hf : ∀ c : Core, c.SameSignals (f c)) : P (h.modifyCore f s) := hk.setConfig hs (hf _)

theorem tryCore (hk : h.Keeps P) (hs : P s) {f : Core → Except ConfigError Core}
    (hf : ∀ {c c' : Core}, f c = .ok c' → c.SameSignals c') : P (h.tryCore f s).2 := by
  unfold Host.tryCore
  cases hcore : f (h.config s).core with
  | error e => exact hs
  | ok core => exact hk.setConfig hs (hf hcore)

/-- The setter of the read limit. -/
theorem setLimit (hk : h.Keeps P) (hs : P s) (v : Value) : P (h.setCore .maxMessages v s).2 := by
  cases v with
  | i32 n => exact hk.tryCore hs Core.sameSignals_withMaxMessages
  | _ => exact hs

theorem setHandle (hk : h.Keeps P) (hs : P s) (i : Nat) (handle : RecvHandle) :
    P (h.handleHost.setHandle i handle s) := by
  show P (if i < (h.earlier s).length then _ else _)
  split
  · exact hk.setEarlier _ hs
  · exact hk.modifyCore hs fun _ => ⟨rfl, rfl, rfl⟩

/-! ## The calls -/

/-- What is kept is preserved everywhere, whatever options are set. -/
theorem preserves (hk : h.Keeps P) : h.Preserves (fun _ _ => True) P where
  store hs ho hcore := hk.setConfig hs (Core.sameSignals_store ho hcore)
  limit {k v core s} hs _ _ hcore := by
    refine hk.note _ (hk.setConfig hs ?_)
    cases v with
    | i32 n => exact Core.sameSignals_withMaxMessages hcore
    | _ => cases hcore
  use hs _ := hk.modifyCore hs fun _ => ⟨rfl, rfl, rfl⟩
  socket hs _ _ := hk.setConfig hs (.refl _)
  custom _ _ hs := hk.setConfig hs (.refl _)
  setRegistry slot r s hs := by cases slot <;> exact hk.setConfig hs (.refl _)
  setEarlier := hk.setEarlier
  note hs _ := hk.note _ hs
  noteSet _ _ _ _ hs _ _ := hk.note _ hs
  check := hk.check
  setAutoRead := hk.setAutoRead
  setMarks := hk.setMarks
  addWritabilityListener := hk.addWritabilityListener

theorem readPass {ρ : Type} {read : Nat → ρ → σ → ReadStep ρ σ} (hk : h.Keeps P) (hs : P s)
    (hread : ∀ (capacity : Nat) (r : ρ) {s : σ}, P s → P (read capacity r s).world) (r : ρ) :
    P (h.readPass read r s).world := hk.preserves.readPass hs hread r

variable [OptionLayer κ]

theorem trySetAt (hk : h.Keeps P) (hs : P s) (k : OptionKey) (v : Value) (slot : Slot) :
    P (h.trySetAt k v slot s).2 := by
  by_cases hlimit : slot = .core ∧ k.IsLimit
  · obtain ⟨rfl, hlimit⟩ := hlimit
    simp only [Host.trySetAt, CoreOption.ofKey?_of_isLimit hlimit]
    exact hk.setLimit hs v
  · exact hk.preserves.trySetAt hs v fun hcore hk => hlimit ⟨hcore, hk⟩

/-- A property that is kept is kept by every routine call. -/
theorem perform (hk : h.Keeps P) (hs : P s) {t : OptionTable} {call : Call t}
    (hcall : call.Routine) : P (h.perform call s) := by
  by_cases hlimit : call.SetsLimit
  · cases call with
    | set o v =>
      cases o with
      | maxMessages => exact hk.setLimit hs v
      | _ => exact hlimit.elim
    | _ => exact hlimit.elim
  · exact hk.preserves.perform hs hcall hlimit fun _ _ => trivial

end Keeps

end Host

end FlowControl
