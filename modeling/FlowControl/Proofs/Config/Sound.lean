import FlowControl.Proofs.Config.Build
import FlowControl.Proofs.Config.Calls
import FlowControl.Proofs.Config.Snapshot

/-!
# What holds of every configuration

A value is judged when it is stored and never again, so whatever is stored has passed its own check.
This file says so for all states of a configuration (`Config.Sound`): a configuration is built
sound, and every change keeps it so. The same way it follows that the registries of a configuration
are those that operations lead to (`Config.Changes.reached`), and that an option which has a value
never loses it (`Config.Changes.tryGet_eq_none`).
-/

set_option autoImplicit false

namespace FlowControl

open Relation (ReflTransGen)

/-! ## The core -/

/-- The counts that must be positive are. -/
structure Core.Sound (c : Core) : Prop where
  writeSpinCount : 0 < c.writeSpinCount
  limit : 0 < c.handle.limit.toNat

theorem Core.Sound.standard : Core.standard.Sound := ⟨by decide, by decide⟩

theorem Core.Change.sound {c c' : Core} (h : c.Change c') (hc : c.Sound) : c'.Sound := by
  cases h with
  | gate | autoReadListeners => exact ⟨hc.writeSpinCount, hc.limit⟩
  | handle handle hlimit =>
    refine ⟨hc.writeSpinCount, ?_⟩
    show 0 < handle.limit.toNat
    rw [hlimit]
    exact hc.limit
  | set o v c' hstore =>
    cases Core.stored_of_store hstore with
    | connectTimeout | autoRead | highMark | lowMark | marks | estimator | sizing =>
      exact ⟨hc.writeSpinCount, hc.limit⟩
    | writeSpinCount n hn =>
      refine ⟨?_, hc.limit⟩
      show 0 < n.toInt.toNat
      omega
    | maxMessages n hn =>
      refine ⟨hc.writeSpinCount, ?_⟩
      show 0 < n.toInt.toNat.toUInt32.toNat
      rw [Core.toNat_limit]
      omega

/-! ## Socket layers -/

/-- Sizes are positive if they are set, and lingering is switched off in one way only. -/
structure SocketOptions.Sound (s : SocketOptions) : Prop where
  receiveBufferSize : ∀ n ∈ s.receiveBufferSize, 0 < n.toInt
  sendBufferSize : ∀ n ∈ s.sendBufferSize, 0 < n.toInt
  linger : -1 ≤ s.linger.toInt

theorem SocketOptions.Sound.standard : SocketOptions.standard.Sound :=
  ⟨nofun, nofun, by decide⟩

theorem SocketOptions.checkedSize_pos {o : SocketOption} {n m : Int32}
    (h : checkedSize o n = .ok m) : 0 < m.toInt := by
  unfold checkedSize at h
  split at h
  · cases h
  · cases h
    omega

theorem SocketOptions.Sound.set {s s' : SocketOptions} (hs : s.Sound) {o : SocketOption} {v : Value}
    (h : s.set o v = .ok s') : s'.Sound := by
  obtain ⟨hreceive, hsend, hlinger⟩ := hs
  cases o with
  | tcpNoDelay | keepAlive | reuseAddress =>
    cases v with
    | bool b => cases h; exact ⟨hreceive, hsend, hlinger⟩
    | _ => cases h
  | receiveBufferSize =>
    cases v with
    | i32 n =>
      obtain ⟨m, hm, rfl⟩ := map_eq_ok_iff.1 h
      refine ⟨?_, hsend, hlinger⟩
      rintro _ ⟨rfl⟩
      exact checkedSize_pos hm
    | _ => cases h
  | sendBufferSize =>
    cases v with
    | i32 n =>
      obtain ⟨m, hm, rfl⟩ := map_eq_ok_iff.1 h
      refine ⟨hreceive, ?_, hlinger⟩
      rintro _ ⟨rfl⟩
      exact checkedSize_pos hm
    | _ => cases h
  | linger =>
    cases v with
    | i32 n =>
      simp only [SocketOptions.set, withLinger] at h
      split at h
      · cases h
      · cases h
        exact ⟨hreceive, hsend, by dsimp only; omega⟩
    | _ => cases h

/-- The socket settings that setters lead to. -/
inductive SocketOptions.Reached : SocketOptions → Prop where
  | standard : Reached .standard
  | set {s s' : SocketOptions} (o : SocketOption) (v : Value) : Reached s → s.set o v = .ok s' →
    Reached s'

theorem SocketOptions.Reached.sound {s : SocketOptions} (h : s.Reached) : s.Sound := by
  induction h with
  | standard => exact .standard
  | set _ _ _ hset ih => exact ih.set hset

/-! ## Configurations -/

theorem Registry.Change.weaken {t : OptionTable} {accepts : Nat → Value → Prop} {r r' : Registry}
    (h : r.Change t accepts r') : r.Change t (fun _ _ => True) r' := by
  cases h with
  | declare e hook _ => exact .declare e hook fun _ _ => trivial
  | store e d hd _ => exact .store e d hd fun _ _ => trivial

namespace Config

section Invariants

variable {κ : Type} {t : OptionTable} {accepts : Nat → Value → Prop} {c c' : Config κ}

structure Sound (t : OptionTable) (accepts : Nat → Value → Prop) (c : Config κ) : Prop where
  core : c.core.Sound
  sockets : ∀ options, .socket options ∈ c.layers → options.Sound
  registry : c.registry.Sound t accepts

theorem Change.sound (ht : t.Coherent) (h : c.Change t accepts c') (hc : c.Sound t accepts) :
    c'.Sound t accepts := by
  cases h with
  | core core hcore => exact ⟨hcore.sound hc.core, hc.sockets, hc.registry⟩
  | registry r hr => exact ⟨hc.core, hc.sockets, hr.sound ht hc.registry⟩
  | socket i options options' o v hi hset =>
    refine ⟨hc.core, ?_, hc.registry⟩
    intro options₁ hmem
    rcases List.mem_or_eq_of_mem_set hmem with hmem | heq
    · exact hc.sockets options₁ hmem
    · cases heq
      exact (hc.sockets options (List.mem_of_getElem? hi)).set hset
  | layer i | custom i =>
    refine ⟨hc.core, ?_, hc.registry⟩
    intro options₁ hmem
    rcases List.mem_or_eq_of_mem_set hmem with hmem | heq
    · exact hc.sockets options₁ hmem
    · cases heq

theorem Changes.sound (ht : t.Coherent) (h : Changes t accepts c c') (hc : c.Sound t accepts) :
    c'.Sound t accepts := holds_of_steps h (fun hstep => hstep.sound ht) hc

theorem Change.reached (h : c.Change t accepts c') (hc : c.Reached t) : c'.Reached t := by
  cases h with
  | core => exact ⟨hc.registry, hc.layers⟩
  | registry r hr => exact ⟨hc.registry.change hr.weaken, hc.layers⟩
  | socket i | custom i =>
    refine ⟨hc.registry, ?_⟩
    intro r₁ hmem
    rcases List.mem_or_eq_of_mem_set hmem with hmem | heq
    · exact hc.layers r₁ hmem
    · cases heq
  | layer i r r' hi hr =>
    refine ⟨hc.registry, ?_⟩
    intro r₁ hmem
    rcases List.mem_or_eq_of_mem_set hmem with hmem | heq
    · exact hc.layers r₁ hmem
    · cases heq
      exact (hc.layers r (List.mem_of_getElem? hi)).change hr.weaken

theorem Changes.reached (h : Changes t accepts c c') (hc : c.Reached t) : c'.Reached t :=
  holds_of_steps h Change.reached hc

end Invariants

end Config

/-! ## Answers stay -/

theorem SocketOptions.isSome_tryGet_set {s s' : SocketOptions} {o : SocketOption} {v : Value}
    (h : s.set o v = .ok s') {k : OptionKey} (hk : (s.tryGet k).isSome) : (s'.tryGet k).isSome := by
  have hstored := stored_of_set h
  simp only [tryGet] at hk ⊢
  cases ho : SocketOption.ofKey? k with
  | none =>
    rw [ho] at hk
    cases hk
  | some o' =>
    rw [ho, Option.bind_some] at hk
    rw [Option.bind_some]
    by_cases hsame : o' = o
    · rw [hsame, hstored.get_self]
      rfl
    · rw [hstored.get_other hsame]
      exact hk

theorem Registry.Change.isSome_value? {t : OptionTable} {accepts : Nat → Value → Prop}
    {r r' : Registry} (h : r.Change t accepts r') {k : OptionKey} (hk : (r.value? k).isSome) :
    (r'.value? k).isSome := by
  rw [value?, Option.isSome_map] at hk ⊢
  cases h with
  | declare e hook _ => exact contains_put hk _
  | store e d _ _ => exact contains_store hk _ _

namespace Config

variable {t : OptionTable} {accepts : Nat → Value → Prop} {c c' : Config Empty} {k : OptionKey}

theorem isSome_tryGetAt_setLayer {i : Nat} {l l' : Layer Empty} (hi : c.layers[i]? = some l)
    (hl : (l.tryGet k).isSome → (l'.tryGet k).isSome) {slot : Slot}
    (h : (c.tryGetAt k slot).isSome) : ((c.setLayer i l').tryGetAt k slot).isSome := by
  cases slot with
  | core | registry => exact h
  | layer j =>
    by_cases hij : i = j
    · subst hij
      have hlt : i < c.layers.length := (List.getElem?_eq_some_iff.1 hi).1
      simp only [tryGetAt, hi, Option.bind_some] at h
      simp only [tryGetAt, setLayer, List.getElem?_set_self hlt, Option.bind_some]
      exact hl h
    · simp only [tryGetAt, setLayer, List.getElem?_set_ne hij]
      exact h

theorem Change.isSome_tryGetAt (h : c.Change t accepts c') {slot : Slot}
    (hs : (c.tryGetAt k slot).isSome) : (c'.tryGetAt k slot).isSome := by
  cases h with
  | socket i options options' o v hi hset =>
    refine isSome_tryGetAt_setLayer hi ?_ hs
    exact SocketOptions.isSome_tryGet_set hset
  | layer i r r' hi hr =>
    refine isSome_tryGetAt_setLayer hi ?_ hs
    exact hr.isSome_value?
  | custom i l => exact l.elim
  | core core hcore =>
    cases slot with
    | core =>
      -- Whether the core has the option does not depend on its settings.
      simp only [tryGetAt, Core.tryGet, Option.isSome_map] at hs ⊢
      exact hs
    | layer | registry => exact hs
  | registry r hr =>
    cases slot with
    | registry => exact hr.isSome_value? hs
    | core | layer => exact hs

theorem Change.length_layers (h : c.Change t accepts c') :
    c'.layers.length = c.layers.length := by
  cases h with
  | core | registry => rfl
  | socket | layer | custom => exact List.length_set

theorem Changes.length_layers (h : Changes t accepts c c') :
    c'.layers.length = c.layers.length := by
  refine holds_of_steps (P := fun c' => c'.layers.length = c.layers.length) h ?_ rfl
  exact fun hstep heq => hstep.length_layers.trans heq

theorem Change.isSome_tryGet (h : c.Change t accepts c') (hs : (c.tryGet k).isSome) :
    (c'.tryGet k).isSome := by
  rw [tryGet, List.findSome?_isSome_iff] at hs ⊢
  obtain ⟨slot, hslot, hsome⟩ := hs
  have hchain : c'.chain = c.chain := by simp only [chain, h.length_layers]
  exact ⟨slot, hchain ▸ hslot, h.isSome_tryGetAt hsome⟩

/-- An option that has no value never had one. -/
theorem Changes.tryGet_eq_none (h : Changes t accepts c c') (hk : c'.tryGet k = none) :
    c.tryGet k = none := by
  rw [← Option.not_isSome_iff_eq_none] at hk ⊢
  intro hs
  exact hk (holds_of_steps (P := fun c => (c.tryGet k).isSome) h Change.isSome_tryGet hs)

/-- All layers between the core and the registry are socket layers. -/
def OnlySockets (c : Config Empty) : Prop := ∀ l ∈ c.layers, ∃ options, l = .socket options

theorem Change.onlySockets (h : c.Change t accepts c') (hc : c.OnlySockets) : c'.OnlySockets := by
  cases h with
  | core | registry => exact hc
  | socket i options options' =>
    intro l hl
    rcases List.mem_or_eq_of_mem_set hl with hl | rfl
    · exact hc l hl
    · exact ⟨options', rfl⟩
  | layer i r r' hi =>
    obtain ⟨options, heq⟩ := hc _ (List.mem_of_getElem? hi)
    cases heq
  | custom i l => exact l.elim

theorem Changes.onlySockets (h : Changes t accepts c c') (hc : c.OnlySockets) :
    c'.OnlySockets := holds_of_steps h Change.onlySockets hc

end Config

/-! ## Building -/

namespace Builder

variable {κ : Type}

theorem sound_of_build {t : OptionTable} {accepts : Nat → Value → Prop} {b : Builder κ}
    {c : Config κ} (h : b.build = .ok c)
    (hsockets : ∀ options, .socket options ∈ b.layers → options.Sound) : c.Sound t accepts := by
  have hcore : c.core.Sound :=
    build_keeps .standard (fun _ hc o v _ hok => (Core.Change.set o v _ hok).sound hc) h
  refine ⟨hcore, ?_, registry_of_build h ▸ .empty⟩
  rw [layers_of_build h]
  exact hsockets

end Builder

end FlowControl
