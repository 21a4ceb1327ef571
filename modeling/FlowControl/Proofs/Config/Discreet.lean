import FlowControl.Config.Quiet
import FlowControl.Proofs.Config.Layers

/-!
# Writes that do not concern the gate

The gate is a part of the core like any other setting, but only the options of the water marks are
about it. This file shows what that means for all other writes: they leave the gate alone, tell
nobody about it, and do the same thing whatever the gate is like (`setEntries_agree`). Two worlds
that differ in their gates only (`Quiet.Alike`) are taken through such writes side by side.

Listeners only take note of what they are told. Hooks may do more than judge: while they are asked
they may act on the world, as long as they, too, leave the gate alone and do not look at it
(`Hooks.Discreet`). For any other hook nothing of this could hold.
-/

set_option autoImplicit false

namespace FlowControl

variable {κ : Type}

def Config.withGate (gate : Gate) (c : Config κ) : Config κ :=
  { c with core := { c.core with gate } }

def QuietCall.isWritability : QuietCall → Bool
  | .writability _ _ => true
  | .autoRead _ _ => false

/-- What hooks do in a world with quiet listeners, and how many operations they may still start. -/
structure Hooks (κ : Type) where
  ask : Nat → Value → Quiet κ → Option String × Quiet κ
  budget : Quiet κ → Nat

namespace Quiet

/-- What listeners were told about the gate. -/
def told (s : Quiet κ) : List QuietCall := s.calls.filter QuietCall.isWritability

/-- What listeners were told about the auto-read switch. -/
def toldAutoRead (s : Quiet κ) : List QuietCall := s.calls.filter fun call => !call.isWritability

/-- The worlds differ at most in the gate, in what was told about it, and in the log. -/
structure Alike (s s' : Quiet κ) : Prop where
  config : ∃ gate, s'.config = s.config.withGate gate
  toldAutoRead : s'.toldAutoRead = s.toldAutoRead

/-- Between the two worlds nobody has touched the gate. -/
structure Untouched (s s' : Quiet κ) : Prop where
  gate : s'.config.core.gate = s.config.core.gate
  told : s'.told = s.told

/-- The worlds `s` and `s'` have become `t` and `t'`, which differ no more than they did, and nobody
has touched their gates. -/
structure Parallel (s s' t t' : Quiet κ) : Prop where
  alike : t.Alike t'
  untouched : s.Untouched t
  untouched' : s'.Untouched t'

/-- Two operations, in the worlds `s` and `s'`, that give the same answer and do the same thing. -/
def Agree {α : Type} (s s' : Quiet κ) (out out' : α × Quiet κ) : Prop :=
  out'.1 = out.1 ∧ Parallel s s' out.2 out'.2

/-- The world of quiet listeners and these hooks. -/
def hostOf (hooks : Hooks κ) : Host κ (Quiet κ) :=
  { host (fun _ _ => none) with
    check := hooks.ask
    budget := hooks.budget }

end Quiet

namespace Hooks

/-- Hooks that only judge. -/
def judging (verdict : Nat → Value → Option String) : Hooks κ where
  ask hook v s := (verdict hook v, s)
  budget _ := 0

/-- Hooks that neither look at the gate nor touch it. -/
structure Discreet (hooks : Hooks κ) : Prop where
  ask : ∀ hook v {s s' : Quiet κ}, s.Alike s' →
    s.Agree s' (hooks.ask hook v s) (hooks.ask hook v s')
  budget : ∀ {s s' : Quiet κ}, s.Alike s' → hooks.budget s' = hooks.budget s

end Hooks

namespace Quiet

theorem host_eq_hostOf (verdict : Nat → Value → Option String) :
    (host verdict : Host κ (Quiet κ)) = hostOf (.judging verdict) := rfl

variable {s s' s'' : Quiet κ}

theorem Alike.refl (s : Quiet κ) : s.Alike s := ⟨⟨s.config.core.gate, rfl⟩, rfl⟩

theorem Alike.autoRead (h : s.Alike s') : s'.config.core.autoRead = s.config.core.autoRead := by
  obtain ⟨⟨gate, hconfig⟩, -⟩ := h
  rw [hconfig]
  rfl

theorem Untouched.refl (s : Quiet κ) : s.Untouched s := ⟨rfl, rfl⟩

theorem Untouched.trans (h : s.Untouched s') (h' : s'.Untouched s'') : s.Untouched s'' :=
  ⟨h'.gate.trans h.gate, h'.told.trans h.told⟩

theorem Alike.parallel (h : s.Alike s') : Parallel s s' s s' := ⟨h, .refl s, .refl s'⟩

theorem Parallel.trans {t t' u u' : Quiet κ} (h : Parallel s s' t t') (h' : Parallel t t' u u') :
    Parallel s s' u u' :=
  ⟨h'.alike, h.untouched.trans h'.untouched, h.untouched'.trans h'.untouched'⟩

theorem Agree.exists_outcome {α : Type} {out out' : α × Quiet κ} (h : s.Agree s' out out') :
    ∃ answer t t', out = (answer, t) ∧ out' = (answer, t') ∧ Parallel s s' t t' :=
  ⟨out.1, out.2, out'.2, rfl, Prod.ext h.1 rfl, h.2⟩

/-- What is done to the configuration does not depend on the gate and does not change it. -/
def GateBlind (f : Config κ → Config κ) : Prop :=
  ∀ c gate, f (c.withGate gate) = (f c).withGate gate

theorem GateBlind.gate {f : Config κ → Config κ} (hf : GateBlind f) (c : Config κ) :
    (f c).core.gate = c.core.gate := by
  rw [show f c = (f c).withGate c.core.gate from hf c c.core.gate]
  rfl

theorem Alike.modify (h : s.Alike s') {f : Config κ → Config κ} (hf : GateBlind f) :
    Parallel s s' { s with config := f s.config } { s' with config := f s'.config } where
  alike := by
    obtain ⟨gate, hconfig⟩ := h.config
    refine ⟨⟨gate, ?_⟩, h.toldAutoRead⟩
    show f s'.config = (f s.config).withGate gate
    rw [hconfig, hf]
  untouched := ⟨hf.gate _, rfl⟩
  untouched' := ⟨hf.gate _, rfl⟩

theorem Alike.note (h : s.Alike s') (n : Notice) :
    Parallel s s' { s with notices := s.notices ++ [n] } { s' with notices := s'.notices ++ [n] } :=
  ⟨⟨h.config, h.toldAutoRead⟩, ⟨rfl, rfl⟩, ⟨rfl, rfl⟩⟩

theorem Alike.callAutoRead (h : s.Alike s') (listener : Nat) (on : Bool) :
    Parallel s s' { s with calls := s.calls ++ [.autoRead listener on] }
      { s' with calls := s'.calls ++ [.autoRead listener on] } := by
  have htold : ∀ s : Quiet κ,
      ({ s with calls := s.calls ++ [.autoRead listener on] } : Quiet κ).told = s.told := by
    intro s
    simp [told, QuietCall.isWritability]
  refine ⟨⟨h.config, ?_⟩, ⟨rfl, htold s⟩, ⟨rfl, htold s'⟩⟩
  show (s'.calls ++ [_]).filter _ = (s.calls ++ [_]).filter _
  rw [List.filter_append, List.filter_append]
  exact congrArg (· ++ _) h.toldAutoRead

/-! ## The core -/

section Writes

variable {hooks : Hooks κ}

theorem tryCore_agree (h : s.Alike s') {f : Core → Except ConfigError Core}
    (hf : ∀ c gate, f { c with gate } = (f c).map fun c' => { c' with gate }) :
    s.Agree s' ((hostOf hooks).tryCore f s) ((hostOf hooks).tryCore f s') := by
  obtain ⟨config, notices, calls⟩ := s
  obtain ⟨config', notices', calls'⟩ := s'
  obtain ⟨⟨gate, rfl⟩, htold⟩ := h
  have hcore' : f (config.withGate gate).core = (f config.core).map fun c' => { c' with gate } :=
    hf config.core gate
  have hown : f config.core =
      (f config.core).map fun c' => { c' with gate := config.core.gate } :=
    hf config.core config.core.gate
  simp only [Host.tryCore, hostOf, host, hcore']
  cases hcore : f config.core with
  | error e => exact ⟨rfl, ⟨⟨gate, rfl⟩, htold⟩, .refl _, .refl _⟩
  | ok core =>
    rw [hcore] at hown
    have hgate : core.gate = config.core.gate := by
      rw [Except.ok.inj hown]
    exact ⟨rfl, ⟨⟨gate, rfl⟩, htold⟩, ⟨hgate, rfl⟩, ⟨rfl, rfl⟩⟩

theorem modifyCore_parallel (h : s.Alike s') {f : Core → Core}
    (hf : ∀ c gate, f { c with gate } = { f c with gate }) :
    Parallel s s' ((hostOf hooks).modifyCore f s) ((hostOf hooks).modifyCore f s') := by
  refine h.modify (f := fun c => { c with core := f c.core }) ?_
  intro c gate
  exact congrArg (fun core => { c with core }) (hf c.core gate)

theorem setAutoRead_parallel (h : s.Alike s') (on : Bool) :
    Parallel s s' ((hostOf hooks).setAutoRead on s) ((hostOf hooks).setAutoRead on s') := by
  have htell : ∀ (listeners : List Nat) {s s' : Quiet κ}, s.Alike s' →
      Parallel s s' (listeners.foldl (fun s l => (hostOf hooks).autoReadChanged l on s) s)
        (listeners.foldl (fun s l => (hostOf hooks).autoReadChanged l on s) s') := by
    intro listeners
    induction listeners with
    | nil => exact fun h => h.parallel
    | cons listener rest ih =>
      intro s s' h
      have hcall := h.callAutoRead listener on
      exact hcall.trans (ih hcall.alike)
  have hset : Parallel s s' ((hostOf hooks).modifyCore (fun c => { c with autoRead := on }) s)
      ((hostOf hooks).modifyCore (fun c => { c with autoRead := on }) s') :=
    modifyCore_parallel h fun _ _ => rfl
  have hnote := hset.trans (hset.alike.note (.autoReadChanged on))
  obtain ⟨gate, hconfig⟩ := h.config
  have hauto : ((hostOf hooks).config s').core.autoRead = ((hostOf hooks).config s).core.autoRead :=
    h.autoRead
  simp only [Host.setAutoRead, hauto]
  split
  case isTrue => exact h.parallel
  case isFalse =>
    have hlisteners : s'.config.core.autoReadListeners = s.config.core.autoReadListeners :=
      congrArg (·.core.autoReadListeners) hconfig
    refine hnote.trans ?_
    show Parallel _ _ (s.config.core.autoReadListeners.foldl _ _)
      (s'.config.core.autoReadListeners.foldl _ _)
    rw [hlisteners]
    exact htell _ hnote.alike

theorem setStrategy_parallel (h : s.Alike s') (strategy : Strategy) :
    Parallel s s' ((hostOf hooks).setStrategy strategy s)
      ((hostOf hooks).setStrategy strategy s') := by
  have hset : Parallel s s' ((hostOf hooks).modifyCore (·.withStrategy strategy) s)
      ((hostOf hooks).modifyCore (·.withStrategy strategy) s') :=
    modifyCore_parallel h fun _ _ => rfl
  exact hset.trans (hset.alike.note _)

/-- The three options of the water marks aside, the options of the core are not about the gate. -/
theorem setCore_agree (h : s.Alike s') {o : CoreOption} (ho : ¬ o.key.IsMark) (v : Value) :
    s.Agree s' ((hostOf hooks).setCore o v s) ((hostOf hooks).setCore o v s') := by
  cases o with
  | highMark | lowMark | marks => exact absurd (by decide) ho
  | connectTimeout =>
    cases v with
    | i32 n =>
      refine tryCore_agree h ?_
      intro c gate
      simp only [Core.withConnectTimeout]
      split <;> rfl
    | _ => exact ⟨rfl, h.parallel⟩
  | maxMessages =>
    cases v with
    | i32 n =>
      refine tryCore_agree h ?_
      intro c gate
      simp only [Core.withMaxMessages]
      cases Core.positive .maxMessages n <;> rfl
    | _ => exact ⟨rfl, h.parallel⟩
  | writeSpinCount =>
    cases v with
    | i32 n =>
      refine tryCore_agree h ?_
      intro c gate
      simp only [Core.withWriteSpinCount]
      cases Core.positive .writeSpinCount n <;> rfl
    | _ => exact ⟨rfl, h.parallel⟩
  | autoRead =>
    cases v with
    | bool b => exact ⟨rfl, setAutoRead_parallel h b⟩
    | _ => exact ⟨rfl, h.parallel⟩
  | sizing =>
    cases v with
    | sizing strategy => exact ⟨rfl, setStrategy_parallel h strategy⟩
    | _ => exact ⟨rfl, h.parallel⟩
  | estimator =>
    cases v with
    | estimator e => exact ⟨rfl, modifyCore_parallel h fun _ _ => rfl⟩
    | _ => exact ⟨rfl, h.parallel⟩

/-! ## Registries -/

theorem registry_eq (h : s.Alike s') (slot : Slot) :
    ((hostOf hooks).registryHost slot).registry s' =
      ((hostOf hooks).registryHost slot).registry s := by
  obtain ⟨gate, hconfig⟩ := h.config
  cases slot with
  | layer i =>
    have hlayers : s'.config.layers = s.config.layers := congrArg (·.layers) hconfig
    simp only [Host.registryHost, hostOf, host, hlayers]
  | core | registry => exact congrArg (·.registry) hconfig

theorem setRegistry_parallel (h : s.Alike s') (slot : Slot) (r : Registry) :
    Parallel s s' (((hostOf hooks).registryHost slot).setRegistry r s)
      (((hostOf hooks).registryHost slot).setRegistry r s') := by
  cases slot with
  | layer i => exact h.modify (f := fun c => c.setLayer i (.registry r)) fun _ _ => rfl
  | core | registry => exact h.modify (f := fun c => { c with registry := r }) fun _ _ => rfl

theorem judge_agree (hhooks : hooks.Discreet) (h : s.Alike s') (slot : Slot) (hook : Option Nat)
    (v : Value) :
    s.Agree s' (((hostOf hooks).registryHost slot).judge hook v s)
      (((hostOf hooks).registryHost slot).judge hook v s') := by
  cases hook with
  | none => exact ⟨rfl, h.parallel⟩
  | some n => exact hhooks.ask n v h

/-- The same hooks are asked one after the other, until the same one has the last word. -/
theorem storeJudged_agree (hhooks : hooks.Discreet) (slot : Slot) (k : OptionKey) (v : Value)
    (h : s.Alike s') (hook : Option Nat) :
    s.Agree s' (((hostOf hooks).registryHost slot).storeJudged k v hook s)
      (((hostOf hooks).registryHost slot).storeJudged k v hook s') := by
  -- Another hook is asked only while operations are left.
  induction hn : hooks.budget s using Nat.strongRecOn generalizing s s' hook with
  | ind n ih =>
    subst hn
    obtain ⟨verdict, t, t', hout, hout', hafter⟩ :=
      (judge_agree hhooks h slot hook v).exists_outcome
    rw [RegistryHost.storeJudged.eq_def _ k v hook s, RegistryHost.storeJudged.eq_def _ k v hook s',
      hout, hout']
    cases verdict with
    | some reason => exact ⟨rfl, hafter⟩
    | none =>
      simp only [registry_eq hafter.alike slot]
      cases (((hostOf hooks).registryHost slot).registry t).find? k with
      | none => exact ⟨rfl, hafter⟩
      | some d =>
        by_cases hforce : d.hook = hook
        · simp only [if_pos hforce]
          exact ⟨rfl, hafter.trans (setRegistry_parallel hafter.alike slot _)⟩
        · simp only [if_neg hforce]
          have hbudget : ∀ {s s' : Quiet κ}, s.Alike s' →
              ((hostOf hooks).registryHost slot).budget s' =
                ((hostOf hooks).registryHost slot).budget s := hhooks.budget
          rw [hbudget h, hbudget hafter.alike]
          split
          case isTrue hlt =>
            obtain ⟨hanswer, hrest⟩ := ih _ hlt hafter.alike d.hook rfl
            exact ⟨hanswer, hafter.trans hrest⟩
          case isFalse => exact ⟨rfl, hafter⟩

theorem trySetRegistry_agree (hhooks : hooks.Discreet) (h : s.Alike s') (slot : Slot)
    (k : OptionKey) (v : Value) :
    s.Agree s' (((hostOf hooks).registryHost slot).trySet k v s)
      (((hostOf hooks).registryHost slot).trySet k v s') := by
  unfold RegistryHost.trySet
  rw [registry_eq h slot]
  cases (((hostOf hooks).registryHost slot).registry s).find? k with
  | none => exact ⟨rfl, h.parallel⟩
  | some d =>
    cases k.expectType v with
    | error e => exact ⟨rfl, h.parallel⟩
    | ok _ => exact storeJudged_agree hhooks slot k v h d.hook

/-! ## The chain -/

theorem storeLayer_agree {α : Type} (h : s.Alike s') (i : Nat) (wrap : α → Layer κ)
    (outcome : Option (Except ConfigError α)) :
    s.Agree s' ((hostOf hooks).storeLayer i wrap outcome s)
      ((hostOf hooks).storeLayer i wrap outcome s') := by
  rcases outcome with _ | e | a
  · exact ⟨rfl, h.parallel⟩
  · exact ⟨rfl, h.parallel⟩
  · exact ⟨rfl, h.modify (f := fun c => c.setLayer i (wrap a)) fun _ _ => rfl⟩

variable [OptionLayer κ]

theorem trySetAt_agree (hhooks : hooks.Discreet) (h : s.Alike s') {k : OptionKey}
    (hk : ¬ k.IsMark) (v : Value) (slot : Slot) :
    s.Agree s' ((hostOf hooks).trySetAt k v slot s) ((hostOf hooks).trySetAt k v slot s') := by
  cases slot with
  | core =>
    simp only [Host.trySetAt]
    cases ho : CoreOption.ofKey? k with
    | none => exact ⟨rfl, h.parallel⟩
    | some o =>
      have hmark : ¬ o.key.IsMark := by
        rw [OptionKey.isMark_congr (CoreOption.id_of_ofKey? ho)]
        exact hk
      have hset : s.Agree s' ((hostOf hooks).setCore o v s) ((hostOf hooks).setCore o v s') :=
        setCore_agree h hmark v
      exact ⟨congrArg some hset.1, hset.2⟩
  | layer i =>
    obtain ⟨gate, hconfig⟩ := h.config
    have hlayers : ((hostOf hooks).config s').layers = ((hostOf hooks).config s).layers :=
      congrArg (·.layers) hconfig
    simp only [Host.trySetAt, hlayers]
    cases ((hostOf hooks).config s).layers[i]? with
    | none => exact ⟨rfl, h.parallel⟩
    | some l =>
      cases l with
      | socket options => exact storeLayer_agree h i .socket _
      | custom layer => exact storeLayer_agree h i .custom _
      | registry r => exact trySetRegistry_agree hhooks h (.layer i) k v
  | registry => exact trySetRegistry_agree hhooks h .registry k v

theorem setThrough_agree (hhooks : hooks.Discreet) {k : OptionKey} (hk : ¬ k.IsMark) (v : Value)
    (slots : List Slot) (h : s.Alike s') :
    s.Agree s' ((hostOf hooks).setThrough k v slots s)
      ((hostOf hooks).setThrough k v slots s') := by
  induction slots generalizing s s' with
  | nil => exact ⟨rfl, h.note _⟩
  | cons slot rest ih =>
    obtain ⟨gate, hconfig⟩ := h.config
    have hname : ((hostOf hooks).config s').layerName slot =
        ((hostOf hooks).config s).layerName slot := by
      show s'.config.layerName slot = s.config.layerName slot
      rw [hconfig]
      cases slot <;> rfl
    obtain ⟨answer, t, t', hout, hout', hafter⟩ :=
      (trySetAt_agree hhooks h hk v slot).exists_outcome
    simp only [Host.setThrough, hname, hout, hout']
    rcases answer with _ | e | _
    · obtain ⟨hanswer, hrest⟩ := ih hafter.alike
      exact ⟨hanswer, hafter.trans hrest⟩
    · exact ⟨rfl, hafter.trans (hafter.alike.note _)⟩
    · exact ⟨rfl, hafter.trans (hafter.alike.note _)⟩

theorem setEntry_agree (hhooks : hooks.Discreet) {e : OptionKey × Value} (he : ¬ e.1.IsMark)
    (h : s.Alike s') :
    s.Agree s' ((hostOf hooks).setEntry e s) ((hostOf hooks).setEntry e s') := by
  obtain ⟨gate, hconfig⟩ := h.config
  have hchain : ((hostOf hooks).config s').chain = ((hostOf hooks).config s).chain := by
    show s'.config.chain = s.config.chain
    rw [hconfig]
    rfl
  obtain ⟨answer, t, t', hout, hout', hafter⟩ :=
    (setThrough_agree hhooks he e.2 ((hostOf hooks).config s).chain h).exists_outcome
  simp only [Host.setEntry, Host.setOption, hchain, hout, hout']
  rcases answer with e | _ | _ <;> exact ⟨rfl, hafter⟩

theorem setEntries_agree (hhooks : hooks.Discreet) {entries : List (OptionKey × Value)}
    (hentries : ∀ e ∈ entries, ¬ e.1.IsMark) (h : s.Alike s') :
    s.Agree s' ((hostOf hooks).setEntries entries s) ((hostOf hooks).setEntries entries s') := by
  induction entries generalizing s s' with
  | nil => exact ⟨rfl, h.parallel⟩
  | cons e rest ih =>
    obtain ⟨hfirst, hafter⟩ :=
      setEntry_agree hhooks (hentries e List.mem_cons_self) h
    obtain ⟨hothers, hrest⟩ :=
      ih (fun e' he' => hentries e' (List.mem_cons_of_mem _ he')) hafter.alike
    refine ⟨?_, hafter.trans hrest⟩
    show _ ++ _ = _ ++ _
    rw [hfirst, hothers]

end Writes

end Quiet

theorem Hooks.discreet_judging (verdict : Nat → Value → Option String) :
    (judging verdict : Hooks κ).Discreet where
  ask _ _ _ _ h := ⟨rfl, h.parallel⟩
  budget _ := rfl

end FlowControl
