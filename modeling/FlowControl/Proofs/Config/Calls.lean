import Mathlib.Logic.Relation
import FlowControl.Config.Builder
import FlowControl.Proofs.Config.Batch
import FlowControl.Proofs.Option.Map
import FlowControl.Sizing.Script

/-!
# What calls do to a configuration

A configuration is used by many kinds of calls, but only few things can happen to it: an option of
the core or of a socket layer is set, the gate or the receive handle moves on, a listener is added,
a registry changes, a layer of the application changes. `Config.Change` lists them, and
`Quiet.performAll_changes` says that whatever quiet clients do is a sequence of such changes. What
is to hold in all states of a configuration is then shown change by change, without a look at the
calls.
-/

set_option autoImplicit false

namespace FlowControl

open Relation (ReflTransGen)

/-! ## Calls -/

/-- A declaration of an option, with the number of its hook if it has one. -/
structure Declaration (t : OptionTable) where
  entry : t.Entry
  hook : Option Nat

/-- What a client can ask of a configuration, apart from questions. -/
inductive Call (t : OptionTable) where
  /-- A setter of the core. Where it takes a value of its option's type, it never sees another. -/
  | set (o : CoreOption) (v : Value)
  /-- A setter of the first socket layer. -/
  | setSocket (o : SocketOption) (v : Value)
  | setOption (k : t.Key) (v : Value)
  | trySetOptions (batch : OptionMap) (known : ∀ e ∈ batch.entries, e.1 ∈ t.keys)
  | applyProfile (p : Profile)
  | gate (call : GateCall)
  | queueMessage (m : Message)
  | flushMessage (m : Message)
  | reportRead (bytes capacity : Nat)
  /-- A read pass with a closure that reads and does nothing else. -/
  | readPass (script : List (ScriptedRead Empty))
  | addWritabilityListener (listener : Nat)
  | addAutoReadListener (listener : Nat)
  | declare (d : Declaration t)
  /-- Write to the registry itself. -/
  | write (k : t.Key) (v : Value)

namespace Host

variable {κ σ : Type} [OptionLayer κ] {t : OptionTable}

/-- Make a call, without looking at the answer. -/
def perform (h : Host κ σ) (call : Call t) (s : σ) : σ :=
  match call with
  | .set o v => (h.setCore o v s).2
  | .setSocket o v => (h.setSocket (·.set o v) s).2
  | .setOption k v => (h.setOption k.key v s).2
  | .trySetOptions batch _ => (h.trySetOptions batch s).2
  | .applyProfile p => (h.applyProfile p s).2
  | .gate call => (h.gateHost.perform call s).2
  | .queueMessage m => (h.queueMessage m s).2
  | .flushMessage m => (h.flushMessage m s).2
  | .reportRead bytes capacity => h.reportRead bytes capacity s
  | .readPass script => (h.readPass (ScriptedRead.closure fun _ s => s) script s).world
  | .addWritabilityListener listener => h.addWritabilityListener listener s
  | .addAutoReadListener listener => h.addAutoReadListener listener s
  | .declare d =>
    match d.hook with
    | none => (h.registryHost .registry).declare d.entry.key d.entry.value s
    | some hook => ((h.registryHost .registry).declareValidated d.entry.key d.entry.value hook s).2
  | .write k v => ((h.registryHost .registry).trySet k.key v s).2

def performAll (h : Host κ σ) (calls : List (Call t)) (s : σ) : σ :=
  calls.foldl (fun s call => h.perform call s) s

end Host

/-! ## Changes -/

/-- What can happen to the core. -/
inductive Core.Change (c : Core) : Core → Prop where
  | set (o : CoreOption) (v : Value) (c' : Core) : c.store o v = .ok c' → Change c c'
  | gate (gate : Gate) : Change c { c with gate }
  /-- The handle has seen a read; its limit stays. -/
  | handle (handle : RecvHandle) : handle.limit = c.handle.limit → Change c { c with handle }
  | autoReadListeners (autoReadListeners : List Nat) : Change c { c with autoReadListeners }

/-- What can happen to a configuration: something to the core, to a layer or to the registry. -/
inductive Config.Change {κ : Type} (t : OptionTable) (accepts : Nat → Value → Prop)
    (c : Config κ) : Config κ → Prop where
  | core (core : Core) : c.core.Change core → Change t accepts c { c with core }
  | socket (i : Nat) (options options' : SocketOptions) (o : SocketOption) (v : Value) :
    c.layers[i]? = some (.socket options) → options.set o v = .ok options' →
    Change t accepts c (c.setLayer i (.socket options'))
  | layer (i : Nat) (r r' : Registry) : c.layers[i]? = some (.registry r) →
    r.Change t accepts r' → Change t accepts c (c.setLayer i (.registry r'))
  | custom (i : Nat) (l l' : κ) : c.layers[i]? = some (.custom l) →
    Change t accepts c (c.setLayer i (.custom l'))
  | registry (r : Registry) : c.registry.Change t accepts r →
    Change t accepts c { c with registry := r }

/-- A sequence of changes. -/
abbrev Config.Changes {κ : Type} (t : OptionTable) (accepts : Nat → Value → Prop) :
    Config κ → Config κ → Prop := ReflTransGen (Config.Change t accepts)

/-- What holds at first and is kept by every step holds in the end. -/
theorem holds_of_steps {α : Type} {step : α → α → Prop} {P : α → Prop} {a b : α}
    (h : ReflTransGen step a b) (hstep : ∀ {a b}, step a b → P a → P b) (ha : P a) : P b := by
  induction h with
  | refl => exact ha
  | tail _ hlast ih => exact hstep hlast ih

/-- A write that is accepted is a change of the registry. -/
theorem Registry.change_of_write {t : OptionTable} {verdict : Nat → Value → Option String}
    {k : t.Key} {v : Value} {r r' : Registry} (h : r.write verdict k.key v = some (.ok r')) :
    r.Change t (Accepts verdict) r' := by
  obtain ⟨d, hd, htyped, hjudge, rfl⟩ := eq_store_of_write h
  refine .store ⟨k, v, htyped⟩ d hd ?_
  intro n hn
  rw [Option.mem_def.1 hn] at hjudge
  exact hjudge

namespace Quiet

variable {κ : Type} {t : OptionTable} {accepts : Nat → Value → Prop}
  (verdict : Nat → Value → Option String)

/-! ## The core -/

theorem changes_core {c : Config κ} {core : Core} (h : c.core.Change core) :
    Config.Changes t accepts c { c with core } := .single (.core core h)

theorem gate_changes (c : Config κ) (gate : Gate) :
    Config.Changes t accepts c (c.withGate gate) := changes_core (.gate gate)

/-- A write whose result is as `r` says is a change if storing is. -/
theorem Outcome.changes {s : Quiet κ} {r : Option (Except ConfigError (Config κ))}
    {out : Option (Except ConfigError Unit) × Quiet κ} (h : Outcome s r out)
    (hstored : ∀ c, r = some (.ok c) → s.config.Change t accepts c) :
    Config.Changes t accepts s.config out.2.config := by
  cases h with
  | unclaimed => exact .refl
  | refused e s' hs' => rw [hs']
  | stored c s' hs' =>
    rw [hs']
    exact .single (hstored c rfl)

theorem setCore_changes (o : CoreOption) (v : Value) (s : Quiet κ) :
    Config.Changes t accepts s.config ((host verdict).setCore o v s).2.config := by
  refine (setCore_outcome verdict o v s).changes ?_
  intro c hc
  obtain ⟨core, hcore, rfl⟩ := map_eq_ok_iff.1 (Option.some.inj hc)
  exact .core core (.set o v core hcore)

theorem afterStore_changes (stored? : Option Gate) (s : Quiet κ) :
    Config.Changes t accepts s.config
      ((host verdict).gateHost.afterStore s stored?).config := by
  cases stored? with
  | none => exact .refl
  | some g =>
    rw [GateHost.afterStore, settle_config]
    exact gate_changes s.config g.settled

theorem gateCall_changes (call : GateCall) (s : Quiet κ) :
    Config.Changes t accepts s.config ((host verdict).gateHost.perform call s).2.config := by
  rw [GateHost.perform_snd]
  exact afterStore_changes verdict _ s

theorem applyMarks_changes (batch : OptionMap) (s : Quiet κ) :
    Config.Changes t accepts s.config ((host verdict).applyMarks batch s).2.config := by
  unfold Host.applyMarks
  rcases Host.markRequest batch with _ | _ | request
  · exact .refl
  · exact .refl
  · have hupdate : Config.Changes t accepts s.config
        ((host verdict).gateHost.update request.low? request.high? s).2.config := by
      rw [GateHost.update_snd]
      exact afterStore_changes verdict _ s
    dsimp only
    generalize (host verdict).gateHost.update request.low? request.high? s = out at hupdate ⊢
    rcases out with ⟨_ | _, s'⟩ <;> exact hupdate

/-! ## The read path -/

theorem report_changes (i bytes capacity : Nat) (s : Quiet κ) :
    Config.Changes t accepts s.config
      ((host verdict).handleHost.report i bytes capacity s).config := by
  have hmodify : Config.Changes t accepts s.config
      ((host verdict).handleHost.modify i (·.report bytes capacity) s).config :=
    changes_core (.handle (s.config.core.handle.report bytes capacity) rfl)
  unfold HandleHost.report
  dsimp only
  split
  · exact hmodify
  · exact hmodify

theorem reportPositive_changes (i bytes capacity : Nat) (s : Quiet κ) :
    Config.Changes t accepts s.config
      ((host verdict).handleHost.reportPositive i bytes capacity s).config := by
  unfold HandleHost.reportPositive
  split
  · exact .refl
  · exact report_changes verdict i bytes capacity s

theorem closure_world {σ : Type} (capacity : Nat) (script : List (ScriptedRead Empty)) (s : σ) :
    (ScriptedRead.closure (fun _ s => s) capacity script s).world = s := by
  cases script <;> rfl

theorem passFrom_changes (keepGoing : Quiet κ → Bool) (i done total : Nat)
    (script : List (ScriptedRead Empty)) (s : Quiet κ) :
    Config.Changes t accepts s.config ((host verdict).handleHost.passFrom keepGoing
      (ScriptedRead.closure fun _ s => s) i done total script s).world.config := by
  -- Every further read brings the count closer to the bound of all limits.
  induction hn : UInt32.size - done using Nat.strongRecOn generalizing done total script s with
  | ind n ih =>
    rw [HandleHost.passFrom]
    simp only [closure_world]
    split
    · exact .refl
    · split
      case isTrue hc =>
        have hlt := RecvHandle.lt_of_shouldContinue (Bool.and_eq_true_iff.1 hc).2
        exact (reportPositive_changes verdict i _ _ s).trans (ih _ (by omega) _ _ _ _ rfl)
      case isFalse => exact reportPositive_changes verdict i _ _ s

theorem readPass_changes (script : List (ScriptedRead Empty)) (s : Quiet κ) :
    Config.Changes t accepts s.config
      ((host verdict).readPass (ScriptedRead.closure fun _ s => s) script s).world.config := by
  have hreset : Config.Changes t accepts s.config
      ((host verdict).handleHost.modify 0 (·.reset) s).config :=
    changes_core (.handle s.config.core.handle.reset rfl)
  exact hreset.trans (passFrom_changes verdict _ _ _ _ _ _)

/-! ## Registries -/

theorem registry_changes (r : Registry) (s : Quiet κ)
    (h : s.config.registry.Change t accepts r) :
    Config.Changes t accepts s.config
      (((host verdict).registryHost .registry).setRegistry r s).config :=
  .single (.registry r h)

theorem declare_changes (d : Declaration t) (s : Quiet κ) [OptionLayer κ] :
    Config.Changes t (Accepts verdict) s.config
      ((host verdict).perform (.declare d) s).config := by
  obtain ⟨e, hook⟩ := d
  cases hook with
  | none => exact registry_changes verdict _ s (.declare e none nofun)
  | some n =>
    have hcheck : ((host verdict).registryHost .registry).check n e.value s =
        (verdict n e.value, s) := rfl
    simp only [Host.perform, RegistryHost.declareValidated, hcheck]
    cases hverdict : verdict n e.value with
    | some reason => exact .refl
    | none =>
      refine registry_changes verdict _ s (.declare e (some n) ?_)
      rintro _ ⟨rfl⟩
      exact hverdict

theorem writeRegistry_changes (k : t.Key) (v : Value) (s : Quiet κ) :
    Config.Changes t (Accepts verdict) s.config
      (((host verdict).registryHost .registry).trySet k.key v s).2.config := by
  rw [trySet_eq]
  have hr : ((host verdict).registryHost .registry).registry s = s.config.registry := rfl
  rw [hr]
  cases hwrite : s.config.registry.write verdict k.key v with
  | none => exact .refl
  | some outcome =>
    cases outcome with
    | error e => exact .refl
    | ok r => exact registry_changes verdict r s (Registry.change_of_write hwrite)

/-! ## The chain -/

section Chain

variable [OptionLayer κ]

theorem change_of_storeAt {k : t.Key} {v : Value} {c c' : Config κ} {slot : Slot}
    (h : c.storeAt verdict k.key v slot = some (.ok c')) : c.Change t (Accepts verdict) c' := by
  cases slot with
  | core =>
    obtain ⟨o, -, hok⟩ := Option.map_eq_some_iff.1 h
    obtain ⟨core, hcore, rfl⟩ := map_eq_ok_iff.1 hok
    exact .core core (.set o v core hcore)
  | layer i =>
    obtain ⟨_, hbind, hok⟩ := Option.map_eq_some_iff.1 h
    obtain ⟨l, hi, hl⟩ := Option.bind_eq_some_iff.1 hbind
    obtain ⟨l', rfl, rfl⟩ := map_eq_ok_iff.1 hok
    cases l with
    | socket options =>
      obtain ⟨_, hset, hok⟩ := Option.map_eq_some_iff.1 hl
      obtain ⟨options', rfl, rfl⟩ := map_eq_ok_iff.1 hok
      obtain ⟨o, -, hset⟩ := Option.map_eq_some_iff.1 hset
      exact .socket i options options' o v hi hset
    | registry r =>
      obtain ⟨_, hwrite, hok⟩ := Option.map_eq_some_iff.1 hl
      obtain ⟨r', rfl, rfl⟩ := map_eq_ok_iff.1 hok
      exact .layer i r r' hi (Registry.change_of_write hwrite)
    | custom l =>
      obtain ⟨_, -, hok⟩ := Option.map_eq_some_iff.1 hl
      obtain ⟨l', -, rfl⟩ := map_eq_ok_iff.1 hok
      exact .custom i l l' hi
  | registry =>
    obtain ⟨_, hwrite, hok⟩ := Option.map_eq_some_iff.1 h
    obtain ⟨r, rfl, rfl⟩ := map_eq_ok_iff.1 hok
    exact .registry r (Registry.change_of_write hwrite)

theorem change_of_store {k : t.Key} {v : Value} {c c' : Config κ}
    (h : c.store verdict k.key v = some (.ok c')) : c.Change t (Accepts verdict) c' := by
  obtain ⟨slot, -, hslot⟩ := List.exists_of_findSome?_eq_some h
  exact change_of_storeAt verdict hslot

theorem setOption_changes (k : t.Key) (v : Value) (s : Quiet κ) :
    Config.Changes t (Accepts verdict) s.config
      ((host verdict).setOption k.key v s).2.config := by
  rcases hout : (host verdict).setOption k.key v s with ⟨r, s'⟩
  show Config.Changes t (Accepts verdict) s.config s'.config
  rcases setOption_cases verdict hout with ⟨-, hstore⟩ | ⟨-, hconfig, -⟩ | ⟨_, -, hconfig, -⟩
  · exact .single (change_of_store verdict hstore)
  · rw [hconfig]
  · rw [hconfig]

theorem setEntry_snd (e : OptionKey × Value) (s : Quiet κ) :
    ((host verdict).setEntry e s).2 = ((host verdict).setOption e.1 e.2 s).2 := by
  unfold Host.setEntry
  split <;> simp [*]

theorem setEntries_changes {entries : List (OptionKey × Value)}
    (hentries : ∀ e ∈ entries, e.1 ∈ t.keys) (s : Quiet κ) :
    Config.Changes t (Accepts verdict) s.config
      ((host verdict).setEntries entries s).2.config := by
  induction entries generalizing s with
  | nil => exact .refl
  | cons e rest ih =>
    have hfirst := setOption_changes verdict ⟨e.1, hentries e List.mem_cons_self⟩ e.2 s
    rw [← setEntry_snd] at hfirst
    exact hfirst.trans (ih (fun e' he' => hentries e' (List.mem_cons_of_mem _ he')) _)

theorem trySetOptions_changes {batch : OptionMap} (hbatch : ∀ e ∈ batch.entries, e.1 ∈ t.keys)
    (s : Quiet κ) :
    Config.Changes t (Accepts verdict) s.config
      ((host verdict).trySetOptions batch s).2.config := by
  have hmarks : Config.Changes t (Accepts verdict) s.config
      ((host verdict).applyMarks batch s).2.config := applyMarks_changes verdict batch s
  have hrest : ∀ s : Quiet κ, Config.Changes t (Accepts verdict) s.config
      ((host verdict).setEntries (Host.withoutMarks batch).entries s).2.config :=
    setEntries_changes verdict fun e he => hbatch e (Host.mem_withoutMarks.1 he).1
  unfold Host.trySetOptions
  generalize (host verdict).applyMarks batch s = out at hmarks ⊢
  rcases out with ⟨_ | r, s'⟩
  · exact hmarks.trans (hrest s')
  · exact hmarks.trans (hrest ((host verdict).note (.marksRejected r.key.name r.error) s'))

theorem applyProfile_changes (ht : t.Coherent) (p : Profile) (s : Quiet κ) :
    Config.Changes t (Accepts verdict) s.config
      ((host verdict).applyProfile p s).2.config := by
  have hset := trySetOptions_changes verdict (p.listed_batch ht).known s
  unfold Host.applyProfile
  generalize (host verdict).trySetOptions p.batch s = out at hset ⊢
  dsimp only
  split
  · exact hset
  · exact hset

end Chain

/-- The first socket layer is where it is found. -/
theorem getElem?_of_socketSlot? {layers : List (Layer κ)} {i : Nat} {options : SocketOptions}
    (hi : layers.findIdx? (·.socketOptions?.isSome) = some i)
    (ho : layers.findSome? Layer.socketOptions? = some options) :
    layers[i]? = some (.socket options) := by
  induction layers generalizing i with
  | nil => cases ho
  | cons l rest ih =>
    rw [List.findIdx?_cons] at hi
    rw [List.findSome?_cons] at ho
    cases l with
    | socket options' =>
      cases hi
      cases ho
      rfl
    | registry _ | custom _ =>
      obtain ⟨j, hj, rfl⟩ := Option.map_eq_some_iff.1 hi
      exact ih hj ho

theorem setSocket_changes (o : SocketOption) (v : Value) (s : Quiet κ) :
    Config.Changes t accepts s.config ((host verdict).setSocket (·.set o v) s).2.config := by
  unfold Host.setSocket
  split
  · rename_i i options hi ho
    have hlayer : s.config.layers[i]? = some (.socket options) := getElem?_of_socketSlot? hi ho
    cases hset : options.set o v with
    | error e => simp only [hset, Host.storeLayer]; exact .refl
    | ok options' =>
      simp only [hset, Host.storeLayer]
      exact .single (.socket i options options' o v hlayer hset)
  · exact .refl

/-! ## Runs -/

section Runs

variable [OptionLayer κ]

theorem perform_changes (ht : t.Coherent) (call : Call t) (s : Quiet κ) :
    Config.Changes t (Accepts verdict) s.config ((host verdict).perform call s).config := by
  cases call with
  | set o v => exact setCore_changes verdict o v s
  | setSocket o v => exact setSocket_changes verdict o v s
  | setOption k v => exact setOption_changes verdict k v s
  | trySetOptions batch known => exact trySetOptions_changes verdict known s
  | applyProfile p => exact applyProfile_changes verdict ht p s
  | gate call => exact gateCall_changes verdict call s
  | queueMessage m => exact gateCall_changes verdict (.queue (s.config.core.estimator.size m)) s
  | flushMessage m => exact gateCall_changes verdict (.flush (s.config.core.estimator.size m)) s
  | reportRead bytes capacity => exact report_changes verdict 0 bytes capacity s
  | readPass script => exact readPass_changes verdict script s
  | addWritabilityListener listener =>
    exact gate_changes s.config (s.config.core.gate.addListener listener)
  | addAutoReadListener listener => exact changes_core (.autoReadListeners _)
  | declare d => exact declare_changes verdict d s
  | write k v => exact writeRegistry_changes verdict k v s

theorem performAll_changes (ht : t.Coherent) (calls : List (Call t)) (s : Quiet κ) :
    Config.Changes t (Accepts verdict) s.config ((host verdict).performAll calls s).config := by
  induction calls generalizing s with
  | nil => exact .refl
  | cons call rest ih => exact (perform_changes verdict ht call s).trans (ih _)

end Runs

end Quiet

end FlowControl
