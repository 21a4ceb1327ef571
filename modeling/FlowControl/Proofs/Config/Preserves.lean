import FlowControl.Proofs.Config.Calls
import FlowControl.Proofs.Sizing.Capacity

/-!
# Where calls touch the world

Listeners, hooks and read closures are client code, and may call the configuration again while a
call is under way. Whatever is to hold through all of that has to hold again each time a call lets
go of the world: after it has stored a setting, moved the handle on, changed a layer, made a
callback or written a line to the log. `Host.Preserves` lists these places for any world, each with
what is known there, and the lemmas below say that a property preserved there is preserved by every
call (`Host.Preserves.perform`).

Setting the read limit as an option is one place and not two. The limit is stored and the line that
says so is written at once, with no callback in between, so that a property may relate the limit to
the lines of the log.

Turning the auto-read switch and changing the marks are left as they are, because the callbacks that
they make are different from world to world. Calls that are about the count of the gate, or that
register a listener of the switch, are not covered (`Call.Routine`).
-/

set_option autoImplicit false

namespace FlowControl

/-! ## Calls -/

/-- A call that counts bytes at the gate, given as they are or as a message. -/
def Call.CountsBytes {t : OptionTable} : Call t → Prop
  | .gate (.queue _) | .gate (.flush _) | .queueMessage _ | .flushMessage _ => True
  | _ => False

/-- A call that neither counts bytes nor registers a listener of the auto-read switch. -/
def Call.Routine {t : OptionTable} : Call t → Prop
  | .addAutoReadListener _ => False
  | call => ¬ call.CountsBytes

/-- The setter of the read limit. -/
def Call.SetsLimit {t : OptionTable} : Call t → Prop
  | .set .maxMessages _ => True
  | _ => False

/-- The options that a call sets as options, with their values. -/
def Call.writes {t : OptionTable} : Call t → List (OptionKey × Value)
  | .setOption k v => [(k.key, v)]
  | .trySetOptions batch _ => batch.entries
  | .applyProfile p => p.batch.entries
  | _ => []

/-- The options that are stored in the core and nobody is told of them, save the read limit. -/
def CoreOption.Silent : CoreOption → Prop
  | .connectTimeout | .writeSpinCount | .sizing | .estimator => True
  | _ => False

/-- The option is the read limit. -/
def OptionKey.IsLimit (k : OptionKey) : Prop := k.id = OptionKey.maxMessagesPerRead.id

instance (k : OptionKey) : Decidable k.IsLimit := by unfold OptionKey.IsLimit; infer_instance

/-- A line of the log that is not about an option being set. -/
def Notice.Aside : Notice → Prop
  | .optionSet .. => False
  | _ => True

theorem CoreOption.ofKey?_of_isLimit {k : OptionKey} (hk : k.IsLimit) :
    ofKey? k = some .maxMessages := by
  simp only [ofKey?, OptionKey.same, hk.symm.symm]
  rfl

theorem CoreOption.isLimit_of_ofKey? {k : OptionKey} (hk : ofKey? k = some .maxMessages) :
    k.IsLimit := (id_of_ofKey? hk).symm

/-! ## A look at the signal -/

namespace GateHost

variable {σ : Type} {h : GateHost σ} {Stored P : σ → Prop} {s : σ}

theorem flip_keeps
    (hnote : ∀ (g : Gate) s, P s →
      P (h.note (.writabilityChanged g.writable g.queued g.marks.low g.marks.high) s))
    (hcall : ∀ l v s, P s → P (h.call l v s)) {g : Gate} (hs : P (h.setGate g s)) :
    P (h.flip g s) :=
  List.foldlRecOn g.listeners _ (hnote g _ hs) fun s hs l _ => hcall l g.writable s hs

/-- What holds of a settled gate after a store, and survives the callbacks, holds again when the
signal has been looked at. -/
theorem settle_restores (hstored : ∀ s, P s → Stored s)
    (hrest : ∀ s, Stored s → (h.gate s).flipped? = none → P s)
    (hflip : ∀ s g, Stored s → (h.gate s).flipped? = some g → P (h.setGate g s))
    (hnote : ∀ (g : Gate) s, P s →
      P (h.note (.writabilityChanged g.writable g.queued g.marks.low g.marks.high) s))
    (hcall : ∀ l v s, P s → P (h.call l v s)) (hs : Stored s) : P (h.settle s) := by
  -- The signal is looked at again only while operations are left.
  induction hn : h.budget s using Nat.strongRecOn generalizing s with
  | ind n ih =>
    subst hn
    rw [settle]
    split
    · exact hrest s hs ‹_›
    · have hafter := flip_keeps hnote hcall (hflip s _ hs ‹_›)
      dsimp only
      split
      · exact ih _ ‹_› (hstored _ hafter) rfl
      · exact hafter

theorem queue_restores {bytes : UInt64} (hzero : bytes = 0 → P s)
    (hsettle : ∀ s, Stored s → P (h.settle s)) (hs : Stored (h.modify (·.queue bytes) s)) :
    P (h.queue bytes s) := by
  unfold queue
  split
  · exact hzero ‹_›
  · exact hsettle _ hs

theorem flush_restores {bytes : UInt64} (hzero : bytes = 0 → P s)
    (hsettle : ∀ s, Stored s → P (h.settle s)) (hs : Stored (h.modify (·.flush bytes) s)) :
    P (h.flush bytes s) := by
  unfold flush
  split
  · exact hzero ‹_›
  · exact hsettle _ hs

/-- A property that does not look at the gate survives all that is done to it. -/
theorem settle_keeps (hset : ∀ g s, P s → P (h.setGate g s))
    (hnote : ∀ (g : Gate) s, P s →
      P (h.note (.writabilityChanged g.writable g.queued g.marks.low g.marks.high) s))
    (hcall : ∀ l v s, P s → P (h.call l v s)) (hs : P s) : P (h.settle s) :=
  settle_restores (fun _ hs => hs) (fun _ hs _ => hs) (fun _ g hs _ => hset g _ hs) hnote hcall hs

theorem perform_keeps (hset : ∀ g s, P s → P (h.setGate g s))
    (hnote : ∀ (g : Gate) s, P s →
      P (h.note (.writabilityChanged g.writable g.queued g.marks.low g.marks.high) s))
    (hcall : ∀ l v s, P s → P (h.call l v s)) (call : GateCall) (hs : P s) :
    P (h.perform call s).2 := by
  rw [perform_snd]
  cases call.stored? (h.gate s) with
  | none => exact hs
  | some g => exact settle_keeps hset hnote hcall (hset g s hs)

end GateHost

namespace Host

variable {κ σ : Type}

/-- A property is kept when the switch is turned if the store and the callbacks keep it. -/
theorem setAutoRead_keeps {h : Host κ σ} {P : σ → Prop}
    (hstore : ∀ on s, P s → P (h.modifyCore (fun c => { c with autoRead := on }) s))
    (hnote : ∀ on s, P s → P (h.note (.autoReadChanged on) s))
    (hcall : ∀ l on s, P s → P (h.autoReadChanged l on s)) (on : Bool) {s : σ} (hs : P s) :
    P (h.setAutoRead on s) := by
  unfold setAutoRead
  split
  · exact hs
  · exact List.foldlRecOn _ _ (hnote on _ (hstore on s hs)) fun s hs l _ => hcall l on s hs

/-- What is not routine is a call of the gate or the registration of a listener. -/
theorem perform_of_not_routine [OptionLayer κ] {h : Host κ σ} {P : σ → Prop} {t : OptionTable}
    {call : Call t} {s : σ} (hcall : ¬ call.Routine)
    (hgate : ∀ gateCall, P (h.gateHost.perform gateCall s).2)
    (hlistener : ∀ l, call = .addAutoReadListener l → P (h.addAutoReadListener l s)) :
    P (h.perform call s) := by
  cases call with
  | gate gateCall => exact hgate gateCall
  | queueMessage m => exact hgate (.queue ((h.config s).core.estimator.size m))
  | flushMessage m => exact hgate (.flush ((h.config s).core.estimator.size m))
  | addAutoReadListener l => exact hlistener l rfl
  | _ => exact absurd id hcall

/-- The property `P` of worlds holds again wherever a call lets go of the world, as long as `may`
holds of the options that are set and of their values. -/
structure Preserves (h : Host κ σ) (may : OptionKey → Value → Prop) (P : σ → Prop) : Prop where
  store : ∀ {o : CoreOption} {v : Value} {core : Core} {s : σ}, P s → o.Silent →
    (h.config s).core.store o v = .ok core → P (h.setConfig { h.config s with core } s)
  limit : ∀ {k : OptionKey} {v : Value} {core : Core} {s : σ}, P s → k.IsLimit → may k v →
    (h.config s).core.store .maxMessages v = .ok core →
    P (h.note (.optionSet "core" k.name) (h.setConfig { h.config s with core } s))
  use : ∀ {u : RecvHandle.Use} {s : σ}, P s → (∀ n, u ≠ .limit n) →
    P (h.modifyCore (fun c => { c with handle := c.handle.use u }) s)
  socket : ∀ {i : Nat} {options options' : SocketOptions} {o : SocketOption} {v : Value} {s : σ},
    P s → (h.config s).layers[i]? = some (.socket options) → options.set o v = .ok options' →
    P (h.setConfig ((h.config s).setLayer i (.socket options')) s)
  custom : ∀ {i : Nat} (layer : κ) {s : σ}, P s →
    P (h.setConfig ((h.config s).setLayer i (.custom layer)) s)
  setRegistry : ∀ (slot : Slot) (r : Registry) {s : σ}, P s →
    P ((h.registryHost slot).setRegistry r s)
  setEarlier : ∀ (handles : List RecvHandle) {s : σ}, P s → P (h.setEarlier handles s)
  note : ∀ {n : Notice} {s : σ}, P s → n.Aside → P (h.note n s)
  noteSet : ∀ (layer : String) {k : OptionKey} {v : Value} {s : σ}, P s → ¬ k.IsLimit → may k v →
    P (h.note (.optionSet layer k.name) s)
  check : ∀ (hook : Nat) (v : Value) {s : σ}, P s → P (h.check hook v s).2
  setAutoRead : ∀ (on : Bool) {s : σ}, P s → P (h.setAutoRead on s)
  setMarks : ∀ (marks : WaterMark) {s : σ}, P s → P (h.gateHost.setMarks marks s)
  addWritabilityListener : ∀ (listener : Nat) {s : σ}, P s → P (h.addWritabilityListener listener s)

namespace Preserves

variable {h : Host κ σ} {may : OptionKey → Value → Prop} {P : σ → Prop} {s : σ}

/-! ## The core -/

theorem tryCore (hp : h.Preserves may P) (hs : P s) {o : CoreOption} (ho : o.Silent) (v : Value)
    {f : Core → Except ConfigError Core} (hf : ∀ c : Core, c.store o v = f c) :
    P (h.tryCore f s).2 := by
  unfold Host.tryCore
  cases hcore : f (h.config s).core with
  | error e => exact hs
  | ok core => exact hp.store hs ho ((hf _).trans hcore)

theorem setStrategy (hp : h.Preserves may P) (hs : P s) (strategy : Strategy) :
    P (h.setStrategy strategy s) :=
  hp.note (hp.store (o := .sizing) (v := .sizing strategy) (hp.setEarlier _ hs) trivial rfl) trivial

theorem setHigh (hp : h.Preserves may P) (hs : P s) (high : UInt32) :
    P (h.gateHost.setHigh high s).2 := by
  unfold GateHost.setHigh
  dsimp only
  split
  · exact hp.setMarks _ hs
  · exact hs

theorem setLow (hp : h.Preserves may P) (hs : P s) (low : UInt32) :
    P (h.gateHost.setLow low s).2 := by
  unfold GateHost.setLow
  dsimp only
  split
  · exact hp.setMarks _ hs
  · exact hs

theorem update (hp : h.Preserves may P) (hs : P s) (low? high? : Option UInt32) :
    P (h.gateHost.update low? high? s).2 := by
  unfold GateHost.update
  split
  · exact hp.setMarks _ hs
  · exact hs

theorem applyMarks (hp : h.Preserves may P) (hs : P s) (batch : OptionMap) :
    P (h.applyMarks batch s).2 := by
  unfold Host.applyMarks
  rcases Host.markRequest batch with _ | _ | request
  · exact hs
  · exact hs
  · have hupdate := hp.update hs request.low? request.high?
    dsimp only
    generalize h.gateHost.update request.low? request.high? s = out at hupdate ⊢
    obtain ⟨_ | _, s'⟩ := out <;> exact hupdate

theorem setCore (hp : h.Preserves may P) (hs : P s) {o : CoreOption} (ho : o ≠ .maxMessages)
    (v : Value) : P (h.setCore o v s).2 := by
  cases o with
  | maxMessages => exact absurd rfl ho
  | connectTimeout =>
    cases v with
    | i32 n => exact hp.tryCore (o := .connectTimeout) hs trivial (.i32 n) fun _ => rfl
    | _ => exact hs
  | writeSpinCount =>
    cases v with
    | i32 n => exact hp.tryCore (o := .writeSpinCount) hs trivial (.i32 n) fun _ => rfl
    | _ => exact hs
  | autoRead =>
    cases v with
    | bool b => exact hp.setAutoRead b hs
    | _ => exact hs
  | highMark =>
    cases v with
    | u32 n => exact hp.setHigh hs n
    | _ => exact hs
  | lowMark =>
    cases v with
    | u32 n => exact hp.setLow hs n
    | _ => exact hs
  | marks =>
    cases v with
    | waterMark marks => exact hp.setMarks marks hs
    | _ => exact hs
  | sizing =>
    cases v with
    | sizing strategy => exact hp.setStrategy hs strategy
    | _ => exact hs
  | estimator =>
    cases v with
    | estimator e => exact hp.store (o := .estimator) (v := .estimator e) hs trivial rfl
    | _ => exact hs

/-- The calls of the gate that are not about its count. -/
theorem performGate (hp : h.Preserves may P) (hs : P s) {call : GateCall}
    (hcall : ∀ n, call ≠ .queue n ∧ call ≠ .flush n) : P (h.gateHost.perform call s).2 := by
  cases call with
  | queue n => exact absurd rfl (hcall n).1
  | flush n => exact absurd rfl (hcall n).2
  | setHigh high =>
    rw [GateHost.perform, GateHost.answer_snd]
    exact hp.setHigh hs high
  | setLow low =>
    rw [GateHost.perform, GateHost.answer_snd]
    exact hp.setLow hs low
  | setMarks low high =>
    unfold GateHost.perform
    dsimp only
    split
    · exact hp.setMarks _ hs
    · exact hs
  | update low? high? =>
    have hupdate := hp.update hs low? high?
    simp only [GateHost.perform]
    generalize h.gateHost.update low? high? s = out at hupdate ⊢
    obtain ⟨_ | _, s'⟩ := out <;> exact hupdate
  | describe => exact hs

/-! ## Registries -/

theorem judge (hp : h.Preserves may P) (hs : P s) (slot : Slot) (hook : Option Nat) (v : Value) :
    P ((h.registryHost slot).judge hook v s).2 := by
  cases hook with
  | none => exact hs
  | some n => exact hp.check n v hs

theorem storeJudged (hp : h.Preserves may P) (hs : P s) (slot : Slot) (k : OptionKey) (v : Value)
    (hook : Option Nat) : P ((h.registryHost slot).storeJudged k v hook s).2 := by
  -- Another hook is asked only while operations are left.
  induction hn : h.budget s using Nat.strongRecOn generalizing s hook with
  | ind n ih =>
    subst hn
    have hjudge := hp.judge hs slot hook v
    rw [RegistryHost.storeJudged]
    generalize (h.registryHost slot).judge hook v s = out at hjudge ⊢
    obtain ⟨_ | reason, after⟩ := out
    · dsimp only
      split
      · exact hjudge
      · split
        · exact hp.setRegistry slot _ hjudge
        · split
          · rename_i hlt
            exact ih _ hlt hjudge _ rfl
          · exact hjudge
    · exact hjudge

theorem trySetRegistry (hp : h.Preserves may P) (hs : P s) (slot : Slot) (k : OptionKey)
    (v : Value) : P ((h.registryHost slot).trySet k v s).2 := by
  unfold RegistryHost.trySet
  split
  · exact hs
  · split
    · exact hs
    · exact hp.storeJudged hs slot k v _

theorem declare (hp : h.Preserves may P) (hs : P s) (k : OptionKey) (v : Value) :
    P ((h.registryHost .registry).declare k v s) := hp.setRegistry .registry _ hs

theorem declareValidated (hp : h.Preserves may P) (hs : P s) (k : OptionKey) (v : Value)
    (hook : Nat) : P ((h.registryHost .registry).declareValidated k v hook s).2 := by
  have hcheck : P ((h.registryHost .registry).check hook v s).2 := hp.check hook v hs
  unfold RegistryHost.declareValidated
  generalize (h.registryHost .registry).check hook v s = out at hcheck ⊢
  obtain ⟨_ | reason, after⟩ := out
  · exact hp.setRegistry .registry _ hcheck
  · exact hcheck

/-! ## The read path -/

/-- A handle is used, whether it is the one in force or an earlier one. -/
theorem useHandle (hp : h.Preserves may P) (hs : P s) (i : Nat) {u : RecvHandle.Use}
    (hu : ∀ n, u ≠ .limit n) : P (h.handleHost.modify i (·.use u) s) := by
  show P (if i < (h.earlier s).length then _ else _)
  split
  · exact hp.setEarlier _ hs
  case isFalse hge =>
    have hhandle : h.handleHost.handle i s = (h.config s).core.handle := by
      show (h.earlier s)[i]?.getD _ = _
      rw [List.getElem?_eq_none (Nat.le_of_not_lt hge), Option.getD_none]
    rw [hhandle]
    exact hp.use hs hu

theorem report (hp : h.Preserves may P) (hs : P s) (i bytes capacity : Nat) :
    P (h.handleHost.report i bytes capacity s) := by
  have huse : P (h.handleHost.modify i (·.report bytes capacity) s) :=
    hp.useHandle (u := .report bytes capacity) hs i nofun
  unfold HandleHost.report RecvHandle.resize?
  dsimp only
  split
  · exact huse
  · rename_i n hn
    refine hp.note huse ?_
    split at hn
    · cases hn
      exact trivial
    · cases hn

theorem reportPositive (hp : h.Preserves may P) (hs : P s) (i bytes capacity : Nat) :
    P (h.handleHost.reportPositive i bytes capacity s) := by
  unfold HandleHost.reportPositive
  split
  · exact hs
  · exact hp.report hs i bytes capacity

section Pass

variable {ρ : Type} {read : Nat → ρ → σ → ReadStep ρ σ}

theorem passFrom (hp : h.Preserves may P) (hs : P s)
    (hread : ∀ (capacity : Nat) (r : ρ) {s : σ}, P s → P (read capacity r s).world)
    (keepGoing : σ → Bool) (i done total : Nat) (r : ρ) :
    P (h.handleHost.passFrom keepGoing read i done total r s).world := by
  -- Every further read brings the count closer to the bound of all limits.
  induction hn : UInt32.size - done using Nat.strongRecOn generalizing done total r s with
  | ind n ih =>
    have hstep := hread (h.handleHost.handle i s).nextCapacity r hs
    rw [HandleHost.passFrom]
    dsimp only
    split
    · exact hstep
    · have hreport := fun bytes =>
        hp.reportPositive hstep i bytes (h.handleHost.handle i s).nextCapacity
      split
      case isTrue hc =>
        have hlt := RecvHandle.lt_of_shouldContinue (Bool.and_eq_true_iff.1 hc).2
        exact ih _ (by omega) (hreport _) _ _ _ rfl
      case isFalse => exact hreport _

theorem readPass (hp : h.Preserves may P) (hs : P s)
    (hread : ∀ (capacity : Nat) (r : ρ) {s : σ}, P s → P (read capacity r s).world) (r : ρ) :
    P (h.readPass read r s).world :=
  hp.passFrom (hp.useHandle (u := .reset) hs _ nofun) hread _ _ _ _ _

end Pass

/-! ## Layers -/

theorem storeSocket (hp : h.Preserves may P) (hs : P s) {i : Nat} {options : SocketOptions}
    (hi : (h.config s).layers[i]? = some (.socket options)) (o : SocketOption) (v : Value) :
    P (h.storeLayer i .socket (some (options.set o v)) s).2 := by
  cases hset : options.set o v with
  | error e => exact hs
  | ok options' => exact hp.socket hs hi hset

theorem setSocket (hp : h.Preserves may P) (hs : P s) (o : SocketOption) (v : Value) :
    P (h.setSocket (·.set o v) s).2 := by
  unfold Host.setSocket
  split
  · rename_i i options hi ho
    exact hp.storeSocket hs (Quiet.getElem?_of_socketSlot? hi ho) o v
  · exact hs

/-! ## The chain -/

section Chain

variable [OptionLayer κ]

/-- Any layer may be asked, save the core for the read limit. -/
theorem trySetAt (hp : h.Preserves may P) (hs : P s) {k : OptionKey} (v : Value) {slot : Slot}
    (hslot : slot = .core → ¬ k.IsLimit) : P (h.trySetAt k v slot s).2 := by
  cases slot with
  | core =>
    simp only [Host.trySetAt]
    split
    · exact hs
    · rename_i o ho
      refine hp.setCore hs ?_ v
      rintro rfl
      exact hslot rfl (CoreOption.isLimit_of_ofKey? ho)
  | layer i =>
    simp only [Host.trySetAt]
    split
    · exact hs
    · rename_i options hi
      unfold SocketOptions.trySet
      cases SocketOption.ofKey? k with
      | none => exact hs
      | some o => exact hp.storeSocket hs hi o v
    · rcases OptionLayer.trySet k v _ with _ | _ | layer
      · exact hs
      · exact hs
      · exact hp.custom layer hs
    · exact hp.trySetRegistry hs (.layer i) k v
  | registry => exact hp.trySetRegistry hs .registry k v

theorem setThrough (hp : h.Preserves may P) (hs : P s) {k : OptionKey} {v : Value}
    (hk : ¬ k.IsLimit) (hmay : may k v) (slots : List Slot) : P (h.setThrough k v slots s).2 := by
  induction slots generalizing s with
  | nil => exact hp.note hs trivial
  | cons slot rest ih =>
    have hslot := hp.trySetAt hs v (fun _ : slot = .core => hk)
    unfold Host.setThrough
    generalize h.trySetAt k v slot s = out at hslot ⊢
    obtain ⟨_ | _ | _, s'⟩ := out
    · exact ih hslot
    · exact hp.note hslot trivial
    · exact hp.noteSet _ hslot hk hmay

/-- The core is asked first, and for the read limit it has an answer. -/
theorem setLimit (hp : h.Preserves may P) (hs : P s) {k : OptionKey} {v : Value} (hk : k.IsLimit)
    (hmay : may k v) (rest : List Slot) : P (h.setThrough k v (.core :: rest) s).2 := by
  unfold Host.setThrough Host.trySetAt
  simp only [CoreOption.ofKey?_of_isLimit hk]
  cases v with
  | i32 n =>
    simp only [Host.setCore, Host.tryCore]
    cases hcore : (h.config s).core.withMaxMessages n with
    | error e => exact hp.note hs trivial
    | ok core => exact hp.limit hs hk hmay hcore
  | _ => exact hp.note hs trivial

theorem setOption (hp : h.Preserves may P) (hs : P s) {k : OptionKey} {v : Value}
    (hmay : may k v) : P (h.setOption k v s).2 := by
  by_cases hk : k.IsLimit
  · exact hp.setLimit hs hk hmay _
  · exact hp.setThrough hs hk hmay _

theorem setEntry (hp : h.Preserves may P) (hs : P s) {e : OptionKey × Value}
    (hmay : may e.1 e.2) : P (h.setEntry e s).2 := by
  have hset := hp.setOption hs hmay
  unfold Host.setEntry
  generalize h.setOption e.1 e.2 s = out at hset ⊢
  obtain ⟨_ | _ | _, s'⟩ := out <;> exact hset

theorem setEntries (hp : h.Preserves may P) (hs : P s) {entries : List (OptionKey × Value)}
    (hmay : ∀ e ∈ entries, may e.1 e.2) : P (h.setEntries entries s).2 := by
  induction entries generalizing s with
  | nil => exact hs
  | cons e rest ih =>
    obtain ⟨he, hrest⟩ := List.forall_mem_cons.1 hmay
    exact ih (hp.setEntry hs he) hrest

theorem trySetOptions (hp : h.Preserves may P) (hs : P s) {batch : OptionMap}
    (hmay : ∀ e ∈ batch.entries, may e.1 e.2) : P (h.trySetOptions batch s).2 := by
  have hmarks := hp.applyMarks hs batch
  have hrest : ∀ e ∈ (withoutMarks batch).entries, may e.1 e.2 :=
    fun e he => hmay e (mem_withoutMarks.1 he).1
  unfold Host.trySetOptions
  generalize h.applyMarks batch s = out at hmarks ⊢
  obtain ⟨_ | r, s'⟩ := out
  · exact hp.setEntries hmarks hrest
  · exact hp.setEntries (hp.note (n := .marksRejected _ _) hmarks trivial) hrest

theorem applyProfile (hp : h.Preserves may P) (hs : P s) {p : Profile}
    (hmay : ∀ e ∈ p.batch.entries, may e.1 e.2) : P (h.applyProfile p s).2 := by
  have hset : P (h.note (.profileApplied p.batch.size
      (p.rejections ++ (h.trySetOptions p.batch s).1).length) (h.trySetOptions p.batch s).2) :=
    hp.note (hp.trySetOptions hs hmay) trivial
  unfold Host.applyProfile
  dsimp only
  split
  · exact hset
  · exact hset

/-- A property that is preserved at every place where calls touch the world is preserved by every
routine call, save the setter of the read limit. -/
theorem perform (hp : h.Preserves may P) (hs : P s) {t : OptionTable} {call : Call t}
    (hcall : call.Routine) (hlimit : ¬ call.SetsLimit)
    (hmay : ∀ e ∈ call.writes, may e.1 e.2) : P (h.perform call s) := by
  cases call with
  | set o v =>
    refine hp.setCore hs ?_ v
    rintro rfl
    exact hlimit trivial
  | setSocket o v => exact hp.setSocket hs o v
  | setOption k v => exact hp.setOption hs (hmay (k.key, v) List.mem_cons_self)
  | trySetOptions batch known => exact hp.trySetOptions hs hmay
  | applyProfile p => exact hp.applyProfile hs hmay
  | gate call =>
    refine hp.performGate hs ?_
    intro n
    constructor <;> rintro rfl <;> exact hcall trivial
  | queueMessage m | flushMessage m => exact absurd trivial hcall
  | addAutoReadListener l => exact hcall.elim
  | reportRead bytes capacity => exact hp.report hs _ bytes capacity
  | readPass script =>
    refine hp.readPass hs ?_ script
    intro capacity r s hs
    rwa [Quiet.closure_world]
  | addWritabilityListener listener => exact hp.addWritabilityListener listener hs
  | declare d =>
    simp only [Host.perform]
    split
    · exact hp.declare hs _ _
    · exact hp.declareValidated hs _ _ _
  | write k v => exact hp.trySetRegistry hs .registry k.key v

end Chain

end Preserves

end Host

end FlowControl
