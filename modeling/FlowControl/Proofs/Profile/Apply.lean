import FlowControl.Proofs.Config.Accepted
import FlowControl.Proofs.Config.Inert
import FlowControl.Proofs.Profile.Effect

/-!
# Applying a profile

A profile goes through two stages: its batch is built, which may fail for the marks and for the
strategy, and then the batch is applied, which may refuse further settings. Neither stage lets one
setting hold back another, so all that is left to see of the stages is the order in which their
refusals come. `Quiet.applyProfile_over` says what comes of it in terms of the settings alone.

The marks are the one setting that the second stage treats on its own. It has nothing to refuse
there: a pair that was built is in order, and a profile has no single mark to put beside it.
-/

set_option autoImplicit false

namespace FlowControl

/-! ## The option of a key -/

theorem CoreOption.ofKey?_key (o : CoreOption) : ofKey? o.key = some o := by cases o <;> rfl

theorem SocketOption.ofKey?_key (o : SocketOption) : ofKey? o.key = some o := by cases o <;> rfl

theorem CoreOption.ofKey?_socket (o : SocketOption) : ofKey? o.key = none := by cases o <;> rfl

theorem CoreOption.same_key (o o' : CoreOption) : o'.key.same o.key = decide (o' = o) := by
  cases o' <;> cases o <;> rfl

theorem CoreOption.mem_all (o : CoreOption) : o ∈ all := by cases o <;> decide

/-! ## One entry -/

/-- The refusal of an option, by what storing its value came to. -/
def refusalOf {α : Type} (k : OptionKey) : Except ConfigError α → Option Rejection
  | .ok _ => none
  | .error e => some ⟨k, e⟩

/-- What is there after a value was to be stored in place of `old`. -/
def leftBy {α : Type} (old : α) : Except ConfigError α → α
  | .ok new => new
  | .error _ => old

namespace Config

section Core

variable {κ : Type} [OptionLayer κ] {verdict : Nat → Value → Option String} {c : Config κ}
  {v : Value}

/-- The core is asked first, and it claims its options. -/
theorem store_core (o : CoreOption) : c.store verdict o.key v
    = some ((c.core.store o v).map fun core => { c with core }) := by
  rw [store, findSome?_chain, storeAt, CoreOption.ofKey?_key, Option.map_some, Option.some_or]

theorem refusal_core (o : CoreOption) :
    c.refusal verdict (o.key, v) = refusalOf o.key (c.core.store o v) := by
  rw [refusal, store_core]
  cases c.core.store o v <;> rfl

theorem after_core (o : CoreOption) :
    c.after verdict (o.key, v) = { c with core := leftBy c.core (c.core.store o v) } := by
  rw [after, store_core]
  cases c.core.store o v <;> rfl

end Core

variable {verdict : Nat → Value → Option String} {c : Config Empty} {v : Value}

theorem store_socket {options : SocketOptions} {rest : List (Layer Empty)}
    (h : c.layers = .socket options :: rest) (o : SocketOption) : c.store verdict o.key v
      = some ((options.set o v).map fun options =>
          { c with layers := .socket options :: rest }) := by
  have hfirst : c.storeAt verdict o.key v (.layer 0)
      = some ((options.set o v).map fun options =>
          { c with layers := .socket options :: rest }) := by
    simp only [storeAt, h, List.getElem?_cons_zero, Option.bind_some, Layer.store,
      SocketOptions.trySet, SocketOption.ofKey?_key, Option.map_some, setLayer, List.set_cons_zero]
    cases options.set o v <;> rfl
  have hcore : c.storeAt verdict o.key v .core = none := by
    rw [storeAt, CoreOption.ofKey?_socket, Option.map_none]
  rw [store, findSome?_chain, hcore, h, List.length_cons, List.range_succ_eq_map,
    List.findSome?_cons, hfirst, Option.none_or, Option.some_or]

theorem store_of_no_layers (h : c.layers = []) {o : SocketOption}
    (hown : ¬ c.registry.contains o.key) : c.store verdict o.key v = none := by
  have hcore : c.storeAt verdict o.key v .core = none := by
    rw [storeAt, CoreOption.ofKey?_socket, Option.map_none]
  have hregistry : c.storeAt verdict o.key v .registry = none := by
    have hfind : c.registry.find? o.key = none := by simpa [Registry.contains] using hown
    rw [storeAt, Registry.write, hfind, Option.map_none, Option.map_none]
  rw [store, findSome?_chain, hcore, hregistry, h]
  rfl

theorem refusal_socket {options : SocketOptions} {rest : List (Layer Empty)}
    (h : c.layers = .socket options :: rest) (o : SocketOption) :
    c.refusal verdict (o.key, v) = refusalOf o.key (options.set o v) := by
  rw [refusal, store_socket h]
  cases options.set o v <;> rfl

theorem after_socket {options : SocketOptions} {rest : List (Layer Empty)}
    (h : c.layers = .socket options :: rest) (o : SocketOption) : c.after verdict (o.key, v)
      = { c with layers := .socket (leftBy options (options.set o v)) :: rest } := by
  rw [after, store_socket h]
  cases options.set o v with
  | ok options => rfl
  | error e =>
    cases c
    cases h
    rfl

end Config

/-! ## The entries of the batch -/

section Effect

variable {κ : Type} [OptionLayer κ] {verdict : Nat → Value → Option String} {c : Config κ}
  {α : Type} {store : Value → Except ConfigError α} {old new : α} {v? : Option Value}
  {e? : Option ConfigError} {k : OptionKey}

/-- A setting is refused for its fault. -/
theorem Effect.refusal (h : Effect store old v? e? new)
    (hrefusal : ∀ v, c.refusal verdict (k, v) = refusalOf k (store v)) :
    (v?.bind fun v => c.refusal verdict (k, v)) = e?.map fun e => ⟨k, e⟩ := by
  cases h with
  | absent => rfl
  | stored h => rw [Option.bind_some, hrefusal, h]; rfl
  | refused h => rw [Option.bind_some, hrefusal, h]; rfl

/-- Its entry in a batch, if it has one, puts the new value in the place of the old one. -/
theorem Effect.after (verdict : Nat → Value → Option String)
    (h : Effect store old v? e? new) (place : α → Config κ)
    (hplace : place old = c)
    (hafter : ∀ v, c.after verdict (k, v) = place (leftBy old (store v))) :
    ((v?.map fun v => (k, v)).toList).foldl (Config.after verdict) c = place new := by
  cases h with
  | absent => exact hplace.symm
  | stored h => rw [Option.map_some, Option.toList_some, List.foldl_cons, hafter, h]; rfl
  | refused h => rw [Option.map_some, Option.toList_some, List.foldl_cons, hafter, h]; rfl

end Effect

section Entries

variable {verdict : Nat → Value → Option String} {c : Config Empty}

theorem filterMap_valued {ι : Type} (key : ι → OptionKey) (value? : ι → Option Value) (os : List ι)
    (f : OptionKey × Value → Option Rejection) : (valued key value? os).filterMap f
      = os.filterMap fun o => (value? o).bind fun v => f (key o, v) := by
  rw [valued, List.filterMap_filterMap]
  refine List.filterMap_congr ?_
  intro o _
  cases value? o <;> rfl

theorem Profile.refusal_core (p : Profile) (o : CoreOption) :
    ((p.coreValue? o).bind fun v => c.refusal verdict (o.key, v))
      = (p.coreFault o).map fun e => ⟨o.key, e⟩ :=
  (p.core_effect c.core o).refusal fun _ => Config.refusal_core o

theorem Profile.foldl_after_core (p : Profile) (os : List CoreOption) (c : Config Empty) :
    (valued CoreOption.key p.coreValue? os).foldl (Config.after verdict) c
      = { c with core := os.foldl p.overOption c.core } := by
  induction os generalizing c with
  | nil => rfl
  | cons o rest ih =>
    have hfirst := (p.core_effect c.core o).after verdict (fun core => { c with core }) rfl
      fun _ => Config.after_core o
    rw [valued, filterMap_cons_toList, List.foldl_append, List.foldl_cons, hfirst]
    exact ih _

variable {options : SocketOptions} {rest : List (Layer Empty)}

theorem SocketSection.refusal_socket (s : SocketSection) (h : c.layers = .socket options :: rest)
    (o : SocketOption) : ((s.value? o).bind fun v => c.refusal verdict (o.key, v))
      = (s.fault o).map fun e => ⟨o.key, e⟩ :=
  (s.effect options o).refusal fun _ => Config.refusal_socket h o

theorem SocketSection.foldl_after_socket (s : SocketSection) (os : List SocketOption)
    (h : c.layers = .socket options :: rest) :
    (valued SocketOption.key s.value? os).foldl (Config.after verdict) c
      = { c with layers := .socket (os.foldl s.overOption options) :: rest } := by
  induction os generalizing c options with
  | nil =>
    cases c
    cases h
    rfl
  | cons o os ih =>
    have hfirst := (s.effect options o).after verdict
      (fun options => { c with layers := .socket options :: rest }) (h ▸ rfl)
      fun _ => Config.after_socket h o
    rw [valued, filterMap_cons_toList, List.foldl_append, List.foldl_cons, hfirst]
    exact ih rfl

end Entries

namespace Profile

variable (p : Profile) {verdict : Nat → Value → Option String} {c : Config Empty}

/-- Without a layer of socket options nothing claims the socket settings. -/
theorem socket_outcome_of_no_layers (hl : c.layers = [])
    (hown : ∀ o : SocketOption, ¬ c.registry.contains o.key) :
    (valued SocketOption.key p.socketValue? SocketOption.all).filterMap (c.refusal verdict)
        = (SocketOption.all.map Setting.socket).filterMap (p.refusal? false)
      ∧ (valued SocketOption.key p.socketValue? SocketOption.all).foldl (Config.after verdict) c
        = c := by
  have hstore : ∀ o v, c.store verdict (SocketOption.key o) v = none :=
    fun o _ => Config.store_of_no_layers hl (hown o)
  constructor
  · rw [filterMap_valued, List.filterMap_map]
    refine List.filterMap_congr ?_
    intro o _
    simp only [Function.comp_apply, refusal?, fault, Setting.key]
    cases p.socketValue? o with
    | none => rfl
    | some v =>
      rw [Option.bind_some, Config.refusal, hstore]
      rfl
  · have hafter : ∀ e ∈ valued SocketOption.key p.socketValue? SocketOption.all,
        c.after verdict e = c := by
      intro e he
      obtain ⟨o, -, ho⟩ := List.mem_filterMap.1 he
      obtain ⟨v, -, rfl⟩ := Option.map_eq_some_iff.1 ho
      rw [Config.after, hstore]
    generalize valued SocketOption.key p.socketValue? SocketOption.all = es at hafter
    induction es with
    | nil => rfl
    | cons e rest ih =>
      rw [List.foldl_cons, hafter e List.mem_cons_self]
      exact ih fun e' he' => hafter e' (List.mem_cons_of_mem _ he')

/-- With one, the first such layer judges them. -/
theorem socket_outcome_of_layer {options : SocketOptions} {rest : List (Layer Empty)}
    (hl : c.layers = .socket options :: rest) :
    (valued SocketOption.key p.socketValue? SocketOption.all).filterMap (c.refusal verdict)
        = (SocketOption.all.map Setting.socket).filterMap (p.refusal? true)
      ∧ (valued SocketOption.key p.socketValue? SocketOption.all).foldl (Config.after verdict) c
        = { c with layers := (p.overConfig c).layers } := by
  cases hs : p.socket with
  | none =>
    have hvalue : p.socketValue? = fun _ => none := by
      funext o
      rw [socketValue?, hs, Option.bind_none]
    have hover : (p.overConfig c).layers = c.layers := by simp only [overConfig, hl, hs]
    have hnone : valued SocketOption.key p.socketValue? SocketOption.all = [] := by
      rw [hvalue]
      rfl
    rw [hnone, hover]
    refine ⟨?_, rfl⟩
    simp only [List.filterMap_nil, List.filterMap_map]
    refine (List.filterMap_eq_nil_iff.2 ?_).symm
    intro o _
    simp only [Function.comp_apply, refusal?, fault, hs]
    rfl
  | some s =>
    have hvalue : p.socketValue? = s.value? := by
      funext o
      rw [socketValue?, hs, Option.bind_some]
    have hover : (p.overConfig c).layers = .socket (s.overOptions options) :: rest := by
      simp only [overConfig, hl, hs]
    rw [hvalue, s.foldl_after_socket _ hl, s.overOptions_eq, hover]
    refine ⟨?_, rfl⟩
    rw [filterMap_valued, List.filterMap_map]
    refine List.filterMap_congr ?_
    intro o _
    rw [s.refusal_socket hl o]
    simp only [Function.comp_apply, refusal?, fault, hs, if_true, Option.bind_some, Setting.key]

/-- The socket settings are judged by the first layer, if there is one. -/
theorem socket_outcome (verdict : Nat → Value → Option String) (hsockets : c.OnlySockets)
    (hown : ∀ o : SocketOption, ¬ c.registry.contains o.key) :
    (valued SocketOption.key p.socketValue? SocketOption.all).filterMap (c.refusal verdict)
        = (SocketOption.all.map Setting.socket).filterMap (p.refusal? c.socketOptions?.isSome)
      ∧ (valued SocketOption.key p.socketValue? SocketOption.all).foldl (Config.after verdict) c
        = { c with layers := (p.overConfig c).layers } := by
  cases hl : c.layers with
  | nil =>
    have hsome : c.socketOptions?.isSome = false := by
      rw [Config.socketOptions?, hl]
      rfl
    have hover : (p.overConfig c).layers = c.layers := by simp only [overConfig, hl]
    rw [hsome, hover]
    exact p.socket_outcome_of_no_layers hl hown
  | cons l rest =>
    obtain ⟨options, rfl⟩ := hsockets l (by rw [hl]; exact List.mem_cons_self)
    have hsome : c.socketOptions?.isSome = true := by
      rw [Config.socketOptions?, hl]
      rfl
    rw [hsome]
    exact p.socket_outcome_of_layer hl

/-! ## The marks -/

end Profile

/-- A batch that has a pair of marks, or none, and no single mark, asks for that pair. -/
theorem Host.markRequest_pair {batch : OptionMap} {marks? : Option WaterMark}
    (hmarks : batch.find? CoreOption.marks.key = marks?.map .waterMark)
    (hhigh : batch.find? CoreOption.highMark.key = none)
    (hlow : batch.find? CoreOption.lowMark.key = none) : Host.markRequest batch
      = .ok (marks?.map fun m => ⟨some m.low, some m.high, CoreOption.marks.key⟩) := by
  unfold Host.markRequest Host.typedEntry
  rw [hmarks, hhigh, hlow]
  cases marks? <;> rfl

/-- A pair is in order, so there is nothing to refuse. -/
theorem Quiet.applyMarks_pair {κ : Type} (verdict : Nat → Value → Option String)
    {batch : OptionMap} {marks? : Option WaterMark}
    (hrequest : Host.markRequest batch
      = .ok (marks?.map fun m => ⟨some m.low, some m.high, CoreOption.marks.key⟩))
    (s : Quiet κ) :
    ((Quiet.host verdict).applyMarks batch s).1 = none
      ∧ ((Quiet.host verdict).applyMarks batch s).2.config
        = { s.config with
            core := (marks?.map (Core.store.remark s.config.core)).getD s.config.core } := by
  unfold Host.applyMarks
  rw [hrequest]
  cases marks? with
  | none => exact ⟨rfl, rfl⟩
  | some marks =>
    have hpair : s.config.core.gate.marks.merge (some marks.low) (some marks.high) = .ok marks :=
      WaterMark.ofPair_self marks
    have hgate : (Quiet.host verdict).gateHost.gate s = s.config.core.gate := rfl
    simp only [Option.map_some, GateHost.update, hgate, hpair]
    exact ⟨trivial, Quiet.setMarks_config verdict marks s⟩

namespace Profile

variable (p : Profile)

theorem find?_batch (o : CoreOption) : p.batch.find? o.key = p.coreValue? o := by
  have hsocket : (valued SocketOption.key p.socketValue? SocketOption.all).find?
      (fun e => e.1.same o.key) = none := by
    refine List.find?_eq_none.2 fun e he => ?_
    obtain ⟨o', -, ho'⟩ := List.mem_filterMap.1 he
    obtain ⟨v', -, rfl⟩ := Option.map_eq_some_iff.1 ho'
    have hne : o'.key.same o.key = false := by cases o' <;> cases o <;> rfl
    simp [hne]
  rw [OptionMap.find?, batch_entries, entries_eq, List.find?_append, hsocket, Option.or_none,
    find?_valued (CoreOption.same_key o), if_pos (CoreOption.mem_all o)]

/-- The batch asks for the pair of marks that was built, and blames no single mark. -/
theorem markRequest_batch : Host.markRequest p.batch
    = .ok (p.newMarks?.map fun m => ⟨some m.low, some m.high, CoreOption.marks.key⟩) :=
  Host.markRequest_pair (p.find?_batch .marks) (p.find?_batch .highMark) (p.find?_batch .lowMark)

theorem applyMarks_batch (verdict : Nat → Value → Option String) (s : Quiet Empty) :
    ((Quiet.host verdict).applyMarks p.batch s).1 = none
      ∧ ((Quiet.host verdict).applyMarks p.batch s).2.config
        = s.config.withGate (p.overOption s.config.core .marks).gate := by
  obtain ⟨hnone, hconfig⟩ := Quiet.applyMarks_pair verdict p.markRequest_batch s
  refine ⟨hnone, hconfig.trans ?_⟩
  simp only [overOption]
  cases p.newMarks? <;> rfl

theorem filter_valued {ι : Type} (key : ι → OptionKey) (value? : ι → Option Value) (os : List ι) :
    (valued key value? os).filter (fun e => !decide e.1.IsMark)
      = valued key value? (os.filter fun o => !decide (key o).IsMark) := by
  rw [valued, valued, List.filter_filterMap, List.filterMap_filter]
  refine List.filterMap_congr ?_
  intro o _
  cases value? o with
  | none => simp
  | some v => simp [Option.filter_some]

theorem withoutMarks_batch : (Host.withoutMarks p.batch).entries
    = valued CoreOption.key p.coreValue?
        [.connectTimeout, .maxMessages, .writeSpinCount, .autoRead, .sizing, .estimator]
      ++ valued SocketOption.key p.socketValue? SocketOption.all := by
  rw [Host.withoutMarks_entries, batch_entries, entries_eq, List.filter_append, filter_valued,
    filter_valued]
  rfl

end Profile

/-! ## The result -/

/-- The answer that a list of refusals stands for: the error of the first one, if there is one. -/
def firstError : List Rejection → Except ConfigError Unit
  | [] => .ok ()
  | r :: _ => .error r.error

theorem firstError_filterMap {ι : Type} (key : ι → OptionKey) (fault : ι → Option ConfigError)
    (all : List ι) : firstError (all.filterMap fun x => (fault x).map fun e => ⟨key x, e⟩)
      = match all.findSome? fault with
        | none => .ok ()
        | some e => .error e := by
  induction all with
  | nil => rfl
  | cons x rest ih =>
    rw [filterMap_cons_toList, List.findSome?_cons]
    cases fault x with
    | none => exact ih
    | some e => rfl

namespace Quiet

variable {verdict : Nat → Value → Option String} {s : Quiet Empty}

/-- Applying a profile is applying its batch, and answering with the first refusal. -/
theorem applyProfile_eq (verdict : Nat → Value → Option String) (p : Profile) (s : Quiet Empty) :
    let out := (host verdict).applyProfile p s
    let batch := (host verdict).trySetOptions p.batch s
    out.1 = firstError (p.rejections ++ batch.1) ∧ out.2.config = batch.2.config
      ∧ out.2.calls = batch.2.calls := by
  unfold Host.applyProfile
  generalize (host verdict).trySetOptions p.batch s = batch
  dsimp only
  generalize p.rejections ++ batch.1 = rejected
  cases rejected <;> exact ⟨rfl, rfl, rfl⟩

/-- What the batch of a profile comes to. -/
theorem trySetOptions_batch (verdict : Nat → Value → Option String) (p : Profile) {s : Quiet Empty}
    (hsockets : s.config.OnlySockets)
    (hown : ∀ k ∈ OptionKey.builtIns, ¬ s.config.registry.contains k) :
    let batch := (host verdict).trySetOptions p.batch s
    batch.1 = Profile.Setting.others.filterMap (p.refusal? s.config.socketOptions?.isSome)
      ∧ batch.2.config = p.overConfig s.config := by
  intro batch
  obtain ⟨hmarks, hgate⟩ := p.applyMarks_batch verdict s
  obtain ⟨hrefused, hconfig⟩ :=
    trySetOptions_config (Profile.listed_batch OptionTable.coherent_initial p) hmarks hgate
  have hown' : ∀ o : SocketOption, ¬ s.config.registry.contains o.key :=
    fun o => hown o.key o.key_mem_builtIns
  rw [p.withoutMarks_batch] at hrefused hconfig
  constructor
  · have hcore : (fun o => (p.coreValue? o).bind fun v => s.config.refusal verdict (o.key, v))
        = fun o => (p.coreFault o).map fun e => ⟨o.key, e⟩ := funext fun o => p.refusal_core o
    rw [hrefused, List.filterMap_append, (p.socket_outcome verdict hsockets hown').1,
      filterMap_valued, hcore, Profile.Setting.others, List.filterMap_append]
    simp only [filterMap_cons_toList, List.filterMap_nil]
    rfl
  · rw [hconfig, List.foldl_append, p.foldl_after_core]
    generalize hos : [CoreOption.connectTimeout, .maxMessages, .writeSpinCount, .autoRead, .sizing,
      .estimator].foldl p.overOption s.config.core = core
    have hsockets' : Config.OnlySockets { s.config with core } := hsockets
    rw [(p.socket_outcome verdict hsockets' hown').2]
    have hover := p.overCore_eq s.config.core
    rw [hos] at hover
    exact congrArg
      (fun core => (⟨core, (p.overConfig s.config).layers, s.config.registry⟩ : Config Empty))
      hover

/-- A profile is applied setting by setting: those that are present and valid are in effect, and
everything else is as it was. The answer is the first fault, in the order of `Setting.order`. As a
batch the profile is applied in the same way, except that it is none if a section cannot be
built. -/
theorem applyProfile_over (verdict : Nat → Value → Option String) (p : Profile) {s : Quiet Empty}
    (hsockets : s.config.OnlySockets)
    (hown : ∀ k ∈ OptionKey.builtIns, ¬ s.config.registry.contains k) :
    let out := (host verdict).applyProfile p s
    out.2.config = p.overConfig s.config
      ∧ (out.1 = match Profile.Setting.order.findSome? (p.fault s.config.socketOptions?.isSome) with
          | none => .ok ()
          | some e => .error e)
      ∧ (∀ e, p.toOptionMap = .error e → out.1 = .error e)
      ∧ (∀ batch, p.toOptionMap = .ok batch →
          out.1 = firstError ((host verdict).trySetOptions batch s).1
          ∧ out.2.config = ((host verdict).trySetOptions batch s).2.config
          ∧ out.2.calls = ((host verdict).trySetOptions batch s).2.calls) := by
  intro out
  obtain ⟨hanswer, hconfig, hcalls⟩ := applyProfile_eq verdict p s
  obtain ⟨hrefused, hover⟩ := trySetOptions_batch verdict p hsockets hown
  refine ⟨hconfig.trans hover, ?_, ?_, ?_⟩
  · rw [← firstError_filterMap Profile.Setting.key]
    rw [hrefused, p.rejections_eq s.config.socketOptions?.isSome, ← List.filterMap_append]
      at hanswer
    exact hanswer
  · intro e he
    unfold Profile.toOptionMap at he
    cases hrejections : p.rejections with
    | nil =>
      rw [hrejections] at he
      cases he
    | cons r rest =>
      rw [hrejections] at he hanswer
      cases he
      exact hanswer
  · intro batch hbatch
    unfold Profile.toOptionMap at hbatch
    cases hrejections : p.rejections with
    | nil =>
      rw [hrejections] at hbatch hanswer
      cases hbatch
      exact ⟨hanswer, hconfig, hcalls⟩
    | cons r rest =>
      rw [hrejections] at hbatch
      cases hbatch

/-- Marks out of order, a count of zero and a buffer size of zero beside settings that are valid:
the marks are blamed, although their section comes later than the count. -/
theorem applyProfile_over_mixed :
    let p : Profile :=
      { maxMessages := some 7, writeSpinCount := some 0, autoRead := some false,
        marks := some ⟨10, 5⟩, sizing := some (.fixed 512),
        socket := some { tcpNoDelay := some false, receiveBufferSize := some 0 } }
    let s : Quiet Empty := ofConfig (.ofLayers [.socket .standard])
    let out := (host fun _ _ => none).applyProfile p s
    s.config.OnlySockets ∧ (∀ k ∈ OptionKey.builtIns, ¬ s.config.registry.contains k)
      ∧ out.2.config = p.overConfig s.config ∧ out.1 = .error (.waterMarkOrder 10 5)
      ∧ out.2.config.core.handle = ⟨.fixed 512, ⟨7, 0, 0⟩⟩ ∧ out.2.config.core.handle.limit = 7
      ∧ out.2.config.core.writeSpinCount = 16 ∧ out.2.config.core.gate = s.config.core.gate
      ∧ out.2.config.layers = [.socket { SocketOptions.standard with tcpNoDelay := false }] := by
  intro p s out
  have hsockets : s.config.OnlySockets := by
    intro l hl
    exact ⟨_, List.mem_singleton.1 hl⟩
  have hown : ∀ k ∈ OptionKey.builtIns, ¬ s.config.registry.contains k := by decide
  obtain ⟨hconfig, hanswer, -, -⟩ := applyProfile_over (fun _ _ => none) p hsockets hown
  refine ⟨hsockets, hown, hconfig, hanswer.trans (by decide), ?_, ?_, ?_, ?_, ?_⟩
  · rw [hconfig]; rfl
  · rw [hconfig]; rfl
  · rw [hconfig]; rfl
  · rw [hconfig]; rfl
  · rw [hconfig]; decide

end Quiet

end FlowControl
