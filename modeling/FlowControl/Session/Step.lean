import FlowControl.Config.Builder
import FlowControl.Gate.Session
import FlowControl.Layer.Audit
import FlowControl.Profile.Source
import FlowControl.Sizing.Session

/-!
# The steps of a client

What a client of channel configurations can do, written down as data. A step names options and
values as a client would write them: an option by name and type, which may still have to be
registered, and a value that may turn out not to exist, such as a pair of marks out of order.

Listeners, hooks and read closures are client code as well, so a step that installs one carries the
steps that it will run. How many steps a step contains is its `weight`.
-/

set_option autoImplicit false

namespace FlowControl

/-! ## Options and values as a client writes them -/

/-- An option by name and value type. -/
structure OptionRef where
  name : String
  type : ValueType
deriving DecidableEq, Repr

/-- An option by name alone: a built-in option has its own type, any other one is a number. -/
def OptionRef.ofName (name : String) : OptionRef :=
  ⟨name, ((OptionTable.initial.find? name).map (·.type)).getD .i32⟩

inductive StrategySpec where
  | standard
  | adaptive (minimum initial maximum : Nat)
  | fixed (capacity : Nat)
deriving DecidableEq, Repr

def StrategySpec.build : StrategySpec → Except ConfigError Strategy
  | .standard => .ok .standard
  | .adaptive minimum initial maximum => Strategy.ofBounds minimum initial maximum
  | .fixed capacity => Strategy.ofCapacity capacity

inductive ValueSpec where
  | value (v : Value)
  | marks (low high : UInt32)
  | sizing (s : StrategySpec)
deriving DecidableEq

def ValueSpec.build : ValueSpec → Except ConfigError Value
  | .value v => .ok v
  | .marks low high => (WaterMark.ofPair low high).map .waterMark
  | .sizing s => s.build.map .sizing

abbrev MapSpec := List (OptionRef × ValueSpec)

/-! ## Settings -/

inductive Setter where
  | connectTimeout (millis : Int32)
  | writeSpinCount (count : Int32)
  | maxMessages (limit : Int32)
  | autoRead (on : Bool)
  | highMark (high : UInt32)
  | lowMark (low : UInt32)
  | marks (low high : UInt32)
  | sizing (s : StrategySpec)
  | estimator (e : Estimator)

inductive SocketSetter where
  | tcpNoDelay (on : Bool)
  | keepAlive (on : Bool)
  | reuseAddress (on : Bool)
  | receiveBufferSize (size : Int32)
  | sendBufferSize (size : Int32)
  | linger (seconds : Int32)

/-- A kind of layer, by which the first layer of the kind is looked up. -/
inductive LayerKind where
  | core
  | socket
  | registry
  | custom
deriving DecidableEq, Repr

/-! ## Hooks -/

/-- A rule for values: a measure between two bounds, and some values that are denied. -/
structure ValueRule where
  minimum : Option Int
  maximum : Option Int
  denied : List Value
  /-- What a refusal says. -/
  reason : String

namespace ValueRule

/-- What the bounds are about: the number itself, or the length of a text in bytes. -/
def measure : Value → Int
  | .i32 n => n.toInt
  | .u32 n => n.toNat
  | .u64 n => n.toNat
  | .string s => s.utf8ByteSize
  | _ => 0

def verdict (r : ValueRule) (v : Value) : Option String :=
  if r.minimum.any (measure v < ·) || r.maximum.any (· < measure v) || r.denied.contains v then
    some r.reason
  else none

end ValueRule

/-- A hook of a declared option: its verdict, and the steps it runs before giving it, call by
call. -/
structure Hook (α : Type) where
  verdict : Value → Option String
  script : List (List α)

/-! ## Steps -/

inductive Step where
  | use (i : Nat)
  | set (s : Setter)
  /-- The same setter, on the core settings themselves. -/
  | setCore (s : Setter)
  | get (o : OptionRef)
  | setOption (o : OptionRef) (v : ValueSpec)
  | setOptions (batch : MapSpec)
  | trySetOptions (batch : MapSpec)
  | getOptions
  /-- Keep a snapshot of all options. -/
  | save
  | showSaved (i : Nat)
  | applySaved (i : Nat)
  | applyProfile (p : ProfileSource)
  | gate (c : GateCall)
  /-- Register a listener with the gate itself. -/
  | gateListener (label : String) (reactions : List (Reaction Step))
  | queue (bytes : UInt64)
  | flush (bytes : UInt64)
  | queueMessage (m : Message)
  | flushMessage (m : Message)
  | onWritable (label : String) (reactions : List (Reaction Step))
  | onAutoRead (label : String) (reactions : List (Reaction Step))
  | read (bytes capacity : Nat)
  | mayContinue (done bytes : Nat)
  | pass (script : List (ScriptedRead Step))
  /-- Work on the receive handle itself. -/
  | handle (s : SizingStep)
  | declare (o : OptionRef) (v : ValueSpec)
  | declareValidated (o : OptionRef) (v : ValueSpec) (hook : Hook Step)
  | isDeclared (o : OptionRef)
  | registryGet (o : OptionRef)
  | registrySet (o : OptionRef) (v : ValueSpec)
  | layer (kind : LayerKind)
  | layerSet (kind : LayerKind) (o : OptionRef) (v : ValueSpec)
  | layerGet (kind : LayerKind) (o : OptionRef)
  | layerCollect (kind : LayerKind)
  | auditWrites
  | socket (s : SocketSetter)
  | describe

mutual

/-- How many steps a step contains, itself included. -/
def Step.weight : Step → Nat
  | .gateListener _ reactions => 1 + Step.pendingWeight reactions
  | .onWritable _ reactions => 1 + Step.pendingWeight reactions
  | .onAutoRead _ reactions => 1 + Step.pendingWeight reactions
  | .pass script => 1 + Step.readsWeight script
  | .declareValidated _ _ ⟨_, script⟩ => 1 + Step.scriptWeight script
  | _ => 1

def Step.pendingWeight : List (Reaction Step) → Nat
  | [] => 0
  | ⟨_, steps⟩ :: rest => Step.listWeight steps + Step.pendingWeight rest

def Step.readsWeight : List (ScriptedRead Step) → Nat
  | [] => 0
  | ⟨before, _⟩ :: rest => Step.listWeight before + Step.readsWeight rest

def Step.scriptWeight : List (List Step) → Nat
  | [] => 0
  | steps :: rest => Step.listWeight steps + Step.scriptWeight rest

def Step.listWeight : List Step → Nat
  | [] => 0
  | step :: rest => step.weight + Step.listWeight rest

end

inductive Outcome where
  | done
  /-- There is nothing that could answer. -/
  | absent
  | failed (error : ConfigError)
  | flag (b : Bool)
  | bytes (n : UInt64)
  | value (v : Value)
  | typed (v : Value)
  | typedList (vs : List Value)
  | map (m : OptionMap)
  | rejections (rs : List Rejection)
  | passed (report : PassReport)
  | gate (o : GateOutcome)
  | sizing (o : SizingOutcome)
  /-- The name of a layer, and whether it has socket options. -/
  | layer (name : String) (hasSocketOptions : Bool)
  | text (s : String)

/-! ## Builders as a client writes them -/

inductive LayerSpec where
  | socket
  | registry
  | audit (o : OptionRef) (anyType collects rejects : Bool)

/-- The settings of a builder, of which some may turn out not to exist. -/
structure BuilderSpec where
  autoRead : Option Bool := none
  estimator : Option Estimator := none
  layers : List LayerSpec := []
  maxMessages : Option Int32 := none
  sizing : Option StrategySpec := none
  writeSpinCount : Option Int32 := none
  connectTimeout : Option Int32 := none
  marks : Option (UInt32 × UInt32) := none

namespace BuilderSpec

/-- The layers, with the options of audit layers looked up in the table one after the other. -/
def makeLayers : List LayerSpec → OptionTable →
    Except ConfigError (List (Layer AuditLayer)) × OptionTable
  | [], t => (.ok [], t)
  | spec :: rest, t =>
    match spec with
    | .socket => consLayer (.socket .standard) (makeLayers rest t)
    | .registry => consLayer (.registry .empty) (makeLayers rest t)
    | .audit o anyType collects rejects =>
      let answer := t.valueOf o.name o.type
      match answer.key with
      | .error e => (.error e, answer.table)
      | .ok key =>
        consLayer (.custom ⟨key, anyType, collects, rejects, []⟩) (makeLayers rest answer.table)
where
  consLayer (l : Layer AuditLayer)
      (out : Except ConfigError (List (Layer AuditLayer)) × OptionTable) :
      Except ConfigError (List (Layer AuditLayer)) × OptionTable :=
    (out.1.map (l :: ·), out.2)

/-- The builder. Its layers are made first, then the strategy and the marks; the first part that
cannot be made is the error. -/
def make (spec : BuilderSpec) (t : OptionTable) :
    Except ConfigError (Builder AuditLayer) × OptionTable :=
  let layers := makeLayers spec.layers t
  (do
    let layers ← layers.1
    let strategy ← spec.sizing.mapM StrategySpec.build
    let marks ← spec.marks.mapM fun m => WaterMark.ofPair m.1 m.2
    return {
      connectTimeout := spec.connectTimeout
      writeSpinCount := spec.writeSpinCount
      maxMessages := spec.maxMessages
      autoRead := spec.autoRead
      marks, strategy
      estimator := spec.estimator
      layers },
    layers.2)

end BuilderSpec

end FlowControl
