import FlowControl.Config.Quiet

/-!
# Building a configuration

A builder collects the settings that a configuration shall start with. Nothing is judged before the
configuration is built; then the settings are applied to a fresh configuration, the strategy first,
and the first one that is refused is the error.
-/

set_option autoImplicit false

namespace FlowControl

structure Builder (κ : Type) where
  connectTimeout : Option Int32 := none
  writeSpinCount : Option Int32 := none
  maxMessages : Option Int32 := none
  autoRead : Option Bool := none
  marks : Option WaterMark := none
  strategy : Option Strategy := none
  estimator : Option Estimator := none
  /-- Layers between the core and the registry, from front to back. -/
  layers : List (Layer κ) := []

namespace Builder

variable {κ : Type}

instance : Inhabited (Builder κ) := ⟨{}⟩

/-- The world of a configuration under construction: nobody listens and nothing is declared. -/
def host : Host κ (Quiet κ) := Quiet.host fun _ _ => none

def applying {α : Type} (value : Option α) (f : α → Quiet κ → Quiet κ) (s : Quiet κ) : Quiet κ :=
  match value with
  | none => s
  | some a => f a s

def trying {α : Type} (value : Option α) (f : α → Core → Except ConfigError Core) (s : Quiet κ) :
    Except ConfigError (Quiet κ) :=
  match value with
  | none => .ok s
  | some a =>
    match host.tryCore (f a) s with
    | (.ok (), s) => .ok s
    | (.error e, _) => .error e

def build (b : Builder κ) : Except ConfigError (Config κ) := do
  let s := Quiet.ofConfig (Config.ofLayers b.layers)
  let s := applying b.strategy host.setStrategy s
  let s ← trying b.connectTimeout Core.withConnectTimeout s
  let s ← trying b.writeSpinCount Core.withWriteSpinCount s
  let s ← trying b.maxMessages Core.withMaxMessages s
  let s := applying b.autoRead host.setAutoRead s
  let s := applying b.marks host.gateHost.setMarks s
  let s := applying b.estimator (fun e => host.modifyCore (·.withEstimator e)) s
  return s.config

/-- The description for diagnostics, which leaves out strategy and estimator. -/
def describe [OptionLayer κ] (b : Builder κ) : String :=
  Text.openRecord "ChannelConfigBuilder"
    [("connect_timeout_millis", count b.connectTimeout),
      ("write_spin_count", count b.writeSpinCount),
      ("max_messages_per_read", count b.maxMessages),
      ("auto_read", Text.optional (b.autoRead.map Text.flag)),
      ("water_mark", Text.optional (b.marks.map WaterMark.describe)),
      ("layers", Text.sequence (b.layers.map Layer.describe))]
where
  count (n : Option Int32) : String := Text.optional (n.map fun n => toString n.toInt)

end Builder

end FlowControl
