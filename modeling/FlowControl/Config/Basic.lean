import FlowControl.Config.Core
import FlowControl.Layer.Custom
import FlowControl.Layer.Socket
import FlowControl.Registry

/-!
# Configurations

A configuration is a chain of layers: the core, then the layers that were added when it was built,
and at the end the registry of declared options. Reading asks the layers from front to back and
takes the first answer; a snapshot lets them write from back to front, so that there, too, the
front layer has the last word.
-/

set_option autoImplicit false

namespace FlowControl

variable {κ : Type}

/-- A layer between the core and the registry: socket options, a registry of its own, or a layer
that the application defines. -/
inductive Layer (κ : Type) where
  | socket (options : SocketOptions)
  | registry (options : Registry)
  | custom (layer : κ)
deriving DecidableEq

structure Config (κ : Type) where
  core : Core
  layers : List (Layer κ)
  registry : Registry
deriving DecidableEq

inductive Slot where
  | core
  | layer (i : Nat)
  | registry
deriving DecidableEq, Repr

namespace Layer

variable [OptionLayer κ]

def name : Layer κ → String
  | .socket _ => "socket"
  | .registry _ => "registry"
  | .custom l => OptionLayer.name l

def tryGet (k : OptionKey) : Layer κ → Option Value
  | .socket o => o.tryGet k
  | .registry r => r.value? k
  | .custom l => OptionLayer.tryGet k l

def collect (m : OptionMap) : Layer κ → OptionMap
  | .socket o => o.collect m
  | .registry r => r.collect m
  | .custom l => OptionLayer.collect l m

def describe : Layer κ → String
  | .socket o => o.describe
  | .registry r => r.describe
  | .custom l => OptionLayer.describe l

def socketOptions? : Layer κ → Option SocketOptions
  | .socket o => some o
  | _ => none

def custom? : Layer κ → Option κ
  | .custom l => some l
  | _ => none

end Layer

namespace Config

def ofLayers (layers : List (Layer κ)) : Config κ := ⟨.standard, layers, .empty⟩

def standard : Config κ := ofLayers []

instance : Inhabited (Config κ) := ⟨standard⟩

/-- The places of the chain, from front to back. -/
def chain (c : Config κ) : List Slot :=
  .core :: (List.range c.layers.length).map .layer ++ [.registry]

def setLayer (i : Nat) (l : Layer κ) (c : Config κ) : Config κ :=
  { c with layers := c.layers.set i l }

variable [OptionLayer κ]

def layerName (c : Config κ) : Slot → String
  | .core => "core"
  | .layer i => (c.layers[i]?.map Layer.name).getD ""
  | .registry => "registry"

def tryGetAt (k : OptionKey) (c : Config κ) : Slot → Option Value
  | .core => c.core.tryGet k
  | .layer i => c.layers[i]?.bind (Layer.tryGet k)
  | .registry => c.registry.value? k

def collectAt (c : Config κ) (m : OptionMap) : Slot → OptionMap
  | .core => c.core.collect m
  | .layer i => match c.layers[i]? with
    | some l => l.collect m
    | none => m
  | .registry => c.registry.collect m

def tryGet (k : OptionKey) (c : Config κ) : Option Value := c.chain.findSome? (c.tryGetAt k)

/-- Read an option. It is an error if no layer claims it, and also if the layer that does holds a
value of another type. -/
def getOption (k : OptionKey) (c : Config κ) : Except ConfigError Value :=
  match c.tryGet k with
  | none => .error (.unsupportedOption k.name)
  | some v =>
    if v.type = k.type then .ok v
    else .error (.illegalArgument k.name ("stored value is not a `" ++ k.type.fullName ++ "`"))

/-- A snapshot of all options. Where layers overlap, the one nearer to the front wins. -/
def getOptions (c : Config κ) : OptionMap := c.chain.reverse.foldl c.collectAt .empty

def socketSlot? (c : Config κ) : Option Nat :=
  c.layers.findIdx? fun l => l.socketOptions?.isSome

def socketOptions? (c : Config κ) : Option SocketOptions :=
  c.layers.findSome? Layer.socketOptions?

/-- The place of the first registry in the chain. -/
def firstRegistry (c : Config κ) : Slot :=
  match c.layers.findIdx? (fun l => match l with | .registry _ => true | _ => false) with
  | some i => .layer i
  | none => .registry

def customSlot? (c : Config κ) : Option Nat := c.layers.findIdx? fun l => l.custom?.isSome

def custom? (c : Config κ) : Option κ := c.layers.findSome? Layer.custom?

def describe (c : Config κ) : String :=
  Text.record "ChannelConfig"
    [("core", c.core.describe), ("layers", Text.sequence (c.layers.map Layer.describe)),
      ("registry", c.registry.describe)]

end Config

end FlowControl
