import FlowControl.Option.Map

/-!
# Layers of one's own

A configuration is a chain of layers, and the first layer that claims an option decides about it.
Between the built-in layers an application can put layers of its own. This class is what the chain
asks of them. That a refused write leaves a layer as it was is part of the type: a refusal carries
no new state.
-/

set_option autoImplicit false

namespace FlowControl

/-- A type of layers that an application defines. -/
class OptionLayer (κ : Type) where
  name : κ → String
  /-- Write an option: `none` if the layer does not claim it, else a refusal or the layer after
  the write. -/
  trySet : OptionKey → Value → κ → Option (Except ConfigError κ)
  tryGet : OptionKey → κ → Option Value
  collect : κ → OptionMap → OptionMap
  describe : κ → String

/-- There need not be any. -/
instance : OptionLayer Empty where
  name := Empty.elim
  trySet _ _ := Empty.elim
  tryGet _ := Empty.elim
  collect := Empty.elim
  describe := Empty.elim

end FlowControl
