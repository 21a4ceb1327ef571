import FlowControl.Config.Options

/-!
# Quiet clients

The simplest clients of a configuration: listeners that only take note of what they are told, and
hooks that judge a value without doing anything else. In such a world a call of a listener is
remembered and nothing more happens, so every operation is over when the configuration is.

What a hook says about a value is a parameter, given by the number of the hook.
-/

set_option autoImplicit false

namespace FlowControl

inductive QuietCall where
  | writability (listener : Nat) (value : Bool)
  | autoRead (listener : Nat) (value : Bool)
deriving DecidableEq, Repr

/-- A configuration among quiet clients: what was logged, and which listeners were called. -/
structure Quiet (κ : Type) where
  config : Config κ
  notices : List Notice
  calls : List QuietCall

namespace Quiet

variable {κ : Type}

def ofConfig (config : Config κ) : Quiet κ := ⟨config, [], []⟩

/-- The world of quiet clients, given the verdicts of their hooks. Since no closure replaces a
strategy in the middle of a pass, no earlier handle is kept. -/
def host (verdict : Nat → Value → Option String) : Host κ (Quiet κ) where
  config s := s.config
  setConfig config s := { s with config }
  note n s := { s with notices := s.notices ++ [n] }
  writabilityChanged listener value s :=
    { s with calls := s.calls ++ [.writability listener value] }
  autoReadChanged listener value s :=
    { s with calls := s.calls ++ [.autoRead listener value] }
  check hook value s := (verdict hook value, s)
  earlier _ := []
  setEarlier _ s := s
  budget _ := 0

end Quiet

end FlowControl
