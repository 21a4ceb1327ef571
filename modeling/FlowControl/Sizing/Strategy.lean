import FlowControl.Error
import FlowControl.Sizing.Table
import FlowControl.Text.Description

/-!
# Sizing strategies

A strategy says within which bounds receive buffers are sized, and holds no trace of any read, so
that many channels may share one. An adaptive strategy keeps its bounds together with the indices
of the size table that they allow; a fixed strategy is a single capacity. Strategies that a client
makes, and the handles that they give out, are left out.
-/

set_option autoImplicit false

namespace FlowControl

/-- The bounds of an adaptive strategy, in bytes and as indices of the size table. -/
structure AdaptiveSizing where
  minimum : Nat
  maximum : Nat
  minIndex : Nat
  maxIndex : Nat
  initialIndex : Nat
deriving DecidableEq, Repr

inductive Strategy where
  | adaptive (sizing : AdaptiveSizing)
  | fixed (capacity : Nat)
deriving DecidableEq, Repr

namespace AdaptiveSizing

open SizeTable

/-- How many entries a filled buffer moves up. -/
def growth : Nat := 4

/-- The strategy with the given bounds, which the caller promises to be in order. -/
def within (minimum initial maximum : Nat) : AdaptiveSizing :=
  let minIndex := indexFor minimum
  let found := indexFor maximum
  -- The search finds a size that is large enough; the last one allowed must not be too large.
  let maxIndex := if maximum < sizeAt found ∧ minIndex < found then found - 1 else found
  { minimum, maximum, minIndex, maxIndex
    initialIndex := max minIndex (min (indexFor initial) maxIndex) }

/-- From 64 bytes to 64 KiB, starting at 2 KiB. -/
def standard : AdaptiveSizing := within 64 2048 65536

/-- The capacity offered at an index. Between bounds that enclose no table entry the entry itself
would lie outside, so it is brought back to the nearer bound. -/
def capacityAt (a : AdaptiveSizing) (index : Nat) : Nat :=
  max a.minimum (min (sizeAt index) a.maximum)

/-- The index and the pending-decrease flag after a report. Everything but a first short report
clears the flag. -/
def advance (a : AdaptiveSizing) (index : Nat) (armed : Bool) (bytes capacity : Nat) :
    Nat × Bool :=
  -- A report of at most the preceding entry's bytes is short. The first entry precedes itself.
  if bytes ≤ sizeAt (index - 1) then
    if armed then (max (index - 1) a.minIndex, false) else (index, true)
  else if 0 < capacity ∧ capacity ≤ bytes then (min (index + growth) a.maxIndex, false)
  else (index, false)

def describe (a : AdaptiveSizing) : String :=
  Text.record "AdaptiveRecvSizing"
    [("min_capacity", toString a.minimum), ("max_capacity", toString a.maximum),
      ("min_index", toString a.minIndex), ("max_index", toString a.maxIndex),
      ("initial_index", toString a.initialIndex)]

end AdaptiveSizing

namespace Strategy

/-- The option under which the errors of this module are reported. -/
def optionName : String := "RECV_BUFFER_SIZING"

/-- An adaptive strategy, if `0 < minimum ≤ initial ≤ maximum`. -/
def ofBounds (minimum initial maximum : Nat) : Except ConfigError Strategy :=
  if minimum = 0 then .error (.illegalArgument optionName "minimum must be positive")
  else if initial < minimum then
    .error (.illegalArgument optionName
      s!"initial ({initial}) must not be below minimum ({minimum})")
  else if maximum < initial then
    .error (.illegalArgument optionName
      s!"maximum ({maximum}) must not be below initial ({initial})")
  else .ok (.adaptive (.within minimum initial maximum))

def ofCapacity (capacity : Nat) : Except ConfigError Strategy :=
  if capacity = 0 then .error (.illegalArgument optionName "capacity must be positive")
  else .ok (.fixed capacity)

def standard : Strategy := .adaptive .standard

instance : Inhabited Strategy := ⟨standard⟩

/-- The bound from below on what the strategy offers. -/
def minimum : Strategy → Nat
  | .adaptive a => a.minimum
  | .fixed c => c

/-- The bound from above. It need not be reached: between entries of the table there is none. -/
def maximum : Strategy → Nat
  | .adaptive a => a.maximum
  | .fixed c => c

def describe : Strategy → String
  | .adaptive a => a.describe
  | .fixed c => Text.record "FixedRecvSizing" [("capacity", toString c)]

end Strategy

end FlowControl
