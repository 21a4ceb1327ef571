import FlowControl.WaterMark

/-!
# The writability gate

The gate counts the bytes that are queued but not yet written and keeps one signal: may producers
go on? The signal falls when the count passes the high mark and rises again when the count is down
to the low mark; in between it keeps the value it had.

This module is the state and the rule of the signal. A gate is *settled* when its signal is one
that the rule lets stand; since the marks are in order, one flip always settles it
(`settled_of_flipped?`).
-/

set_option autoImplicit false

namespace FlowControl

/-- The state of a gate. Listeners are known by their numbers, in the order of registration. -/
structure Gate where
  queued : UInt64
  marks : WaterMark
  writable : Bool
  listeners : List Nat
deriving DecidableEq

namespace Gate

/-- A gate with nothing queued, open to producers. -/
def ofMarks (marks : WaterMark) : Gate := ⟨0, marks, true, []⟩

instance : Inhabited Gate := ⟨ofMarks .standard⟩

/-- The gate with the other signal, if count and marks demand it. -/
def flipped? (g : Gate) : Option Gate :=
  if g.writable then
    if g.marks.high.toNat < g.queued.toNat then some { g with writable := false } else none
  else
    if g.queued.toNat ≤ g.marks.low.toNat then some { g with writable := true } else none

/-- The signal may stand: an open gate is not above the high mark, a closed one is above the low
mark. -/
def Settled (g : Gate) : Prop :=
  (g.writable = true → g.queued.toNat ≤ g.marks.high.toNat) ∧
    (g.writable = false → g.marks.low.toNat < g.queued.toNat)

instance (g : Gate) : Decidable g.Settled := by unfold Settled; infer_instance

/-- The gate with more bytes queued. The counter is a 64-bit word and wraps around. -/
def queue (bytes : UInt64) (g : Gate) : Gate := { g with queued := g.queued + bytes }

/-- The gate with bytes written. More than was queued leaves nothing queued. -/
def flush (bytes : UInt64) (g : Gate) : Gate :=
  { g with queued := if g.queued ≤ bytes then 0 else g.queued - bytes }

def addListener (listener : Nat) (g : Gate) : Gate :=
  { g with listeners := g.listeners ++ [listener] }

/-- How many bytes may be queued before the gate closes: at least one while it is open. -/
def bytesBeforeUnwritable (g : Gate) : Nat :=
  if g.writable then g.marks.high.toNat + 1 - g.queued.toNat else 0

/-- How many bytes must be written before the gate opens: at least one while it is closed. -/
def bytesBeforeWritable (g : Gate) : Nat :=
  if g.writable then 0 else g.queued.toNat - g.marks.low.toNat

/-- The description for diagnostics; of the listeners it tells only how many there are. -/
def describe (g : Gate) : String :=
  Text.record "WritabilityGate"
    [("queued_bytes", toString g.queued.toNat), ("writable", Text.flag g.writable),
      ("water_mark", g.marks.describe), ("listeners", toString g.listeners.length)]

def describeSnapshot (g : Gate) : String :=
  Text.record "BackpressureSnapshot"
    [("queued_bytes", toString g.queued.toNat), ("writable", Text.flag g.writable),
      ("water_mark", g.marks.describe)]

/-! ## One flip settles -/

theorem flipped?_eq_none_iff (g : Gate) : g.flipped? = none ↔ g.Settled := by
  unfold flipped? Settled
  cases g.writable <;> simp

theorem settled_of_flipped? {g g' : Gate} (h : g.flipped? = some g') : g'.Settled := by
  have hle : g.marks.low.toNat ≤ g.marks.high.toNat := g.marks.low_le_high
  unfold flipped? at h
  split at h <;> split at h <;> cases h <;> simp [Settled] <;> omega

theorem settled_ofMarks (marks : WaterMark) : (ofMarks marks).Settled := by
  simp [Settled, ofMarks]

end Gate

end FlowControl
