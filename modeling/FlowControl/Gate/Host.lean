import FlowControl.Gate.Basic
import FlowControl.Notice

/-!
# Gate operations

An operation on a gate may flip its signal, and a flip calls every listener before the operation
returns. Listeners are client code: they may use the gate again at once. So the operations are
written over a world `σ` that holds a gate and knows what a call of a listener does to it. In a
quiet world a call is only remembered; in a scripted one it runs further operations.

The world also tells how many operations its clients may still start from inside a callback. The
gate looks at that number only to decide whether a listener has acted: as long as none has, a flip
leaves the gate settled and there is nothing to look at again.
-/

set_option autoImplicit false

namespace FlowControl

structure GateHost (σ : Type) where
  gate : σ → Gate
  setGate : Gate → σ → σ
  note : Notice → σ → σ
  /-- Call a listener, which may act on the world before it returns. -/
  call : Nat → Bool → σ → σ
  /-- How many operations may still be started from inside callbacks. -/
  budget : σ → Nat

inductive GateCall where
  | queue (bytes : UInt64)
  | flush (bytes : UInt64)
  | setHigh (high : UInt32)
  | setLow (low : UInt32)
  | setMarks (low high : UInt32)
  | update (low? high? : Option UInt32)
  | describe
deriving DecidableEq, Repr

inductive GateOutcome where
  | done
  | failed (error : ConfigError)
  | marks (marks : WaterMark)
  | text (s : String)

namespace GateHost

variable {σ : Type}

/-- Change the gate without looking at the signal. -/
def modify (h : GateHost σ) (f : Gate → Gate) (s : σ) : σ := h.setGate (f (h.gate s)) s

/-- Tell the signal of `g` to the listeners that it had when it flipped. -/
def notify (h : GateHost σ) (g : Gate) (s : σ) : σ :=
  g.listeners.foldl (fun s listener => h.call listener g.writable s) s

def flip (h : GateHost σ) (g : Gate) (s : σ) : σ :=
  h.notify g
    (h.note (.writabilityChanged g.writable g.queued g.marks.low g.marks.high) (h.setGate g s))

def settle (h : GateHost σ) (s : σ) : σ :=
  match (h.gate s).flipped? with
  | none => s
  | some g =>
    let after := h.flip g s
    -- If no listener has acted, the flip has settled the gate.
    if h.budget after < h.budget s then settle h after else after
termination_by h.budget s

/-- Queue bytes. Queueing nothing does nothing. -/
def queue (h : GateHost σ) (bytes : UInt64) (s : σ) : σ :=
  if bytes = 0 then s else h.settle (h.modify (·.queue bytes) s)

/-- Report bytes as written. Writing nothing does nothing. -/
def flush (h : GateHost σ) (bytes : UInt64) (s : σ) : σ :=
  if bytes = 0 then s else h.settle (h.modify (·.flush bytes) s)

def setMarks (h : GateHost σ) (marks : WaterMark) (s : σ) : σ :=
  h.settle (h.modify (fun g => { g with marks }) s)

def setHigh (h : GateHost σ) (high : UInt32) (s : σ) : Except ConfigError Unit × σ :=
  let marks := (h.gate s).marks
  if hle : marks.low ≤ high then
    (.ok (), h.setMarks ⟨marks.low, high, hle⟩ s)
  else (.error (.waterMarkOrder marks.low high), s)

def setLow (h : GateHost σ) (low : UInt32) (s : σ) : Except ConfigError Unit × σ :=
  let marks := (h.gate s).marks
  if hle : low ≤ marks.high then
    (.ok (), h.setMarks ⟨low, marks.high, hle⟩ s)
  else (.error (.waterMarkOrder low marks.high), s)

def update (h : GateHost σ) (low? high? : Option UInt32) (s : σ) :
    Except ConfigError WaterMark × σ :=
  match (h.gate s).marks.merge low? high? with
  | .ok marks => (.ok marks, h.setMarks marks s)
  | .error e => (.error e, s)

def perform (h : GateHost σ) (call : GateCall) (s : σ) : GateOutcome × σ :=
  match call with
  | .queue n => (.done, h.queue n s)
  | .flush n => (.done, h.flush n s)
  | .setHigh n => answer (h.setHigh n s)
  | .setLow n => answer (h.setLow n s)
  | .setMarks low high =>
    match WaterMark.ofPair low high with
    | .ok marks => (.done, h.setMarks marks s)
    | .error e => (.failed e, s)
  | .update low? high? =>
    match h.update low? high? s with
    | (.ok marks, s) => (.marks marks, s)
    | (.error e, s) => (.failed e, s)
  | .describe => (.text ((h.gate s).describe ++ " " ++ (h.gate s).describeSnapshot), s)
where
  answer : Except ConfigError Unit × σ → GateOutcome × σ
    | (.ok (), s) => (.done, s)
    | (.error e, s) => (.failed e, s)

end GateHost

end FlowControl
