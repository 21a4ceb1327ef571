import FlowControl.Notice

/-!
# Receive handles

A handle is one channel's share of a strategy: where it stands in the size table, what the last
read returned, and how many reads one pass may make. Reports move the adaptive predictor; a fixed
one never moves. The read limit belongs to the handle, whatever predicts its capacity.
-/

set_option autoImplicit false

namespace FlowControl

/-- What the last reported read looked like, and how many reads one pass may make. -/
structure ReadRecord where
  limit : UInt32
  lastBytes : Nat
  lastCapacity : Nat
deriving DecidableEq, Repr

/-- A pass makes at most 16 reads unless told otherwise, and nothing has been read yet. -/
def ReadRecord.initial : ReadRecord := ⟨16, 0, 0⟩

/-- The part of a handle that predicts the next capacity. -/
inductive Predictor where
  /-- An index of the size table, with the flag of a pending decrease. -/
  | adaptive (sizing : AdaptiveSizing) (index : Nat) (armed : Bool)
  | fixed (capacity : Nat)
deriving DecidableEq, Repr

structure RecvHandle where
  predictor : Predictor
  record : ReadRecord
deriving DecidableEq, Repr

/-! An adaptive handle keeps its index and its flag in one word, so that they change together: the
index in the lower half, and above it the bit of the pending decrease. -/

namespace StateWord

def armedBit : UInt64 := (1 : UInt64) <<< 32

def pack (index : Nat) (armed : Bool) : UInt64 :=
  .ofNat index ||| if armed then armedBit else 0

def unpack (word : UInt64) : Nat × Bool :=
  ((word &&& 0xFFFFFFFF).toNat, word &&& armedBit != 0)

end StateWord

namespace Predictor

def ofStrategy : Strategy → Predictor
  | .adaptive a => .adaptive a a.initialIndex false
  | .fixed c => .fixed c

def strategy : Predictor → Strategy
  | .adaptive a _ _ => .adaptive a
  | .fixed c => .fixed c

def capacity : Predictor → Nat
  | .adaptive a index _ => a.capacityAt index
  | .fixed c => c

def advance (bytes capacity : Nat) : Predictor → Predictor
  | .adaptive a index armed =>
    let next := a.advance index armed bytes capacity
    .adaptive a next.1 next.2
  | .fixed c => .fixed c

/-- Did an adaptive predictor move to another entry of the table? -/
def moved : Predictor → Predictor → Bool
  | .adaptive _ i _, .adaptive _ j _ => i != j
  | _, _ => false

end Predictor

namespace RecvHandle

def ofStrategy (s : Strategy) : RecvHandle := ⟨.ofStrategy s, .initial⟩

instance : Inhabited RecvHandle := ⟨.ofStrategy .standard⟩

def strategy (h : RecvHandle) : Strategy := h.predictor.strategy

def nextCapacity (h : RecvHandle) : Nat := h.predictor.capacity

def limit (h : RecvHandle) : UInt32 := h.record.limit

def withLimit (limit : UInt32) (h : RecvHandle) : RecvHandle :=
  { h with record := { h.record with limit } }

/-- Forget the last read; the prediction stays. -/
def reset (h : RecvHandle) : RecvHandle :=
  { h with record := { h.record with lastBytes := 0, lastCapacity := 0 } }

def report (bytes capacity : Nat) (h : RecvHandle) : RecvHandle :=
  ⟨h.predictor.advance bytes capacity,
    { h.record with lastBytes := bytes, lastCapacity := capacity }⟩

/-- What the log says about a report: something exactly when the predictor moved. -/
def resize? (bytes capacity : Nat) (h : RecvHandle) : Option Notice :=
  let after := h.predictor.advance bytes capacity
  if h.predictor.moved after then
    some (.bufferResized bytes capacity h.predictor.capacity after.capacity)
  else none

/-- May a pass go on after `done` reads, the last of which returned `bytes`? Only below the limit,
and only if the last read was not empty and filled the buffer that was last reported. -/
def shouldContinue (done bytes : Nat) (h : RecvHandle) : Bool :=
  done < h.limit.toNat && 0 < bytes && h.record.lastCapacity ≤ bytes

def describeRecord (r : ReadRecord) : String :=
  Text.record "ReadLoopState"
    [("max_messages_per_read", toString r.limit.toNat), ("last_bytes_read", toString r.lastBytes),
      ("last_allocated_capacity", toString r.lastCapacity)]

/-- The description for diagnostics. An adaptive handle shows its state word. -/
def describe (h : RecvHandle) : String :=
  match h.predictor with
  | .adaptive a index armed =>
    Text.record "AdaptiveRecvHandle"
      [("sizing", a.describe), ("state", toString (StateWord.pack index armed).toNat),
        ("read_loop", describeRecord h.record)]
  | .fixed c =>
    Text.record "FixedRecvHandle"
      [("capacity", toString c), ("read_loop", describeRecord h.record)]

theorem lt_limit_of_shouldContinue {done bytes : Nat} {h : RecvHandle}
    (hc : h.shouldContinue done bytes = true) : done < h.limit.toNat := by
  simp only [shouldContinue, Bool.and_eq_true, decide_eq_true_eq] at hc
  exact hc.1.1

/-- Below the limit means below the size of its word: the bound that ends every pass. -/
theorem lt_of_shouldContinue {done bytes : Nat} {h : RecvHandle}
    (hc : h.shouldContinue done bytes = true) : done < UInt32.size :=
  Nat.lt_trans (lt_limit_of_shouldContinue hc) h.limit.toNat_lt

end RecvHandle

end FlowControl
