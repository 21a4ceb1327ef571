import FlowControl.Gate.Basic
import FlowControl.Option.Map
import FlowControl.Sizing.Handle

/-!
# The core settings

The first layer of every configuration: the settings that every channel has. They include the gate
of the write side and the receive handle of the read side, so that some options are stored there
rather than in a field of their own; the read limit in particular lives in the handle.

Settings that nobody is told about are plain functions on the core. The ones that call listeners or
write to the log belong to the module of hosts.
-/

set_option autoImplicit false

namespace FlowControl

structure Core where
  /-- In milliseconds; 0 means that connecting never times out. -/
  connectTimeout : Nat
  writeSpinCount : Nat
  autoRead : Bool
  autoReadListeners : List Nat
  strategy : Strategy
  /-- The receive handle that the strategy made for this channel. -/
  handle : RecvHandle
  estimator : Estimator
  gate : Gate
deriving DecidableEq

inductive CoreOption where
  | connectTimeout
  | maxMessages
  | writeSpinCount
  | autoRead
  | highMark
  | lowMark
  | marks
  | sizing
  | estimator
deriving DecidableEq, Repr

namespace CoreOption

def all : List CoreOption :=
  [.connectTimeout, .maxMessages, .writeSpinCount, .autoRead, .highMark, .lowMark, .marks,
    .sizing, .estimator]

def key : CoreOption → OptionKey
  | .connectTimeout => .connectTimeoutMillis
  | .maxMessages => .maxMessagesPerRead
  | .writeSpinCount => .writeSpinCount
  | .autoRead => .autoRead
  | .highMark => .writeBufferHighWaterMark
  | .lowMark => .writeBufferLowWaterMark
  | .marks => .writeBufferWaterMark
  | .sizing => .recvBufferSizing
  | .estimator => .messageSizeEstimator

def ofKey? (k : OptionKey) : Option CoreOption := all.find? fun o => o.key.same k

end CoreOption

namespace Core

def standard : Core where
  connectTimeout := 30000
  writeSpinCount := 16
  autoRead := true
  autoReadListeners := []
  strategy := .standard
  handle := .ofStrategy .standard
  estimator := .standard
  gate := .ofMarks .standard

instance : Inhabited Core := ⟨standard⟩

/-- A count must be positive. -/
def positive (o : CoreOption) (n : Int32) : Except ConfigError Nat :=
  if n.toInt ≤ 0 then
    .error (.illegalArgument o.key.name
      ("value must be positive, got " ++ toString n.toInt))
  else .ok n.toInt.toNat

def withConnectTimeout (millis : Int32) (c : Core) : Except ConfigError Core :=
  if millis.toInt < 0 then
    .error (.illegalArgument CoreOption.connectTimeout.key.name
      ("connect timeout must not be negative, got " ++ toString millis.toInt))
  else .ok { c with connectTimeout := millis.toInt.toNat }

def withWriteSpinCount (count : Int32) (c : Core) : Except ConfigError Core :=
  (positive .writeSpinCount count).map fun n => { c with writeSpinCount := n }

/-- The core with another read limit, which must be positive. The limit is kept in the handle. -/
def withMaxMessages (limit : Int32) (c : Core) : Except ConfigError Core :=
  (positive .maxMessages limit).map fun n => { c with handle := c.handle.withLimit n.toUInt32 }

def withEstimator (e : Estimator) (c : Core) : Core := { c with estimator := e }

/-- The core with another strategy and a fresh handle of it, which takes over the read limit. -/
def withStrategy (strategy : Strategy) (c : Core) : Core :=
  { c with strategy, handle := (RecvHandle.ofStrategy strategy).withLimit c.handle.limit }

/-- A count as an option value. Counts beyond the range of the option show as its largest value. -/
def countValue (n : Nat) : Value := .i32 (Int32.ofNat (min n 2147483647))

def get (o : CoreOption) (c : Core) : Value :=
  match o with
  | .connectTimeout => countValue c.connectTimeout
  | .maxMessages => countValue c.handle.limit.toNat
  | .writeSpinCount => countValue c.writeSpinCount
  | .autoRead => .bool c.autoRead
  | .highMark => .u32 c.gate.marks.high
  | .lowMark => .u32 c.gate.marks.low
  | .marks => .waterMark c.gate.marks
  | .sizing => .sizing c.strategy
  | .estimator => .estimator c.estimator

def tryGet (k : OptionKey) (c : Core) : Option Value := (CoreOption.ofKey? k).map fun o => c.get o

def collect (c : Core) (m : OptionMap) : OptionMap :=
  CoreOption.all.foldl (fun m o => m.insert o.key (c.get o)) m

def describe (c : Core) : String :=
  Text.record "CoreOptions"
    [("connect_timeout_millis", toString c.connectTimeout),
      ("write_spin_count", toString c.writeSpinCount), ("auto_read", Text.flag c.autoRead),
      ("recv_sizing", c.strategy.describe), ("estimator", c.estimator.describe),
      ("gate", c.gate.describe)]

end Core

end FlowControl
