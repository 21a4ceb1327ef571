import FlowControl.Notice
import FlowControl.Option.Value

/-!
# Option keys and the option table

An option has a name, a value type and a number. The table of options gives every name exactly one
number and one type: the fifteen built-in options have small numbers, and further names get the
numbers from 1024 on, in the order in which they first appear. Keys are compared by number, which
is therefore the same as comparing names.

Clients may register options with value types of their own, and the table does not care which types
there are: it compares two of them, and names them when they differ. Keys and tables are therefore
about any collection of types, which is that of `ValueType` where nothing else is said.
-/

set_option autoImplicit false

namespace FlowControl

structure OptionKey (τ : Type := ValueType) where
  id : Nat
  name : String
  type : τ
deriving DecidableEq, Repr, Inhabited

namespace OptionKey

def connectTimeoutMillis : OptionKey := ⟨1, "CONNECT_TIMEOUT_MILLIS", .i32⟩
def maxMessagesPerRead : OptionKey := ⟨2, "MAX_MESSAGES_PER_READ", .i32⟩
def writeSpinCount : OptionKey := ⟨3, "WRITE_SPIN_COUNT", .i32⟩
def autoRead : OptionKey := ⟨4, "AUTO_READ", .bool⟩
def writeBufferHighWaterMark : OptionKey := ⟨5, "WRITE_BUFFER_HIGH_WATER_MARK", .u32⟩
def writeBufferLowWaterMark : OptionKey := ⟨6, "WRITE_BUFFER_LOW_WATER_MARK", .u32⟩
def writeBufferWaterMark : OptionKey := ⟨7, "WRITE_BUFFER_WATER_MARK", .waterMark⟩
def recvBufferSizing : OptionKey := ⟨8, "RECV_BUFFER_SIZING", .sizing⟩
def messageSizeEstimator : OptionKey := ⟨9, "MESSAGE_SIZE_ESTIMATOR", .estimator⟩
def tcpNoDelay : OptionKey := ⟨10, "TCP_NODELAY", .bool⟩
def keepAlive : OptionKey := ⟨11, "SO_KEEPALIVE", .bool⟩
def reuseAddress : OptionKey := ⟨12, "SO_REUSEADDR", .bool⟩
def receiveBufferSize : OptionKey := ⟨13, "SO_RCVBUF", .i32⟩
def sendBufferSize : OptionKey := ⟨14, "SO_SNDBUF", .i32⟩
def linger : OptionKey := ⟨15, "SO_LINGER", .i32⟩

/-- The built-in options, by number. -/
def builtIns : List OptionKey :=
  [connectTimeoutMillis, maxMessagesPerRead, writeSpinCount, autoRead, writeBufferHighWaterMark,
    writeBufferLowWaterMark, writeBufferWaterMark, recvBufferSizing, messageSizeEstimator,
    tcpNoDelay, keepAlive, reuseAddress, receiveBufferSize, sendBufferSize, linger]

variable {τ : Type}

/-- Are two keys the same option? -/
def same (k k' : OptionKey τ) : Bool := k.id == k'.id

/-- The order of keys is that of their numbers. -/
def order (k k' : OptionKey τ) : Ordering := compare k.id k'.id

/-- A list of keys with each option kept once. -/
def distinct (keys : List (OptionKey τ)) : List (OptionKey τ) :=
  keys.foldl (fun kept k => if kept.any (·.same k) then kept else kept ++ [k]) []

/-- The description of a key that knows its value type. -/
def describeTyped (k : OptionKey τ) : String := "ChannelOption(" ++ k.name ++ ")"

/-- Refuse a value of another type than the option's. -/
def expectType (k : OptionKey) (v : Value) : Except ConfigError Unit :=
  if v.type = k.type then .ok () else .error (.wrongType k.name k.type.fullName)

end OptionKey

/-- The options known so far, and the number for the next new name. -/
structure OptionTable (τ : Type := ValueType) where
  keys : List (OptionKey τ)
  nextId : Nat
deriving Repr

namespace OptionTable

open NamedType (fullName)

/-- The first number that is not reserved for built-in options. -/
def firstFreeId : Nat := 1024

def initial : OptionTable := ⟨OptionKey.builtIns, firstFreeId⟩

instance : Inhabited OptionTable := ⟨initial⟩

variable {τ : Type}

def find? (name : String) (t : OptionTable τ) : Option (OptionKey τ) :=
  t.keys.find? fun k => k.name = name

def contains (name : String) (t : OptionTable τ) : Bool := (t.find? name).isSome

/-- What a request to the table yields: a key or a refusal, the table afterwards, and what the log
says about it. -/
structure Answer (τ : Type := ValueType) where
  key : Except ConfigError (OptionKey τ)
  table : OptionTable τ
  notices : List Notice

def register (name : String) (type : τ) (t : OptionTable τ) : Answer τ :=
  ⟨.ok ⟨t.nextId, name, type⟩, ⟨t.keys ++ [⟨t.nextId, name, type⟩], t.nextId + 1⟩,
    [.optionRegistered name t.nextId]⟩

/-- The option with a name, which is registered now if it is new. A name keeps the type it was
registered with. -/
def valueOf [DecidableEq τ] [NamedType τ] (name : String) (type : τ) (t : OptionTable τ) :
    Answer τ :=
  match t.find? name with
  | none => t.register name type
  | some k =>
    if k.type = type then ⟨.ok k, t, []⟩
    else ⟨.error (.typeMismatch name (fullName k.type) (fullName type)), t, []⟩

/-- A new option; the name must be free. -/
def newInstance (name : String) (type : τ) (t : OptionTable τ) : Answer τ :=
  if t.contains name then ⟨.error (.nameConflict name), t, []⟩ else t.register name type

end OptionTable

end FlowControl
