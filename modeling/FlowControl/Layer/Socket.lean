import FlowControl.Option.Map

/-!
# Socket options

A layer that records the socket settings a transport should apply. Buffer sizes are unset until
somebody chooses one, and an unset size has no value that could be read back. Lingering is given in
seconds, with -1 for a socket that does not linger.
-/

set_option autoImplicit false

namespace FlowControl

structure SocketOptions where
  tcpNoDelay : Bool
  keepAlive : Bool
  reuseAddress : Bool
  receiveBufferSize : Option Int32
  sendBufferSize : Option Int32
  linger : Int32
deriving DecidableEq

/-- The options that the layer claims. -/
inductive SocketOption where
  | tcpNoDelay
  | keepAlive
  | reuseAddress
  | receiveBufferSize
  | sendBufferSize
  | linger
deriving DecidableEq, Repr

namespace SocketOption

def all : List SocketOption :=
  [.tcpNoDelay, .keepAlive, .reuseAddress, .receiveBufferSize, .sendBufferSize, .linger]

def key : SocketOption → OptionKey
  | .tcpNoDelay => .tcpNoDelay
  | .keepAlive => .keepAlive
  | .reuseAddress => .reuseAddress
  | .receiveBufferSize => .receiveBufferSize
  | .sendBufferSize => .sendBufferSize
  | .linger => .linger

def ofKey? (k : OptionKey) : Option SocketOption := all.find? fun o => o.key.same k

end SocketOption

namespace SocketOptions

/-- Small segments are sent at once; everything else is left to the system. -/
def standard : SocketOptions := ⟨true, false, false, none, none, -1⟩

instance : Inhabited SocketOptions := ⟨standard⟩

/-- A buffer size must be positive. -/
def checkedSize (o : SocketOption) (size : Int32) : Except ConfigError Int32 :=
  if size.toInt ≤ 0 then
    .error (.illegalArgument o.key.name
      ("buffer size must be positive, got " ++ toString size.toInt))
  else .ok size

def withReceiveBufferSize (size : Int32) (s : SocketOptions) : Except ConfigError SocketOptions :=
  (checkedSize .receiveBufferSize size).map fun n => { s with receiveBufferSize := some n }

def withSendBufferSize (size : Int32) (s : SocketOptions) : Except ConfigError SocketOptions :=
  (checkedSize .sendBufferSize size).map fun n => { s with sendBufferSize := some n }

/-- The number of seconds may be -1, for no lingering, but not less. -/
def withLinger (seconds : Int32) (s : SocketOptions) : Except ConfigError SocketOptions :=
  if seconds.toInt < -1 then
    .error (.illegalArgument OptionKey.linger.name
      ("linger must be -1 (disabled) or non-negative, got " ++ toString seconds.toInt))
  else .ok { s with linger := seconds }

/-- The settings with the value of an option stored, if it has the right type and is allowed. -/
def set (o : SocketOption) (v : Value) (s : SocketOptions) : Except ConfigError SocketOptions :=
  match o, v with
  | .tcpNoDelay, .bool b => .ok { s with tcpNoDelay := b }
  | .keepAlive, .bool b => .ok { s with keepAlive := b }
  | .reuseAddress, .bool b => .ok { s with reuseAddress := b }
  | .receiveBufferSize, .i32 n => s.withReceiveBufferSize n
  | .sendBufferSize, .i32 n => s.withSendBufferSize n
  | .linger, .i32 n => s.withLinger n
  | o, _ => .error (.wrongType o.key.name o.key.type.fullName)

def get? (o : SocketOption) (s : SocketOptions) : Option Value :=
  match o with
  | .tcpNoDelay => some (.bool s.tcpNoDelay)
  | .keepAlive => some (.bool s.keepAlive)
  | .reuseAddress => some (.bool s.reuseAddress)
  | .receiveBufferSize => s.receiveBufferSize.map .i32
  | .sendBufferSize => s.sendBufferSize.map .i32
  | .linger => some (.i32 s.linger)

/-- Write an option: `none` if it is no socket option. -/
def trySet (k : OptionKey) (v : Value) (s : SocketOptions) :
    Option (Except ConfigError SocketOptions) :=
  (SocketOption.ofKey? k).map fun o => s.set o v

/-- Read an option: `none` if it is no socket option, and also while it is unset. -/
def tryGet (k : OptionKey) (s : SocketOptions) : Option Value :=
  (SocketOption.ofKey? k).bind fun o => s.get? o

def collect (s : SocketOptions) (m : OptionMap) : OptionMap :=
  SocketOption.all.foldl (fun m o =>
    match s.get? o with
    | some v => m.insert o.key v
    | none => m) m

/-- The description for diagnostics, in which an unset size is 0. -/
def describe (s : SocketOptions) : String :=
  Text.record "SocketOptionsLayer"
    [("tcp_no_delay", Text.flag s.tcpNoDelay), ("keep_alive", Text.flag s.keepAlive),
      ("reuse_address", Text.flag s.reuseAddress),
      ("receive_buffer_size", size s.receiveBufferSize),
      ("send_buffer_size", size s.sendBufferSize),
      ("so_linger", toString s.linger.toInt)]
where
  size : Option Int32 → String
    | none => "0"
    | some n => toString n.toInt

end SocketOptions

end FlowControl
