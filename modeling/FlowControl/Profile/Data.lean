import FlowControl.Document.Data
import FlowControl.Profile.Basic

/-!
# Profiles as plain data

How a profile is written as data, and which data are profiles. Written data show every setting, with
null for the absent ones, and name the kind of a sizing strategy in the field `strategy`.

Reading is more liberal in three ways: an absent setting may be left out, a record may be given as
the list of its values, and its table may list the fields in any order. It is strict in all others:
unknown fields, numbers out of range and missing required fields are refused.
-/

set_option autoImplicit false

namespace FlowControl

open Document

/-! ## Writing -/

namespace Profile

def optionalData {α : Type} (write : α → Data) : Option α → Data
  | none => .null
  | some a => write a

def i32Data (n : Int32) : Data := .int n.toInt

def u32Data (n : UInt32) : Data := .int n.toNat

end Profile

open Profile

def MarkSection.toData (m : MarkSection) : Data :=
  .table [("low", u32Data m.low), ("high", u32Data m.high)]

def SizingSection.toData : SizingSection → Data
  | .adaptive minimum initial maximum =>
    .table [("strategy", .text "adaptive"), ("minimum", u32Data minimum),
      ("initial", u32Data initial), ("maximum", u32Data maximum)]
  | .fixed capacity => .table [("strategy", .text "fixed"), ("capacity", u32Data capacity)]

def EstimatorSection.toData (e : EstimatorSection) : Data :=
  .table [("unknown_size", .int e.unknownSize.toNat)]

def SocketSection.toData (s : SocketSection) : Data :=
  .table [("tcp_no_delay", optionalData .bool s.tcpNoDelay),
    ("keep_alive", optionalData .bool s.keepAlive),
    ("reuse_address", optionalData .bool s.reuseAddress),
    ("receive_buffer_size", optionalData i32Data s.receiveBufferSize),
    ("send_buffer_size", optionalData i32Data s.sendBufferSize),
    ("so_linger", optionalData i32Data s.linger)]

/-- The profile as data, with every setting shown. -/
def Profile.toData (p : Profile) : Data :=
  .table [("connect_timeout_millis", optionalData i32Data p.connectTimeout),
    ("max_messages_per_read", optionalData i32Data p.maxMessages),
    ("write_spin_count", optionalData i32Data p.writeSpinCount),
    ("auto_read", optionalData .bool p.autoRead),
    ("write_buffer", optionalData MarkSection.toData p.marks),
    ("recv_buffer", optionalData SizingSection.toData p.sizing),
    ("message_size_estimator", optionalData EstimatorSection.toData p.estimator),
    ("socket", optionalData SocketSection.toData p.socket)]

/-! ## Reading -/

namespace Profile

/-- An optional field: it may be missing or null, but a value must be readable. -/
def optionalField? {α : Type} (read : Data → Option α) (name : String)
    (fields : List (String × Data)) : Option (Option α) :=
  match Data.field? name fields with
  | none => some none
  | some .null => some none
  | some d => (read d).map some

def requiredField? {α : Type} (read : Data → Option α) (name : String)
    (fields : List (String × Data)) : Option α :=
  (Data.field? name fields).bind read

end Profile

def MarkSection.ofData? (surplus : Data.Surplus) (d : Data) : Option MarkSection := do
  let fields ← d.fields? surplus ["low", "high"]
  return ⟨← requiredField? Data.u32? "low" fields, ← requiredField? Data.u32? "high" fields⟩

/-- The kind of a strategy, and the data that are left for its fields. As a list, the kind comes
first. -/
def SizingSection.kind? : Data → Option (String × Data)
  | .table fields => (requiredField? Data.text? "strategy" fields).map fun kind =>
      (kind, .table (fields.filter fun f => f.1 ≠ "strategy"))
  | .list (.text kind :: items) => some (kind, .list items)
  | _ => none

/-- The kind of strategy decides which other fields there are, and nothing may be left over. -/
def SizingSection.ofData? (d : Data) : Option SizingSection := do
  let (kind, rest) ← SizingSection.kind? d
  if kind = "adaptive" then
    let fields ← rest.fields? .refused ["minimum", "initial", "maximum"]
    return .adaptive (← requiredField? Data.u32? "minimum" fields)
      (← requiredField? Data.u32? "initial" fields) (← requiredField? Data.u32? "maximum" fields)
  else if kind = "fixed" then
    let fields ← rest.fields? .refused ["capacity"]
    return .fixed (← requiredField? Data.u32? "capacity" fields)
  else none

def EstimatorSection.ofData? (surplus : Data.Surplus) (d : Data) : Option EstimatorSection := do
  let fields ← d.fields? surplus ["unknown_size"]
  return ⟨← requiredField? Data.u64? "unknown_size" fields⟩

def SocketSection.ofData? (surplus : Data.Surplus) (d : Data) : Option SocketSection := do
  let fields ← d.fields? surplus
    ["tcp_no_delay", "keep_alive", "reuse_address", "receive_buffer_size", "send_buffer_size",
      "so_linger"]
  return {
    tcpNoDelay := ← optionalField? Data.bool? "tcp_no_delay" fields
    keepAlive := ← optionalField? Data.bool? "keep_alive" fields
    reuseAddress := ← optionalField? Data.bool? "reuse_address" fields
    receiveBufferSize := ← optionalField? Data.i32? "receive_buffer_size" fields
    sendBufferSize := ← optionalField? Data.i32? "send_buffer_size" fields
    linger := ← optionalField? Data.i32? "so_linger" fields }

def Profile.ofData? (surplus : Data.Surplus) (d : Data) : Option Profile := do
  let fields ← d.fields? surplus
    ["connect_timeout_millis", "max_messages_per_read", "write_spin_count", "auto_read",
      "write_buffer", "recv_buffer", "message_size_estimator", "socket"]
  return {
    connectTimeout := ← optionalField? Data.i32? "connect_timeout_millis" fields
    maxMessages := ← optionalField? Data.i32? "max_messages_per_read" fields
    writeSpinCount := ← optionalField? Data.i32? "write_spin_count" fields
    autoRead := ← optionalField? Data.bool? "auto_read" fields
    marks := ← optionalField? (MarkSection.ofData? surplus) "write_buffer" fields
    sizing := ← optionalField? SizingSection.ofData? "recv_buffer" fields
    estimator :=
      ← optionalField? (EstimatorSection.ofData? surplus) "message_size_estimator" fields
    socket := ← optionalField? (SocketSection.ofData? surplus) "socket" fields }

end FlowControl
