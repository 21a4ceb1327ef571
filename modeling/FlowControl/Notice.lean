import FlowControl.Error
import FlowControl.Sizing.Strategy

/-!
# Notices

What the library reports to the log while it works. Each kind of notice carries its own data; its
level, its message and its named fields are derived from the kind, so that a reader of the log sees
the same fields in the same order every time.
-/

set_option autoImplicit false

namespace FlowControl

/-- Something worth a line in the log. -/
inductive Notice where
  /-- The write signal flipped, with the queue and the marks that made it flip. -/
  | writabilityChanged (writable : Bool) (queued : UInt64) (low high : UInt32)
  | autoReadChanged (on : Bool)
  | sizingReplaced (strategy : Strategy)
  /-- An adaptive handle moved to another capacity. -/
  | bufferResized (bytes capacity : Nat) (before after : Nat)
  | optionRegistered (option : String) (id : Nat)
  | optionSet (layer option : String)
  /-- A layer claimed an option and refused the value. -/
  | optionRejected (layer option : String) (error : ConfigError)
  | optionUnsupported (option : String)
  /-- The marks of a batch were refused. -/
  | marksRejected (option : String) (error : ConfigError)
  | profileApplied (entries rejected : Nat)
deriving DecidableEq, Repr

/-- How much attention a notice asks for. -/
inductive NoticeLevel where
  | trace
  | debug
deriving DecidableEq, Repr

inductive NoticeField where
  | count (n : Nat)
  | flag (b : Bool)
  | text (s : String)
deriving DecidableEq, Repr

namespace Notice

/-- Single steps of normal work are traces; changes and refusals are for debugging. -/
def level : Notice → NoticeLevel
  | .bufferResized .. | .optionRegistered .. | .optionSet .. => .trace
  | _ => .debug

def message : Notice → String
  | .writabilityChanged .. => "channel writability changed"
  | .autoReadChanged .. => "channel auto-read changed"
  | .sizingReplaced .. => "receive buffer sizing replaced"
  | .bufferResized .. => "adaptive receive buffer resized"
  | .optionRegistered .. => "registered channel option"
  | .optionSet .. => "channel option set"
  | .optionRejected .. => "channel option rejected"
  | .optionUnsupported .. => "channel option not supported"
  | .marksRejected .. => "water mark batch rejected"
  | .profileApplied .. => "channel profile applied"

/-- The named values, in the order in which a log line shows them. -/
def fields : Notice → List (String × NoticeField)
  | .writabilityChanged writable queued low high =>
    [("writable", .flag writable), ("queued_bytes", .count queued.toNat),
      ("low", .count low.toNat), ("high", .count high.toNat)]
  | .autoReadChanged on => [("auto_read", .flag on)]
  | .sizingReplaced strategy => [("sizing", .text strategy.describe)]
  | .bufferResized bytes capacity before after =>
    [("bytes_read", .count bytes), ("buffer_capacity", .count capacity),
      ("from", .count before), ("to", .count after)]
  | .optionRegistered option id => [("option", .text option), ("id", .count id)]
  | .optionSet layer option => [("layer", .text layer), ("option", .text option)]
  | .optionRejected layer option error =>
    [("layer", .text layer), ("option", .text option), ("error", .text error.message)]
  | .optionUnsupported option => [("option", .text option)]
  | .marksRejected option error => [("option", .text option), ("error", .text error.message)]
  | .profileApplied entries rejected =>
    [("entries", .count entries), ("rejected", .count rejected)]

end Notice

end FlowControl
