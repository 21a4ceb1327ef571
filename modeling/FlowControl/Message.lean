import FlowControl.Text.Description

/-!
# Messages and their sizes

The gate counts bytes while an application sends messages. An estimator turns a message into the
number of bytes it is charged with: byte containers and owned texts count their length, everything
else counts as one fixed size. Estimators that a client makes are left out.
-/

set_option autoImplicit false

namespace FlowControl

/-- A message, as far as an estimator can tell it apart. -/
inductive Message where
  | sharedBytes (length : UInt64)
  | growableBytes (length : UInt64)
  | byteVector (length : UInt64)
  | byteSlice (length : UInt64)
  /-- An owned text, which is as long as its UTF-8 form. -/
  | text (content : String)
  /-- Anything that is no byte container: borrowed texts, numbers, other vectors, nothing at all. -/
  | other
deriving DecidableEq, Repr, Inhabited

/-- An estimator: the size it gives to messages whose length it does not know. -/
structure Estimator where
  unknownSize : UInt64
deriving DecidableEq, Repr

namespace Estimator

/-- Unknown messages count as 8 bytes unless told otherwise. -/
def standard : Estimator := ⟨8⟩

instance : Inhabited Estimator := ⟨standard⟩

/-- The number of bytes that a message is charged with. -/
def size (e : Estimator) : Message → UInt64
  | .sharedBytes n => n
  | .growableBytes n => n
  | .byteVector n => n
  | .byteSlice n => n
  | .text s => s.utf8ByteSize.toUInt64
  | .other => e.unknownSize

def describe (e : Estimator) : String :=
  Text.record "DefaultMessageSizeEstimator" [("unknown_size", toString e.unknownSize.toNat)]

end Estimator

end FlowControl
