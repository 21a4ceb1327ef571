import FlowControl.Message
import FlowControl.Sizing.Strategy
import FlowControl.Text.Quoted
import FlowControl.WaterMark

/-!
# Option values

An option has a value type, and a map of options holds values of all types side by side. A value
therefore carries its type with it, and the type decides where it fits. The types are those of the
options that there are, and those that the options of an application commonly have; any further type
that an application may store is left out.
-/

set_option autoImplicit false

namespace FlowControl

inductive ValueType where
  | i32
  | u32
  | u64
  | bool
  | string
  | waterMark
  | sizing
  | estimator
deriving DecidableEq, Repr, Inhabited

inductive Value where
  | i32 (n : Int32)
  | u32 (n : UInt32)
  | u64 (n : UInt64)
  | bool (b : Bool)
  | string (s : String)
  | waterMark (marks : WaterMark)
  | sizing (strategy : Strategy)
  | estimator (e : Estimator)
deriving DecidableEq

instance : Inhabited Value := ⟨.bool false⟩

/-- Value types that have a full name, as error messages give it. -/
class NamedType (τ : Type) where
  fullName : τ → String

/-- Values that know their type, as everything does that a map of options can hold. -/
class TypedValue (ν : Type) (τ : outParam Type) where
  type : ν → τ

def ValueType.fullName : ValueType → String
  | .i32 => "i32"
  | .u32 => "u32"
  | .u64 => "u64"
  | .bool => "bool"
  | .string => "alloc::string::String"
  | .waterMark => "spark_channel::backpressure::WriteBufferWaterMark"
  | .sizing => "alloc::sync::Arc<dyn spark_channel::sizing::RecvBufferSizing>"
  | .estimator => "alloc::sync::Arc<dyn spark_channel::estimator::MessageSizeEstimator>"

instance : NamedType ValueType := ⟨ValueType.fullName⟩

namespace Value

def type : Value → ValueType
  | .i32 _ => .i32
  | .u32 _ => .u32
  | .u64 _ => .u64
  | .bool _ => .bool
  | .string _ => .string
  | .waterMark _ => .waterMark
  | .sizing _ => .sizing
  | .estimator _ => .estimator

def describe : Value → String
  | .i32 n => toString n.toInt
  | .u32 n => toString n.toNat
  | .u64 n => toString n.toNat
  | .bool b => Text.flag b
  | .string s => Text.quoted s
  | .waterMark marks => marks.describe
  | .sizing strategy => strategy.describe
  | .estimator e => e.describe

instance : TypedValue Value ValueType := ⟨type⟩

end Value

end FlowControl
