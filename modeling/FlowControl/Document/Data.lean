/-!
# Plain data

What a settings document holds, whatever notation it was written in: nothing, truth values, whole
numbers, texts, lists and tables. Two more kinds exist only to be refused with the right reason:
numbers with a fraction or an exponent, and dates or times of day. No setting takes either of them,
so their values are not kept.
-/

set_option autoImplicit false

namespace FlowControl.Document

inductive Data where
  | null
  | bool (b : Bool)
  | int (n : Int)
  /-- A number that is not written as a whole number. -/
  | real
  /-- A date, a time of day, or both. -/
  | moment
  | text (s : String)
  | list (items : List Data)
  /-- A table; its keys are distinct. -/
  | table (fields : List (String × Data))
deriving Inhabited

namespace Data

def named : List String → List Data → List (String × Data)
  | name :: names, d :: items => (name, d) :: named names items
  | _, _ => []

/-- What is done with items of a list beyond the last field. -/
inductive Surplus where
  | refused
  | ignored
deriving DecidableEq, Repr

/-- The fields of a record: a table that has no others than the given names, or a list that gives
their values in order. -/
def fields? (surplus : Surplus) (names : List String) : Data → Option (List (String × Data))
  | .table fields => if fields.all fun f => names.contains f.1 then some fields else none
  | .list items =>
    if surplus = .ignored ∨ items.length ≤ names.length then some (named names items) else none
  | _ => none

def field? (name : String) (fields : List (String × Data)) : Option Data := fields.lookup name

def between? (low high : Int) : Data → Option Int
  | .int n => if low ≤ n ∧ n ≤ high then some n else none
  | _ => none

def bool? : Data → Option Bool
  | .bool b => some b
  | _ => none

def text? : Data → Option String
  | .text s => some s
  | _ => none

def i32? (d : Data) : Option Int32 := (d.between? (-2147483648) 2147483647).map Int32.ofInt

def u32? (d : Data) : Option UInt32 := (d.between? 0 4294967295).map fun n => n.toNat.toUInt32

def u64? (d : Data) : Option UInt64 :=
  (d.between? 0 18446744073709551615).map fun n => n.toNat.toUInt64

end Data

end FlowControl.Document
