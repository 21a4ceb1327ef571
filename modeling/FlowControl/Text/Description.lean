/-!
# Descriptions

Every value of the library can describe itself for diagnostics. The format is the same everywhere:
a record is its name and its fields in braces, a list stands in brackets, a mapping in braces, and
an optional value is `None` or `Some(…)`. The braces are written here once.
-/

set_option autoImplicit false

namespace FlowControl.Text

/-- `Name { field: value, … }`, the description of a record. -/
def record (name : String) (fields : List (String × String)) : String :=
  name ++ " \x7b " ++ ", ".intercalate (fields.map fun f => f.1 ++ ": " ++ f.2) ++ " \x7d"

/-- A record that has further fields which are not shown. -/
def openRecord (name : String) (fields : List (String × String)) : String :=
  name ++ " \x7b " ++ String.join (fields.map fun f => f.1 ++ ": " ++ f.2 ++ ", ") ++ ".. \x7d"

/-- `[a, b]`, the description of a list. -/
def sequence (items : List String) : String :=
  "[" ++ ", ".intercalate items ++ "]"

/-- `{key: value, …}`, the description of a mapping. -/
def mapping (entries : List (String × String)) : String :=
  "\x7b" ++ ", ".intercalate (entries.map fun e => e.1 ++ ": " ++ e.2) ++ "\x7d"

def optional : Option String → String
  | none => "None"
  | some s => "Some(" ++ s ++ ")"

def flag (b : Bool) : String := if b then "true" else "false"

end FlowControl.Text
