import FlowControl.Document.Data

/-!
# Tables under construction

A TOML document builds its tables piece by piece: through headers, which open a table, and through
keys with dots, which open tables on the way to a value. Not every table may be entered again. A
header may name a table that so far exists only because it lies on the way to another one; a key
with dots may enter only tables that keys with dots have opened. So a table remembers whether it
was opened on the way (`implicit`) and whether a key with dots did that (`dotted`).
-/

set_option autoImplicit false

namespace FlowControl.Document.Toml

structure TableOf (α : Type) where
  /-- No header and no value has opened the table itself. -/
  implicit : Bool
  /-- A key with dots has opened the table. -/
  dotted : Bool
  entries : List (String × α)

/-- What a key can stand for: a value, a table, or a list of tables of which the last one is still
open. -/
inductive Node where
  | value (d : Data)
  | table (t : TableOf Node)
  | tables (closed : List (TableOf Node)) (last : TableOf Node)

abbrev Table := TableOf Node

namespace TableOf

/-- The table with another value for a key, which keeps its place if it has one. -/
def put {α : Type} (key : String) (a : α) (t : TableOf α) : TableOf α :=
  if t.entries.any (·.1 = key) then
    { t with entries := t.entries.map fun e => if e.1 = key then (key, a) else e }
  else { t with entries := t.entries ++ [(key, a)] }

def find? {α : Type} (key : String) (t : TableOf α) : Option α := t.entries.lookup key

end TableOf

namespace Table

/-- A table that is opened by a header or that is the document itself. -/
def opened : Table := ⟨false, false, []⟩

/-- Work on the table at the end of a path, and open the tables on the way that do not exist yet.
With `dotted`, the path comes from a key with dots and may not enter tables that were opened in
another way. In a list of tables the path goes on in the last one. -/
def descend (dotted : Bool) (f : Table → Option Table) : List String → Table → Option Table
  | [], t => f t
  | key :: path, t =>
    match t.find? key with
    | none => (descend dotted f path ⟨true, dotted, []⟩).map fun child => t.put key (.table child)
    | some (.value _) => none
    | some (.tables closed last) =>
      (descend dotted f path last).map fun last => t.put key (.tables closed last)
    | some (.table child) =>
      if dotted && !child.implicit then none
      else (descend dotted f path child).map fun child => t.put key (.table child)

def splitPath : List String → Option (List String × String)
  | [] => none
  | [key] => some ([], key)
  | key :: path => (splitPath path).map fun p => (key :: p.1, p.2)

/-- Give a key of a table its value. The key must be new, and a table that is filled through a key
with dots must be one that such keys have opened. -/
def define (path : List String) (d : Data) (t : Table) : Option Table := do
  let (way, key) ← splitPath path
  descend (!way.isEmpty) (fun t =>
    if t.dotted = way.isEmpty then none
    else if (t.find? key).isSome then none
    else some (t.put key (.value d))) way t

/-- Open the table that a header names. It may exist already if it only lay on the way to
another. -/
def openTable (path : List String) (t : Table) : Option Table := do
  let (way, key) ← splitPath path
  descend false (fun t =>
    match t.find? key with
    | none => some (t.put key (.table opened))
    | some (.table child) =>
      if child.implicit && !child.dotted then
        some (t.put key (.table { child with implicit := false }))
      else none
    | some _ => none) way t

/-- Open one more table of the list that a header names. -/
def openElement (path : List String) (t : Table) : Option Table := do
  let (way, key) ← splitPath path
  descend false (fun t =>
    match t.find? key with
    | none => some (t.put key (.tables [] opened))
    | some (.tables closed last) => some (t.put key (.tables (closed ++ [last]) opened))
    | some _ => none) way t

end Table

mutual

def Node.data : Node → Data
  | .value d => d
  | .table t => .table (Node.fields t)
  | .tables closed last => .list (Node.elements closed ++ [.table (Node.fields last)])

def Node.fields : TableOf Node → List (String × Data)
  | ⟨_, _, entries⟩ => Node.entryData entries

def Node.entryData : List (String × Node) → List (String × Data)
  | [] => []
  | (key, node) :: rest => (key, node.data) :: Node.entryData rest

def Node.elements : List (TableOf Node) → List Data
  | [] => []
  | t :: rest => .table (Node.fields t) :: Node.elements rest

end

end FlowControl.Document.Toml
