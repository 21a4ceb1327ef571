import FlowControl.Document.Toml.Value

/-!
# TOML documents

A document is a sequence of lines: headers, which open a table or one more table of a list, keys
with their values, comments and empty lines. The keys behind a header belong to the table that it
opens.
-/

set_option autoImplicit false

namespace FlowControl.Document.Toml

/-- What has been read of a document: the tables so far, and the path of the one that is open. -/
structure Progress where
  root : Table
  path : List String

def header? (cs : Input) (p : Progress) : Option (Progress × Input) :=
  match cs with
  | '[' :: rest => do
    let (path, rest) ← key? rest
    let rest ← expect? ']' rest
    let rest ← expect? ']' rest
    let rest ← lineEnd? rest
    let root ← p.root.openElement path
    some (⟨root, path⟩, rest)
  | rest => do
    let (path, rest) ← key? rest
    let rest ← expect? ']' rest
    let rest ← lineEnd? rest
    let root ← p.root.openTable path
    some (⟨root, path⟩, rest)

def pair? (cs : Input) (p : Progress) : Option (Progress × Input) := do
  let (key, rest) ← key? cs
  let rest ← expect? '=' rest
  let rest := skipBlanks rest
  let (d, rest) ← value? (2 * rest.length + 2) 0 rest
  let rest ← lineEnd? rest
  let root ← Table.descend false (Table.define key d) p.path p.root
  some ({ p with root }, rest)

def lines? : Nat → Input → Progress → Option Progress
  | 0, _, _ => none
  | fuel + 1, cs, p =>
    match skipBlanks cs with
    | [] => some p
    | '#' :: rest => (lineEnd? ('#' :: rest)).bind fun rest => lines? fuel rest p
    | '[' :: rest => (header? rest p).bind fun out => lines? fuel out.2 out.1
    | rest =>
      match newline? rest with
      | some rest => lines? fuel rest p
      | none => (pair? rest p).bind fun out => lines? fuel out.2 out.1

/-- The table that a document describes, unless it breaks a rule of the notation. A byte order mark
in front is skipped. -/
def read? (s : String) : Option Data :=
  let cs := match s.toList with
    | '\ufeff' :: rest => rest
    | cs => cs
  (lines? (cs.length + 1) cs ⟨Table.opened, []⟩).map fun p => .table (Node.fields p.root)

end FlowControl.Document.Toml
