import FlowControl.Document.Toml.Moment
import FlowControl.Document.Toml.Table

/-!
# Values of TOML

A value is a text, a truth value, a number, a moment, a list or a table in braces. A list may go
over several lines and end with a comma; a table in braces stays on one line and may not. Lists and
tables are nested less than `depthLimit` deep.

The reader recurses on a count that is larger than the number of characters left, of which every
step consumes some.
-/

set_option autoImplicit false

namespace FlowControl.Document.Toml

/-- A value that starts like a number: a moment, else a number with a fraction or an exponent, else
a whole number. -/
def numeric? (cs : Input) : Option (Data × Input) :=
  match moment? cs with
  | some rest => some (.moment, rest)
  | none =>
    match real? cs with
    | some rest => some (.real, rest)
    | none => (integer? cs).map fun n => (.int n.1, n.2)

def scalar? (cs : Input) : Option (Data × Input) :=
  match cs with
  | 't' :: 'r' :: 'u' :: 'e' :: rest => some (.bool true, rest)
  | 'f' :: 'a' :: 'l' :: 's' :: 'e' :: rest => some (.bool false, rest)
  | 'i' :: 'n' :: 'f' :: rest => some (.real, rest)
  | 'n' :: 'a' :: 'n' :: rest => some (.real, rest)
  | c :: _ =>
    if c = '\x22' || c = '\x27' then (text? cs).map fun t => (.text t.1, t.2)
    else if c = '+' || c = '-' || c.isDigit then numeric? cs
    else none
  | [] => none

mutual

/-- A value; `depth` is the number of lists and tables around it. -/
def value? : Nat → Nat → Input → Option (Data × Input)
  | 0, _, _ => none
  | fuel + 1, depth, cs =>
    match cs with
    | '[' :: rest =>
      if depth + 1 < depthLimit then
        (items? fuel (depth + 1) rest).map fun l => (.list l.1, l.2)
      else none
    | '\x7b' :: rest =>
      if depth + 1 < depthLimit then do
        let (fields, rest) ←
          match skipBlanks rest with
          | '\x7d' :: rest => some ([], rest)
          | _ => pairs? fuel (depth + 1) rest
        let t ← fields.foldlM (fun t f => Table.define f.1 f.2 t) Table.opened
        some (.table (Node.fields t), rest)
      else none
    | cs => scalar? cs

def items? : Nat → Nat → Input → Option (List Data × Input)
  | 0, _, _ => none
  | fuel + 1, depth, cs => do
    let rest ← skipLines (cs.length + 1) cs
    match rest with
    | ']' :: rest => some ([], rest)
    | rest =>
      let (d, rest) ← value? fuel depth rest
      let rest ← skipLines (rest.length + 1) rest
      match rest with
      | ',' :: rest =>
        let (ds, rest) ← items? fuel depth rest
        some (d :: ds, rest)
      | ']' :: rest => some ([d], rest)
      | _ => none

def pairs? : Nat → Nat → Input → Option (List (List String × Data) × Input)
  | 0, _, _ => none
  | fuel + 1, depth, cs => do
    let (key, rest) ← key? cs
    let rest ← expect? '=' rest
    let (d, rest) ← value? fuel depth (skipBlanks rest)
    match skipBlanks rest with
    | ',' :: rest =>
      let (others, rest) ← pairs? fuel depth rest
      some ((key, d) :: others, rest)
    | '\x7d' :: rest => some ([(key, d)], rest)
    | _ => none

end

end FlowControl.Document.Toml
