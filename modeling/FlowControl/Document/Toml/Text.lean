/-!
# Characters, line ends, texts and keys of TOML

The small parts of the notation. Every function takes the characters that are still to be read and,
when it finds what it looks for, returns it with the characters behind it.

Texts come in four forms: between double or single quotes, on one line or, with tripled quotes, on
several. Only double quotes know escapes. Near the end of a text with tripled quotes, up to two
further quotes belong to the text itself.
-/

set_option autoImplicit false

namespace FlowControl.Document.Toml

abbrev Input := List Char

/-! ## Blanks, comments and line ends -/

def isBlank (c : Char) : Bool := c = ' ' || c = '\t'

/-- May the character stand in a comment, or as itself in a text? Control characters may not,
except the tab. -/
def isPlain (c : Char) : Bool := c = '\t' || (32 ≤ c.toNat && c.toNat ≠ 127)

def skipBlanks (cs : Input) : Input := cs.dropWhile isBlank

/-- A line end: a line feed, with or without a carriage return before it. -/
def newline? : Input → Option Input
  | '\n' :: rest => some rest
  | '\r' :: '\n' :: rest => some rest
  | _ => none

def skipComment : Input → Input
  | '#' :: rest => rest.dropWhile isPlain
  | cs => cs

/-- The end of a line with content: blanks, perhaps a comment, and a line end or the end of the
document. -/
def lineEnd? (cs : Input) : Option Input :=
  match skipComment (skipBlanks cs) with
  | [] => some []
  | rest => newline? rest

/-- Skip blanks, comments and line ends, as between the items of a list. A comment must end with
its line. -/
def skipLines : Nat → Input → Option Input
  | 0, cs => some cs
  | fuel + 1, cs =>
    match skipBlanks cs with
    | '#' :: rest => (newline? (rest.dropWhile isPlain)).bind (skipLines fuel)
    | rest =>
      match newline? rest with
      | some rest => skipLines fuel rest
      | none => some rest

/-! ## Texts -/

def hexValue? (c : Char) : Option Nat :=
  if '0' ≤ c ∧ c ≤ '9' then some (c.toNat - 48)
  else if 'a' ≤ c ∧ c ≤ 'f' then some (c.toNat - 87)
  else if 'A' ≤ c ∧ c ≤ 'F' then some (c.toNat - 55)
  else none

/-- The character whose code point is written with exactly `digits` hexadecimal digits. -/
def codePoint? (digits : Nat) (cs : Input) : Option (Char × Input) := do
  let shown := cs.take digits
  if shown.length ≠ digits then none
  let n ← shown.foldlM (fun n c => (hexValue? c).map (16 * n + ·)) 0
  if n.isValidChar then some (Char.ofNat n, cs.drop digits) else none

def escape? : Input → Option (Char × Input)
  | 'b' :: rest => some ('\x08', rest)
  | 't' :: rest => some ('\t', rest)
  | 'n' :: rest => some ('\n', rest)
  | 'f' :: rest => some ('\x0c', rest)
  | 'r' :: rest => some ('\r', rest)
  | '\x22' :: rest => some ('\x22', rest)
  | '\x5c' :: rest => some ('\x5c', rest)
  | 'u' :: rest => codePoint? 4 rest
  | 'U' :: rest => codePoint? 8 rest
  | _ => none

/-- Skip blanks and line ends behind a backslash that ends its line. -/
def continuation? (cs : Input) : Option Input :=
  (newline? (skipBlanks cs)).map fun rest => skip rest.length rest
where
  skip : Nat → Input → Input
    | 0, cs => cs
    | fuel + 1, cs =>
      match newline? (skipBlanks cs) with
      | some rest => skip fuel rest
      | none => skipBlanks cs

def lineText? (quote : Char) (escapes : Bool) : Nat → Input → Option (List Char × Input)
  | 0, _ => none
  | fuel + 1, cs =>
    match cs with
    | [] => none
    | c :: rest =>
      if c = quote then some ([], rest)
      else if escapes && c = '\x5c' then do
        let (c, rest) ← escape? rest
        let (text, rest) ← lineText? quote escapes fuel rest
        some (c :: text, rest)
      else if isPlain c then do
        let (text, rest) ← lineText? quote escapes fuel rest
        some (c :: text, rest)
      else none

/-- The rest of a text on several lines, up to the closing quotes. Of a run of quotes that closes
the text, at most two at the front belong to the text. -/
def linesText? (quote : Char) (escapes : Bool) : Nat → Input → Option (List Char × Input)
  | 0, _ => none
  | fuel + 1, cs =>
    match cs with
    | [] => none
    | c :: rest =>
      if c = quote then
        let run := min 5 (cs.takeWhile (· = quote)).length
        if 3 ≤ run then some (List.replicate (run - 3) quote, cs.drop run)
        else do
          let (text, rest) ← linesText? quote escapes fuel rest
          some (c :: text, rest)
      else if escapes && c = '\x5c' then
        match continuation? rest with
        | some rest => linesText? quote escapes fuel rest
        | none => do
          let (c, rest) ← escape? rest
          let (text, rest) ← linesText? quote escapes fuel rest
          some (c :: text, rest)
      else
        match newline? cs with
        | some rest => do
          let (text, rest) ← linesText? quote escapes fuel rest
          some ('\n' :: text, rest)
        | none =>
          if isPlain c then do
            let (text, rest) ← linesText? quote escapes fuel rest
            some (c :: text, rest)
          else none

/-- A text in any of the four forms. A line end right behind tripled quotes is not part of it. -/
def text? (cs : Input) : Option (String × Input) :=
  match cs with
  | '\x22' :: '\x22' :: '\x22' :: rest => several '\x22' true rest
  | '\x27' :: '\x27' :: '\x27' :: rest => several '\x27' false rest
  | '\x22' :: rest => single '\x22' true rest
  | '\x27' :: rest => single '\x27' false rest
  | _ => none
where
  single (quote : Char) (escapes : Bool) (rest : Input) : Option (String × Input) :=
    (lineText? quote escapes (rest.length + 1) rest).map fun t => (String.ofList t.1, t.2)
  several (quote : Char) (escapes : Bool) (rest : Input) : Option (String × Input) :=
    let rest := (newline? rest).getD rest
    (linesText? quote escapes (rest.length + 1) rest).map fun t => (String.ofList t.1, t.2)

/-! ## Keys -/

def isBareKeyChar (c : Char) : Bool := c.isAlphanum || c = '_' || c = '-'

def simpleKey? (cs : Input) : Option (String × Input) :=
  match cs with
  | '\x22' :: rest => text?.single '\x22' true rest
  | '\x27' :: rest => text?.single '\x27' false rest
  | cs =>
    let word := cs.takeWhile isBareKeyChar
    if word.isEmpty then none else some (String.ofList word, cs.dropWhile isBareKeyChar)

/-- Keys have fewer than 80 parts, and values are nested less than 80 deep. -/
def depthLimit : Nat := 80

/-- A key of parts between dots, with blanks around each part. -/
def key? (cs : Input) : Option (List String × Input) :=
  (parts (cs.length + 1) cs).filter fun k => k.1.length < depthLimit
where
  parts : Nat → Input → Option (List String × Input)
    | 0, _ => none
    | fuel + 1, cs => do
      let (part, rest) ← simpleKey? (skipBlanks cs)
      match skipBlanks rest with
      | '.' :: rest =>
        let (others, rest) ← parts fuel rest
        some (part :: others, rest)
      | rest => some ([part], rest)

end FlowControl.Document.Toml
