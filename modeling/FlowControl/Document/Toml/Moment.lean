import FlowControl.Document.Toml.Number

/-!
# Dates and times of TOML

A moment is a date, a time of day, or a date with a time and perhaps an offset from universal time.
No setting is a moment; the reader only has to know how far one reaches and whether it exists.
-/

set_option autoImplicit false

namespace FlowControl.Document.Toml

def fixedDigits? (count low high : Nat) (cs : Input) : Option (Nat × Input) :=
  let shown := cs.take count
  if shown.length = count && shown.all Char.isDigit then
    let n := valueOf 10 shown
    if low ≤ n && n ≤ high then some (n, cs.drop count) else none
  else none

def expect? (c : Char) : Input → Option Input
  | c' :: rest => if c = c' then some rest else none
  | [] => none

/-- How many days a month has. Every fourth year is a leap year, but of the full centuries only
every fourth. -/
def daysIn (year month : Nat) : Nat :=
  if month = 2 then
    if year % 4 = 0 && (year % 100 ≠ 0 || year % 400 = 0) then 29 else 28
  else if month = 4 || month = 6 || month = 9 || month = 11 then 30
  else 31

def date? (cs : Input) : Option Input := do
  let (year, rest) ← fixedDigits? 4 0 9999 cs
  let rest ← expect? '-' rest
  let (month, rest) ← fixedDigits? 2 1 12 rest
  let rest ← expect? '-' rest
  let (_, rest) ← fixedDigits? 2 1 (daysIn year month) rest
  some rest

/-- Skip a time of day. A minute may have a leap second. -/
def time? (cs : Input) : Option Input := do
  let (_, rest) ← fixedDigits? 2 0 23 cs
  let rest ← expect? ':' rest
  let (_, rest) ← fixedDigits? 2 0 59 rest
  let rest ← expect? ':' rest
  let (_, rest) ← fixedDigits? 2 0 60 rest
  match rest with
  | '.' :: c :: more => if c.isDigit then some (more.dropWhile Char.isDigit) else some rest
  | _ => some rest

def skipOffset (cs : Input) : Input :=
  match cs with
  | 'Z' :: rest => rest
  | 'z' :: rest => rest
  | c :: rest =>
    if c = '+' || c = '-' then
      (do
        let (_, rest) ← fixedDigits? 2 0 23 rest
        let rest ← expect? ':' rest
        let (_, rest) ← fixedDigits? 2 0 59 rest
        some rest).getD cs
    else cs
  | [] => cs

def moment? (cs : Input) : Option Input :=
  match date? cs with
  | none => time? cs
  | some rest =>
    match rest with
    | c :: more =>
      if c = 'T' || c = 't' || c = ' ' then
        match time? more with
        | some rest => some (skipOffset rest)
        | none => some rest
      else some rest
    | [] => some []

end FlowControl.Document.Toml
