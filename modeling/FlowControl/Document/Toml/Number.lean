import FlowControl.Document.Toml.Text

/-!
# Numbers of TOML

Whole numbers are decimal with an optional sign, or hexadecimal, octal or binary without one. A
decimal number has no leading zeros; between two digits there may be one underscore. Whole numbers
fit into 64 bits with a sign.

Of a number with a fraction or an exponent only its form matters here, with one exception: a
positive one that is too large for a double-precision number is refused.
-/

set_option autoImplicit false

namespace FlowControl.Document.Toml

/-- The digits from here on, without the underscores between them. An underscore that is not
followed by a digit is an error. -/
def moreDigits? (isDigit : Char → Bool) : Input → Option (List Char × Input)
  | '_' :: c :: rest =>
    if isDigit c then (moreDigits? isDigit rest).map fun d => (c :: d.1, d.2) else none
  | ['_'] => none
  | c :: rest =>
    if isDigit c then (moreDigits? isDigit rest).map fun d => (c :: d.1, d.2)
    else some ([], c :: rest)
  | [] => some ([], [])

def digits? (isDigit : Char → Bool) : Input → Option (List Char × Input)
  | c :: rest =>
    if isDigit c then (moreDigits? isDigit rest).map fun d => (c :: d.1, d.2) else none
  | [] => none

def valueOf (base : Nat) (digits : List Char) : Nat :=
  digits.foldl (fun n c => base * n + (hexValue? c).getD 0) 0

def isDigitOf (base : Nat) (c : Char) : Bool :=
  match hexValue? c with
  | some d => d < base
  | none => false

/-- Split off a sign; `true` stands for minus. -/
def sign : Input → Bool × Input
  | '-' :: rest => (true, rest)
  | '+' :: rest => (false, rest)
  | cs => (false, cs)

/-- The digits of a decimal whole number without its sign: a zero alone, or no zero in front. -/
def decimal? (cs : Input) : Option (List Char × Input) :=
  match cs with
  | '0' :: rest => some (['0'], rest)
  | cs => digits? Char.isDigit cs

def largestInt : Int := 9223372036854775807

def integer? (cs : Input) : Option (Int × Input) :=
  match cs with
  | '0' :: 'x' :: rest => based 16 rest
  | '0' :: 'o' :: rest => based 8 rest
  | '0' :: 'b' :: rest => based 2 rest
  | cs => do
    let (negative, rest) := sign cs
    let (digits, rest) ← decimal? rest
    let n : Int := valueOf 10 digits
    inRange (if negative then -n else n) rest
where
  inRange (n : Int) (rest : Input) : Option (Int × Input) :=
    if -largestInt - 1 ≤ n ∧ n ≤ largestInt then some (n, rest) else none
  based (base : Nat) (rest : Input) : Option (Int × Input) := do
    let (digits, rest) ← digits? (isDigitOf base) rest
    inRange (valueOf base digits) rest

/-- Does `mantissa · 10 ^ exponent` round to infinity as a double-precision number? It does from
half a unit above the largest such number on. Numbers of clearly too many or too few digits are
told apart without computing them. -/
def overflows (mantissa : Nat) (exponent : Int) : Bool :=
  let magnitude : Int := (Nat.toDigits 10 mantissa).length + exponent
  if mantissa = 0 || magnitude < 300 then false
  else if 320 < magnitude then true
  else
    let bound := (1 <<< 1024) - (1 <<< 970)
    if 0 ≤ exponent then bound ≤ mantissa * Nat.pow 10 exponent.toNat
    else bound * Nat.pow 10 (-exponent).toNat ≤ mantissa

def exponent? (cs : Input) : Option (Int × Input) := do
  let (negative, rest) := sign cs
  let (digits, rest) ← digits? Char.isDigit rest
  let n : Int := valueOf 10 digits
  some (if negative then -n else n, rest)

/-- The part of a number behind its whole digits: a fraction, an exponent, or both. The result is
the digits of the fraction and the exponent. -/
def fractionExponent? (cs : Input) : Option (List Char × Int × Input) :=
  match cs with
  | '.' :: rest => do
    let (fraction, rest) ← digits? Char.isDigit rest
    match rest with
    | c :: more =>
      if c = 'e' || c = 'E' then
        let (e, rest) ← exponent? more
        some (fraction, e, rest)
      else some (fraction, 0, rest)
    | [] => some (fraction, 0, [])
  | c :: rest =>
    if c = 'e' || c = 'E' then do
      let (e, rest) ← exponent? rest
      some ([], e, rest)
    else none
  | [] => none

/-- A number with a fraction or an exponent, or one of the words for infinity and for no number. -/
def real? (cs : Input) : Option Input :=
  let (negative, unsigned) := sign cs
  match unsigned with
  | 'i' :: 'n' :: 'f' :: rest => some rest
  | 'n' :: 'a' :: 'n' :: rest => some rest
  | _ => do
    let (whole, rest) ← decimal? unsigned
    let (fraction, e, rest) ← fractionExponent? rest
    if !negative && overflows (valueOf 10 (whole ++ fraction)) (e - fraction.length) then none
    else some rest

end FlowControl.Document.Toml
