import FlowControl.Text.Unprintable

/-!
# Quoted text

The form in which a text value appears inside a description: between double quotes, with the
quote, the backslash and everything that does not print on its own escaped. Characters that print
are kept, whatever their script.
-/

set_option autoImplicit false

namespace FlowControl.Text

/-- The lower-case hexadecimal digits of a number, without leading zeros. -/
def hexDigits (n : Nat) : String := String.ofList (Nat.toDigits 16 n)

def escapeChar (c : Char) : String :=
  if c = '\x00' then "\\0"
  else if c = '\t' then "\\t"
  else if c = '\r' then "\\r"
  else if c = '\n' then "\\n"
  else if c = '\x22' then "\\\""
  else if c = '\x5c' then "\\\\"
  else if isUnprintable c then "\\u\x7b" ++ hexDigits c.toNat ++ "\x7d"
  else c.toString

/-- A text between double quotes, escaped so that it stays on one line and shows what it holds. -/
def quoted (s : String) : String :=
  "\"" ++ s.foldl (fun out c => out ++ escapeChar c) "" ++ "\""

end FlowControl.Text
