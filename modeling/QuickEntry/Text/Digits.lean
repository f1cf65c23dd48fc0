/-! Decimal digits read as natural numbers. -/

namespace QuickEntry.Text

/-- The number that a list of ASCII digits denotes, continuing a number already read. -/
def digitsFrom (read : Nat) (digits : List Char) : Nat :=
  -- Each digit moves what was read one place to the left.
  digits.foldl (fun n d => n * 10 + (d.toNat - '0'.toNat)) read

/-- The number that a list of ASCII digits denotes. -/
def digitsValue (digits : List Char) : Nat := digitsFrom 0 digits

/-- A text of at least one character, all of them ASCII digits. -/
def isDigits (cs : List Char) : Bool := !cs.isEmpty && cs.all Char.isDigit

/-- An unsigned number up to a limit, with an optional plus sign before its digits. -/
def readNat? (limit : Nat) (cs : List Char) : Option Nat :=
  -- Leading zeros are allowed, and a sign alone is no number.
  let digits := match cs with
    | '+' :: rest => rest
    | _ => cs
  if isDigits digits && digitsValue digits ≤ limit then some (digitsValue digits) else none

/-- A hexadecimal digit. -/
def isHexDigit (c : Char) : Bool := c.isDigit || ('a' ≤ c && c ≤ 'f') || ('A' ≤ c && c ≤ 'F')

/-- The value of a hexadecimal digit. -/
def hexDigitValue (c : Char) : Nat :=
  -- Letters of both cases go on counting after nine.
  if c.isDigit then c.toNat - '0'.toNat
  else if 'a' ≤ c then c.toNat - 'a'.toNat + 10
  else c.toNat - 'A'.toNat + 10

/-- The number that hexadecimal digits denote. -/
def hexValue (digits : List Char) : Nat := digits.foldl (fun n d => n * 16 + hexDigitValue d) 0

/-- The largest number of a 64-bit word, the limit of counts. -/
def maxWord : Nat := UInt64.size - 1

end QuickEntry.Text
