import QuickEntry.Json.Basic
import QuickEntry.Text.Digits

/-! JSON texts read into trees that keep what a text says: the digits of numbers, repeated members
and escapes that spell no character. -/

namespace QuickEntry.Json

open QuickEntry.Text

/-- A number as written. -/
structure Numeral where
  negative : Bool
  whole : List Char
  /-- The digits after the point, if there is one. -/
  fraction : Option (List Char)
  /-- The sign and the digits of the exponent, if there is one. -/
  exponent : Option (Bool × List Char)
deriving DecidableEq, Repr

/-- A value as written. A string whose escapes spell no character has no text. -/
inductive Written where
  | null
  | bool (value : Bool)
  | number (numeral : Numeral)
  | string (text : Option String)
  | array (items : List Written)
  | object (members : List (Option String × Written))
deriving Repr

namespace Numeral

/-- Append digits to a count as long as it fits a 64-bit word; the digits that do not fit are
given back. -/
def accumulate (count : Nat) : List Char → Nat × List Char
  -- The first digit that does not fit ends the count, even if later ones were small.
  | [] => (count, [])
  | d :: rest =>
    let next := digitsFrom count [d]
    if next ≤ maxWord then accumulate next rest else (count, d :: rest)

/-- The number that a numeral denotes. Without point and exponent it is an integer if it fits 64
bits, unsigned or, behind a minus sign, signed; minus zero and everything else is a double, which
is built from the digits that fit 64 bits. Too large a number has none. -/
def value? (n : Numeral) : Option JsonNumber :=
  -- Digits that spilled before the point still count as places, those after it do not.
  let (count, spilled) := accumulate 0 n.whole
  match n.fraction, n.exponent, spilled with
  | none, none, [] =>
    if !n.negative then some (.integer count)
    else if 0 < count && count ≤ UInt64.size / 2 then some (.integer (-count))
    else (Double.ofQuotient true count 1).map .double
  | _, _, _ =>
    let fraction := n.fraction.getD []
    let (significand, ignored) := accumulate count fraction
    let power : Int := match n.exponent with
      | none => 0
      | some (true, digits) => -digitsValue digits
      | some (false, digits) => digitsValue digits
    let shift : Int := spilled.length - (fraction.length - ignored.length : Nat)
    (Double.ofScientific n.negative significand (shift + power)).map .double

/-- Read digits, of which there is at least one. -/
def readDigits (cs : List Char) : Option (List Char × List Char) :=
  let digits := cs.takeWhile Char.isDigit
  if digits.isEmpty then none else some (digits, cs.dropWhile Char.isDigit)

/-- Read the digits before the point: a zero on its own or digits that start with no zero. -/
def readWhole (cs : List Char) : Option (List Char × List Char) := do
  -- A leading zero stands alone.
  let (digits, left) ← readDigits cs
  if digits.head? = some '0' && digits.length ≠ 1 then none else return (digits, left)

/-- Read a point and the digits after it, if there is a point. -/
def readFraction : List Char → Option (Option (List Char) × List Char)
  | '.' :: rest => (readDigits rest).map fun (digits, left) => (some digits, left)
  | cs => some (none, cs)

/-- Read an exponent, if there is one; `true` stands for a minus sign. -/
def readExponent (cs : List Char) : Option (Option (Bool × List Char) × List Char) :=
  -- A mark without digits is an error, not the end of the number.
  match cs with
  | mark :: rest =>
    if mark = 'e' || mark = 'E' then
      let (negative, digits) := match rest with
        | '-' :: digits => (true, digits)
        | '+' :: digits => (false, digits)
        | digits => (false, digits)
      (readDigits digits).map fun (digits, left) => (some (negative, digits), left)
    else some (none, cs)
  | [] => some (none, [])

/-- Read a number. -/
def read (cs : List Char) : Option (Numeral × List Char) := do
  -- The parts follow each other without white space.
  let (negative, unsigned) := match cs with
    | '-' :: rest => (true, rest)
    | _ => (false, cs)
  let (whole, left) ← readWhole unsigned
  let (fraction, left) ← readFraction left
  let (exponent, left) ← readExponent left
  return (⟨negative, whole, fraction, exponent⟩, left)

end Numeral

/-- The character after a backslash that stands for one character. -/
def unescapeLetter : Char → Option Char
  | '"' => some '"'
  | '\\' => some '\\'
  | '/' => some '/'
  | 'b' => some '\x08'
  | 'f' => some '\x0c'
  | 'n' => some '\n'
  | 'r' => some '\r'
  | 't' => some '\t'
  | _ => none

/-- Read a string after its opening quote into code points; an escape of four hexadecimal digits
may give half of a pair. -/
def readCodes : List Char → Option (List Nat × List Char)
  -- Control characters have to be escaped.
  | [] => none
  | '"' :: rest => some ([], rest)
  | '\\' :: 'u' :: a :: b :: c :: d :: rest =>
    if [a, b, c, d].all isHexDigit then
      (readCodes rest).map fun (codes, left) => (hexValue [a, b, c, d] :: codes, left)
    else none
  | '\\' :: letter :: rest => do
    let meant ← unescapeLetter letter
    let (codes, left) ← readCodes rest
    return (meant.toNat :: codes, left)
  | c :: rest =>
    if c = '\\' || c.toNat < 0x20 then none
    else (readCodes rest).map fun (codes, left) => (c.toNat :: codes, left)

/-- The first half of a pair. -/
def isHighHalf (code : Nat) : Bool := 0xd800 ≤ code && code < 0xdc00

/-- The second half of a pair. -/
def isLowHalf (code : Nat) : Bool := 0xdc00 ≤ code && code < 0xe000

/-- The characters that code points spell, halves of pairs put together; a half on its own spells
none. -/
def spell : List Nat → Option (List Char)
  -- A first half needs a second one right behind it.
  | [] => some []
  | [code] => if isHighHalf code || isLowHalf code then none else some [Char.ofNat code]
  | code :: next :: rest =>
    if isHighHalf code then
      if isLowHalf next then
        let joined := 0x10000 + (code - 0xd800) * 0x400 + (next - 0xdc00)
        (spell rest).map (Char.ofNat joined :: ·)
      else none
    else if isLowHalf code then none
    else (spell (next :: rest)).map (Char.ofNat code :: ·)

namespace Written

/-- Drop leading white space. -/
def skip (cs : List Char) : List Char :=
  cs.dropWhile fun c => c = ' ' || c = '\n' || c = '\t' || c = '\r'

/-- Read a string after its opening quote. -/
def readString (cs : List Char) : Option (Option String × List Char) :=
  (readCodes cs).map fun (codes, left) => ((spell codes).map String.ofList, left)

mutual

/-- Read a value; the first argument bounds the number of steps. -/
def read : Nat → List Char → Option (Written × List Char)
  -- Empty containers are settled here, so that lists of items always have a first.
  | 0, _ => none
  | room + 1, cs =>
    match skip cs with
    | 'n' :: 'u' :: 'l' :: 'l' :: left => some (null, left)
    | 't' :: 'r' :: 'u' :: 'e' :: left => some (bool true, left)
    | 'f' :: 'a' :: 'l' :: 's' :: 'e' :: left => some (bool false, left)
    | '"' :: inside => (readString inside).map fun (text, left) => (string text, left)
    | '[' :: inside =>
      match skip inside with
      | ']' :: left => some (array [], left)
      | _ => (readItems room inside).map fun (items, left) => (array items, left)
    | '\x7b' :: inside =>
      match skip inside with
      | '\x7d' :: left => some (object [], left)
      | _ => (readMembers room inside).map fun (members, left) => (object members, left)
    | other => (Numeral.read other).map fun (numeral, left) => (number numeral, left)

/-- Read the items of an array up to and including its closing bracket. -/
def readItems : Nat → List Char → Option (List Written × List Char)
  -- A comma promises another item.
  | 0, _ => none
  | room + 1, cs => do
    let (item, left) ← read room cs
    match skip left with
    | ']' :: left => return ([item], left)
    | ',' :: next => do
      let (items, left) ← readItems room next
      return (item :: items, left)
    | _ => none

/-- Read the members of an object up to and including its closing brace. -/
def readMembers : Nat → List Char → Option (List (Option String × Written) × List Char)
  -- Names are strings, and repeated ones are all kept.
  | 0, _ => none
  | room + 1, cs =>
    match skip cs with
    | '"' :: inside => do
      let (name, left) ← readString inside
      match skip left with
      | ':' :: next => do
        let (value, left) ← read room next
        match skip left with
        | '\x7d' :: left => return ([(name, value)], left)
        | ',' :: next => do
          let (members, left) ← readMembers room next
          return ((name, value) :: members, left)
        | _ => none
      | _ => none
    | _ => none

end

/-- The value that a whole text writes. -/
def ofText? (text : String) : Option Written := do
  -- Every second step at least takes a character, which bounds the number of steps.
  let cs := text.toList
  let (value, left) ← read (2 * cs.length + 2) cs
  if (skip left).isEmpty then some value else none

end Written

end QuickEntry.Json
