import QuickEntry.Json.Basic

/-! The text of JSON values, compact or with one member a line. -/

namespace QuickEntry

namespace Decimal

/-- The text of a decimal: positional from `10 ^ -5` to below `10 ^ 16`, always with a point, and
otherwise with an exponent after one digit and the rest. -/
def text (x : Decimal) : List Char :=
  let digits := Nat.toDigits 10 x.digits
  let count := digits.length
  -- The number of digits before the point in positional notation.
  let point : Int := count + x.exponent
  if 0 < point && point ≤ 16 then
    if 0 ≤ x.exponent then digits ++ List.replicate x.exponent.toNat '0' ++ ['.', '0']
    else digits.take point.toNat ++ '.' :: digits.drop point.toNat
  else if -5 < point && point ≤ 0 then
    '0' :: '.' :: List.replicate (-point).toNat '0' ++ digits
  else
    let power := point - 1
    let sign := if power < 0 then '-' else '+'
    let fraction := if count = 1 then [] else '.' :: digits.drop 1
    digits.take 1 ++ fraction ++ 'e' :: sign :: Nat.toDigits 10 power.natAbs

end Decimal

/-- The text of a double: its shortest decimal behind its sign, and zero as `0.0`. -/
def Double.text (d : Double) : List Char :=
  -- A zero has no shortest digits but may have a sign.
  let sign := if d.negative then ['-'] else []
  if d.isZero then sign ++ "0.0".toList else sign ++ d.shortest.text

/-- The text of a number. -/
def JsonNumber.text : JsonNumber → List Char
  | integer (.ofNat n) => Nat.toDigits 10 n
  | integer (.negSucc n) => '-' :: Nat.toDigits 10 (n + 1)
  | double d => d.text

namespace Json

/-- The hexadecimal digit of a number below sixteen. -/
def hexDigit (n : Nat) : Char := Nat.digitChar n

/-- A character as it stands inside a string: quotes, backslashes and control characters are
escaped, the common controls by a letter. -/
def escapeChar (c : Char) : List Char :=
  if c = '"' then ['\\', '"']
  else if c = '\\' then ['\\', '\\']
  else if c = '\x08' then ['\\', 'b']
  else if c = '\x0c' then ['\\', 'f']
  else if c = '\n' then ['\\', 'n']
  else if c = '\r' then ['\\', 'r']
  else if c = '\t' then ['\\', 't']
  else if c.toNat < 0x20 then
    ['\\', 'u', '0', '0', hexDigit (c.toNat / 16), hexDigit (c.toNat % 16)]
  else [c]

/-- A text in double quotes. -/
def quote (text : String) : List Char := '"' :: text.toList.flatMap escapeChar ++ ['"']

mutual

/-- The text of a value without any white space. -/
def compactChars : Json → List Char
  -- The order of members is the order of the value.
  | null => "null".toList
  | bool true => "true".toList
  | bool false => "false".toList
  | number n => n.text
  | string s => quote s
  | array items => '[' :: compactItems items
  | object members => '\x7b' :: compactMembers members

/-- The items of an array up to its closing bracket. -/
def compactItems : List Json → List Char
  | [] => [']']
  | [last] => compactChars last ++ [']']
  | item :: rest => compactChars item ++ ',' :: compactItems rest

/-- The members of an object up to its closing brace. -/
def compactMembers : List (String × Json) → List Char
  | [] => ['\x7d']
  | [(name, last)] => quote name ++ ':' :: compactChars last ++ ['\x7d']
  | (name, value) :: rest => quote name ++ ':' :: compactChars value ++ ',' :: compactMembers rest

end

/-- The text of a value without any white space. -/
def compact (value : Json) : String := String.ofList value.compactChars

/-- A line break and the blanks of a nesting level, two each. -/
def newLine (level : Nat) : List Char := '\n' :: List.replicate (2 * level) ' '

mutual

/-- The text of a value with one item or member a line, at a nesting level. -/
def prettyChars (level : Nat) : Json → List Char
  -- Empty containers stay on one line.
  | array [] => ['[', ']']
  | array (item :: rest) =>
    '[' :: newLine (level + 1) ++ prettyChars (level + 1) item ++ prettyItems level rest
  | object [] => ['\x7b', '\x7d']
  | object ((name, value) :: rest) =>
    '\x7b' :: newLine (level + 1) ++ quote name ++ ':' :: ' ' :: prettyChars (level + 1) value ++
      prettyMembers level rest
  | null => "null".toList
  | bool true => "true".toList
  | bool false => "false".toList
  | number n => n.text
  | string s => quote s

/-- The items after the first, up to the closing bracket on a line of its own. -/
def prettyItems (level : Nat) : List Json → List Char
  | [] => newLine level ++ [']']
  | item :: rest =>
    ',' :: newLine (level + 1) ++ prettyChars (level + 1) item ++ prettyItems level rest

/-- The members after the first, up to the closing brace on a line of its own. -/
def prettyMembers (level : Nat) : List (String × Json) → List Char
  | [] => newLine level ++ ['\x7d']
  | (name, value) :: rest =>
    ',' :: newLine (level + 1) ++ quote name ++ ':' :: ' ' :: prettyChars (level + 1) value ++
      prettyMembers level rest

end

/-- The text of a value with one item or member a line. -/
def pretty (value : Json) : String := String.ofList (prettyChars 0 value)

end Json

end QuickEntry
