/-! Literal shorthands: numbers and quoted texts that can be typed instead of a catalog entry. -/

namespace QuickEntry

/-- A shorthand that stands for a block holding a constant. -/
inductive Literal where
  /-- A decimal number, as it is to be stored. -/
  | number (digits : String)
  /-- The characters between the quotes. -/
  | text (content : String)
deriving DecidableEq, Repr

namespace Literal

/-- The kind of the block that a literal becomes. -/
def kind : Literal → String
  | number _ => "math_number"
  | text _ => "text"

/-- The field of that block which holds the constant. -/
def fieldName : Literal → String
  | number _ => "NUM"
  | text _ => "TEXT"

/-- The constant itself. -/
def value : Literal → String
  | number digits => digits
  | text content => content

/-- Digits, or digits around a point with at least one digit after it. -/
def isUnsignedDecimal (cs : List Char) : Bool :=
  -- Digits may be missing before the point but not after it.
  match cs.dropWhile Char.isDigit with
  | [] => !cs.isEmpty
  | '.' :: fraction => !fraction.isEmpty && fraction.all Char.isDigit
  | _ => false

/-- A decimal number with at most one sign; a plus sign is not stored. -/
def decimal? : List Char → Option (List Char)
  -- Only the minus sign belongs to the stored number.
  | '+' :: digits => if isUnsignedDecimal digits then some digits else none
  | '-' :: digits => if isUnsignedDecimal digits then some ('-' :: digits) else none
  | digits => if isUnsignedDecimal digits then some digits else none

/-- The characters between a first and a last double quote. -/
def quoted? : List Char → Option (List Char)
  -- One quote cannot be the first and the last at once.
  | '"' :: rest => if rest.getLast? = some '"' then some rest.dropLast else none
  | _ => none

/-- The literal that a text spells, if it spells one. -/
def ofText? (spelled : String) : Option Literal :=
  -- A quoted text never reads as a number, so that the order does not matter.
  match quoted? spelled.toList with
  | some content => some (text (String.ofList content))
  | none => (decimal? spelled.toList).map fun digits => number (String.ofList digits)

end Literal

end QuickEntry
