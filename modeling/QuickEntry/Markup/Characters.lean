import QuickEntry.Text.Digits
import QuickEntry.Text.Range

/-! The characters of markup: which may occur, which form names, and how references spell them. -/

namespace QuickEntry.Markup

open QuickEntry.Text

/-- White space of markup, which is narrower than that of a text. -/
def isSpace (c : Char) : Bool := c = ' ' || c = '\t' || c = '\n' || c = '\r'

/-- The characters that a document may contain. -/
def isLegal (c : Char) : Bool :=
  -- Of the control characters only white space may occur.
  if c.toNat < 0x20 then isSpace c else c.toNat ≠ 0xfffe && c.toNat ≠ 0xffff

/-- The code points beyond ASCII that may start a name. -/
def nameStartRanges : Ranges :=
  [(0xc0, 0xd6), (0xd8, 0xf6), (0xf8, 0x2ff), (0x370, 0x37d), (0x37f, 0x1fff), (0x200c, 0x200d),
   (0x2070, 0x218f), (0x2c00, 0x2fef), (0x3001, 0xd7ff), (0xf900, 0xfdcf), (0xfdf0, 0xfffd),
   (0x10000, 0xeffff)]

/-- The code points beyond ASCII that may go on in a name but not start one. -/
def nameGoOnRanges : Ranges := [(0xb7, 0xb7), (0x300, 0x36f), (0x203f, 0x2040)]

/-- A character that may start a name. -/
def isNameStart (c : Char) : Bool :=
  -- The colon is a name character here; names are split at it later.
  if c.toNat ≤ 128 then c.isAlpha || c = ':' || c = '_' else nameStartRanges.holds c.toNat

/-- A character that may occur in a name. -/
def isNameChar (c : Char) : Bool :=
  if c.toNat ≤ 128 then c.isAlphanum || c = ':' || c = '_' || c = '-' || c = '.'
  else nameStartRanges.holds c.toNat || nameGoOnRanges.holds c.toNat

/-- The character with a given number; numbers of no character become the replacement character,
and characters that may not occur are refused, as are numbers beyond 32 bits. -/
def charNumbered? (code : Nat) : Option Char :=
  -- Halves of pairs and numbers beyond the last character have no character of their own.
  if code < UInt32.size then
    let c := if code.isValidChar then Char.ofNat code else Char.ofNat 0xfffd
    if isLegal c then some c else none
  else none

/-- The character that a reference stands for, given what is between its ampersand and its
semicolon. -/
def referenced? : List Char → Option Char
  -- No document declares entities of its own, so that five names are all there are.
  | '#' :: 'x' :: digits =>
    if !digits.isEmpty && digits.all isHexDigit then charNumbered? (hexValue digits) else none
  | '#' :: digits => if isDigits digits then charNumbered? (digitsValue digits) else none
  | ['q', 'u', 'o', 't'] => some '"'
  | ['a', 'm', 'p'] => some '&'
  | ['a', 'p', 'o', 's'] => some '\''
  | ['l', 't'] => some '<'
  | ['g', 't'] => some '>'
  | _ => none

/-- Read a text with references: a character referred to stays as it is, while white space that
is written out becomes a blank, a carriage return before a line feed none at all. The first
argument collects an open reference, last character first. -/
def unescapeFrom : Option (List Char) → List Char → Option (List Char)
  -- A reference that is still open at the end is an error.
  | none, [] => some []
  | some _, [] => none
  | none, c :: rest =>
    if c = '&' then unescapeFrom (some []) rest
    else if c = '\r' && rest.head? = some '\n' then unescapeFrom none rest
    else (unescapeFrom none rest).map ((if isSpace c then ' ' else c) :: ·)
  | some reversed, c :: rest =>
    if c = ';' then do
      let meant ← referenced? reversed.reverse
      return meant :: (← unescapeFrom none rest)
    else unescapeFrom (some (c :: reversed)) rest

/-- The value that is meant by the text between the quotes of an attribute. -/
def unescape (cs : List Char) : Option (List Char) := unescapeFrom none cs

/-- A character as it is written inside the quotes of an attribute. -/
def escapeChar : Char → List Char
  | '<' => "&lt;".toList
  | '>' => "&gt;".toList
  | '&' => "&amp;".toList
  | '\'' => "&apos;".toList
  | '"' => "&quot;".toList
  | c => [c]

/-- A value as it is written inside the quotes of an attribute. -/
def escape (cs : List Char) : List Char := cs.flatMap escapeChar

end QuickEntry.Markup
