import QuickEntry.Text.Range

/-! White space: trimming a text and splitting it into words. -/

namespace QuickEntry.Text

/-- The code points with the property White_Space. -/
def blankRanges : Ranges :=
  [(0x9, 0xd), (0x20, 0x20), (0x85, 0x85), (0xa0, 0xa0), (0x1680, 0x1680), (0x2000, 0x200a),
   (0x2028, 0x2029), (0x202f, 0x202f), (0x205f, 0x205f), (0x3000, 0x3000)]

/-- White space in the sense of the character database, not only of ASCII. -/
def isBlank (c : Char) : Bool := blankRanges.holds c.toNat

/-- Remove the white space at both ends. -/
def trim (cs : List Char) : List Char :=
  -- The end of a text is the start of its reverse.
  ((cs.dropWhile isBlank).reverse.dropWhile isBlank).reverse

/-- Split before every character of a class, which is itself dropped; the pieces may be empty. -/
def splitOn (separates : Char → Bool) : List Char → List (List Char)
  -- There is always a first piece, to which a character that separates nothing is added.
  | [] => [[]]
  | c :: rest =>
    match splitOn separates rest with
    | [] => [[c]]
    | piece :: pieces => if separates c then [] :: piece :: pieces else (c :: piece) :: pieces

/-- The non-empty pieces between the characters of a class. -/
def pieces (separates : Char → Bool) (cs : List Char) : List (List Char) :=
  -- Neighbouring separators leave empty pieces between them.
  (splitOn separates cs).filter fun piece => !piece.isEmpty

end QuickEntry.Text
