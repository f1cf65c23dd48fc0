/-! Where one text occurs in another. -/

namespace QuickEntry.Text

/-- The space that a text takes when written in UTF-8. -/
def byteLength (cs : List Char) : Nat := cs.foldr (fun c rest => c.utf8Size + rest) 0

/-- One text occurs somewhere in another. -/
def occursIn (needle : List Char) : List Char → Bool
  -- Only the empty text occurs at the very end.
  | [] => needle.isEmpty
  | c :: rest => needle.isPrefixOf (c :: rest) || occursIn needle rest

/-- A place where a text occurs in another. -/
structure Occurrence where
  /-- The space that the text before it takes in UTF-8. -/
  position : Nat
  /-- The character right before it. -/
  before : Option Char
deriving DecidableEq, Repr

/-- The occurrences in the rest of a text, some characters of which an earlier one still covers. -/
def occurrencesFrom (needle : List Char) (covered position : Nat) (before : Option Char) :
    List Char → List Occurrence
  -- While characters are covered, no new occurrence may start at them.
  | [] => []
  | c :: rest =>
    match covered with
    | covered + 1 => occurrencesFrom needle covered (position + c.utf8Size) (some c) rest
    | 0 =>
      if needle.isPrefixOf (c :: rest) then
        ⟨position, before⟩ ::
          occurrencesFrom needle (needle.length - 1) (position + c.utf8Size) (some c) rest
      else occurrencesFrom needle 0 (position + c.utf8Size) (some c) rest

/-- The occurrences of a text in another from left to right, without those that overlap an earlier
one. -/
def occurrences (needle cs : List Char) : List Occurrence := occurrencesFrom needle 0 0 none cs

end QuickEntry.Text
