import QuickEntry.Number.Shortest

/-! JSON values and their text. -/

namespace QuickEntry

/-- A number of a JSON value. -/
inductive JsonNumber where
  | integer (value : Int)
  | double (value : Double)
deriving DecidableEq, Repr

/-- A JSON value; the members of an object keep an order. -/
inductive Json where
  | null
  | bool (value : Bool)
  | number (value : JsonNumber)
  | string (value : String)
  | array (items : List Json)
  | object (members : List (String × Json))
deriving Repr, Inhabited

namespace Json

/-- A whole number as a value. -/
def nat (n : Nat) : Json := number (.integer n)

/-- An optional value, `null` if missing. -/
def ofOption {α : Type} (f : α → Json) : Option α → Json
  | none => null
  | some x => f x

/-- A list of texts as a value. -/
def strings (texts : List String) : Json := array (texts.map string)

/-- Texts under names as an object. -/
def texts (entries : List (String × String)) : Json :=
  object (entries.map fun e => (e.1, string e.2))

end Json

end QuickEntry
