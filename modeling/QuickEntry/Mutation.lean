import QuickEntry.Markup.Element
import QuickEntry.OrderedMap
import QuickEntry.Text.Blank
import QuickEntry.Text.Digits

/-! The structural state of a block, and the markup document that carries it between editors. -/

namespace QuickEntry

open QuickEntry.Text

/-- What varies in the shape of a block beyond its fields: named settings and argument names. -/
structure Mutation where
  attributes : OrderedMap String String
  args : List String
deriving DecidableEq, Repr, Inhabited

/-- The largest number of repeated parts that a block may have. -/
def maxArity : Nat := 256

/-- Why a document is no structural state. -/
inductive MutationError where
  /-- The text is no markup document. -/
  | markup
  /-- The root element has another name. -/
  | wrongRoot (found : String)
  /-- An argument element does not say its name. -/
  | unnamedArgument (element : String)
  /-- An attribute counts more parts than a block may have. -/
  | tooMany (setting digits : String)
deriving DecidableEq, Repr

/-- The wording of a cause. -/
def MutationError.message : MutationError → String
  | markup => "not a well-formed document"
  | wrongRoot found => "expected <mutation>, found <" ++ found ++ ">"
  | unnamedArgument element => "<" ++ element ++ "> without a name attribute"
  | tooMany setting digits =>
    setting ++ "=\"" ++ digits ++ "\" exceeds the limit of " ++ toString maxArity

namespace Mutation

/-- The state without any setting. -/
def empty : Mutation := ⟨∅, []⟩

/-- Neither settings nor arguments. -/
def isEmpty (m : Mutation) : Bool := m.attributes.isEmpty && m.args.isEmpty

/-- The value of a setting. -/
def attribute? (m : Mutation) (name : String) : Option String := m.attributes.get? name

/-- The number that a setting gives, or a default where it is missing or no number; never more
than a block may have. -/
def count (m : Mutation) (name : String) (default : Nat) : Nat :=
  -- White space around the number does not matter.
  let given := (m.attribute? name).bind fun value => readNat? maxWord (trim value.toList)
  min (given.getD default) maxArity

/-- A value written in digits alone must not exceed the largest number of parts. -/
def checkArity (name value : List Char) : Except MutationError Unit :=
  -- A value with a sign is no count here, whatever it may read as later.
  let digits := trim value
  if isDigits digits && digitsValue digits > maxArity then
    .error (.tooMany (String.ofList name) (String.ofList digits))
  else .ok ()

/-- The settings that a list of attributes makes, in their order. -/
def readAttributes (attributes : List Markup.Attribute) :
    Except MutationError (OrderedMap String String) := do
  -- All values are checked before any is taken.
  attributes.forM fun a => checkArity a.name a.value
  return .ofList (attributes.map fun a => (String.ofList a.name, String.ofList a.value))

/-- The argument that an element inside the root names, if it is an argument element. -/
def readArgument (element : Markup.Element) : Except MutationError (Option String) :=
  -- Elements of other names are passed over.
  if element.name = "arg".toList || element.name = "localname".toList then
    match element.attributes.find? fun a => a.space = none && a.name = "name".toList with
    | some a => .ok (some (String.ofList a.value))
    | none => .error (.unnamedArgument (String.ofList element.name))
  else .ok none

/-- The structural state that the root element of a document describes. -/
def ofElement (root : Markup.Element) : Except MutationError Mutation := do
  -- The name of the root is checked first, then its attributes, then what is inside.
  if root.name ≠ "mutation".toList then throw (.wrongRoot (String.ofList root.name))
  let attributes ← readAttributes root.attributes
  let arguments ← root.children.mapM readArgument
  return ⟨attributes, arguments.reduceOption⟩

/-- The structural state that a document describes; a blank text describes the empty one. -/
def ofMarkup (document : String) : Except MutationError Mutation :=
  -- A blank text is what editors store for a block without any state.
  if document.toList.all isBlank then .ok empty
  else match Markup.Element.ofDocument? document.toList with
    | some root => ofElement root
    | none => .error .markup

/-- An attribute as it stands in a tag. -/
def writeAttribute (name value : String) : List Char :=
  ' ' :: name.toList ++ "=\"".toList ++ Markup.escape value.toList ++ ['"']

/-- The document of a structural state: its settings as attributes in their order, then one
element per argument. -/
def toMarkup (m : Mutation) : String :=
  -- Empty elements get an end tag, which every reader understands.
  let settings := m.attributes.entries.flatMap fun e => writeAttribute e.1 e.2
  let arguments := m.args.flatMap fun name =>
    "<arg".toList ++ writeAttribute "name" name ++ "></arg>".toList
  String.ofList ("<mutation".toList ++ settings ++ '>' :: arguments ++ "</mutation>".toList)

/-- The same settings in whatever order, and the same arguments. -/
def same (a b : Mutation) : Bool := a.attributes.same b.attributes && a.args = b.args

end Mutation

end QuickEntry
