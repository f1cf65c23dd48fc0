import QuickEntry.Markup.Characters
import QuickEntry.Text.Occurrence

/-! Elements of a markup document: their text is read into a tree, with names put in namespaces. -/

namespace QuickEntry.Markup

/-- A name as written: an optional part before a colon, and the local name. -/
structure QName where
  qualifier : List Char
  localName : List Char
deriving DecidableEq, Repr

/-- An attribute with the namespace that its qualifier is bound to. -/
structure Attribute where
  space : Option (List Char)
  name : List Char
  value : List Char
deriving DecidableEq, Repr

/-- An element with its local name, its attributes and the elements directly inside it; character
data is checked but not kept. -/
structure Element where
  name : List Char
  attributes : List Attribute
  children : List Element
deriving Repr

/-- Qualifiers and the namespaces that they are bound to, the innermost first. -/
abbrev Scope := List (List Char × List Char)

/-- A namespace of the standard, by the path that tells it from the others. -/
def standardSpace (path : String) : List Char :=
  "http".toList ++ "://www.w3.org/".toList ++ path.toList

/-- The namespace of the qualifier `xml`. -/
def xmlSpace : List Char := standardSpace "XML/1998/namespace"

/-- The namespace of namespace declarations, which nothing may be bound to. -/
def xmlnsSpace : List Char := standardSpace "2000/xmlns/"

/-- The text left after a given beginning. -/
def dropPrefix? (start text : List Char) : Option (List Char) :=
  if start.isPrefixOf text then some (text.drop start.length) else none

/-- Drop leading white space. -/
def skipSpaces (cs : List Char) : List Char := cs.dropWhile isSpace

/-- The text up to the first place where a condition holds of what follows, and the rest;
characters that may not occur are refused. -/
def takeUntil (stop : List Char → Bool) : List Char → Option (List Char × List Char)
  -- A character is checked even where the text would stop at it.
  | [] => some ([], [])
  | c :: rest =>
    if !isLegal c then none
    else if stop (c :: rest) then some ([], c :: rest)
    else (takeUntil stop rest).map fun (text, left) => (c :: text, left)

/-- The first character of a name part may start a name. -/
def startsName : List Char → Bool
  | c :: _ => isNameStart c
  | [] => false

/-- Read a name with at most one colon; what is before the colon may be missing. -/
def readQName (cs : List Char) : Option (QName × List Char) :=
  -- Both parts have to start like names, although the colon is a name character.
  let written := cs.takeWhile isNameChar
  let left := cs.dropWhile isNameChar
  let qualifier := written.takeWhile (· ≠ ':')
  match written.dropWhile (· ≠ ':') with
  | [] => if startsName written then some (⟨[], written⟩, left) else none
  | _ :: localName =>
    if (qualifier.isEmpty || startsName qualifier) && startsName localName &&
        !localName.contains ':' then
      some (⟨qualifier, localName⟩, left)
    else none

/-- Read an equals sign with white space around it. -/
def readEquals (cs : List Char) : Option (List Char) :=
  (dropPrefix? ['='] (skipSpaces cs)).map skipSpaces

/-- Read a name, an equals sign and a value in quotes, which is given as written. -/
def readAttribute (cs : List Char) : Option ((QName × List Char) × List Char) := do
  -- Either quote will do, and the same one ends the value.
  let (name, afterName) ← readQName cs
  match ← readEquals afterName with
  | quote :: opened =>
    if quote = '"' || quote = '\'' then
      let (value, closing) ← takeUntil
        (fun left => left.head? = some quote || left.head? = some '<') opened
      return ((name, value), ← dropPrefix? [quote] closing)
    else none
  | [] => none

/-- Read a comment after its opening mark. -/
def readComment (cs : List Char) : Option (List Char) := do
  -- Two hyphens may not occur before the end mark, nor may one touch it.
  let (text, closing) ← takeUntil ("-->".toList.isPrefixOf ·) cs
  let left ← dropPrefix? "-->".toList closing
  if text.getLast? = some '-' || (text.zip text.tail).contains ('-', '-') then none else some left

/-- Read a processing instruction after its opening mark. -/
def readInstruction (cs : List Char) : Option (List Char) := do
  -- A declaration is no instruction and may only open the document.
  if "xml ".toList.isPrefixOf cs || !startsName cs then none
  else
    let (_, closing) ← takeUntil ("?>".toList.isPrefixOf ·) (skipSpaces (cs.dropWhile isNameChar))
    dropPrefix? "?>".toList closing

/-- Skip white space, comments and instructions, at most as many as the first argument says. -/
def skipMisc : Nat → List Char → Option (List Char)
  | 0, cs => some cs
  | room + 1, cs =>
    let cs := skipSpaces cs
    match dropPrefix? "<!--".toList cs, dropPrefix? "<?".toList cs with
    | some comment, _ => do skipMisc room (← readComment comment)
    | none, some instruction => do skipMisc room (← readInstruction instruction)
    | none, none => some cs

/-- Read the rest of the declaration that may open a document. -/
def readDeclaration (cs : List Char) : Option (List Char) := do
  -- The parts come in a fixed order, and only the version is required.
  let spaced (cs : List Char) : Option (List Char) :=
    if cs.head?.any isSpace then some (skipSpaces cs)
    else if "?>".toList.isPrefixOf cs || cs.isEmpty then some cs
    else none
  let pair (name : String) (cs : List Char) : Option (List Char) :=
    if name.toList.isPrefixOf cs then do spaced (← readAttribute cs).2 else some cs
  let cs ← spaced cs
  if !"version".toList.isPrefixOf cs then none
  let cs ← pair "version" cs
  let cs ← pair "encoding" cs
  let cs ← if "standalone".toList.isPrefixOf cs then (readAttribute cs).map (·.2) else some cs
  dropPrefix? "?>".toList (skipSpaces cs)

/-- Read the attributes of a tag up to its end, and whether the tag opens an element that still
has to be closed; the first argument bounds their number. -/
def readAttributes : Nat → List Char → Option (List (QName × List Char) × Bool × List Char)
  -- White space has to stand before an attribute but not before the end of the tag.
  | 0, _ => none
  | room + 1, cs =>
    match skipSpaces cs with
    | '/' :: closing => do return ([], false, ← dropPrefix? ['>'] closing)
    | '>' :: left => some ([], true, left)
    | next =>
      if cs.head?.any isSpace then do
        let (first, left) ← readAttribute next
        let (others, opens, left) ← readAttributes room left
        return (first :: others, opens, left)
      else none

/-- The bindings that the attributes of a tag declare, in front of those around it. Reserved
qualifiers and namespaces keep their binding, and no qualifier is declared twice in one tag. -/
def Scope.declare (outer : Scope) (attributes : List (QName × List Char)) : Option Scope :=
  -- The tag that declares a qualifier is itself within its reach.
  (attributes.foldlM enter []).map (· ++ outer)
where
  /-- Take one more attribute of the tag into account. -/
  enter (own : Scope) (written : QName × List Char) : Option Scope :=
    let (name, value) := written
    if name.qualifier = "xmlns".toList then
      if value = xmlnsSpace || (own.lookup name.localName).isSome then none
      else if name.localName = "xml".toList then if value = xmlSpace then some own else none
      else if value = xmlSpace then none
      else some ((name.localName, value) :: own)
    else if name.localName = "xmlns".toList then
      if value = xmlSpace || value = xmlnsSpace then none else some own
    else some own

/-- The namespace of an attribute: none without a qualifier; an unbound qualifier is refused. -/
def Scope.resolve (scope : Scope) (qualifier : List Char) : Option (Option (List Char)) :=
  -- The default namespace is for elements and not for attributes.
  if qualifier.isEmpty then some none
  else if qualifier = "xml".toList then some (some xmlSpace)
  else (scope.lookup qualifier).map some

/-- An element may bear a name if its qualifier is missing or bound. -/
def Scope.admits (scope : Scope) (name : QName) : Bool :=
  name.qualifier.isEmpty || (scope.lookup name.qualifier).isSome

/-- A namespace declaration, which is no attribute of its element. -/
def QName.declares (name : QName) : Bool :=
  name.qualifier = "xmlns".toList || name.localName = "xmlns".toList

/-- Put the attributes of a tag into their namespaces; no attribute occurs twice. -/
def Scope.attributes (scope : Scope) (written : List (QName × List Char)) :
    Option (List Attribute) := do
  -- Two names are one if their namespaces agree, however they are qualified.
  let attributes ← (written.filter (!·.1.declares)).mapM fun (name, value) => do
    return Attribute.mk (← scope.resolve name.qualifier) name.localName value
  let names := attributes.map fun a => (a.space, a.name)
  if names.eraseDups.length = names.length then some attributes else none

/-- Character data holds only sound references and nowhere the end of a literal section. -/
def soundText (cs : List Char) : Bool :=
  (unescape cs).isSome && !Text.occursIn "]]>".toList cs

mutual

/-- Read an element after the angle bracket of its tag. -/
def readElement : Nat → Scope → List Char → Option (Element × List Char)
  -- Declarations come first, since they apply to the names of the same tag.
  | 0, _, _ => none
  | room + 1, outer, cs => do
    let (name, afterName) ← readQName cs
    let (raw, opens, left) ← readAttributes afterName.length afterName
    let written ← raw.mapM fun (name, value) => do return (name, ← unescape value)
    let scope ← outer.declare written
    let attributes ← scope.attributes written
    if name.qualifier = "xmlns".toList || !scope.admits name then none
    else if opens then
      let (children, closing) ← readContent room scope left
      let (closed, left) ← readQName closing
      if closed = name then
        return (⟨name.localName, attributes, children⟩, ← dropPrefix? ['>'] (skipSpaces left))
      else none
    else return (⟨name.localName, attributes, []⟩, left)

/-- Read what is inside an element, up to and including the mark that opens its end tag. -/
def readContent : Nat → Scope → List Char → Option (List Element × List Char)
  -- The marks are told apart by what follows the angle bracket.
  | 0, _, _ => none
  | room + 1, scope, cs =>
    match cs with
    | [] => none
    | '<' :: '/' :: closing => some ([], closing)
    | '<' :: '?' :: instruction => do readContent room scope (← readInstruction instruction)
    | '<' :: '!' :: '-' :: '-' :: comment => do readContent room scope (← readComment comment)
    | '<' :: '!' :: '[' :: 'C' :: 'D' :: 'A' :: 'T' :: 'A' :: '[' :: data => do
      let (_, closing) ← takeUntil ("]]>".toList.isPrefixOf ·) data
      readContent room scope (← dropPrefix? "]]>".toList closing)
    | '<' :: tag => do
      let (child, left) ← readElement room scope tag
      let (others, closing) ← readContent room scope left
      return (child :: others, closing)
    | _ => do
      let (text, left) ← takeUntil (·.head? = some '<') cs
      if soundText text then readContent room scope left else none

end

/-- The root element of a document. A document may begin with a byte order mark and a
declaration, has comments and instructions around its one element, and declares no type. -/
def Element.ofDocument? (document : List Char) : Option Element := do
  -- Nothing but comments and instructions may follow the one element.
  let cs := (dropPrefix? [Char.ofNat 0xfeff] document).getD document
  let cs ← if "<?xml ".toList.isPrefixOf cs then readDeclaration (cs.drop 5) else some cs
  match ← skipMisc cs.length cs with
  | '<' :: tag =>
    let (root, left) ← readElement tag.length [] tag
    if (← skipMisc left.length left).isEmpty then some root else none
  | _ => none

end QuickEntry.Markup
