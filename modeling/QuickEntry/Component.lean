import QuickEntry.OrderedMap
import QuickEntry.TypeCheck

/-! Descriptions of component types: their events, methods and properties. -/

namespace QuickEntry

/-- A parameter of an event or a method, with the name of its type. -/
structure Parameter where
  name : String
  type : String
deriving DecidableEq, Repr

/-- Something that happens to a component. -/
structure ComponentEvent where
  name : String
  params : List Parameter
deriving DecidableEq, Repr

/-- Something that a component can be told to do. -/
structure ComponentMethod where
  name : String
  params : List Parameter
  /-- The type of the result, for methods that have one. -/
  returnType : Option String
deriving DecidableEq, Repr

/-- A value of a component that can be read, written or both. -/
structure ComponentProperty where
  name : String
  type : String
  readable : Bool
  writable : Bool
deriving DecidableEq, Repr

/-- A type of components. -/
structure ComponentType where
  name : String
  events : List ComponentEvent
  methods : List ComponentMethod
  properties : List ComponentProperty
deriving DecidableEq, Repr

namespace ComponentType

/-- The first event with a name. -/
def event? (t : ComponentType) (name : String) : Option ComponentEvent :=
  t.events.find? (·.name = name)

/-- The first method with a name. -/
def method? (t : ComponentType) (name : String) : Option ComponentMethod :=
  t.methods.find? (·.name = name)

/-- The first property with a name. -/
def property? (t : ComponentType) (name : String) : Option ComponentProperty :=
  t.properties.find? (·.name = name)

end ComponentType

/-- The known component types by name. -/
abbrev ComponentDatabase := OrderedMap String ComponentType

/-- The database of a list of types; a later type replaces an earlier one of its name. -/
def ComponentDatabase.ofTypes (types : List ComponentType) : ComponentDatabase :=
  .ofList (types.map fun t => (t.name, t))

/-- The connectors that fit a type named in a description. -/
def TypeCheck.ofTypeName : String → TypeCheck
  | "number" => oneOf ["Number"]
  | "text" => oneOf ["String"]
  | "boolean" => oneOf ["Boolean"]
  | "list" => oneOf ["Array"]
  | "dictionary" => oneOf ["Dictionary"]
  | "InstantInTime" => oneOf ["InstantInTime"]
  | "component" => oneOf ["Component"]
  -- A description may leave the type open, in one word or in none.
  | "any" => any
  | "" => any
  -- Whatever else is named is a type of components.
  | other => oneOf [other]

namespace ComponentDatabase

/-- An event without parameters. -/
def plainEvent (name : String) : ComponentEvent := ⟨name, []⟩

/-- A property that can be read and written. -/
def openProperty (name type : String) : ComponentProperty := ⟨name, type, true, true⟩

/-- The component types that are known without a description. -/
def builtin : ComponentDatabase := .ofTypes [
  { name := "Button"
    events := ["Click", "LongClick", "GotFocus", "LostFocus"].map plainEvent
    methods := []
    properties := [
      openProperty "BackgroundColor" "number",
      openProperty "Enabled" "boolean",
      openProperty "FontSize" "number",
      openProperty "Text" "text",
      openProperty "Visible" "boolean"] },
  { name := "Label"
    events := []
    methods := []
    properties := [
      openProperty "FontSize" "number",
      openProperty "HasMargins" "boolean",
      openProperty "Text" "text",
      openProperty "Visible" "boolean"] },
  { name := "TextBox"
    events := ["GotFocus", "LostFocus"].map plainEvent
    methods := [⟨"HideKeyboard", [], none⟩, ⟨"RequestFocus", [], none⟩]
    properties := [
      openProperty "Hint" "text",
      openProperty "MultiLine" "boolean",
      openProperty "Text" "text"] },
  { name := "Clock"
    events := [plainEvent "Timer"]
    methods := [
      ⟨"Now", [], some "InstantInTime"⟩,
      ⟨"FormatTime", [⟨"instant", "InstantInTime"⟩], some "text"⟩,
      ⟨"SystemTime", [], some "number"⟩]
    properties := [
      openProperty "TimerEnabled" "boolean",
      openProperty "TimerInterval" "number"] },
  { name := "Notifier"
    events := [⟨"AfterChoosing", [⟨"choice", "text"⟩]⟩]
    methods := [
      ⟨"ShowAlert", [⟨"notice", "text"⟩], none⟩,
      ⟨"ShowChooseDialog", [
        ⟨"message", "text"⟩, ⟨"title", "text"⟩, ⟨"button1Text", "text"⟩,
        ⟨"button2Text", "text"⟩, ⟨"cancelable", "boolean"⟩], none⟩]
    -- This color can be set, but not asked for.
    properties := [⟨"BackgroundColor", "number", false, true⟩] }]

end ComponentDatabase

end QuickEntry
