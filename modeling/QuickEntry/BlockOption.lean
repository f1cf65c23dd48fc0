import QuickEntry.Json.Decoder
import QuickEntry.Literal
import QuickEntry.Mutation

/-! What can be entered: block templates, and the options that they become. -/

namespace QuickEntry

/-- A field and the value that a template gives it; either may be missing. -/
structure Preset where
  field : Option String
  value : Option String
deriving DecidableEq, Repr

/-- A template: the kind of block, a preset field, and settings of its structural state. -/
structure Template where
  kind : Option String
  preset : Option Preset
  settings : OrderedMap String String
deriving DecidableEq, Repr

/-- A block that can be entered under a display text. -/
structure BlockOption where
  kind : String
  displayText : String
  /-- The values that override default fields. -/
  fields : Option (OrderedMap String String)
  /-- The document of the structural state. -/
  extraState : Option String
deriving DecidableEq, Repr

/-- Why a template makes no option. A structural state that cannot be written would be a cause as
well, but writing one into a text in memory does not fail: the writer neither runs out of room nor
meets anything that is no text. -/
inductive TemplateError where
  /-- There is nothing to type. -/
  | missingText
  /-- The template names no kind of block. -/
  | missingKind (displayText : String)
deriving DecidableEq, Repr

/-- The wording of a cause. -/
def TemplateError.message : TemplateError → String
  | missingText => "template has an empty display text"
  | missingKind displayText => "template '" ++ displayText ++ "' has no block type"

namespace Template

/-- A template that names a kind and nothing else. -/
def plain (kind : String) : Template := ⟨some kind, none, ∅⟩

/-- A template that presets a field. -/
def presetting (kind field value : String) : Template :=
  ⟨some kind, some ⟨some field, some value⟩, ∅⟩

/-- A template with one more setting. -/
def withSetting (t : Template) (name value : String) : Template :=
  { t with settings := t.settings.insert name value }

/-- The template of a literal. -/
def ofLiteral (l : Literal) : Template := presetting l.kind l.fieldName l.value

/-- The preset field as a field value, if neither its name nor its value is missing or empty. -/
def fieldValues (t : Template) : Option (OrderedMap String String) := do
  -- A preset that says only half is no preset.
  let preset ← t.preset
  let field ← preset.field
  let value ← preset.value
  if field.isEmpty || value.isEmpty then none else some (.ofList [(field, value)])

/-- The option that a template offers under a display text. -/
def toOption (t : Template) (displayText : String) : Except TemplateError BlockOption :=
  -- The text is checked first, since the other cause quotes it. What comes last cannot fail.
  if displayText.isEmpty then .error .missingText
  else match t.kind.filter (!·.isEmpty) with
    | none => .error (.missingKind displayText)
    | some kind => .ok {
        kind, displayText
        fields := t.fieldValues
        extraState :=
          if t.settings.isEmpty then none else some (Mutation.toMarkup ⟨t.settings, []⟩) }

/-- Read a preset. -/
def presetDecoder : Json.Decoder Preset :=
  .record ["title_name", "value"] fun m => do
    return ⟨← m.optional "title_name" .string, ← m.optional "value" .string⟩

/-- Read a template. -/
def decoder : Json.Decoder Template :=
  .record ["canonic_name", "drop_down", "mutator_attributes"] fun m => do
    return {
      kind := ← m.optional "canonic_name" .string
      preset := ← m.orNull "drop_down" presetDecoder
      settings := ← m.withDefault "mutator_attributes" (.map .string) ∅ }

end Template

namespace BlockOption

/-- An option as JSON; what it does not give is left out. -/
def toJson (o : BlockOption) : Json :=
  .object <|
    [("blockType", .string o.kind), ("displayText", .string o.displayText)] ++
    (o.fields.toList.map fun fields => ("fieldValues", .texts fields.entries)) ++
    o.extraState.toList.map fun text => ("extraState", .string text)

/-- Read an option. -/
def decoder : Json.Decoder BlockOption :=
  .record ["blockType", "displayText", "fieldValues", "extraState"] fun m => do
    return {
      kind := ← m.required "blockType" .string
      displayText := ← m.required "displayText" .string
      fields := ← m.orNull "fieldValues" (.map .string)
      extraState := ← m.orNull "extraState" .string }

end BlockOption

end QuickEntry
