import QuickEntry.Component
import QuickEntry.Json.Decoder

/-! Descriptions of component types as JSON. -/

namespace QuickEntry

/-- The type of a parameter or property whose description names none. -/
def unnamedType : String := "any"

/-- A parameter as JSON. -/
def Parameter.toJson (p : Parameter) : Json :=
  .object [("name", .string p.name), ("type", .string p.type)]

/-- Read a parameter. -/
def Parameter.decoder : Json.Decoder Parameter :=
  .record ["name", "type"] fun m => do
    return {
      name := ← m.required "name" .string
      type := ← m.withDefault "type" .string unnamedType }

/-- An event as JSON. -/
def ComponentEvent.toJson (e : ComponentEvent) : Json :=
  .object [("name", .string e.name), ("params", .array (e.params.map Parameter.toJson))]

/-- Read an event. -/
def ComponentEvent.decoder : Json.Decoder ComponentEvent :=
  .record ["name", "params"] fun m => do
    return {
      name := ← m.required "name" .string
      params := ← m.withDefault "params" (.list Parameter.decoder) [] }

/-- A method as JSON; a missing result is left out. -/
def ComponentMethod.toJson (c : ComponentMethod) : Json :=
  .object <|
    [("name", .string c.name), ("params", .array (c.params.map Parameter.toJson))] ++
    c.returnType.toList.map fun type => ("returnType", .string type)

/-- Read a method. -/
def ComponentMethod.decoder : Json.Decoder ComponentMethod :=
  .record ["name", "params", "returnType"] fun m => do
    return {
      name := ← m.required "name" .string
      params := ← m.withDefault "params" (.list Parameter.decoder) []
      -- A null says the same as nothing: the method has no result.
      returnType := ← m.orNull "returnType" .string }

/-- A property as JSON. -/
def ComponentProperty.toJson (p : ComponentProperty) : Json :=
  .object [("name", .string p.name), ("type", .string p.type), ("readable", .bool p.readable),
    ("writable", .bool p.writable)]

/-- Read a property. -/
def ComponentProperty.decoder : Json.Decoder ComponentProperty :=
  .record ["name", "type", "readable", "writable"] fun m => do
    return {
      name := ← m.required "name" .string
      type := ← m.withDefault "type" .string unnamedType
      -- What a description does not deny is possible.
      readable := ← m.withDefault "readable" .bool true
      writable := ← m.withDefault "writable" .bool true }

/-- A component type as JSON. -/
def ComponentType.toJson (t : ComponentType) : Json :=
  .object [("name", .string t.name),
    ("events", .array (t.events.map ComponentEvent.toJson)),
    ("methods", .array (t.methods.map ComponentMethod.toJson)),
    ("properties", .array (t.properties.map ComponentProperty.toJson))]

/-- Read a component type. -/
def ComponentType.decoder : Json.Decoder ComponentType :=
  .record ["name", "events", "methods", "properties"] fun m => do
    return {
      name := ← m.required "name" .string
      events := ← m.withDefault "events" (.list ComponentEvent.decoder) []
      methods := ← m.withDefault "methods" (.list ComponentMethod.decoder) []
      properties := ← m.withDefault "properties" (.list ComponentProperty.decoder) [] }

/-- Read a database from an array of component types. -/
def ComponentDatabase.decoder : Json.Decoder ComponentDatabase := fun room value =>
  (Json.Decoder.list ComponentType.decoder room value).map ComponentDatabase.ofTypes

end QuickEntry
