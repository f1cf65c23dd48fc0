import QuickEntry.Json.Decoder
import QuickEntry.Node

/-! Nodes as JSON. -/

namespace QuickEntry

/-- The largest number that a node may have. -/
def NodeId.largest : Nat := UInt32.size - 1

/-- A node is referred to by its bare number. -/
def NodeId.toJson (id : NodeId) : Json := .nat id.number

/-- Read the number of a node. -/
def NodeId.decoder : Json.Decoder NodeId := fun room value =>
  (Json.Decoder.nat largest room value).map NodeId.mk

/-- A check is its list of tags, or `null` if it takes everything. -/
def TypeCheck.toJson : TypeCheck → Json
  | any => .null
  | oneOf tags => .strings tags

/-- Read a check. -/
def TypeCheck.decoder : Json.Decoder TypeCheck := fun room value =>
  -- No restriction is written as `null`.
  ((Json.Decoder.list .string).orNull room value).map fun
    | none => any
    | some tags => oneOf tags

/-- Read a kind of socket. -/
def SocketKind.decoder : Json.Decoder SocketKind :=
  .variant fun name payload _ =>
    match name, payload with
    | "value", none | "value", some .null => some value
    | "statement", none | "statement", some .null => some statement
    | _, _ => none

/-- Settings and arguments as JSON; what is empty is left out. -/
def Mutation.toJson (m : Mutation) : Json :=
  .object <|
    (if m.attributes.isEmpty then [] else [("attributes", .texts m.attributes.entries)]) ++
    (if m.args.isEmpty then [] else [("args", .strings m.args)])

/-- Read settings and arguments. -/
def Mutation.decoder : Json.Decoder Mutation :=
  .record ["attributes", "args"] fun m => do
    return {
      attributes := ← m.withDefault "attributes" (.map .string) ∅
      args := ← m.withDefault "args" (.list .string) [] }

/-- A socket as JSON. -/
def Socket.toJson (s : Socket) : Json :=
  .object [("name", .string s.name), ("kind", .string s.kind.text), ("check", s.check.toJson),
    ("target", .ofOption NodeId.toJson s.target)]

/-- Read a socket. -/
def Socket.decoder : Json.Decoder Socket :=
  .record ["name", "kind", "check", "target"] fun m => do
    return {
      name := ← m.required "name" .string
      kind := ← m.required "kind" SocketKind.decoder
      check := ← m.withDefault "check" TypeCheck.decoder .any
      target := ← m.optional "target" NodeId.decoder }

namespace Link

/-- A link as JSON, with its form under `via`. -/
def toJson : Link → Json
  | socket parent name =>
    .object [("via", .string "socket"), ("parent", parent.toJson), ("socket", .string name)]
  | next previous => .object [("via", .string "next"), ("previous", previous.toJson)]

/-- Read what a link of a given form has beside its form. -/
def payloadDecoder : String → Json.Decoder Link
  -- The form decides which members there are.
  | "socket" => .record ["parent", "socket"] fun m => do
    return .socket (← m.required "parent" NodeId.decoder) (← m.required "socket" .string)
  | "next" => .record ["previous"] fun m => do
    return .next (← m.required "previous" NodeId.decoder)
  | _ => fun _ _ => none

/-- Read a link. Its other members are read as values of any kind before its form is known. -/
def decoder : Json.Decoder Link
  -- The form may stand anywhere among the members, or first in an array.
  | room + 1, .object members => do
    match members.filter (·.1 = some "via") with
    | [(_, .string (some form))] =>
      let others := members.filter (·.1 ≠ some "via")
      let _ ← Json.Decoder.json (room + 1) (.object others)
      payloadDecoder form (room + 1) (.object others)
    | _ => none
  | room + 1, .array (.string (some form) :: others) => do
    let _ ← Json.Decoder.json (room + 1) (.array others)
    payloadDecoder form (room + 1) (.array others)
  | _, _ => none

end Link

namespace Node

/-- A node as JSON; an empty structural state is left out. -/
def toJson (n : Node) : Json :=
  .object <|
    [("id", n.id.toJson), ("kind", .string n.kind), ("fields", .texts n.fields.entries)] ++
    (if n.mutation.isEmpty then [] else [("mutation", n.mutation.toJson)]) ++
    [("output", .ofOption TypeCheck.toJson n.output), ("has_previous", .bool n.hasPrevious),
     ("has_next", .bool n.hasNext), ("next", .ofOption NodeId.toJson n.next),
     ("sockets", .array (n.sockets.map Socket.toJson)), ("parent", .ofOption Link.toJson n.parent)]

/-- Read a node. -/
def decoder : Json.Decoder Node :=
  .record ["id", "kind", "fields", "mutation", "output", "has_previous", "has_next", "next",
      "sockets", "parent"] fun m => do
    return {
      id := ← m.required "id" NodeId.decoder
      kind := ← m.required "kind" .string
      fields := ← m.required "fields" (.map .string)
      mutation := ← m.withDefault "mutation" Mutation.decoder .empty
      output := ← m.optional "output" TypeCheck.decoder
      hasPrevious := ← m.required "has_previous" .bool
      hasNext := ← m.required "has_next" .bool
      next := ← m.optional "next" NodeId.decoder
      sockets := ← m.required "sockets" (.list Socket.decoder)
      parent := ← m.optional "parent" Link.decoder }

end Node

end QuickEntry
