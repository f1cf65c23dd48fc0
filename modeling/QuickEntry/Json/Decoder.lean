import QuickEntry.Json.Written
import QuickEntry.OrderedMap

/-! Reading domain values from JSON texts: records by name or position, maps, variants. -/

namespace QuickEntry.Json

/-- A reader of values that is told how many containers may still be nested inside. -/
abbrev Decoder (α : Type) := Nat → Written → Option α

/-- The number of containers that may be nested in a text, parts that nobody reads apart. -/
def maxNesting : Nat := 127

/-- The members of a record, given by name or, in an array, by position. -/
structure Members where
  positional : Bool
  given : List (String × Written)
  /-- How many containers may be nested in a member. -/
  room : Nat

namespace Members

/-- A member that must be given. -/
def required {α : Type} (m : Members) (name : String) (decode : Decoder α) : Option α :=
  (m.given.lookup name).bind (decode m.room)

/-- A member that may be missing; a default is no substitute for a wrong value. -/
def withDefault {α : Type} (m : Members) (name : String) (decode : Decoder α) (default : α) :
    Option α :=
  match m.given.lookup name with
  | none => some default
  | some value => decode m.room value

end Members

namespace Decoder

/-- Read a value in a text of its own. -/
def ofText? {α : Type} (decode : Decoder α) (text : String) : Option α :=
  (Written.ofText? text).bind (decode maxNesting)

/-- Enter a container, which needs room for one more. -/
def enter {α : Type} (read : Nat → Option α) : Nat → Option α
  | 0 => none
  | room + 1 => read room

/-- A truth value. -/
def bool : Decoder Bool
  | _, .bool b => some b
  | _, _ => none

/-- A text whose escapes all spell characters. -/
def string : Decoder String
  | _, .string text => text
  | _, _ => none

/-- An integer from zero up to a limit. -/
def nat (limit : Nat) : Decoder Nat
  -- A whole number with a point or an exponent is no integer.
  | _, .number numeral =>
    match numeral.value? with
    | some (.integer (.ofNat n)) => if n ≤ limit then some n else none
    | _ => none
  | _, _ => none

/-- A value or `null`. -/
def orNull {α : Type} (decode : Decoder α) : Decoder (Option α)
  | _, .null => some none
  | room, value => (decode room value).map some

/-- An array of values of one kind. -/
def list {α : Type} (decode : Decoder α) : Decoder (List α)
  -- One wrong item spoils the list.
  | room, .array items => enter (fun room => items.mapM (decode room)) room
  | _, _ => none

/-- The members of an object under names that are all texts. -/
def named (members : List (Option String × Written)) : Option (List (String × Written)) :=
  -- A name that spells no text spoils the object, even if nobody reads its value.
  members.mapM fun (name, value) => name.map (·, value)

/-- An object as a map; of a repeated name the last value counts. -/
def map {α : Type} (decode : Decoder α) : Decoder (OrderedMap String α)
  -- Every value is read, also one that a later value replaces.
  | room, .object members =>
    enter (fun room => do
      let entries ← (← named members).mapM fun (name, value) => do
        return (name, ← decode room value)
      return .ofList entries) room
  | _, _ => none

/-- A record with members of given names, each at most once. Other members are passed over, or
refused if the record is closed. In an array the members come in the order of their names, and
only some at the end may be missing. -/
def recordWith {α : Type} (closed : Bool) (names : List String) (body : Members → Option α) :
    Decoder α
  -- Only members of known names may not be repeated.
  | room, .object members =>
    enter (fun room => do
      let entries ← named members
      let known := entries.filter (names.contains ·.1)
      let keys := known.map (·.1)
      if keys.eraseDups.length ≠ keys.length || (closed && known.length ≠ entries.length) then none
      else body ⟨false, known, room⟩) room
  | room, .array items =>
    enter (fun room =>
      if items.length ≤ names.length then body ⟨true, names.zip items, room⟩ else none) room
  | _, _ => none

/-- A record that passes over members of other names. -/
def record {α : Type} (names : List String) (body : Members → Option α) : Decoder α :=
  recordWith false names body

/-- A record that refuses members of other names. -/
def closedRecord {α : Type} (names : List String) (body : Members → Option α) : Decoder α :=
  recordWith true names body

/-- A variant: its name alone, or an object whose only member has that name and a payload. -/
def variant {α : Type} (body : String → Option Written → Nat → Option α) : Decoder α
  | room, .string text => text.bind fun name => body name none room
  | room, .object [(name, payload)] =>
    enter (fun room => name.bind fun name => body name (some payload) room) room
  | _, _ => none

end Decoder

/-- A member that may be missing or `null`; by position it must be there. -/
def Members.optional {α : Type} (m : Members) (name : String) (decode : Decoder α) :
    Option (Option α) :=
  match m.given.lookup name with
  | none => if m.positional then none else some none
  | some value => decode.orNull m.room value

/-- A member that may be missing or `null`, also by position. -/
def Members.orNull {α : Type} (m : Members) (name : String) (decode : Decoder α) :
    Option (Option α) :=
  m.withDefault name decode.orNull none

/-- Put a member into an object sorted by names, in the place of one of the same name. -/
def insertSorted (name : String) (value : Json) : List (String × Json) → List (String × Json)
  -- The list stays sorted, since the first larger name is where the member belongs.
  | [] => [(name, value)]
  | (other, old) :: rest =>
    if name < other then (name, value) :: (other, old) :: rest
    else if name = other then (name, value) :: rest
    else (other, old) :: insertSorted name value rest

mutual

/-- Any value; the members of objects are sorted by name, and the last of a repeated name counts. -/
def Decoder.json : Decoder Json
  | _, .null => some .null
  | _, .bool b => some (.bool b)
  | _, .number numeral => numeral.value?.map .number
  | _, .string text => text.map .string
  | 0, .array _ => none
  | room + 1, .array items => (Decoder.jsonItems room items).map .array
  | 0, .object _ => none
  | room + 1, .object members => (Decoder.jsonMembers room members).map .object

/-- The items of an array. -/
def Decoder.jsonItems (room : Nat) : List Written → Option (List Json)
  | [] => some []
  | item :: rest => do return (← Decoder.json room item) :: (← Decoder.jsonItems room rest)

/-- The members of an object, sorted; a member yields to a later one of its name. -/
def Decoder.jsonMembers (room : Nat) :
    List (Option String × Written) → Option (List (String × Json))
  -- The later members are collected first, so that they win.
  | [] => some []
  | (name, value) :: rest => do
    let name ← name
    let value ← Decoder.json room value
    let others ← Decoder.jsonMembers room rest
    return if others.any (·.1 = name) then others else insertSorted name value others

end

end QuickEntry.Json
