import QuickEntry.Json.Decoder
import QuickEntry.Json.Printer

/-! Nested descriptions of blocks, in the JSON format that block editors exchange. -/

namespace QuickEntry

/-- A block with the blocks in its inputs and the one that follows it. -/
structure Block where
  kind : String
  /-- A name by which a script may refer to the block. -/
  label : Option String
  fields : OrderedMap String Json
  /-- The document of the structural state. -/
  extraState : Option String
  inputs : List (String × Block)
  next : Option Block

/-- The text that a field stores for a value: texts as they are, nothing for `null`, and compact
JSON otherwise. -/
def Json.fieldText : Json → String
  | string s => s
  | null => ""
  | other => other.compact

namespace Block

mutual

/-- A block as JSON; what is missing is left out, but not empty fields and inputs. -/
def toJson : Block → Json
  -- Members come in a fixed order, those of fields and inputs in their own.
  | ⟨kind, label, fields, extraState, inputs, next⟩ =>
    .object <|
      ("type", .string kind) :: label.toList.map (fun name => ("alias", .string name)) ++
      ("fields", .object fields.entries) ::
      extraState.toList.map (fun text => ("extraState", .string text)) ++
      ("inputs", .object (inputsToJson inputs)) :: nextToJson next

/-- The members for the blocks in the inputs. -/
def inputsToJson : List (String × Block) → List (String × Json)
  | [] => []
  | (name, block) :: rest => (name, .object [("block", block.toJson)]) :: inputsToJson rest

/-- The member for the block that follows. -/
def nextToJson : Option Block → List (String × Json)
  | none => []
  | some block => [("next", .object [("block", block.toJson)])]

end

/-- Read a block whose blocks are nested at most as deep as the first argument says. -/
def decoderAt : Nat → Json.Decoder Block
  -- Blocks are nested through inputs and through the block that follows.
  | 0 => fun _ _ => none
  | depth + 1 =>
    let input : Json.Decoder Block :=
      .record ["block"] fun m => m.required "block" (decoderAt depth)
    .record ["type", "alias", "fields", "extraState", "inputs", "next"] fun m => do
      return {
        kind := ← m.required "type" .string
        label := ← m.orNull "alias" .string
        fields := ← m.withDefault "fields" (.map .json) ∅
        extraState := ← m.orNull "extraState" .string
        inputs := (← m.withDefault "inputs" (.map input) ∅).entries
        next := ← m.orNull "next" input }

/-- Read a block; a text has no room for blocks nested deeper. -/
def decoder : Json.Decoder Block := decoderAt Json.maxNesting

end Block

end QuickEntry
