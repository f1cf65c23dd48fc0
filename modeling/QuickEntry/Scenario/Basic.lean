import QuickEntry.Block
import QuickEntry.Text.Digits

/-! Scripts of editing sessions. -/

namespace QuickEntry

/-- A step of a script; nodes are referred to by the names of blocks, or by numbers. -/
inductive Step where
  /-- Select a node, or none. -/
  | select (reference : Option String)
  /-- Look at the options for a query. -/
  | query (text : String)
  /-- Type a query and pick the best option. -/
  | type (text : String)
  /-- Leave the query box. -/
  | escape
  /-- Undo the newest step. -/
  | undo
  /-- Redo the step undone last. -/
  | redo
  /-- Delete a node with all that is in its sockets. -/
  | delete (reference : String)
deriving DecidableEq, Repr

/-- Read a step: a plain word if there is nothing more to say. -/
def Step.decoder : Json.Decoder Step :=
  .variant fun name payload room =>
    -- A step without an operand may still be given one, but only a null.
    match name, payload with
    | "select", some reference =>
      (Json.Decoder.string.orNull room reference).map select
    | "query", some text => (Json.Decoder.string room text).map query
    | "type", some text => (Json.Decoder.string room text).map type
    | "delete", some reference => (Json.Decoder.string room reference).map delete
    | "escape", none | "escape", some .null => some escape
    | "undo", none | "undo", some .null => some undo
    | "redo", none | "redo", some .null => some redo
    | _, _ => none

/-- A script. -/
structure Scenario where
  /-- The components to declare, with their types. -/
  components : OrderedMap String String
  /-- The blocks to start with. -/
  blocks : List Block
  steps : List Step

/-- Read a script, which has no other members. -/
def Scenario.decoder : Json.Decoder Scenario :=
  .closedRecord ["components", "blocks", "steps"] fun m => do
    return {
      components := ← m.withDefault "components" (.map .string) ∅
      blocks := ← m.withDefault "blocks" (.list Block.decoder) []
      steps := ← m.withDefault "steps" (.list Step.decoder) [] }

end QuickEntry
