import QuickEntry.Scenario.Basic
import QuickEntry.Session

/-! Running a script, and the report of what it did. -/

namespace QuickEntry

/-- What became of a query. -/
structure QueryReport where
  query : String
  /-- The display texts of the options, the best first. -/
  offered : List String
  /-- What came of the option that was picked, if one was. -/
  inserted : Option Insertion
deriving DecidableEq, Repr

/-- What a script did. -/
structure Report where
  queries : List QueryReport
  components : OrderedMap String String
  /-- The nodes at the end, sorted by number. -/
  nodes : List Node
  /-- The node that is selected at the end. -/
  selected : Option NodeId
deriving Repr

/-- A query as JSON; what was not inserted is left out. -/
def QueryReport.toJson (q : QueryReport) : Json :=
  .object <|
    [("query", .string q.query), ("matches", .strings q.offered)] ++
    q.inserted.toList.map fun i => ("inserted", i.toJson)

/-- A report as JSON. -/
def Report.toJson (r : Report) : Json :=
  .object [
    ("queries", .array (r.queries.map QueryReport.toJson)),
    ("workspace", .object [
      ("components", .texts r.components.entries),
      ("nodes", .array (r.nodes.map Node.toJson))]),
    ("selected", .ofOption NodeId.toJson r.selected)]

/-- The node that a reference means: the block of that name, or the node of that number, which may
follow a number sign. -/
def NodeId.ofReference? (labels : OrderedMap String NodeId) (reference : String) :
    Option NodeId :=
  let digits := match reference.toList with
    | '#' :: digits => digits
    | digits => digits
  labels.get? reference <|> (Text.readNat? NodeId.largest digits).map NodeId.mk

/-- Build a block and remember the nodes that it names. -/
def Workspace.appendNamed (labels : OrderedMap String NodeId) (block : Block) :
    Attempt Workspace (OrderedMap String NodeId) := fun ws =>
  let (outcome, built) := ws.append labels block
  (outcome.map fun _ => built.labels, built.workspace)

namespace Step

/-- The node that a reference means, if the graph has it. -/
def known? (labels : OrderedMap String NodeId) (reference : String) (s : Session) :
    Option NodeId :=
  (NodeId.ofReference? labels reference).filter s.workspace.contains

/-- Make a step; a reference to an unknown node makes it do nothing. -/
def perform (labels : OrderedMap String NodeId) : Step → Attempt Session (Option QueryReport)
  -- Only steps with a query have something to report.
  | .select none => do
    Session.select none
    return none
  | .select (some reference) => do
    (known? labels reference (← get)).forM fun id => Session.select (some id)
    return none
  | .query text => do
    let options ← Session.type text
    return some ⟨text, options.map (·.displayText), none⟩
  | .type text => do
    let options ← Session.type text
    let inserted ← Session.confirmBest options
    return some ⟨text, options.map (·.displayText), inserted⟩
  | .escape => do
    Session.escape
    return none
  | .undo => do
    let _ ← Session.undo
    return none
  | .redo => do
    let _ ← Session.redo
    return none
  | .delete reference => do
    (known? labels reference (← get)).forM Session.delete
    return none

end Step

namespace Scenario

/-- Declare the components, build the blocks and make the steps; the first refusal ends the
script. -/
def run (scenario : Scenario) : Attempt Session Report := do
  -- Blocks may refer to components, which therefore come first.
  Session.onWorkspace <| modify fun ws =>
    scenario.components.entries.foldl (fun ws (name, type) => ws.addComponent name type) ws
  let labels ← scenario.blocks.foldlM
    (fun labels block => Session.onWorkspace (Workspace.appendNamed labels block)) ∅
  let queries ← scenario.steps.filterMapM (Step.perform labels)
  let s ← get
  return {
    queries
    components := s.workspace.components
    nodes := s.workspace.snapshot
    selected := s.selected? }

end Scenario

end QuickEntry
