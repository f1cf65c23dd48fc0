import QuickEntry.Workspace.Basic

/-! What the user has declared: globals, procedures, components, and the local names in scope. -/

namespace QuickEntry

/-- A declared procedure. -/
structure Procedure where
  name : String
  args : List String
  /-- Whether a call produces a value. -/
  returns : Bool
deriving DecidableEq, Repr

/-- The declarations that the catalog depends on. -/
structure Declarations where
  globals : List String
  procedures : List Procedure
  /-- Component instances with their types. -/
  components : List (String × String)
  /-- The local names that the selected node sees. -/
  locals : List String
deriving DecidableEq, Repr

/-- Sort texts and keep one of each. -/
def sortedTexts (texts : List String) : List String :=
  -- Equal texts are neighbours once they are sorted.
  (texts.mergeSort fun a b => a ≤ b).eraseReps

/-- Procedures in the order of their names, then of their arguments, then those without a value
first. -/
def Procedure.le (a b : Procedure) : Bool :=
  -- The order is total on all three parts, so that no two procedures are tied.
  a.name < b.name ||
    a.name = b.name && (a.args < b.args || a.args = b.args && (!a.returns || b.returns))

namespace Workspace

/-- The names that a node declares for what is inside it. -/
def declaredBy (ws : Workspace) (n : Node) : List String :=
  -- A local name is a field of the block, or else an argument of its state.
  match BlockKind.ofName? n.kind with
  | some .localDeclarationStatement | some .localDeclarationExpression =>
    (List.range (BlockKind.localNameCount n.fields n.mutation)).filterMap fun i =>
      n.field? ("VAR" ++ toString i) <|> n.mutation.args[i]?
  | some .controlsForRange | some .controlsForEach => (n.field? "VAR").toList
  | some .proceduresDefNoReturn | some .proceduresDefReturn => n.mutation.args
  | some .componentEvent =>
    let event := do
      let type ← ws.database.get? (← n.mutation.attribute? "component_type")
      type.event? (← n.mutation.attribute? "event_name")
    (event.map fun e => e.params.map (·.name)).getD []
  | _ => []

/-- The names declared by a node and by those that hold it in a socket, inside out, for as many
steps up as the first argument says. A step back to the statement before leaves what that one
declares out of scope. -/
def namesInScope (ws : Workspace) : Nat → Bool → NodeId → List String
  -- What stands before a statement in its chain ends before the statement begins.
  | 0, _, _ => []
  | steps + 1, inScope, id =>
    match ws.node? id with
    | none => []
    | some n =>
      let own := if inScope then ws.declaredBy n else []
      match n.parent with
      | none => own
      | some (.socket parent _) => own ++ ws.namesInScope steps true parent
      | some (.next previous) => own ++ ws.namesInScope steps false previous

/-- The local names that a node sees. -/
def localsAt (ws : Workspace) (id : NodeId) : List String :=
  -- No way up is longer than the number of nodes.
  ws.namesInScope (ws.nodes.size + 1) true id

/-- The names of the declared globals, as the nodes come. -/
def globalNames (ws : Workspace) : List String :=
  (ws.nodes.values.filter (·.kind = BlockKind.globalDeclaration.name)).filterMap fun n =>
    (n.field? "NAME").filter (!·.isEmpty)

/-- The declared procedures, as the nodes come. -/
def procedureNodes (ws : Workspace) : List Procedure :=
  let definitions := ws.nodes.values.filter fun n =>
    BlockKind.procedureDefinitions.contains n.kind
  definitions.filterMap fun n =>
    ((n.field? "NAME").filter (!·.isEmpty)).map fun name =>
      ⟨name, n.mutation.args, n.kind = BlockKind.proceduresDefReturn.name⟩

end Workspace

/-- The declarations of a workspace as a selected node sees them. Every list is sorted; of several
procedures of one name the first in their order counts. -/
def Declarations.collect (ws : Workspace) (selected : Option NodeId) : Declarations where
  globals := sortedTexts ws.globalNames
  procedures :=
    (ws.procedureNodes.mergeSort Procedure.le).eraseRepsBy fun a b => a.name == b.name
  components := ws.components.entries.mergeSort fun a b =>
    a.1 < b.1 || a.1 = b.1 && a.2 ≤ b.2
  locals := sortedTexts ((selected.map ws.localsAt).getD [])

end QuickEntry
