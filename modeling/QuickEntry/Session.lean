import QuickEntry.Attachment
import QuickEntry.Catalog
import QuickEntry.Edit.Draft
import QuickEntry.Ranking

/-! An editing session: the user types, picks an option, and a block appears where it belongs. -/

namespace QuickEntry

/-- What came of an option that was picked. -/
structure Insertion where
  /-- The new node, which is selected now. -/
  node : NodeId
  /-- Where it went; without a place it is on its own. -/
  attachment : Option Attachment
deriving DecidableEq, Repr

/-- What came of an option as JSON. -/
def Insertion.toJson (i : Insertion) : Json :=
  .object [("node", i.node.toJson), ("attachment", .ofOption Attachment.toJson i.attachment)]

/-- The state of a session. -/
structure Session where
  document : Document
  settings : Settings
  /-- The catalog that was built last. -/
  catalog : Option Catalog
  /-- The text in the query box. -/
  query : String

namespace Session

/-- A session that starts with a graph. -/
def start (workspace : Workspace) (settings : Settings) : Session :=
  ⟨⟨⟨workspace, none⟩, .empty settings.historyDepth⟩, settings, none, ""⟩

/-- The program graph. -/
def workspace (s : Session) : Workspace := s.document.canvas.workspace

/-- The selected node, if it is still there. -/
def selected? (s : Session) : Option NodeId := s.document.canvas.selected?

/-- The declarations as the selected node sees them. -/
def declarations (s : Session) : Declarations := .collect s.workspace s.selected?

/-- The catalog for the present declarations: the one built last if they are the same. -/
def presentCatalog (s : Session) : Catalog :=
  -- A catalog depends on nothing but the declarations and the fixed database.
  match s.catalog.filter (·.declarations = s.declarations) with
  | some catalog => catalog
  | none => .build s.declarations s.workspace.database

/-- A change of the document only. -/
def onDocument {α : Type} (attempt : Attempt Document α) : Attempt Session α :=
  attempt.within (·.document) fun s document => { s with document }

/-- A change of the graph only, which the history does not know of. -/
def onWorkspace {α : Type} (attempt : Attempt Workspace α) : Attempt Session α :=
  onDocument (Document.onCanvas (Canvas.onWorkspace attempt))

/-- Select a node that is there, or none. -/
def select (id : Option NodeId) : Attempt Session Unit :=
  -- The history does not know of selections made by hand.
  .ofUpdate fun s =>
    match id.filter fun id => !s.workspace.contains id with
    | some unknown => .error (.unknownNode unknown)
    | none => .ok { s with
        document := { s.document with canvas := { s.document.canvas with selection := id } } }

/-- Bring the catalog up to date. -/
def refresh : Attempt Session Catalog := do
  let catalog := (← get).presentCatalog
  modify fun s => { s with catalog := some catalog }
  return catalog

/-- Type a query and see its options. -/
def type (query : String) : Attempt Session (List BlockOption) := do
  -- The catalog follows the selection, since that decides which names are in scope.
  let catalog ← refresh
  modify fun s => { s with query }
  return matchingOptions catalog.options.toList query (← get).settings.maxMatches

/-- Leave the query box; the graph stays as it is. -/
def escape : Attempt Session Unit := modify fun s => { s with query := "" }

/-- The edits for an option: its node is created, put into its place, and selected. -/
def insertion (o : BlockOption) (selected : Option NodeId) (reach : Reach) :
    Attempt Draft Insertion := do
  -- The place is sought after the node exists, when its shape is known.
  let node ← Draft.instantiate o
  let attachment ← Draft.view (·.placeFor? node selected reach)
  attachment.forM fun a => Draft.attach node a.place
  Draft.select (some node)
  return ⟨node, attachment⟩

/-- Pick an option, as one step of the history. -/
def confirm (o : BlockOption) : Attempt Session Insertion := do
  -- The query box keeps its text if the option is refused.
  let s ← get
  let inserted ← onDocument (Document.transact (insertion o s.selected? s.settings.reach))
  escape
  return inserted

/-- Pick the best of some options; without any the query box is left. -/
def confirmBest (options : List BlockOption) : Attempt Session (Option Insertion) := do
  match options with
  | best :: _ => return some (← confirm best)
  | [] => escape; return none

/-- Type a query and pick the best option. -/
def enter (query : String) : Attempt Session (Option Insertion) := do
  confirmBest (← type query)

/-- Delete a node with all that is in its sockets, as one step of the history. -/
def delete (id : NodeId) : Attempt Session Unit :=
  onDocument (Document.transact (Draft.deleteSubtree id))

/-- Undo the newest step, if there is one. -/
def undo : Attempt Session Bool := onDocument Document.undo

/-- Make the step that was undone last again, if there is one. -/
def redo : Attempt Session Bool := onDocument Document.redo

/-- Start over; only the declared components stay. -/
def reset (s : Session) : Session := start s.workspace.clear s.settings

end Session

end QuickEntry
