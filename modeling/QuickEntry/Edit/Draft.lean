import QuickEntry.BlockOption
import QuickEntry.Edit.History
import QuickEntry.Workspace.Append

/-! Edits that become one step of the history, or are all taken back. -/

namespace QuickEntry

/-- A canvas with the edits made to it so far. -/
structure Draft where
  canvas : Canvas
  /-- The newest edit first. -/
  log : List Command
deriving Repr

namespace Draft

/-- A draft without edits. -/
def start (canvas : Canvas) : Draft := ⟨canvas, []⟩

/-- The edits as one. -/
def command (d : Draft) : Command := .batch d.log.reverse

/-- The canvas with all edits taken back, as far as they can be. -/
def rollback (d : Draft) : Canvas := ((Canvas.revert d.command).on d.canvas).2

/-- Make an edit and log it. -/
def record (edit : Attempt Canvas Command) : Attempt Draft Unit := do
  -- An edit that is refused leaves no trace in the log.
  let command ← edit.within (·.canvas) fun d canvas => { d with canvas }
  modify fun d => { d with log := command :: d.log }

/-- What the graph says. -/
def view {α : Type} (look : Workspace → α) : Attempt Draft α :=
  return look (← get).canvas.workspace

/-- Make a detached node, which nothing logs yet. -/
def make (kind : String) (mutation : Mutation) : Attempt Draft Node :=
  (Canvas.onWorkspace (.ofStep (Workspace.make · kind mutation))).within (·.canvas)
    fun d canvas => { d with canvas }

/-- Set a field, or remove it. -/
def setField (id : NodeId) (name : String) (value : Option String) : Attempt Draft Unit :=
  record (Canvas.setField id name value)

/-- Create the detached node that an option describes: its structural state comes first, then its
field values one by one. -/
def instantiate (o : BlockOption) : Attempt Draft NodeId := do
  -- Each field value may change the shape, so that they are set on the inserted node.
  let mutation ← .ofExcept (Mutation.ofExtraState o.extraState)
  let node ← make o.kind mutation
  record (Canvas.create node)
  let fields := (o.fields.map (·.entries)).getD []
  fields.forM fun (name, value) => setField node.id name (some value)
  return node.id

/-- Move a node to a place, or take it out of its place, unless it is where it should be. -/
def move (child : NodeId) (target : Option Link) : Attempt Draft Unit := do
  let node ← view (·.node? child)
  if node.any (·.parent = target) then return
  record (Canvas.move child target)

/-- Take a node out of its place. -/
def detach (child : NodeId) : Attempt Draft Unit := move child none

/-- Put a displaced node behind the chain that displaced it, if the two fit together. -/
def moveBehind (displaced child : NodeId) : Attempt Draft Unit := do
  let tail ← view (·.chainEnd child)
  let tailNode ← view (·.node? tail)
  let displacedNode ← view (·.node? displaced)
  if tailNode.any (·.hasNext) && displacedNode.any (·.hasPrevious) then
    move displaced (some (.next tail))

/-- Put a node into a place. A node that takes the place already goes behind the chain of the new
one, or is left on its own. -/
def attach (child : NodeId) (place : Link) : Attempt Draft Unit := do
  -- The place has to be free before the new node can take it.
  let displaced ← view (·.occupant? place)
  displaced.forM detach
  move child (some place)
  displaced.forM fun displaced => moveBehind displaced child

/-- Select a node, or none, unless it is selected already. -/
def select (id : Option NodeId) : Attempt Draft Unit := do
  if (← get).canvas.selection ≠ id then record (Canvas.select id)

/-- Delete a node of a subtree. All but the top of the subtree lose their places before. -/
def discard (top member : NodeId) : Attempt Draft Unit := do
  if member ≠ top then detach member
  record (Canvas.delete member)

/-- Delete a subtree with a node on top; the statement after the node takes its place. -/
def excise (id : NodeId) (node : Node) (doomed : List NodeId) : Attempt Draft Unit := do
  -- The follower and the place are those that the node had at first.
  node.next.forM detach
  node.parent.forM fun _ => detach id
  -- Parents come first in a subtree, so that it is taken apart from its end.
  doomed.reverse.forM (discard id)
  node.next.forM fun follower => node.parent.forM fun place => move follower (some place)

/-- Delete a node with all that is in its sockets; the statement after it takes its place. A
selection among the deleted nodes is given up. -/
def deleteSubtree (id : NodeId) : Attempt Draft Unit := do
  let node ← .ofExcept ((← get).canvas.workspace.get id)
  let doomed ← view (·.subtree id false)
  if (← get).canvas.selection.any doomed.contains then select none
  excise id node doomed

end Draft

/-- Make edits as one step of the history; if one is refused, those before it are taken back. -/
def Document.transact {α : Type} (edits : Attempt Draft α) : Attempt Document α := fun d =>
  -- The history learns of the edits only when all of them are made.
  match edits.on (.start d.canvas) with
  | (.ok value, draft) => (.ok value, ⟨draft.canvas, d.history.push draft.command⟩)
  | (.error e, draft) => (.error e, { d with canvas := draft.rollback })

end QuickEntry
