import QuickEntry.Attempt
import QuickEntry.Workspace.Change

/-! Edits of a program graph, each with what is needed to revert it. -/

namespace QuickEntry

/-- A program graph with the node that the user has selected. -/
structure Canvas where
  workspace : Workspace
  /-- The selected node, which may be gone by now. -/
  selection : Option NodeId
deriving Repr

/-- An edit that was made. -/
inductive Command where
  /-- A detached node was inserted. -/
  | create (node : Node)
  /-- A detached node was removed. -/
  | delete (node : Node)
  /-- A field changed its value; without a value it was missing. -/
  | setField (id : NodeId) (name : String) (old new : Option String)
  /-- A node left one place for another; without a place it was on its own. -/
  | move (child : NodeId) (old new : Option Link)
  /-- Another node was selected. -/
  | select (old new : Option NodeId)
  /-- Edits that count as one. -/
  | batch (members : List Command)
deriving Repr

namespace Command

mutual

/-- Nothing but batches is in a command that changes nothing. -/
def isEmpty : Command → Bool
  | batch members => allEmpty members
  | _ => false

/-- Every one of some commands changes nothing. -/
def allEmpty : List Command → Bool
  | [] => true
  | c :: rest => c.isEmpty && allEmpty rest

end

mutual

/-- How deep batches are nested in a command. -/
def nesting : Command → Nat
  | batch members => deepest members + 1
  | _ => 0

/-- How deep batches are nested in any of some commands. -/
def deepest : List Command → Nat
  | [] => 0
  | c :: rest => max c.nesting (deepest rest)

end

end Command

/-- Take a node out of its place and put it into another one, or nowhere; the place before is given
back. A node that is refused goes back to where it was. -/
def Workspace.move (child : NodeId) (target : Option Link) :
    Attempt Workspace (Option Link) := do
  -- The old place is free while the node is refused the new one.
  let source ← .ofStep (Workspace.unplug · child)
  let put (place : Link) : Attempt Workspace Unit := .ofUpdate (Workspace.plug · child place)
  (target.forM put).orAfter (source.forM put)
  return source

namespace Canvas

/-- The selected node, if it is still there. -/
def selected? (c : Canvas) : Option NodeId := c.selection.filter c.workspace.contains

/-- A change of the graph only. -/
def onWorkspace {α : Type} (attempt : Attempt Workspace α) : Attempt Canvas α :=
  attempt.within (·.workspace) fun c workspace => { c with workspace }

/-- Insert a detached node. -/
def create (node : Node) : Attempt Canvas Command := do
  onWorkspace (.ofUpdate (Workspace.insert · node))
  return .create node

/-- Remove a detached node. -/
def delete (id : NodeId) : Attempt Canvas Command := do
  let node ← onWorkspace (.ofStep (Workspace.remove · id))
  return .delete node

/-- Set a field, or remove it. -/
def setField (id : NodeId) (name : String) (value : Option String) : Attempt Canvas Command := do
  let old ← onWorkspace (.ofStep (Workspace.setField · id name value))
  return .setField id name old value

/-- Move a node to a place, or take it out of its place. -/
def move (child : NodeId) (target : Option Link) : Attempt Canvas Command := do
  let source ← onWorkspace (Workspace.move child target)
  return .move child source target

/-- Select a node, or none. -/
def select (id : Option NodeId) : Attempt Canvas Command := fun c =>
  -- Nothing checks that the node is there.
  (.ok (.select c.selection id), { c with selection := id })

/-- Revert commands one after the other and give the commands that make them again, in the order
in which they were reverted. If one cannot be reverted, those that have been are made again, and
what cannot be made again is passed over. -/
def revertEach (revert : Command → Attempt Canvas Command) (reverted : List Command) :
    List Command → Attempt Canvas (List Command)
  -- What was reverted last is the first to be made again.
  | [] => return reverted.reverse
  | c :: rest => do
    let again ← (revert c).orAfter (reverted.forM fun again => (revert again).regardless)
    revertEach revert (again :: reverted) rest

/-- Revert a command whose batches are nested no deeper than the first argument says. -/
def revertWithin : Nat → Command → Attempt Canvas Command
  -- A member of a batch, and what makes it again, is nested less deep than the batch.
  | _, .create node => delete node.id
  | _, .delete node => create node
  | _, .setField id name old new => do
    let _ ← setField id name old
    return .setField id name new old
  | _, .move child old new => do
    let _ ← move child old
    return .move child new old
  | _, .select old new => do
    let _ ← select old
    return .select new old
  | 0, .batch members => return .batch members
  | nesting + 1, .batch members =>
    return .batch (← revertEach (revertWithin nesting) [] members.reverse)

/-- Revert a command and give the command that makes it again. The members of a batch are reverted
last to first. -/
def revert (command : Command) : Attempt Canvas Command := revertWithin command.nesting command

end Canvas

end QuickEntry
