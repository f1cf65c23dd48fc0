import QuickEntry.Workspace.Basic

/-! The changes to a program graph: making, inserting and removing nodes, setting fields, and
plugging nodes into places. -/

namespace QuickEntry

/-- Why a socket does not take a node, if it does not. -/
def Socket.obstacle (slot : Socket) (node : Node) : Option Obstacle :=
  -- Expressions are joined by types, statements by connectors alone.
  match slot.kind, node.output with
  | .value, some output => if slot.check.accepts output then none else some .typeMismatch
  | .value, none => some .noOutput
  | .statement, _ => if node.hasPrevious then none else some .noPrevious

/-- Why the holder of a place does not take a child there, if it does not. The answer names the child
by the number that it was asked for. -/
def Node.refusal (holder : Node) (child : NodeId) (node : Node) (place : Link) :
    Option EditError :=
  -- Whether the place is free comes before whether the node fits.
  match place with
  | .socket parent name =>
    match holder.socket? name with
    | none => some (.unknownSocket parent name)
    | some slot =>
      if slot.target.isSome then some (.occupied place)
      else (slot.obstacle node).map (.incompatible child place)
  | .next _ =>
    if !holder.hasNext then some (.incompatible child place .noNext)
    else if holder.next.isSome then some (.occupied place)
    else if !node.hasPrevious then some (.incompatible child place .noPrevious)
    else none

namespace Workspace

/-- The shape that a node derives from its fields and its structural state. -/
def shapeOf (ws : Workspace) (n : Node) : Except EditError Shape :=
  match BlockKind.ofName? n.kind with
  | some kind => .ok (kind.shape n.fields n.mutation ws.surroundings)
  | none => .error (.unknownKind n.kind)

/-- Make a detached node with the default fields of its kind and the next number, without inserting
it; the number is used up. -/
def make (ws : Workspace) (kind : String) (mutation : Mutation) :
    Except EditError (Node × Workspace) :=
  -- The shape may depend on what the workspace declares.
  match BlockKind.ofName? kind with
  | none => .error (.unknownKind kind)
  | some known =>
    let fields := OrderedMap.ofList known.defaultFields
    let blank : Node := {
      id := ⟨ws.nextNumber⟩, kind, fields, mutation, output := none, hasPrevious := false,
      hasNext := false, next := none, sockets := [], parent := none }
    .ok (blank.reshape (known.shape fields mutation ws.surroundings),
      { ws with nextNumber := ws.nextNumber + 1 })

/-- Insert a detached node under its number. -/
def insert (ws : Workspace) (n : Node) : Except EditError Workspace :=
  -- Numbers given out later stay above those brought along.
  if ws.contains n.id then .error (.duplicateNode n.id)
  else if !n.isDetached then .error (.stillConnected n.id)
  else .ok { ws with
    nodes := ws.nodes.insert n.id n
    nextNumber := max ws.nextNumber (n.id.number + 1) }

/-- Remove a detached node. -/
def remove (ws : Workspace) (id : NodeId) : Except EditError (Node × Workspace) :=
  -- A connected node would leave dangling links behind.
  match ws.node? id with
  | none => .error (.unknownNode id)
  | some n =>
    if n.isDetached then .ok (n, { ws with nodes := ws.nodes.erase id })
    else .error (.stillConnected id)

/-- What a socket holds has a like socket to go over into when the node takes on a shape. -/
def keepsChild (ws : Workspace) (shape : Shape) (s : Socket) : Bool :=
  -- Statements are asked for nothing that they have not shown before.
  match s.target, shape.sockets.find? fun spec => spec.name = s.name && spec.kind = s.kind with
  | none, _ => true
  | some _, none => false
  | some child, some spec =>
    spec.kind = .statement ||
      ((ws.node? child).bind (·.output)).any spec.check.accepts

/-- The place that a node takes still takes it when it takes on a shape. -/
def keepsParent (ws : Workspace) (n : Node) (shape : Shape) : Bool :=
  -- A node on its own has nothing to lose.
  match n.parent with
  | none => true
  | some (.next _) => shape.hasPrevious
  | some (.socket parent name) =>
    match (ws.node? parent).bind (·.socket? name) with
    | none => false
    | some slot =>
      match slot.kind with
      | .value => shape.output.any slot.check.accepts
      | .statement => shape.hasPrevious

/-- The node keeps every connection that it has when it takes on a shape. -/
def keepsConnections (ws : Workspace) (n : Node) (shape : Shape) : Bool :=
  -- Children, the node after and the place taken are checked against the new shape.
  n.sockets.all (ws.keepsChild shape) && (n.next.isNone || shape.hasNext) &&
    ws.keepsParent n shape

/-- Set a field, or remove it, and derive the shape anew; a change that would cost a connection is
refused. The value before is given back. -/
def setField (ws : Workspace) (id : NodeId) (name : String) (value : Option String) :
    Except EditError (Option String × Workspace) := do
  -- The shape is derived from the changed fields before anything is stored.
  let n ← ws.get id
  let fields := match value with
    | some v => n.fields.insert name v
    | none => n.fields.erase name
  let changed := { n with fields }
  let shape ← ws.shapeOf changed
  if ws.keepsConnections changed shape then
    return (n.field? name, ws.modify id fun _ => changed.reshape shape)
  else throw (.shapeConflict id name)

/-- Why a node cannot take a free place, if it cannot. -/
def refusal (ws : Workspace) (child : NodeId) (place : Link) : Option EditError :=
  -- The cheap checks come first, the walk that finds cycles last.
  match ws.node? child with
  | none => some (.unknownNode child)
  | some n =>
    if n.parent.isSome then some (.incompatible child place .hasParent)
    else match ws.node? place.holder with
      | none => some (.unknownNode place.holder)
      | some holder =>
        match holder.refusal child n place with
        | some e => some e
        | none =>
          if (ws.subtree child true).contains place.holder then
            some (.incompatible child place .cycle)
          else none

/-- Record on both sides that a node takes a place. -/
def join (ws : Workspace) (child : NodeId) (place : Link) : Workspace :=
  -- The holder gets its occupant, and the occupant its place.
  (ws.modify place.holder fun n => n.fill place (some child)).modify child fun n =>
    { n with parent := some place }

/-- Record on both sides that a node leaves a place. -/
def part (ws : Workspace) (child : NodeId) (place : Link) : Workspace :=
  -- The holder loses its occupant, and the occupant its place.
  (ws.modify place.holder fun n => n.fill place none).modify child fun n =>
    { n with parent := none }

/-- Plug a node that has no parent into a free place. -/
def plug (ws : Workspace) (child : NodeId) (place : Link) : Except EditError Workspace :=
  match ws.refusal child place with
  | some e => .error e
  | none => .ok (ws.join child place)

/-- Unplug a node from the place that it takes, which is given back. -/
def unplug (ws : Workspace) (child : NodeId) : Except EditError (Option Link × Workspace) := do
  let n ← ws.get child
  match n.parent with
  | none => return (none, ws)
  | some place => return (some place, ws.part child place)

/-- Remove all nodes and count from one again; the declared components stay. -/
def clear (ws : Workspace) : Workspace := { ws with nodes := ∅, nextNumber := 1 }

end Workspace

end QuickEntry
