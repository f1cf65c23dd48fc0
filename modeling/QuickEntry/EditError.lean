import QuickEntry.Node

/-! Why a change to a program graph is refused. -/

namespace QuickEntry

/-- Why a node does not fit a free place. -/
inductive Obstacle where
  | hasParent | typeMismatch | noOutput | noPrevious | noNext | cycle
deriving DecidableEq, Repr

/-- The wording of an obstacle. -/
def Obstacle.text : Obstacle → String
  | hasParent => "node already has a parent"
  | typeMismatch => "type check mismatch"
  | noOutput => "node has no output connector"
  | noPrevious => "node has no previous connector"
  | noNext => "target has no next connector"
  | cycle => "connection would create a cycle"

/-- Why a change is refused. -/
inductive EditError where
  /-- No kind of blocks has this name. -/
  | unknownKind (kind : String)
  /-- The workspace has no such node. -/
  | unknownNode (id : NodeId)
  /-- The workspace has a node of this number already. -/
  | duplicateNode (id : NodeId)
  /-- The node has no socket of this name. -/
  | unknownSocket (node : NodeId) (socket : String)
  /-- Another node takes the place. -/
  | occupied (place : Link)
  /-- The node does not fit the place. -/
  | incompatible (child : NodeId) (place : Link) (obstacle : Obstacle)
  /-- The node has to be taken out of its connections first. -/
  | stillConnected (id : NodeId)
  /-- A text is no structural state. -/
  | malformed (cause : MutationError)
  /-- With the new field the node could not keep its connections. -/
  | shapeConflict (node : NodeId) (field : String)
deriving DecidableEq, Repr

/-- The wording of a refusal. -/
def EditError.message : EditError → String
  | unknownKind kind => "unknown block type: " ++ kind
  | unknownNode id => "unknown node " ++ id.text
  | duplicateNode id => "node " ++ id.text ++ " already exists"
  | unknownSocket node socket => "node " ++ node.text ++ " has no socket named '" ++ socket ++ "'"
  | occupied place => "connection target of " ++ place.text ++ " is already occupied"
  | incompatible child place obstacle =>
    "node " ++ child.text ++ " cannot attach to " ++ place.text ++ ": " ++ obstacle.text
  | stillConnected id => "node " ++ id.text ++ " is still connected"
  | malformed cause => "malformed structural state: " ++ cause.message
  | shapeConflict node field =>
    "changing field '" ++ field ++ "' of " ++ node.text ++ " would drop a connected socket"

end QuickEntry
