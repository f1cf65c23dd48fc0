import QuickEntry.Attempt
import QuickEntry.Block
import QuickEntry.Workspace.Change

/-! Building the nodes of a nested description, from the outermost block inwards. -/

namespace QuickEntry

/-- The structural state that a block brings along as a document. -/
def Mutation.ofExtraState (document : Option String) : Except EditError Mutation :=
  -- A block without a document has the empty state.
  match document with
  | none => .ok .empty
  | some text => (Mutation.ofMarkup text).mapError EditError.malformed

/-- A workspace under construction, with the nodes that blocks have named. -/
structure Assembly where
  workspace : Workspace
  labels : OrderedMap String NodeId

namespace Assembly

/-- Apply a change of the workspace. -/
def change {α : Type} (step : Workspace → Except EditError (α × Workspace)) : Attempt Assembly α :=
  .ofStep fun a => (step a.workspace).map fun (value, ws) => (value, { a with workspace := ws })

/-- Make a node and insert it. -/
def addNode (kind : String) (mutation : Mutation) : Attempt Assembly NodeId := do
  let node ← change fun ws => ws.make kind mutation
  change fun ws => (ws.insert node).map fun ws => ((), ws)
  return node.id

/-- Set the fields of a node one after the other. -/
def setFields (id : NodeId) (fields : List (String × Json)) : Attempt Assembly Unit :=
  fields.forM fun (name, value) => do
    let _ ← change fun ws => ws.setField id name (some value.fieldText)

/-- Plug a node into a place. -/
def plug (child : NodeId) (place : Link) : Attempt Assembly Unit :=
  change fun ws => (ws.plug child place).map fun ws => ((), ws)

/-- Remember the node of a block under the block's name. -/
def remember (label : Option String) (id : NodeId) : Attempt Assembly Unit :=
  modify fun a => { a with labels := label.elim a.labels fun name => a.labels.insert name id }

mutual

/-- Build a block, then the blocks in its inputs, then the one that follows; a failure leaves
behind what is built by then. -/
def append : Block → Attempt Assembly NodeId
  -- The node is numbered before its children and named after them.
  | ⟨kind, label, fields, extraState, inputs, next⟩ => do
    let mutation ← Attempt.ofExcept (Mutation.ofExtraState extraState)
    let id ← addNode kind mutation
    setFields id fields.entries
    appendInputs id inputs
    appendNext id next
    remember label id
    return id

/-- Build blocks and plug them into sockets of a node. -/
def appendInputs (id : NodeId) : List (String × Block) → Attempt Assembly Unit
  | [] => pure ()
  | (name, block) :: rest => do
    let child ← append block
    plug child (.socket id name)
    appendInputs id rest

/-- Build the block that follows a node. -/
def appendNext (id : NodeId) : Option Block → Attempt Assembly Unit
  | none => pure ()
  | some block => do
    let child ← append block
    plug child (.next id)

end

end Assembly

/-- Build a block into a workspace: its node, the nodes that blocks have named, and the
workspace. -/
def Workspace.append (ws : Workspace) (labels : OrderedMap String NodeId) (block : Block) :
    Except EditError NodeId × Assembly :=
  (Assembly.append block).on ⟨ws, labels⟩

end QuickEntry
