import QuickEntry.Node.Json
import QuickEntry.Settings
import QuickEntry.Workspace.Basic

/-! Where a new node goes, seen from the selected one. -/

namespace QuickEntry

/-- The reason for a place. -/
inductive AttachmentRule where
  /-- An expression goes into a free socket of the selected node. -/
  | valueSocket
  /-- An expression goes into a free socket of a node that holds the selected one. -/
  | inwardReattach
  /-- A statement goes into a free socket of the selected node. -/
  | statementSocket
  /-- A statement goes after the selected one. -/
  | afterSelected
  /-- A statement goes after the one that holds the selected expression. -/
  | afterEnclosing
deriving DecidableEq, Repr

/-- The word for a reason. -/
def AttachmentRule.text : AttachmentRule → String
  | valueSocket => "value_socket"
  | inwardReattach => "inward_reattach"
  | statementSocket => "statement_socket"
  | afterSelected => "after_selected"
  | afterEnclosing => "after_enclosing"

/-- A place for a new node and the reason for it. -/
structure Attachment where
  place : Link
  rule : AttachmentRule
deriving DecidableEq, Repr

/-- An attachment as JSON. -/
def Attachment.toJson (a : Attachment) : Json :=
  .object [("link", a.place.toJson), ("rule", .string a.rule.text)]

/-- The first free socket for expressions that takes a given output. -/
def Node.freeValueSocket? (n : Node) (output : TypeCheck) : Option String :=
  (n.sockets.find? fun s =>
    s.kind = .value && s.target.isNone && s.check.accepts output).map (·.name)

/-- The first free socket for statements. -/
def Node.freeStatementSocket? (n : Node) : Option String :=
  (n.sockets.find? fun s => s.kind = .statement && s.target.isNone).map (·.name)

namespace Workspace

/-- The nearest node at or above a node that is no expression, at most so many levels up. -/
def enclosingStatement? (ws : Workspace) (levels : Nat) (id : NodeId) : Option NodeId :=
  -- The node itself is level zero.
  match ws.node? id with
  | none => none
  | some n =>
    if n.isValue then
      match levels, n.parent with
      | levels + 1, some place => ws.enclosingStatement? levels place.holder
      | _, _ => none
    else some id

/-- The node that holds a node in one of its sockets, if an expression may look there for a
place. -/
def holderInReach? (ws : Workspace) (reach : Reach) (n : Node) : Option Node :=
  -- A node after another one is held by no socket, and the search ends there.
  match n.parent with
  | some (.socket parent name) => do
    let holder ← ws.node? parent
    let slot ← holder.socket? name
    if (holder.isValue || reach.intoStatements) &&
        (slot.kind = .value || reach.throughStatementSockets) then some holder
    else none
  | _ => none

/-- The nearest free socket for an output above a node, at most so many levels up; the search ends
where the reach does. -/
def socketAbove? (ws : Workspace) (reach : Reach) (output : TypeCheck) (levels : Nat) (n : Node) :
    Option Link :=
  match levels with
  | 0 => none
  | levels + 1 =>
    match ws.holderInReach? reach n with
    | none => none
    | some holder =>
      match holder.freeValueSocket? output with
      | some name => some (.socket holder.id name)
      | none => ws.socketAbove? reach output levels holder

/-- The place for a new expression, seen from the selected node. -/
def placeForValue? (ws : Workspace) (reach : Reach) (output : TypeCheck) (selected : Node) :
    Option Attachment :=
  match selected.freeValueSocket? output with
  | some name => some ⟨.socket selected.id name, .valueSocket⟩
  | none =>
    (ws.socketAbove? reach output (min reach.levels reach.maxClimb) selected).map fun place =>
      ⟨place, .inwardReattach⟩

/-- The place for a new statement, seen from the selected node. -/
def placeForStatement? (ws : Workspace) (reach : Reach) (selected : Node) : Option Attachment :=
  -- A socket of the selection comes first, then the place after it or after its statement.
  match selected.freeStatementSocket? with
  | some name => some ⟨.socket selected.id name, .statementSocket⟩
  | none =>
    if selected.hasNext then some ⟨.next selected.id, .afterSelected⟩
    else if selected.isValue then do
      let id ← ws.enclosingStatement? reach.maxClimb selected.id
      let enclosing ← ws.node? id
      if enclosing.hasNext then some ⟨.next id, .afterEnclosing⟩ else none
    else none

/-- The place for a new node, seen from the selected one; without a place it stays on its own. -/
def placeFor? (ws : Workspace) (new : NodeId) (selected : Option NodeId) (reach : Reach) :
    Option Attachment := do
  -- A block on its own, without any connector, has no place.
  let n ← ws.node? new
  let s ← ws.node? (← selected)
  if s.id = new then none
  else match n.output with
    | some output => ws.placeForValue? reach output s
    | none => if n.hasPrevious then ws.placeForStatement? reach s else none

end Workspace

end QuickEntry
