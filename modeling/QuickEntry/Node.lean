import QuickEntry.Mutation
import QuickEntry.TypeCheck

/-! Nodes of a program graph and the links between them. -/

namespace QuickEntry

/-- The number by which a workspace knows a node. -/
structure NodeId where
  number : Nat
deriving DecidableEq, Repr, Inhabited

/-- A node is called by its number. -/
def NodeId.text (id : NodeId) : String := "#" ++ toString id.number

/-- What a socket takes. -/
inductive SocketKind where
  /-- One expression, by its output. -/
  | value
  /-- A chain of statements, by the previous connector of the first. -/
  | statement
deriving DecidableEq, Repr

/-- The word for a kind of socket. -/
def SocketKind.text : SocketKind → String
  | value => "value"
  | statement => "statement"

/-- A named input of a node. -/
structure Socket where
  name : String
  kind : SocketKind
  check : TypeCheck
  /-- The node that is plugged in. -/
  target : Option NodeId
deriving DecidableEq, Repr

/-- A place that a node can take beneath another one. -/
inductive Link where
  /-- The socket of a node with this name. -/
  | socket (parent : NodeId) (name : String)
  /-- The place after a statement. -/
  | next (previous : NodeId)
deriving DecidableEq, Repr

namespace Link

/-- The node that offers the place. -/
def holder : Link → NodeId
  | socket parent _ => parent
  | next previous => previous

/-- A place is called by its holder and the name of the socket, or `next`. -/
def text : Link → String
  | socket parent name => parent.text ++ "." ++ name
  | next previous => previous.text ++ ".next"

end Link

/-- A block of the program. -/
structure Node where
  id : NodeId
  kind : String
  fields : OrderedMap String String
  mutation : Mutation
  /-- The output connector of an expression. -/
  output : Option TypeCheck
  hasPrevious : Bool
  hasNext : Bool
  /-- The statement that follows. -/
  next : Option NodeId
  sockets : List Socket
  /-- The place that the node takes. -/
  parent : Option Link
deriving DecidableEq, Repr

namespace Node

/-- The value of a field. -/
def field? (n : Node) (name : String) : Option String := n.fields.get? name

/-- The first socket with a name. -/
def socket? (n : Node) (name : String) : Option Socket := n.sockets.find? (·.name = name)

/-- An expression has an output. -/
def isValue (n : Node) : Bool := n.output.isSome

/-- A statement has no output but a connector before or after it. -/
def isStatement (n : Node) : Bool := n.output.isNone && (n.hasPrevious || n.hasNext)

/-- The nodes in the sockets, in the order of the sockets. -/
def plugged (n : Node) : List NodeId := n.sockets.filterMap (·.target)

/-- The nodes in the sockets, and then the statement that follows. -/
def children (n : Node) : List NodeId := n.plugged ++ n.next.toList

/-- Nothing hangs on the node, and the node hangs on nothing. -/
def isDetached (n : Node) : Bool :=
  -- All three kinds of connection count: upward, onward and inward.
  n.parent.isNone && n.next.isNone && n.sockets.all (·.target.isNone)

/-- The node that occupies the place of a link that the node holds. -/
def occupant (n : Node) : Link → Option NodeId
  -- The holder named by the link is taken to be this node.
  | .socket _ name => (n.socket? name).bind (·.target)
  | .next _ => n.next

/-- Change the first socket with a name. -/
def modifySocket (name : String) (f : Socket → Socket) : List Socket → List Socket
  -- Later sockets of the same name are out of reach.
  | [] => []
  | s :: rest => if s.name = name then f s :: rest else s :: modifySocket name f rest

/-- Put a node, or nothing, into the place of a link that the node holds. -/
def fill (n : Node) (link : Link) (occupant : Option NodeId) : Node :=
  -- The holder named by the link is taken to be this node.
  match link with
  | .socket _ name =>
    { n with sockets := modifySocket name (fun s => { s with target := occupant }) n.sockets }
  | .next _ => { n with next := occupant }

/-- Equal in everything but the order of fields and settings. -/
def same (a b : Node) : Bool :=
  -- With the maps made equal, plain equality compares the rest.
  a.fields.same b.fields && a.mutation.same b.mutation &&
    { a with fields := b.fields, mutation := b.mutation } = b

end Node

end QuickEntry
