import QuickEntry.Component
import QuickEntry.Node

/-! The connectors and sockets that a block has, as its kind, fields and structural state ask. -/

namespace QuickEntry

/-- An input that a shape asks for. -/
structure SocketSpec where
  name : String
  kind : SocketKind
  check : TypeCheck
deriving DecidableEq, Repr

/-- The connectors and inputs of a block. -/
structure Shape where
  output : Option TypeCheck
  hasPrevious : Bool
  hasNext : Bool
  sockets : List SocketSpec
deriving DecidableEq, Repr

namespace Shape

/-- An expression that produces a value. -/
def value (output : TypeCheck) : Shape := ⟨some output, false, false, []⟩

/-- A command between two others. -/
def statement : Shape := ⟨none, true, true, []⟩

/-- A block that stands on its own. -/
def topLevel : Shape := ⟨none, false, false, []⟩

/-- Further inputs behind the present ones. -/
def withSockets (shape : Shape) (sockets : List SocketSpec) : Shape :=
  { shape with sockets := shape.sockets ++ sockets }

end Shape

/-- An input for an expression. -/
def SocketSpec.value (name : String) (check : TypeCheck) : SocketSpec := ⟨name, .value, check⟩

/-- An input for statements. -/
def SocketSpec.statement (name : String) : SocketSpec := ⟨name, .statement, .any⟩

/-- Inputs for expressions whose names are numbered from zero. -/
def SocketSpec.numbered (name : String) (check : TypeCheck) (count : Nat) : List SocketSpec :=
  (List.range count).map fun i => value (name ++ toString i) check

namespace Node

/-- The socket that a shape asks for, with what the like socket before it held. -/
def reuse (before : List Socket) (spec : SocketSpec) : Socket :=
  -- A socket of the other kind cannot keep what this one held.
  let held := (before.find? fun s => s.name = spec.name && s.kind = spec.kind).bind (·.target)
  ⟨spec.name, spec.kind, spec.check, held⟩

/-- Give a node the connectors and sockets of a shape; a socket that keeps its name and kind keeps
its occupant. -/
def reshape (n : Node) (shape : Shape) : Node :=
  { n with
    output := shape.output
    hasPrevious := shape.hasPrevious
    hasNext := shape.hasNext
    sockets := shape.sockets.map (reuse n.sockets) }

end Node

end QuickEntry
