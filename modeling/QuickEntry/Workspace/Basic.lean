import QuickEntry.BlockKind
import QuickEntry.EditError

/-! The program graph: nodes by number, declared components, and walks along the links. -/

namespace QuickEntry

/-- A program graph with the components that it may use. -/
structure Workspace where
  /-- The nodes by number, oldest first. -/
  nodes : OrderedMap NodeId Node
  /-- The number of the next node to be made. -/
  nextNumber : Nat
  /-- The types of the declared component instances. -/
  components : OrderedMap String String
  database : ComponentDatabase
deriving Repr

namespace Workspace

/-- The workspace without nodes and components. -/
def empty (database : ComponentDatabase) : Workspace := ⟨∅, 1, ∅, database⟩

/-- Declare a component instance; a known one changes its type. -/
def addComponent (ws : Workspace) (name type : String) : Workspace :=
  { ws with components := ws.components.insert name type }

/-- The node with a number. -/
def node? (ws : Workspace) (id : NodeId) : Option Node := ws.nodes.get? id

/-- The node with a number, whose absence is an error. -/
def get (ws : Workspace) (id : NodeId) : Except EditError Node :=
  match ws.node? id with
  | some n => .ok n
  | none => .error (.unknownNode id)

/-- Whether there is a node with a number. -/
def contains (ws : Workspace) (id : NodeId) : Bool := ws.nodes.contains id

/-- The nodes, sorted by number. -/
def snapshot (ws : Workspace) : List Node :=
  ws.nodes.values.mergeSort fun a b => a.id.number ≤ b.id.number

/-- Change the node with a number. -/
def modify (ws : Workspace) (id : NodeId) (f : Node → Node) : Workspace :=
  { ws with nodes := ws.nodes.modify id f }

/-- A change of a node shows under its number alone. -/
theorem node?_modify (ws : Workspace) (id other : NodeId) (f : Node → Node) :
    (ws.modify id f).node? other = if other = id then (ws.node? id).map f else ws.node? other :=
  -- The value of one key is changed.
  ws.nodes.get?_modify id other f

/-- The oldest node that defines a procedure. -/
def procedure? (ws : Workspace) (name : String) : Option Node :=
  -- Of several definitions of one name the first to be inserted counts.
  ws.nodes.values.find? fun n =>
    BlockKind.procedureDefinitions.contains n.kind && n.field? "NAME" = some name

/-- What the shapes of blocks may ask of the workspace around them. -/
def surroundings (ws : Workspace) : Surroundings where
  procedureArguments name := (ws.procedure? name).map (·.mutation.args)
  componentType := ws.database.get?

/-- The node that takes a place. -/
def occupant? (ws : Workspace) (place : Link) : Option NodeId :=
  (ws.node? place.holder).bind (·.occupant place)

/-- Follow the chain from a node as many steps as the first argument says, or to its end. -/
def follow (ws : Workspace) : Nat → NodeId → NodeId
  -- The bound keeps the walk finite, whatever the links say.
  | 0, id => id
  | steps + 1, id =>
    match (ws.node? id).bind (·.next) with
    | some next => ws.follow steps next
    | none => id

/-- The end of the chain that goes on from a node. -/
def chainEnd (ws : Workspace) (id : NodeId) : NodeId := ws.follow ws.nodes.size id

/-- The number of steps that a walk over some nodes takes at most, one for each and one for each of
their children. -/
def walkLength : List (NodeId × Node) → Nat
  | [] => 0
  | e :: rest => e.2.children.length + 1 + walkLength rest

/-- Leaving out nodes makes no walk longer. -/
theorem walkLength_filter_le (keep : NodeId × Node → Bool) (entries : List (NodeId × Node)) :
    walkLength (entries.filter keep) ≤ walkLength entries := by
  -- Each entry that stays keeps its steps, and the others only had some to lose.
  induction entries with
  | nil => simp [walkLength]
  | cons e rest ih =>
    simp only [walkLength, List.filter_cons] at ih ⊢
    split
    · simp only [walkLength]
      omega
    · omega

/-- Taking out a node shortens the walk over the others by the steps for its children and one. -/
theorem walkLength_erase (unvisited : OrderedMap NodeId Node) {id : NodeId} {n : Node}
    (found : unvisited.get? id = some n) :
    walkLength (unvisited.erase id).entries + n.children.length + 1 ≤
      walkLength unvisited.entries := by
  -- The entry that is found gives up its steps, and leaving out others adds none.
  have general : ∀ entries : List (NodeId × Node), entries.lookup id = some n →
      walkLength (entries.filter fun e => e.1 ≠ id) + n.children.length + 1 ≤
        walkLength entries := by
    intro entries
    induction entries with
    | nil => intro found; simp at found
    | cons e rest ih =>
      obtain ⟨k, m⟩ := e
      intro found
      rw [List.lookup_cons] at found
      have shorter := walkLength_filter_le (fun e => e.1 ≠ id) rest
      -- Either this is the entry, which pays for its children, or it lies in the rest.
      by_cases same : id = k
      · subst same
        simp only [BEq.rfl, Option.some.injEq] at found
        subst found
        simp only [walkLength] at shorter ⊢
        rw [List.filter_cons_of_neg (by simp)]
        omega
      · have apart : (id == k) = false := by simpa using same
        simp only [apart] at found
        have shorter := ih found
        rw [List.filter_cons_of_pos (by simpa using fun h => same h.symm)]
        simp only [walkLength] at shorter ⊢
        omega
  exact general unvisited.entries found

/-- Visit nodes in the order of a list, each with all that hangs below and after it before the next
one; nodes that are unknown or already visited are passed over. -/
def visit (unvisited : OrderedMap NodeId Node) : List NodeId → List NodeId
  | [] => []
  | id :: waiting =>
    match _found : unvisited.get? id with
    | none => visit unvisited waiting
    | some n => id :: visit (unvisited.erase id) (n.children ++ waiting)
termination_by waiting => walkLength unvisited.entries + waiting.length
decreasing_by
  · simp
  · have := walkLength_erase unvisited _found
    simp only [List.length_append, List.length_cons]
    omega

/-- A node and all that hangs below it, parents first; the statements that follow the node itself
are left out on demand. -/
def subtree (ws : Workspace) (id : NodeId) (withNext : Bool) : List NodeId :=
  -- The node itself is visited already, so that no cycle leads back to it.
  match ws.node? id with
  | none => []
  | some n => id :: visit (ws.nodes.erase id) (if withNext then n.children else n.plugged)

end Workspace

end QuickEntry
