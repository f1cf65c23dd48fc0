import QuickEntry.Attachment
import QuickEntry.Proofs.Graph.Link
import QuickEntry.Proofs.Graph.Reshape

/-! The places that are proposed for a new node: they are there, they take the node, and those that
are sockets are free. -/

namespace QuickEntry

namespace Node

variable {n : Node}

/-- A node has every place in which it takes a node. -/
theorem Admits.hasPlace {m : Node} {place : Link} (admits : n.Admits m place) :
    n.HasPlace place := by
  -- A socket that takes a node is found under its name.
  cases place with
  | socket parent name =>
    obtain ⟨slot, found, _⟩ := admits
    exact ⟨slot, found⟩
  | next previous => trivial

/-- If sockets have distinct names, each is found under its name, with what it holds. -/
theorem occupant_of_mem (distinct : n.connectors.Distinct) {s : Socket} (member : s ∈ n.sockets)
    (parent : NodeId) :
    n.socket? s.name = some s ∧ n.occupant (.socket parent s.name) = s.target := by
  -- No other socket has its name.
  have found : n.socket? s.name = some s :=
    find?_of_distinct distinct member _ (by simp) fun t suits => by simpa using suits
  exact ⟨found, by rw [occupant, found, Option.bind_some]⟩

/-- A free socket for expressions is empty and takes every node with the output. -/
theorem of_freeValueSocket? (distinct : n.connectors.Distinct) {output : TypeCheck} {name : String}
    (free : n.freeValueSocket? output = some name) (parent : NodeId) {m : Node}
    (given : m.output = some output) :
    n.occupant (.socket parent name) = none ∧ n.Admits m (.socket parent name) := by
  obtain ⟨s, search, rfl⟩ := Option.map_eq_some_iff.mp free
  have suits := List.find?_some search
  simp only [Bool.and_eq_true, decide_eq_true_eq, Option.isNone_iff_eq_none] at suits
  obtain ⟨⟨kind, empty⟩, accepts⟩ := suits
  -- The socket that was seen is the one that its name leads to.
  obtain ⟨found, holds⟩ := occupant_of_mem distinct (List.mem_of_find?_eq_some search) parent
  exact ⟨holds.trans empty, s, found, (Socket.obstacle_value kind).mpr ⟨output, given, accepts⟩⟩

/-- A free socket for statements is empty and takes every node with a previous connector. -/
theorem of_freeStatementSocket? (distinct : n.connectors.Distinct) {name : String}
    (free : n.freeStatementSocket? = some name) (parent : NodeId) {m : Node}
    (has : m.hasPrevious = true) :
    n.occupant (.socket parent name) = none ∧ n.Admits m (.socket parent name) := by
  obtain ⟨s, search, rfl⟩ := Option.map_eq_some_iff.mp free
  have suits := List.find?_some search
  simp only [Bool.and_eq_true, decide_eq_true_eq, Option.isNone_iff_eq_none] at suits
  -- The socket that was seen is the one that its name leads to.
  obtain ⟨found, holds⟩ := occupant_of_mem distinct (List.mem_of_find?_eq_some search) parent
  exact ⟨holds.trans suits.2, s, found, (Socket.obstacle_statement suits.1).mpr has⟩

end Node

namespace Workspace

variable {ws : Workspace}

/-- In every node the sockets have distinct names. -/
def Distinct (ws : Workspace) : Prop :=
  ∀ ⦃id n⦄, ws.node? id = some n → n.connectors.Distinct

/-- Nothing but the node itself hangs below a detached node. -/
theorem Linked.below_of_isDetached (linked : ws.Linked) {top id : NodeId} {n : Node}
    (found : ws.node? top = some n) (detached : n.isDetached = true) (below : ws.Below top id) :
    id = top := by
  -- What hangs directly below the node would occupy one of its places.
  induction below with
  | refl => rfl
  | step held _ ih =>
    subst ih
    obtain ⟨place, placed, rfl⟩ := holder?_eq_some_iff.mp held
    have occupied := (linked.paired place _).mpr placed
    rw [occupant?_of_node? found, Node.occupant_of_isDetached detached] at occupied
    cases occupied

/-- A search for a free socket above a node ends at a node above it that has such a socket. -/
theorem Linked.of_socketAbove? (linked : ws.Linked) {reach : Reach} {output : TypeCheck}
    {levels : Nat} {place : Link} :
    ∀ {n : Node}, ws.node? n.id = some n →
      ws.socketAbove? reach output levels n = some place →
      ∃ holder name, ws.node? holder.id = some holder ∧ ws.Below holder.id n.id ∧
        holder.freeValueSocket? output = some name ∧ place = .socket holder.id name := by
  -- Each level goes on from a node to the one that holds it.
  induction levels with
  | zero => exact fun _ search => nomatch search
  | succ levels ih =>
    intro n found search
    simp only [socketAbove?] at search
    split at search
    · cases search
    · rename_i holder reached
      -- The climb goes through a socket, whose holder is above.
      obtain ⟨known, held⟩ : ws.node? holder.id = some holder ∧
          ws.holder? n.id = some holder.id := by
        unfold holderInReach? at reached
        split at reached
        · rename_i parent name placed
          obtain ⟨m, there, reached⟩ := Option.bind_eq_some_iff.mp reached
          obtain ⟨slot, _, reached⟩ := Option.bind_eq_some_iff.mp reached
          split at reached
          · cases reached
            have own : holder.id = parent := linked.own there
            subst own
            exact ⟨there, holder?_eq_some_iff.mpr
              ⟨_, (placeOf?_of_node? found).trans placed, rfl⟩⟩
          · cases reached
        · cases reached
      split at search
      · rename_i name free
        cases search
        exact ⟨holder, name, known, .step held .refl, free, rfl⟩
      · -- Without a free socket here the search goes on further out.
        obtain ⟨top, name, there, below, free, same⟩ := ih known search
        exact ⟨top, name, there, .step held below, free, same⟩

/-- A search for the enclosing statement ends at a node that is no expression, and goes on from an
expression to the node that holds it. -/
theorem enclosingStatement?_eq_some_iff {levels : Nat} {id top : NodeId} :
    ws.enclosingStatement? levels id = some top ↔ ∃ n, ws.node? id = some n ∧
      (n.isValue = false ∧ id = top ∨ n.isValue = true ∧ ∃ fewer place, levels = fewer + 1 ∧
        n.parent = some place ∧ ws.enclosingStatement? fewer place.holder = some top) := by
  -- A step stops at a statement, goes on from a value to its holder, and ends when no levels are
  -- left.
  rw [enclosingStatement?.eq_def]
  cases ws.node? id with
  | none => simp
  | some n =>
    cases value : n.isValue with
    | false => simp [value]
    | true => cases levels <;> cases placed : n.parent <;> simp [value, placed]

/-- A search for the enclosing statement ends at a node above, or at the node itself. -/
theorem below_of_enclosingStatement? {levels : Nat} {top : NodeId} :
    ∀ {id : NodeId}, ws.enclosingStatement? levels id = some top → ws.Below top id := by
  -- Each level goes on from a node to the one that holds it.
  induction levels with
  | zero =>
    intro id search
    obtain ⟨n, _, ⟨_, rfl⟩ | ⟨_, _, _, none, _⟩⟩ := enclosingStatement?_eq_some_iff.mp search
    · exact .refl
    · cases none
  | succ levels ih =>
    intro id search
    obtain ⟨n, found, ⟨_, rfl⟩ | ⟨_, _, place, fewer, placed, search⟩⟩ :=
      enclosingStatement?_eq_some_iff.mp search
    · exact .refl
    · cases fewer
      have held : ws.holder? id = some place.holder :=
        holder?_eq_some_iff.mpr ⟨place, (placeOf?_of_node? found).trans placed, rfl⟩
      exact .step held (ih search)

/-- A place that is proposed for a node: it is offered at or above the selected node, it takes the
node, and as a socket it is free. -/
structure Proposed (ws : Workspace) (n : Node) (selected : NodeId) (a : Attachment) : Prop where
  below : ws.Below a.place.holder selected
  offered : ∃ holder, ws.node? a.place.holder = some holder ∧ holder.Admits n a.place
  free : ∀ parent name, a.place = .socket parent name → ws.occupant? a.place = none
  after : (∃ previous, a.place = .next previous) ↔
    a.rule = .afterSelected ∨ a.rule = .afterEnclosing

section Proposed

variable {n s : Node} {reach : Reach} {a : Attachment}

/-- A socket of a node at or above the selected one is rightly proposed if it is empty and takes the
new node. -/
theorem proposed_socket {holder : Node} {name : String} {rule : AttachmentRule}
    (below : ws.Below holder.id s.id) (known : ws.node? holder.id = some holder)
    (suits : holder.occupant (.socket holder.id name) = none ∧
      holder.Admits n (.socket holder.id name))
    (inside : rule ≠ .afterSelected ∧ rule ≠ .afterEnclosing) :
    ws.Proposed n s.id ⟨.socket holder.id name, rule⟩ where
  -- The holder is there, its socket is free and admits the new node.
  below := below
  offered := ⟨holder, known, suits.2⟩
  free _ _ _ := (occupant?_of_node? known).trans suits.1
  after := by simp [inside.1, inside.2]

/-- The place after a statement at or above the selected node is rightly proposed for a
statement. -/
theorem proposed_next {previous : Node} {id : NodeId} {rule : AttachmentRule}
    (below : ws.Below id s.id) (known : ws.node? id = some previous)
    (hasNext : previous.hasNext = true) (hasPrevious : n.hasPrevious = true)
    (after : rule = .afterSelected ∨ rule = .afterEnclosing) :
    ws.Proposed n s.id ⟨.next id, rule⟩ where
  -- Both connections are there; whoever follows now is moved behind.
  below := below
  offered := ⟨previous, known, hasNext, hasPrevious⟩
  free _ _ other := nomatch other
  after := by simp [after]

/-- The place for a new expression is rightly proposed. -/
theorem Linked.proposed_value (linked : ws.Linked) (distinct : ws.Distinct)
    (selected : ws.node? s.id = some s) {output : TypeCheck} (given : n.output = some output)
    (proposal : ws.placeForValue? reach output s = some a) : ws.Proposed n s.id a := by
  -- A value goes into a free socket of the selected node or of one further out.
  unfold placeForValue? at proposal
  split at proposal
  · -- The selected node has a free socket.
    rename_i name free
    cases proposal
    exact proposed_socket .refl selected
      (Node.of_freeValueSocket? (distinct selected) free s.id given) (by simp)
  · -- A node above it has one.
    obtain ⟨place, search, rfl⟩ := Option.map_eq_some_iff.mp proposal
    obtain ⟨holder, name, known, below, free, rfl⟩ := linked.of_socketAbove? selected search
    exact proposed_socket below known
      (Node.of_freeValueSocket? (distinct known) free holder.id given) (by simp)

/-- The place for a new statement is rightly proposed. -/
theorem proposed_statement (distinct : ws.Distinct) (selected : ws.node? s.id = some s)
    (has : n.hasPrevious = true) (proposal : ws.placeForStatement? reach s = some a) :
    ws.Proposed n s.id a := by
  -- There are three places for a statement, tried in this order.
  unfold placeForStatement? at proposal
  split at proposal
  · -- The selected node has a free socket.
    rename_i name free
    cases proposal
    exact proposed_socket .refl selected
      (Node.of_freeStatementSocket? (distinct selected) free s.id has) (by simp)
  · split at proposal
    · -- The selected node is a statement itself.
      rename_i hasNext
      cases proposal
      exact proposed_next .refl selected hasNext has (.inl rfl)
    · split at proposal
      · -- A statement holds the selected expression.
        obtain ⟨id, search, proposal⟩ := Option.bind_eq_some_iff.mp proposal
        obtain ⟨enclosing, known, proposal⟩ := Option.bind_eq_some_iff.mp proposal
        split at proposal
        · rename_i hasNext
          cases proposal
          exact proposed_next (below_of_enclosingStatement? search) known hasNext has (.inr rfl)
        · cases proposal
      · cases proposal

/-- Every place that is proposed for a node is rightly proposed, as seen from a selected node that
is another one. -/
theorem Linked.proposed (linked : ws.Linked) (distinct : ws.Distinct) {new : NodeId}
    {selected : Option NodeId} (found : ws.node? new = some n)
    (proposal : ws.placeFor? new selected reach = some a) :
    ∃ id, selected = some id ∧ id ≠ new ∧ ws.Proposed n id a := by
  -- Something else must be selected; whether the new node has an output decides between the two
  -- searches.
  simp only [placeFor?, found, Option.bind_eq_bind, Option.bind_some] at proposal
  obtain ⟨id, chosen, offer⟩ := Option.bind_eq_some_iff.mp proposal
  obtain ⟨t, known, choice⟩ := Option.bind_eq_some_iff.mp offer
  have own : t.id = id := linked.own known
  clear proposal offer
  subst own
  split at choice
  · cases choice
  · rename_i other
    refine ⟨t.id, chosen, other, ?_⟩
    split at choice
    · rename_i output given
      exact linked.proposed_value distinct known given choice
    · split at choice
      · rename_i has
        exact proposed_statement distinct known has choice
      · cases choice

end Proposed

end Workspace

end QuickEntry
