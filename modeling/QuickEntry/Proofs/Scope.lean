import QuickEntry.Declarations
import QuickEntry.Proofs.Graph.Chain
import QuickEntry.Proofs.Graph.Subtree
import QuickEntry.Proofs.Reachable

/-! The local names that a node sees: the way up from the node passes all blocks that hold it in a
socket, at any depth, and takes names from no others. -/

namespace QuickEntry

/-- A place is a socket, and not the place after a statement. -/
def Link.isSocket : Link → Bool
  | socket _ _ => true
  | next _ => false

namespace Workspace

variable {ws : Workspace} {outer id : NodeId} {n : Node}

/-- A node is inside another one: it is in one of its sockets, or below what is. -/
def Inside (ws : Workspace) (outer id : NodeId) : Prop :=
  ∃ name child, ws.occupant? (.socket outer name) = some child ∧ ws.Below child id

/-- A node with a place is inside the holder if the place is a socket, and inside all that the holder
is inside of. -/
theorem Linked.inside_iff (linked : ws.Linked) {place : Link} (placed : ws.placeOf? id = some place) :
    ws.Inside outer id ↔
      place.isSocket = true ∧ outer = place.holder ∨ ws.Inside outer place.holder := by
  -- Either the node is itself in a socket of the outer one, or what holds it is inside already.
  constructor
  · rintro ⟨name, child, occupied, below⟩
    cases below with
    | refl =>
      cases placed.symm.trans ((linked.paired _ _).mp occupied)
      exact .inl ⟨rfl, rfl⟩
    | step held below =>
      cases held.symm.trans (holder?_eq_some_iff.mpr ⟨place, placed, rfl⟩)
      exact .inr ⟨name, child, occupied, below⟩
  · rintro (⟨socket, rfl⟩ | ⟨name, child, occupied, below⟩)
    · cases place with
      | socket parent name => exact ⟨name, id, (linked.paired _ _).mpr placed, .refl⟩
      | next previous => cases socket
    · exact ⟨name, child, occupied, .step (holder?_eq_some_iff.mpr ⟨place, placed, rfl⟩) below⟩

/-- A node without a place is inside no other one. -/
theorem Linked.not_inside (linked : ws.Linked) (free : ws.placeOf? id = none) :
    ¬ws.Inside outer id := by
  -- What is inside something has a place.
  rintro ⟨name, child, occupied, below⟩
  cases below with
  | refl =>
    cases free.symm.trans ((linked.paired _ _).mp occupied)
  | step held _ =>
    rw [holder?, free] at held
    cases held

/-- The subtree of a node without what follows is the node with all that is inside it. -/
theorem Linked.mem_subtree_false_iff (linked : ws.Linked) :
    id ∈ ws.subtree outer false ↔
      (∃ n, ws.node? outer = some n) ∧ (id = outer ∨ ws.Inside outer id) := by
  -- The subtree without followers is the node and whatever is visited from its sockets.
  cases found : ws.node? outer with
  | none => simp [subtree, found]
  | some n =>
    -- A block in a socket is an occupant of it, under the name of the socket.
    have plugged : ∀ {child}, child ∈ n.plugged ↔
        ∃ name, ws.occupant? (.socket outer name) = some child := by
      intro child
      have offered : ∀ name, ws.occupant? (.socket outer name) = n.occupant (.socket outer name) :=
        fun name => occupant?_of_node? found
      simp only [offered, Node.plugged, List.mem_filterMap,
        (linked.first found).occupant_socket_iff]
      constructor
      · rintro ⟨s, member, held⟩
        exact ⟨s.name, s, member, rfl, held⟩
      · rintro ⟨_, s, member, _, held⟩
        exact ⟨s, member, held⟩
    simp only [subtree, found, Bool.false_eq_true, if_false, List.mem_cons, Option.some.injEq,
      exists_eq', true_and]
    refine or_congr_right ⟨fun member => ?_, ?_⟩
    · obtain ⟨child, inside, reaches⟩ := reaches_of_mem_visit member
      obtain ⟨name, occupied⟩ := plugged.mp inside
      exact ⟨name, child, occupied, linked.below_of_reaches reaches.of_erase⟩
    · rintro ⟨name, child, occupied, below⟩
      refine mem_visit (plugged.mpr ⟨name, occupied⟩) ?_
      have placed := (linked.paired _ _).mp occupied
      have held : ws.holder? child = some outer := holder?_eq_some_iff.mpr ⟨_, placed, rfl⟩
      obtain ⟨m, known, _⟩ := node?_of_placeOf? placed
      refine linked.reaches_of_below known (fun {x k} hangs there => ?_) below
      -- What hangs below the child does not hold it.
      have apart : x ≠ outer := by
        rintro rfl
        exact (linked.rooted child).not_below held hangs
      rw [OrderedMap.get?_erase, if_neg apart]
      exact there

/-- A node is not inside the one that it follows, and not inside one that a node above it
follows. -/
theorem Linked.not_inside_of_follows (linked : ws.Linked) {before follower : NodeId}
    (follows : ws.occupant? (.next before) = some follower) (below : ws.Below follower id) :
    ¬ws.Inside before id := by
  rintro ⟨name, child, occupied, below'⟩
  have placed := (linked.paired _ _).mp follows
  have placed' := (linked.paired _ _).mp occupied
  have held : ws.holder? follower = some before := holder?_eq_some_iff.mpr ⟨_, placed, rfl⟩
  have held' : ws.holder? child = some before := holder?_eq_some_iff.mpr ⟨_, placed', rfl⟩
  -- Of the two nodes that the one before holds, one would be below the other.
  rcases below.total below' with upper | upper
  · cases upper with
    | refl => cases placed.symm.trans placed'
    | step link above =>
      cases link.symm.trans held'
      exact (linked.rooted follower).not_below held above
  · cases upper with
    | refl => cases placed.symm.trans placed'
    | step link above =>
      cases link.symm.trans held
      exact (linked.rooted child).not_below held' above

/-- The way up from a node to one without a holder has so many steps. -/
inductive Depth (ws : Workspace) : Nat → NodeId → Prop
  /-- The way ends at a node without a holder. -/
  | top {id : NodeId} (free : ws.placeOf? id = none) : Depth ws 0 id
  /-- The way goes on from a node to its holder. -/
  | held {id : NodeId} {place : Link} {depth : Nat} (placed : ws.placeOf? id = some place)
      (onward : Depth ws depth place.holder) : Depth ws (depth + 1) id

/-- No way up is longer than the number of nodes. -/
theorem Linked.exists_depth (linked : ws.Linked) (id : NodeId) :
    ∃ depth ≤ ws.nodes.size, ws.Depth depth id := by
  -- The nodes of the way up are there, and each is held by the next one.
  have path : ∀ {id}, ws.Rooted id → ∃ above : List NodeId, ws.Depth above.length id ∧
      (∀ member ∈ above, ∃ n, ws.node? member = some n) ∧
      (id :: above).IsChain fun id above => ws.holder? id = some above := by
    intro id rooted
    induction rooted with
    | root free => exact ⟨[], .top (Option.map_eq_none_iff.mp free), by simp, .singleton _⟩
    | step held _ ih =>
      obtain ⟨above, depth, known, chain⟩ := ih
      obtain ⟨place, placed, rfl⟩ := holder?_eq_some_iff.mp held
      obtain ⟨n, found, parent⟩ := node?_of_placeOf? placed
      obtain ⟨holder, offered, _⟩ := linked.parent_occupant found parent
      exact ⟨place.holder :: above, .held placed depth,
        List.forall_mem_cons.mpr ⟨⟨holder, offered⟩, known⟩, List.isChain_cons_cons.mpr ⟨held, chain⟩⟩
  obtain ⟨above, depth, known, chain⟩ := path (linked.rooted id)
  have descends : above.reverse.IsChain fun above id => ws.holder? id = some above :=
    List.isChain_reverse.mpr chain.tail
  have short := linked.length_le_of_descends (by simpa using known) descends
  exact ⟨above.length, by simpa using short, depth⟩

/-- A step of the way up takes the names of the node if they are in scope, and goes on to the holder,
whose names are in scope if the node is in a socket. -/
theorem namesInScope_succ (found : ws.node? id = some n) (steps : Nat) (inScope : Bool) :
    ws.namesInScope (steps + 1) inScope id = (if inScope then ws.declaredBy n else []) ++
      n.parent.elim [] fun place => ws.namesInScope steps place.isSocket place.holder := by
  -- A step adds what the node declares, if it counts, and goes on to its holder.
  simp only [namesInScope, found]
  cases n.parent with
  | none => exact (List.append_nil _).symm
  | some place => cases place <;> rfl

section Depth

variable {depth steps : Nat} {inScope : Bool}

/-- A way up that takes enough steps takes a name if a node declares it that is in scope itself or
has the start inside. -/
theorem Linked.mem_namesInScope_iff (linked : ws.Linked) (deep : ws.Depth depth id)
    (enough : depth < steps) {name : String} :
    name ∈ ws.namesInScope steps inScope id ↔ ∃ outer m, ws.node? outer = some m ∧
      (inScope = true ∧ outer = id ∨ ws.Inside outer id) ∧ name ∈ ws.declaredBy m := by
  -- By induction on the depth: at the top only the node's own names count, further down those that
  -- its holder sees as well. From the holder on a name is in scope if the place is a socket.
  induction deep generalizing steps inScope with
  | @top id free =>
    obtain ⟨steps, rfl⟩ := Nat.exists_eq_add_one.mpr enough
    cases found : ws.node? id with
    | none =>
      simp only [namesInScope, found, linked.not_inside free, or_false, List.not_mem_nil, false_iff]
      rintro ⟨_, _, there, ⟨_, rfl⟩, _⟩
      cases found.symm.trans there
    | some n =>
      have alone : n.parent = none := (placeOf?_of_node? found).symm.trans free
      rw [namesInScope_succ found, alone]
      cases inScope <;> simp [linked.not_inside free, found]
  | @held id place depth placed onward ih =>
    obtain ⟨steps, rfl⟩ := Nat.exists_eq_add_one.mpr (Nat.zero_lt_of_lt enough)
    obtain ⟨n, found, parent⟩ := node?_of_placeOf? placed
    have own : name ∈ (if inScope then ws.declaredBy n else []) ↔ ∃ outer m,
        ws.node? outer = some m ∧ (inScope = true ∧ outer = id) ∧ name ∈ ws.declaredBy m := by
      cases inScope <;> simp [found]
    rw [namesInScope_succ found, parent, Option.elim_some, List.mem_append, own,
      ih (Nat.lt_of_succ_lt_succ enough)]
    simp only [linked.inside_iff placed, or_and_right, and_or_left, exists_or]

/-- Ways up that take enough steps take the same names. -/
theorem Depth.namesInScope_eq (deep : ws.Depth depth id) {more : Nat} (enough : depth < steps)
    (enough' : depth < more) :
    ws.namesInScope steps inScope id = ws.namesInScope more inScope id := by
  -- By induction on the depth, which is how many steps the climb takes.
  induction deep generalizing steps more inScope with
  | @top id free =>
    obtain ⟨steps, rfl⟩ := Nat.exists_eq_add_one.mpr enough
    obtain ⟨more, rfl⟩ := Nat.exists_eq_add_one.mpr enough'
    cases found : ws.node? id with
    | none => simp only [namesInScope, found]
    | some n =>
      have alone : n.parent = none := (placeOf?_of_node? found).symm.trans free
      rw [namesInScope_succ found, namesInScope_succ found, alone]
      rfl
  | @held id place depth placed onward ih =>
    obtain ⟨steps, rfl⟩ := Nat.exists_eq_add_one.mpr (Nat.zero_lt_of_lt enough)
    obtain ⟨more, rfl⟩ := Nat.exists_eq_add_one.mpr (Nat.zero_lt_of_lt enough')
    obtain ⟨n, found, parent⟩ := node?_of_placeOf? placed
    rw [namesInScope_succ found, namesInScope_succ found, parent, Option.elim_some,
      Option.elim_some, ih (Nat.lt_of_succ_lt_succ enough) (Nat.lt_of_succ_lt_succ enough')]

end Depth

/-- In a well-formed graph a node sees the local names that are declared by the nodes whose subtrees,
without what follows, contain it. These are the node itself and those that hold it in a socket at any
depth, never one that the node or a node above it follows; and a longer way up takes no more
names. -/
theorem scope_encloses (wf : ws.WellFormed) (id : NodeId) :
    (∀ name, name ∈ ws.localsAt id ↔ ∃ outer n, ws.node? outer = some n ∧
      id ∈ ws.subtree outer false ∧ name ∈ ws.declaredBy n) ∧
    (∀ outer, id ∈ ws.subtree outer false ↔ (∃ n, ws.node? outer = some n) ∧
      (id = outer ∨ ∃ name child, ws.occupant? (.socket outer name) = some child ∧
        ws.Below child id)) ∧
    (∀ before follower, ws.occupant? (.next before) = some follower → ws.Below follower id →
      id ∉ ws.subtree before false) ∧
    ∀ steps, ws.nodes.size < steps → ws.namesInScope steps true id = ws.localsAt id := by
  -- The climb from a node passes its holders, and those which it enters through a socket are
  -- exactly the ones that enclose it.
  have linked := wf.toLinked
  obtain ⟨depth, short, deep⟩ := linked.exists_depth id
  have enough : depth < ws.nodes.size + 1 := Nat.lt_succ_of_le short
  refine ⟨fun name => ?_, fun outer => linked.mem_subtree_false_iff, ?_, ?_⟩
  · rw [localsAt, linked.mem_namesInScope_iff deep enough]
    simp only [true_and, linked.mem_subtree_false_iff]
    refine exists_congr fun outer => exists_congr fun n => and_congr_right fun found => ?_
    simp [found, eq_comm]
  · intro before follower follows below inside
    rcases (linked.mem_subtree_false_iff.mp inside).2 with rfl | inside
    · -- The node would be below what follows it.
      have held : ws.holder? follower = some id :=
        holder?_eq_some_iff.mpr ⟨_, (linked.paired _ _).mp follows, rfl⟩
      exact (linked.rooted follower).not_below held below
    · exact linked.not_inside_of_follows follows below inside
  · intro steps more
    exact deep.namesInScope_eq (Nat.lt_of_le_of_lt short more) enough

/-- In the body of a loop a statement sees the name of the loop's item, but not the name that the
statement before it declares. -/
theorem scope_encloses_body :
    let command : Block := ⟨"lexical_variable_set", none, ∅, none, [], none⟩
    let declaration : Block := ⟨"local_declaration_statement", none, ∅, none, [], some command⟩
    let loop : Block := ⟨"controls_forEach", none, ∅, none, [("DO", declaration)], none⟩
    let ws := ((Workspace.empty ∅).append ∅ loop).2.workspace
    ws.localsAt ⟨3⟩ = ["item"] ∧ ws.localsAt ⟨2⟩ = ["name", "item"] ∧
      (∃ outer n, ws.node? outer = some n ∧ ⟨3⟩ ∈ ws.subtree outer false ∧
        "item" ∈ ws.declaredBy n) ∧
      ⟨3⟩ ∉ ws.subtree ⟨2⟩ false ∧ ws.namesInScope 100 true ⟨3⟩ = ["item"] := by
  -- A loop, a declaration in its body and a command behind it: the command sees the loop's
  -- variable, not the declared one.
  intro command declaration loop ws
  have wf : ws.WellFormed := (Workspace.Built.empty.append ∅ _).wellFormed
  have sees : ws.localsAt ⟨3⟩ = ["item"] := by decide +kernel
  obtain ⟨union, _, follows, bound⟩ := scope_encloses wf ⟨3⟩
  exact ⟨sees, by decide +kernel, (union "item").mp (by simp [sees]),
    follows ⟨2⟩ ⟨3⟩ (by decide +kernel) .refl, (bound 100 (by decide +kernel)).trans sees⟩

end Workspace

end QuickEntry
