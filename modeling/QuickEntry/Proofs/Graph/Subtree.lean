import QuickEntry.Proofs.Graph.WellFormed

/-! Walks from a node downwards: what they reach, and what they depend on. -/

namespace QuickEntry

namespace Node

/-- What a place holds is among the children. -/
theorem mem_children_of_occupant {n : Node} {place : Link} {id : NodeId}
    (occupied : n.occupant place = some id) : id ∈ n.children := by
  -- A socket contributes what it holds, and the follower comes last.
  cases place with
  | socket parent name =>
    obtain ⟨slot, found, held⟩ := Option.bind_eq_some_iff.mp occupied
    have inside : id ∈ n.plugged :=
      List.mem_filterMap.mpr ⟨slot, List.mem_of_find?_eq_some found, held⟩
    exact List.mem_append_left _ inside
  | next previous =>
    have next : n.next = some id := occupied
    simp [children, next]

/-- A child takes a place of the node. -/
theorem FirstOnly.occupant_of_mem_children {n : Node} (first : n.FirstOnly) (id : NodeId)
    {child : NodeId} (member : child ∈ n.children) :
    ∃ place : Link, place.holder = id ∧ n.occupant place = some child := by
  -- A child is in a socket, which is the first of its name, or it follows the node.
  rcases List.mem_append.mp member with plugged | follows
  · obtain ⟨slot, inside, held⟩ := List.mem_filterMap.mp plugged
    exact ⟨.socket id slot.name, rfl, first.occupant_socket_iff.mpr ⟨slot, inside, rfl, held⟩⟩
  · exact ⟨.next id, rfl, Option.mem_toList.mp follows⟩

end Node

namespace Workspace

/-- A walk along the links leads from one node to another through nodes of a map only. -/
inductive Reaches (nodes : OrderedMap NodeId Node) (goal : NodeId) : NodeId → Prop
  /-- The walk is at its goal. -/
  | here {n : Node} (found : nodes.get? goal = some n) : Reaches nodes goal goal
  /-- The walk goes on from a child. -/
  | child {id next : NodeId} {n : Node} (found : nodes.get? id = some n)
      (member : next ∈ n.children) (onward : Reaches nodes goal next) : Reaches nodes goal id

/-- A walk starts at a node of the map. -/
theorem Reaches.start {nodes : OrderedMap NodeId Node} {goal id : NodeId}
    (reaches : Reaches nodes goal id) : ∃ n, nodes.get? id = some n := by
  -- Both kinds of walks look their first node up.
  cases reaches with
  | here found => exact ⟨_, found⟩
  | child found _ _ => exact ⟨_, found⟩

/-- A walk may be prolonged at its goal. -/
theorem Reaches.prolong {nodes : OrderedMap NodeId Node} {goal id last : NodeId} {n m : Node}
    (reaches : Reaches nodes goal id) (found : nodes.get? goal = some n)
    (member : last ∈ n.children) (known : nodes.get? last = some m) :
    Reaches nodes last id := by
  -- The new step comes after all others.
  induction reaches with
  | here _ => exact .child found member (.here known)
  | child first inside _ ih => exact .child first inside ih

/-- A walk can do without a node, unless it ends there or starts anew from one of its children. -/
theorem Reaches.avoid {nodes : OrderedMap NodeId Node} {goal id avoided : NodeId} {n : Node}
    (found : nodes.get? avoided = some n) (reaches : Reaches nodes goal id) :
    goal = avoided ∨ Reaches (nodes.erase avoided) goal id ∨
      ∃ child ∈ n.children, Reaches (nodes.erase avoided) goal child := by
  -- Only what comes after the last visit of the node counts.
  induction reaches with
  | here known =>
    rename_i m
    by_cases same : goal = avoided
    · exact .inl same
    · refine .inr (.inl (.here (n := m) ?_))
      rw [OrderedMap.get?_erase, if_neg same, known]
  | child known member _ ih =>
    rename_i id next m _
    rcases ih with ends | onward | restart
    · exact .inl ends
    · by_cases same : id = avoided
      · obtain rfl : m = n := by
          rw [same, found] at known
          exact (Option.some.inj known).symm
        exact .inr (.inr ⟨next, member, onward⟩)
      · refine .inr (.inl (.child (n := m) ?_ member onward))
        rw [OrderedMap.get?_erase, if_neg same, known]
    · exact .inr (.inr restart)

/-- A walk passes over a node that is not in the map. -/
theorem visit_of_absent {nodes : OrderedMap NodeId Node} {id : NodeId}
    (absent : nodes.get? id = none) (waiting : List NodeId) :
    visit nodes (id :: waiting) = visit nodes waiting := by
  -- The search in the definition fails.
  rw [visit]
  split
  · rfl
  · rename_i n found
    rw [absent] at found
    cases found

/-- A walk visits a node of the map, and its children before those that wait. -/
theorem visit_of_get? {nodes : OrderedMap NodeId Node} {id : NodeId} {n : Node}
    (found : nodes.get? id = some n) (waiting : List NodeId) :
    visit nodes (id :: waiting) = id :: visit (nodes.erase id) (n.children ++ waiting) := by
  -- The search in the definition succeeds.
  rw [visit]
  split
  · rename_i absent
    rw [found] at absent
    cases absent
  · rename_i m again
    obtain rfl : n = m := Option.some.inj (found.symm.trans again)
    rfl

/-- A walk over some nodes visits everything that can be reached from them. -/
theorem mem_visit {nodes : OrderedMap NodeId Node} {waiting : List NodeId} {id goal : NodeId}
    (member : id ∈ waiting) (reaches : Reaches nodes goal id) : goal ∈ visit nodes waiting := by
  -- Each visited node is taken out of the map, and its children wait instead.
  induction nodes, waiting using visit.induct generalizing id with
  | case1 nodes => cases member
  | case2 nodes first waiting absent ih =>
    rw [visit_of_absent absent]
    refine ih ?_ reaches
    rcases List.mem_cons.mp member with same | later
    · obtain ⟨n, found⟩ := reaches.start
      rw [same, absent] at found
      cases found
    · exact later
  | case3 nodes first waiting n found ih =>
    rw [visit_of_get? found]
    rcases reaches.avoid found with ends | onward | ⟨child, inside, onward⟩
    · exact ends ▸ List.mem_cons_self
    · refine List.mem_cons_of_mem _ (ih (List.mem_append_right _ ?_) onward)
      rcases List.mem_cons.mp member with same | later
      · obtain ⟨k, known⟩ := onward.start
        rw [same, OrderedMap.get?_erase, if_pos rfl] at known
        cases known
      · exact later
    · exact List.mem_cons_of_mem _ (ih (List.mem_append_left _ inside) onward)

/-- A walk that does without a node is a walk. -/
theorem Reaches.of_erase {nodes : OrderedMap NodeId Node} {goal id avoided : NodeId}
    (reaches : Reaches (nodes.erase avoided) goal id) : Reaches nodes goal id := by
  -- A node found in the smaller map is found in the larger one.
  have known : ∀ {x m}, (nodes.erase avoided).get? x = some m → nodes.get? x = some m := by
    intro x m found
    rw [OrderedMap.get?_erase] at found
    split at found
    · cases found
    · exact found
  induction reaches with
  | here found => exact .here (known found)
  | child found member _ ih => exact .child (known found) member ih

/-- A walk over some nodes visits nothing but what can be reached from them. -/
theorem reaches_of_mem_visit {nodes : OrderedMap NodeId Node} {waiting : List NodeId}
    {goal : NodeId} (member : goal ∈ visit nodes waiting) :
    ∃ id ∈ waiting, Reaches nodes goal id := by
  -- A node that waits in the place of another one is a child of it.
  induction nodes, waiting using visit.induct with
  | case1 nodes =>
    rw [visit] at member
    cases member
  | case2 nodes first waiting absent ih =>
    rw [visit_of_absent absent] at member
    obtain ⟨id, inside, reaches⟩ := ih member
    exact ⟨id, List.mem_cons_of_mem _ inside, reaches⟩
  | case3 nodes first waiting n found ih =>
    rw [visit_of_get? found] at member
    rcases List.mem_cons.mp member with same | later
    · subst same
      exact ⟨goal, List.mem_cons_self, .here found⟩
    · obtain ⟨id, inside, reaches⟩ := ih later
      rcases List.mem_append.mp inside with child | waits
      · exact ⟨first, List.mem_cons_self, .child found child reaches.of_erase⟩
      · exact ⟨id, List.mem_cons_of_mem _ waits, reaches.of_erase⟩

/-- A subtree with all that follows is a walk from its top. -/
theorem subtree_true (ws : Workspace) (id : NodeId) :
    ws.subtree id true = visit ws.nodes [id] := by
  -- The top is the first node of the walk, if it is there.
  cases found : ws.nodes.get? id with
  | none => simp only [subtree, node?, found, visit_of_absent found, visit]
  | some n => simp only [subtree, node?, found, visit_of_get? found, if_true, List.append_nil]

/-- A child of a node is held by that node. -/
theorem Linked.holder?_of_mem_children {ws : Workspace} (linked : ws.Linked) {id child : NodeId}
    {n : Node} (found : ws.node? id = some n) (member : child ∈ n.children) :
    ws.holder? child = some id := by
  -- Whatever holds the child is a place of the node, which the child names in turn.
  obtain ⟨place, holder, occupied⟩ :=
    (linked.first found).occupant_of_mem_children id member
  have taken : ws.occupant? place = some child := by
    rw [occupant?_of_node? (holder ▸ found), occupied]
  exact holder?_eq_some_iff.mpr ⟨place, (linked.paired place child).mp taken, holder⟩

/-- What a walk reaches hangs below its start. -/
theorem Linked.below_of_reaches {ws : Workspace} (linked : ws.Linked) {id goal : NodeId}
    (reaches : Reaches ws.nodes goal id) : ws.Below id goal := by
  -- Steps to children are parent links taken backwards.
  induction reaches with
  | here _ => exact .refl
  | child known member _ ih => exact ih.lift (linked.holder?_of_mem_children known member)

/-- What hangs below a node is reached by a walk from there, through nodes that hang there. -/
theorem Linked.reaches_of_below {ws : Workspace} (linked : ws.Linked) {id goal : NodeId} {n : Node}
    {nodes : OrderedMap NodeId Node} (found : ws.node? id = some n)
    (inside : ∀ {x m}, ws.Below id x → ws.node? x = some m → nodes.get? x = some m)
    (below : ws.Below id goal) : Reaches nodes goal id := by
  -- Parent links are steps to children taken backwards.
  induction below with
  | refl => exact .here (inside .refl found)
  | step held above ih =>
    obtain ⟨place, placed, rfl⟩ := holder?_eq_some_iff.mp held
    obtain ⟨m, known, parent⟩ := node?_of_placeOf? placed
    obtain ⟨holder, present, occupied⟩ := linked.parent_occupant known parent
    exact ih.prolong (inside above present) (Node.mem_children_of_occupant occupied)
      (inside (.step held above) known)

/-- The subtree of a node with all that follows is what hangs below the node. -/
theorem Linked.mem_subtree_iff {ws : Workspace} (linked : ws.Linked) {id goal : NodeId} {n : Node}
    (found : ws.node? id = some n) : goal ∈ ws.subtree id true ↔ ws.Below id goal := by
  -- The walk starts from the node alone, and what it reaches is what hangs below.
  rw [subtree_true]
  constructor
  · intro member
    obtain ⟨top, inside, reaches⟩ := reaches_of_mem_visit member
    rw [List.mem_singleton.mp inside] at reaches
    exact linked.below_of_reaches reaches
  · intro below
    exact mem_visit (List.mem_singleton.mpr rfl)
      (linked.reaches_of_below found (fun _ known => known) below)

/-- A walk depends on nothing but the children of the nodes. -/
theorem visit_congr {nodes nodes' : OrderedMap NodeId Node}
    (same : ∀ id, (nodes.get? id).map Node.children = (nodes'.get? id).map Node.children)
    (waiting : List NodeId) : visit nodes waiting = visit nodes' waiting := by
  -- Both walks find the same nodes missing and the same children waiting.
  induction nodes, waiting using visit.induct generalizing nodes' with
  | case1 nodes => rw [visit, visit]
  | case2 nodes first waiting absent ih =>
    have missing : nodes'.get? first = none := by
      have here := same first
      rw [absent] at here
      exact Option.map_eq_none_iff.mp here.symm
    rw [visit_of_absent absent, visit_of_absent missing, ih same]
  | case3 nodes first waiting n found ih =>
    obtain ⟨m, known, children⟩ : ∃ m, nodes'.get? first = some m ∧ m.children = n.children := by
      have here := same first
      rw [found] at here
      exact Option.map_eq_some_iff.mp here.symm
    have rest : ∀ id, ((nodes.erase first).get? id).map Node.children =
        ((nodes'.erase first).get? id).map Node.children := by
      intro id
      rw [OrderedMap.get?_erase, OrderedMap.get?_erase]
      split
      · rfl
      · exact same id
    rw [visit_of_get? found, visit_of_get? known, children, ih rest]

end Workspace

end QuickEntry
