import Mathlib.Data.List.Flatten
import QuickEntry.Proofs.Graph.Chain
import QuickEntry.Proofs.Graph.Preorder
import QuickEntry.Proofs.Reachable

/-! The order in which a subtree is listed: the preorder of the tree that the links span. The walk
takes what waits from a list and strikes out what it has visited; the preorder is told by recursion
along the links. -/

namespace QuickEntry

/-- The nodes from which the walk through a subtree goes on are children of its top. -/
theorem Node.mem_children_of_mem {n : Node} {withNext : Bool} {child : NodeId}
    (member : child ∈ if withNext then n.children else n.plugged) : child ∈ n.children := by
  -- The node after is a child too, whether it is asked for or not.
  cases withNext with
  | true => exact member
  | false => exact List.mem_append_left _ member

namespace Workspace

variable {ws : Workspace} {nodes : OrderedMap NodeId Node} {id child goal : NodeId} {n : Node}
  {tops ids front back waiting : List NodeId}

/-- The preorder of the trees that hang from some nodes: each node, the trees of its children, and
then the trees of the other nodes. -/
inductive Preorder (ws : Workspace) : List NodeId → List NodeId → Prop
  | nil : Preorder ws [] []
  | cons {id : NodeId} {n : Node} {tops below after : List NodeId} (found : ws.node? id = some n)
      (down : Preorder ws n.children below) (on : Preorder ws tops after) :
      Preorder ws (id :: tops) (id :: (below ++ after))

namespace Preorder

/-- The preorders of two groups of trees one after the other are that of both. -/
theorem append {first second : List NodeId} (before : ws.Preorder front first)
    (after : ws.Preorder back second) : ws.Preorder (front ++ back) (first ++ second) := by
  -- The first list is lengthened at its end, wherever its walk ends.
  induction before with
  | nil => exact after
  | cons found down _ _ ih =>
    rw [List.cons_append, List.cons_append, List.append_assoc]
    exact .cons found down ih

/-- The preorder of two groups of trees is that of the one and then that of the other. -/
theorem split (order : ws.Preorder (front ++ back) ids) :
    ∃ first second, ids = first ++ second ∧ ws.Preorder front first ∧ ws.Preorder back second := by
  -- The walk from the first tops ends somewhere, and the other tops come behind that place.
  induction front generalizing ids with
  | nil => exact ⟨[], ids, rfl, .nil, order⟩
  | cons id front ih =>
    cases order with
    | cons found down on =>
      obtain ⟨first, second, rfl, before, after⟩ := ih on
      exact ⟨_, second, by simp, .cons found down before, after⟩

/-- Trees have one preorder. -/
theorem unique {ids' : List NodeId} (order : ws.Preorder tops ids) (other : ws.Preorder tops ids') :
    ids = ids' := by
  -- At each top the node that is found decides what comes below, and so does the rest of the tops
  -- behind it.
  induction order generalizing ids' with
  | nil =>
    cases other
    rfl
  | cons found _ _ ihDown ihOn =>
    cases other with
    | cons found' down on =>
      cases found.symm.trans found'
      rw [ihDown down, ihOn on]

/-- A preorder lists what can be reached along the links from the nodes at the top. -/
theorem mem_iff (order : ws.Preorder tops ids) :
    goal ∈ ids ↔ ∃ top ∈ tops, Reaches ws.nodes goal top := by
  -- A node is listed at the top from which it is reached, and at the first step it is that top
  -- itself or reached from one of its children.
  induction order with
  | nil => simp
  | @cons id n tops below after found _ _ ihDown ihOn =>
    -- The first step of a path, which ends at the node or goes to a child.
    have here : Reaches ws.nodes goal id ↔
        goal = id ∨ ∃ child ∈ n.children, Reaches ws.nodes goal child := by
      constructor
      · intro reaches
        cases reaches with
        | here _ => exact .inl rfl
        | child found' member onward =>
          cases found.symm.trans found'
          exact .inr ⟨_, member, onward⟩
      · rintro (rfl | ⟨child, member, onward⟩)
        · exact .here found
        · exact .child found member onward
    simp only [List.mem_cons, List.mem_append, ihDown, ihOn, or_and_right, exists_or,
      exists_eq_left, here, or_assoc]

/-- In a preorder every node that is not at the top comes after the one that holds it. -/
theorem holder_before (order : ws.Preorder tops ids) (linked : ws.Linked) (member : id ∈ ids) :
    id ∈ tops ∨ ∃ above, ws.holder? id = some above ∧ [above, id].Sublist ids := by
  -- A node that is no top is listed among what is below some node, which stands in front of all
  -- that is below it.
  induction order with
  | nil => cases member
  | @cons top n tops below after found _ _ ihDown ihOn =>
    rcases List.mem_cons.mp member with rfl | member
    · exact .inl List.mem_cons_self
    rcases List.mem_append.mp member with inside | later
    · -- The node above is the top itself, or one below it.
      rcases ihDown inside with child | ⟨above, held, before⟩
      · exact .inr ⟨top, linked.holder?_of_mem_children found child,
          .cons_cons top (List.singleton_sublist.mpr member)⟩
      · exact .inr ⟨above, held, .cons top (before.trans (List.sublist_append_left _ _))⟩
    · rcases ihOn later with beside | ⟨above, held, before⟩
      · exact .inl (List.mem_cons_of_mem _ beside)
      · exact .inr ⟨above, held, .cons top (before.trans (List.sublist_append_right _ _))⟩

end Preorder

/-- A child of a node is there. -/
theorem Linked.node?_of_mem_children (linked : ws.Linked) (found : ws.node? id = some n)
    (member : child ∈ n.children) : ∃ m, ws.node? child = some m := by
  -- A child names its place, and only nodes that are there have one.
  obtain ⟨place, placed, _⟩ := holder?_eq_some_iff.mp (linked.holder?_of_mem_children found member)
  exact (node?_of_placeOf? placed).imp fun _ => And.left

/-- A node in a socket has the place that the socket is. -/
theorem Linked.placeOf?_of_target (linked : ws.Linked) (found : ws.node? id = some n) {s : Socket}
    (member : s ∈ n.sockets) (held : s.target = some child) :
    ws.placeOf? child = some (.socket id s.name) := by
  -- Links are recorded on both sides.
  obtain ⟨m, there, placed⟩ := (linked.socket_iff id s.name child).mp ⟨n, found, s, member, rfl, held⟩
  exact (placeOf?_of_node? there).trans placed

/-- The children of a node are different ones. -/
theorem Linked.nodup_children (linked : ws.Linked) (found : ws.node? id = some n) :
    n.children.Nodup := by
  -- Each child names one place only.
  refine List.nodup_append.mpr ⟨?_, by cases n.next <;> simp, ?_⟩
  · -- Two sockets with the same node in them would have the same name.
    refine List.pairwise_filterMap.mpr ((linked.first found).imp_of_mem ?_)
    rintro s t first second only a held b held' rfl
    have same := (linked.placeOf?_of_target found first held).symm.trans
      (linked.placeOf?_of_target found second held')
    simp only [Option.some.injEq, Link.socket.injEq, true_and] at same
    rw [only same] at held'
    cases held'
  · -- What is plugged in names a socket, and what follows names the place after the node.
    rintro a plugged b next rfl
    obtain ⟨s, member, held⟩ := List.mem_filterMap.mp plugged
    have follows := (linked.paired (.next id) a).mp
      ((occupant?_of_node? found).trans (Option.mem_toList.mp next))
    cases follows.symm.trans (linked.placeOf?_of_target found member held)

/-- A node and what hangs below it are not below its children, and not the other way round. -/
theorem Linked.not_below_child (linked : ws.Linked) (found : ws.node? id = some n)
    (member : child ∈ n.children) : ¬ws.Below child id :=
  -- The way up from a node cannot come back to it.
  (linked.rooted child).not_below (linked.holder?_of_mem_children found member)

/-- What is above a child is above the node, the child itself apart. -/
theorem Linked.below_of_child (linked : ws.Linked) (found : ws.node? id = some n)
    (member : child ∈ n.children) (below : ws.Below goal child) (other : goal ≠ child) :
    ws.Below goal id := by
  -- The last step of the way down from the node leads to the child, and the rest is the same way.
  cases below with
  | refl => exact absurd rfl other
  | step held below =>
    cases held.symm.trans (linked.holder?_of_mem_children found member)
    exact below

/-- Nodes wait to be visited: they are there, the trees that hang from them have not been visited,
and none of them is in the tree of another one. -/
structure Pending (ws : Workspace) (nodes : OrderedMap NodeId Node) (waiting : List NodeId) :
    Prop where
  known : ∀ top ∈ waiting, ∃ n, ws.node? top = some n
  unvisited : ∀ top ∈ waiting, ∀ {id n}, ws.Below top id → ws.node? id = some n →
    nodes.get? id = some n
  apart : waiting.Pairwise fun a b => ¬ws.Below a b ∧ ¬ws.Below b a

/-- When a node is visited, its children wait in its place. -/
theorem Pending.visited (pending : ws.Pending nodes (id :: waiting)) (linked : ws.Linked)
    (found : ws.node? id = some n) : ws.Pending (nodes.erase id) (n.children ++ waiting) := by
  -- The trees that wait are those of the children and those that waited before, all of them apart
  -- from each other.
  obtain ⟨beside, apart⟩ := List.pairwise_cons.mp pending.apart
  have under : ∀ {child}, child ∈ n.children → ws.Below id child := fun member =>
    .step (linked.holder?_of_mem_children found member) .refl
  -- The visited node is in none of the trees that wait now.
  have spared : ∀ {top other m}, ¬ws.Below top id → ws.Below top other →
      nodes.get? other = some m → (nodes.erase id).get? other = some m := by
    intro top other m outside below kept
    have away : other ≠ id := by
      rintro rfl
      exact outside below
    rw [OrderedMap.get?_erase, if_neg away, kept]
  refine ⟨fun top member => ?_, fun top member other m below there => ?_,
    List.pairwise_append.mpr ⟨?_, apart, ?_⟩⟩
  · rcases List.mem_append.mp member with inside | waits
    · exact linked.node?_of_mem_children found inside
    · exact pending.known top (List.mem_cons_of_mem _ waits)
  · rcases List.mem_append.mp member with inside | waits
    · exact spared (linked.not_below_child found inside) below
        (pending.unvisited id List.mem_cons_self ((under inside).trans below) there)
    · exact spared (beside top waits).2 below
        (pending.unvisited top (List.mem_cons_of_mem _ waits) below there)
  · -- Two children are never one below the other.
    refine (linked.nodup_children found).imp_of_mem fun {a b} first second other => ⟨?_, ?_⟩
    · exact fun below => linked.not_below_child found first
        (linked.below_of_child found second below other)
    · exact fun below => linked.not_below_child found second
        (linked.below_of_child found first below (Ne.symm other))
  · intro a inside b waits
    -- A child is within the visited tree, which the others were apart from.
    refine ⟨fun below => (beside b waits).1 ((under inside).trans below), fun below => ?_⟩
    by_cases same : b = a
    · exact (beside b waits).1 (same ▸ under inside)
    · exact (beside b waits).2 (linked.below_of_child found inside below same)

/-- A walk over nodes that wait lists the preorder of their trees. -/
theorem Pending.preorder_visit (pending : ws.Pending nodes waiting) (linked : ws.Linked) :
    ws.Preorder waiting (visit nodes waiting) := by
  induction nodes, waiting using visit.induct with
  | case1 nodes =>
    rw [visit]
    exact .nil
  | case2 nodes first waiting absent ih =>
    obtain ⟨n, there⟩ := pending.known first List.mem_cons_self
    cases absent.symm.trans (pending.unvisited first List.mem_cons_self .refl there)
  | case3 nodes first waiting n found ih =>
    obtain ⟨m, there⟩ := pending.known first List.mem_cons_self
    cases found.symm.trans (pending.unvisited first List.mem_cons_self .refl there)
    -- The children come before the others that wait, and each group has its own preorder.
    obtain ⟨below, after, listed, down, on⟩ := (ih (pending.visited linked there)).split
    rw [visit_of_get? found, listed]
    exact .cons there down on

/-- Nodes of which none is in the tree of another one have trees whose preorder is listed subtree by
subtree. -/
theorem Linked.preorder_flatMap (linked : ws.Linked)
    (known : ∀ top ∈ tops, ∃ n, ws.node? top = some n) :
    ws.Preorder tops (tops.flatMap (ws.subtree · true)) := by
  -- Each top is walked through on its own, with the whole graph before it.
  induction tops with
  | nil => exact .nil
  | cons id tops ih =>
    obtain ⟨n, found⟩ := known id List.mem_cons_self
    have alone : ws.Pending ws.nodes [id] :=
      ⟨by simp [found], fun _ _ _ _ _ there => there, List.pairwise_singleton _ _⟩
    have order := alone.preorder_visit linked
    rw [← subtree_true] at order
    exact order.append (ih fun top member => known top (List.mem_cons_of_mem _ member))

/-- The walk through a subtree goes on with the preorder of the trees below the top. -/
theorem Linked.preorder_below (linked : ws.Linked) (found : ws.node? id = some n)
    (withNext : Bool) :
    ws.Preorder (if withNext then n.children else n.plugged)
      (visit (ws.nodes.erase id) (if withNext then n.children else n.plugged)) := by
  have alone : ws.Pending ws.nodes [id] :=
    ⟨by simp [found], fun _ _ _ _ _ there => there, List.pairwise_singleton _ _⟩
  have pending : ws.Pending (ws.nodes.erase id) (n.children ++ []) := alone.visited linked found
  rw [List.append_nil] at pending
  cases withNext with
  | true => exact pending.preorder_visit linked
  | false =>
    -- The nodes in the sockets are the first of the children.
    exact Pending.preorder_visit ⟨fun top member => pending.known top (List.mem_append_left _ member),
      fun top member => pending.unvisited top (List.mem_append_left _ member),
      (List.pairwise_append.mp pending.apart).1⟩ linked

/-- A subtree is its top with the subtrees of the nodes in its sockets, and that of the node that
follows on demand. -/
theorem Linked.subtree_eq (linked : ws.Linked) (found : ws.node? id = some n) (withNext : Bool) :
    ws.subtree id withNext = id :: (n.plugged.flatMap (ws.subtree · true) ++
      if withNext then n.next.toList.flatMap (ws.subtree · true) else []) := by
  -- Both sides list what is below the node in preorder, of which there is only one.
  have known : ∀ top ∈ (if withNext then n.children else n.plugged), ∃ m, ws.node? top = some m :=
    fun top member => linked.node?_of_mem_children found (Node.mem_children_of_mem member)
  have same := (linked.preorder_below found withNext).unique (linked.preorder_flatMap known)
  simp only [subtree, found, same]
  cases withNext <;> simp [Node.children]

/-- A subtree is what can be reached from the nodes in the sockets of its top, and from the node that
follows on demand, with the top. -/
theorem Linked.mem_subtree (linked : ws.Linked) (found : ws.node? id = some n) (withNext : Bool) :
    goal ∈ ws.subtree id withNext ↔ goal = id ∨
      ∃ child ∈ (if withNext then n.children else n.plugged), Reaches ws.nodes goal child := by
  -- The subtree is the node before a preorder of what is below it.
  rw [← (linked.preorder_below found withNext).mem_iff]
  simp only [subtree, found, List.mem_cons]

/-- In a subtree every node but the top comes after the one that holds it. -/
theorem Linked.holder_before_subtree (linked : ws.Linked) {withNext : Bool}
    (member : goal ∈ ws.subtree id withNext) :
    goal = id ∨ ∃ above, ws.holder? goal = some above ∧
      [above, goal].Sublist (ws.subtree id withNext) := by
  -- The node itself is the top; what is below it follows in preorder, with the children as tops.
  cases found : ws.node? id with
  | none => simp [subtree, found] at member
  | some n =>
    have order := linked.preorder_below found withNext
    simp only [subtree, found] at member ⊢
    generalize visit (ws.nodes.erase id) (if withNext then n.children else n.plugged) = ids
      at order member
    rcases List.mem_cons.mp member with top | member
    · exact .inl top
    rcases order.holder_before linked member with child | ⟨above, held, before⟩
    · exact .inr ⟨id, linked.holder?_of_mem_children found (Node.mem_children_of_mem child),
        .cons_cons id (List.singleton_sublist.mpr member)⟩
    · exact .inr ⟨above, held, .cons id before⟩

/-- A subtree consists of nodes that are there, whatever the links say. -/
theorem node?_of_mem_subtree {withNext : Bool} (member : goal ∈ ws.subtree id withNext) :
    ∃ n, ws.node? goal = some n := by
  -- The walk lists what it finds, and the node at its top is found before it starts.
  cases found : ws.node? id with
  | none => simp [subtree, found] at member
  | some n =>
    simp only [subtree, found] at member
    rcases List.mem_cons.mp member with rfl | member
    · exact ⟨n, found⟩
    · obtain ⟨m, known⟩ := get?_of_mem_visit member
      rw [OrderedMap.get?_erase] at known
      split at known
      · cases known
      · exact ⟨m, known⟩

/-- A subtree lists no more nodes than there are, whatever the links say. -/
theorem length_subtree_le (ws : Workspace) (id : NodeId) (withNext : Bool) :
    (ws.subtree id withNext).length ≤ ws.nodes.size := by
  -- No node is listed twice, and none that is not there.
  have inside : ws.subtree id withNext ⊆ ws.nodes.keys := fun _ member =>
    (OrderedMap.mem_keys_iff _ _).mpr (OrderedMap.contains_iff.mpr (node?_of_mem_subtree member))
  have short := (List.subperm_of_subset (nodup_subtree ws id withNext) inside).length_le
  simpa [OrderedMap.keys, OrderedMap.size] using short

/-- The nodes without a place, oldest first. -/
def roots (ws : Workspace) : List NodeId := ws.nodes.keys.filter fun id => (ws.placeOf? id).isNone

/-- A root is a node that is there and has no place. -/
theorem mem_roots_iff : id ∈ ws.roots ↔ (∃ n, ws.node? id = some n) ∧ ws.placeOf? id = none := by
  -- Roots are filtered from the keys, so that they are there.
  simp only [roots, List.mem_filter, OrderedMap.mem_keys_iff, OrderedMap.contains_iff, node?,
    Option.isNone_iff_eq_none]

/-- Every node hangs below a root. -/
theorem Linked.exists_root (linked : ws.Linked) (found : ws.node? id = some n) :
    ∃ top ∈ ws.roots, ws.Below top id := by
  -- The way up is followed to its end, where the node has no place.
  induction linked.rooted id generalizing n with
  | root free =>
    exact ⟨_, mem_roots_iff.mpr ⟨⟨n, found⟩, Option.map_eq_none_iff.mp free⟩, .refl⟩
  | step held _ ih =>
    obtain ⟨place, placed, rfl⟩ := holder?_eq_some_iff.mp held
    obtain ⟨m, there, parent⟩ := node?_of_placeOf? placed
    obtain ⟨holder, offered, _⟩ := linked.parent_occupant there parent
    obtain ⟨top, root, below⟩ := ih offered
    exact ⟨top, root, .step held below⟩

/-- No root is below another one. -/
theorem pending_roots (ws : Workspace) : ws.Pending ws.nodes ws.roots := by
  -- No root is below another one, since nothing is above a root.
  refine ⟨fun top root => (mem_roots_iff.mp root).1, fun _ _ _ _ _ there => there, ?_⟩
  have apart : ∀ {a b}, b ∈ ws.roots → a ≠ b → ¬ws.Below a b := by
    intro a b root other below
    cases below with
    | refl => exact other rfl
    | step held _ =>
      rw [holder?, (mem_roots_iff.mp root).2] at held
      cases held
  exact (ws.nodes.keys_nodup.filter _).imp_of_mem fun first second other =>
    ⟨apart second other, apart first (Ne.symm other)⟩

/-- The subtrees of the roots with all that follows make up the graph. -/
theorem Linked.perm_roots (linked : ws.Linked) :
    (ws.roots.flatMap (ws.subtree · true)).Perm ws.nodes.keys := by
  -- Both lists have no repetition, so that only their members count. Every node is below some root.
  have order := ws.pending_roots.preorder_visit linked
  have listed := order.unique (linked.preorder_flatMap ws.pending_roots.known)
  have distinct : ws.nodes.keys.Nodup := ws.nodes.keys_nodup
  rw [← listed, List.perm_ext_iff_of_nodup (nodup_visit _ _) distinct]
  intro goal
  rw [OrderedMap.mem_keys_iff, OrderedMap.contains_iff, order.mem_iff]
  constructor
  · rintro ⟨top, _, reaches⟩
    exact reaches.goal_found
  · -- The way down from the root is one that the walk takes.
    rintro ⟨n, found⟩
    obtain ⟨top, root, below⟩ := linked.exists_root found
    obtain ⟨m, there⟩ := (mem_roots_iff.mp root).1
    exact ⟨top, root, linked.reaches_of_below there (fun _ known => known) below⟩

/-- In every graph, whatever its links say, a subtree lists no node twice, and no more nodes than
there are. In a well-formed one it is listed in preorder: the top, the subtrees of the nodes in its
sockets in the order of the sockets, each with all that follows, and, on demand, the subtree of the
node that follows. It lists what can be reached from there along the links, every node but the top
after the one that holds it. The subtrees of the nodes without a place make up the graph. -/
theorem subtree_preorder (ws : Workspace) :
    (∀ id withNext, (ws.subtree id withNext).Nodup ∧
      (ws.subtree id withNext).length ≤ ws.nodes.size) ∧
    (ws.WellFormed →
      (∀ id withNext, ws.subtree id withNext = match ws.node? id with
        | none => []
        | some n => id :: (n.plugged.flatMap (ws.subtree · true) ++
            if withNext then n.next.toList.flatMap (ws.subtree · true) else [])) ∧
      (∀ id withNext goal, goal ∈ ws.subtree id withNext ↔ ∃ n, ws.node? id = some n ∧
        (goal = id ∨ ∃ child ∈ (if withNext then n.children else n.plugged),
          Reaches ws.nodes goal child)) ∧
      (∀ id withNext, ∀ goal ∈ ws.subtree id withNext, goal = id ∨
        ∃ above, ws.holder? goal = some above ∧
          [above, goal].Sublist (ws.subtree id withNext)) ∧
      (ws.roots.flatMap (ws.subtree · true)).Perm ws.nodes.keys) := by
  -- What holds on any graph comes from the walk alone; the rest needs links that are sound.
  refine ⟨fun id withNext => ⟨nodup_subtree ws id withNext, length_subtree_le ws id withNext⟩,
    fun wf => ?_⟩
  have linked := wf.toLinked
  refine ⟨fun id withNext => ?_, fun id withNext goal => ?_,
    fun id withNext goal => linked.holder_before_subtree, linked.perm_roots⟩
  · cases found : ws.node? id with
    | none => simp only [subtree, found]
    | some n => exact linked.subtree_eq found withNext
  · cases found : ws.node? id with
    | none => simp [subtree, found]
    | some n => simp only [linked.mem_subtree found, Option.some.injEq, exists_eq_left']

/-- A loop with two statements in its body and a statement after it. -/
theorem subtree_preorder_loop :
    let command (next : Option Block) : Block := ⟨"lexical_variable_set", none, ∅, none, [], next⟩
    let loop : Block := ⟨"controls_forEach", none, ∅, none, [("DO", command (some (command none)))],
      some (command none)⟩
    let ws := ((Workspace.empty ∅).append ∅ loop).2.workspace
    ws.subtree ⟨1⟩ false = [⟨1⟩, ⟨2⟩, ⟨3⟩] ∧ ws.subtree ⟨1⟩ true = [⟨1⟩, ⟨2⟩, ⟨3⟩, ⟨4⟩] ∧
      ws.holder? ⟨3⟩ = some ⟨2⟩ ∧ [⟨2⟩, ⟨3⟩].Sublist (ws.subtree ⟨1⟩ false) ∧
      (ws.roots.flatMap (ws.subtree · true)).Perm ws.nodes.keys := by
  -- A loop with two commands in its body and one behind it.
  intro command loop ws
  have wf : ws.WellFormed := (Workspace.Built.empty.append ∅ _).wellFormed
  obtain ⟨_, _, before, whole⟩ := (subtree_preorder ws).2 wf
  have body : ws.subtree ⟨1⟩ false = [⟨1⟩, ⟨2⟩, ⟨3⟩] := by decide +kernel
  have held : ws.holder? ⟨3⟩ = some ⟨2⟩ := by decide +kernel
  refine ⟨body, by decide +kernel, held, ?_, whole⟩
  rcases before ⟨1⟩ false ⟨3⟩ (by simp [body]) with top | ⟨above, held', earlier⟩
  · cases top
  · cases held.symm.trans held'
    exact earlier

end Workspace

end QuickEntry
