import QuickEntry.Proofs.Edit.Move
import QuickEntry.Proofs.Graph.Preorder

/-! A node taken out of a graph with all that is in its sockets, and what followed it in its
place. -/

namespace QuickEntry

namespace Node

/-- A node that holds another one, or nothing, in a place, if it is the one that offers the
place. -/
def holding (n : Node) (place : Option Link) (occupant : Option NodeId) : Node :=
  match place with
  | none => n
  | some place => if n.id = place.holder then n.fill place occupant else n

/-- Holding another node leaves the node's own place alone. -/
@[simp] theorem parent_holding (n : Node) (place : Option Link) (occupant : Option NodeId) :
    (n.holding place occupant).parent = n.parent := by
  -- A place is filled or emptied in the node that holds it, whose own place stays.
  unfold holding
  split
  · rfl
  · split
    · exact parent_fill n _ occupant
    · rfl

/-- A node after another one is gone: the follower takes the place of the node that is gone, the
holder of that place holds the follower, and any other node stays as it is. -/
def healed (gone n : Node) : Node :=
  if gone.next = some n.id then { n with parent := gone.parent }
  else n.holding gone.parent gone.next

/-- A node without a place and without children is detached. -/
theorem isDetached_of_children {n : Node} (free : n.parent = none) (bare : n.children = []) :
    n.isDetached = true := by
  -- The children are those in sockets and the one behind; with none there, all are empty.
  obtain ⟨plugged, next⟩ := List.append_eq_nil_iff.mp bare
  have empty := List.filterMap_eq_nil_iff.mp plugged
  have last : n.next = none := by simpa using next
  simpa [isDetached, free, last] using empty

end Node

namespace Workspace

variable {ws : Workspace} {child id : NodeId} {n : Node}

/-- Freeing a node takes its place from it, and from no other node. -/
theorem Linked.placeOf?_freed_eq (linked : ws.Linked) (child id : NodeId) :
    (ws.freed child).placeOf? id = if id = child then none else ws.placeOf? id := by
  -- A block without a place is left as it is. A block that has one is taken out of it.
  unfold Workspace.freed
  split
  · rename_i free
    split
    · rename_i same
      rw [same, free]
    · rfl
  · rename_i place placed
    obtain ⟨m, found, _⟩ := node?_of_placeOf? placed
    rw [part_eq_relink, placeOf?_relink found (linked.holder_ne placed)]

/-- A freed node is held by no other one, and the other nodes are held as before. -/
theorem Linked.holder?_freed (linked : ws.Linked) (child id : NodeId) :
    (ws.freed child).holder? id = if id = child then none else ws.holder? id := by
  -- The holder is read off the place.
  rw [holder?, linked.placeOf?_freed_eq]
  split <;> rfl

/-- A freed node loses its place, and the holder of that place its occupant. -/
theorem Linked.node?_freed (linked : ws.Linked) (found : ws.node? child = some n) (id : NodeId) :
    (ws.freed child).node? id =
      if id = child then some { n with parent := none }
      else (ws.node? id).map (·.holding n.parent none) := by
  have placed := placeOf?_of_node? found
  cases parent : n.parent with
  | none =>
    -- The node is left alone, and so are the others.
    have alone : { n with parent := none } = n := by rw [← parent]
    rw [freed_of_placeOf? (placed.trans parent), alone]
    split
    · rename_i same
      rw [same, found]
    · simp [Node.holding]
  | some place =>
    have apart := linked.holder_ne (placed.trans parent)
    have parted : ws.freed child = ws.relink child place none none := by
      simp only [Workspace.freed, placed, parent, part_eq_relink]
    -- The node and its holder change, each at its end of the link.
    rw [parted, node?_relink apart, found]
    split
    · rfl
    · cases known : ws.node? id with
      | none => simp
      | some m =>
        simp only [Option.map_some, Node.holding, linked.own known]
        split <;> rfl

/-- Freeing a node leaves the order of the nodes as it is. -/
theorem keys_freed (ws : Workspace) (child : NodeId) :
    (ws.freed child).nodes.keys = ws.nodes.keys := by
  -- Parting two nodes modifies both of them and removes neither.
  unfold freed
  split
  · rfl
  · simp only [part, modify, OrderedMap.keys_modify]

/-- The graph with a node freed and taken away. -/
def taken (ws : Workspace) (id : NodeId) : Workspace := (ws.freed id).without id

/-- Without a node the other nodes are held as before. -/
theorem Linked.holder?_taken (linked : ws.Linked) (id other : NodeId) :
    (ws.taken id).holder? other = if other = id then none else ws.holder? other := by
  -- The node is freed before it is dropped, so nobody else had it as a holder unless it did before.
  have same : (ws.taken id).holder? other =
      if other = id then none else (ws.freed id).holder? other := by
    simp only [taken, holder?, placeOf?, node?_without]
    split <;> rfl
  rw [same, linked.holder?_freed]
  split <;> rfl

/-- A node on its own stays so when another one is taken away. -/
theorem Linked.placeOf?_taken_of_none (linked : ws.Linked) {other : NodeId}
    (alone : ws.placeOf? other = none) (id : NodeId) : (ws.taken id).placeOf? other = none := by
  -- Neither freeing nor removing a node gives a place to any.
  have same : (ws.taken id).placeOf? other =
      if other = id then none else (ws.freed id).placeOf? other := by
    simp only [taken, placeOf?, node?_without]
    split <;> rfl
  rw [same, linked.placeOf?_freed_eq, alone]
  simp

/-- Some nodes can be taken away one after the other: each is there, none holds a later one, and
what holds one of them or is held by one of them is one of them. -/
structure Dismantles (ws : Workspace) (ids : List NodeId) : Prop where
  nodup : ids.Nodup
  known : ∀ id ∈ ids, ∃ n, ws.node? id = some n
  order : ids.Pairwise fun earlier later => ws.holder? later ≠ some earlier
  inner : ∀ id above, ws.holder? id = some above → above ∈ ids → id ∈ ids
  outer : ∀ id above, ws.holder? id = some above → id ∈ ids → above ∈ ids

namespace Dismantles

variable {rest ids : List NodeId}

/-- The first of the nodes holds nothing. -/
theorem holder_ne (dismantles : ws.Dismantles (id :: rest)) (linked : ws.Linked)
    (other : NodeId) : ws.holder? other ≠ some id := by
  intro held
  -- What it holds would be one of the later nodes, or itself.
  rcases List.mem_cons.mp (dismantles.inner other id held List.mem_cons_self) with same | later
  · subst same
    exact (linked.rooted other).not_below held .refl
  · exact (List.pairwise_cons.mp dismantles.order).1 other later held

/-- The first of the nodes is detached when it is freed. -/
theorem detached (dismantles : ws.Dismantles (id :: rest)) (linked : ws.Linked) :
    ∃ n, (ws.freed id).node? id = some n ∧ n.isDetached = true := by
  -- The node is freed, and each child of it was taken before, since the order has children first.
  obtain ⟨n, found⟩ := dismantles.known id List.mem_cons_self
  have freed := linked.node?_freed found id
  rw [if_pos rfl] at freed
  refine ⟨_, freed, Node.isDetached_of_children rfl ?_⟩
  refine List.eq_nil_iff_forall_not_mem.mpr fun child member => ?_
  exact dismantles.holder_ne linked child (linked.holder?_of_mem_children found member)

/-- Without the first of the nodes links stay sound. -/
theorem linked_taken (dismantles : ws.Dismantles (id :: rest)) (linked : ws.Linked) :
    (ws.taken id).Linked := by
  -- A node without any links is dropped.
  obtain ⟨n, found, detached⟩ := dismantles.detached linked
  refine (linked.freed id).of_apart id (fun other different => ?_) (fun m there => ?_)
    fun m there => ?_
  · rw [taken, node?_without, if_neg different]
  · cases found.symm.trans there
    exact detached
  · rw [taken, node?_without, if_pos rfl] at there
    cases there

/-- Without the first of the nodes the nodes that it does not hang on are what they were. -/
theorem node?_taken (dismantles : ws.Dismantles (id :: rest)) (linked : ws.Linked)
    {other : NodeId} (apart : other ∉ rest) :
    (ws.taken id).node? other = if other = id then none else ws.node? other := by
  -- Only the holder of the node loses a link, and the holder is still to be taken.
  rw [taken, node?_without]
  split
  · rfl
  · rename_i different
    obtain ⟨n, found⟩ := dismantles.known id List.mem_cons_self
    rw [linked.node?_freed found, if_neg different]
    cases known : ws.node? other with
    | none => rfl
    | some m =>
      -- This node is not the holder, whose place alone becomes free.
      have untouched : m.holding n.parent none = m := by
        cases parent : n.parent with
        | none => rfl
        | some place =>
          have held : ws.holder? id = some place.holder := holder?_eq_some_iff.mpr
            ⟨place, (placeOf?_of_node? found).trans parent, rfl⟩
          have member := dismantles.outer id _ held List.mem_cons_self
          have elsewhere : m.id ≠ place.holder := by
            rw [linked.own known]
            rintro rfl
            exact (List.mem_cons.mp member).elim different apart
          simp only [Node.holding, if_neg elsewhere]
      rw [Option.map_some, untouched]

/-- Without the first of the nodes the others can be taken away. -/
theorem tail (dismantles : ws.Dismantles (id :: rest)) (linked : ws.Linked) :
    (ws.taken id).Dismantles rest := by
  -- The conditions on the rest are those on the whole; the holders can only have become fewer.
  obtain ⟨fresh, nodup⟩ := List.nodup_cons.mp dismantles.nodup
  have before : ∀ {other above}, (ws.taken id).holder? other = some above →
      other ≠ id ∧ ws.holder? other = some above := by
    intro other above held
    rw [linked.holder?_taken] at held
    split at held
    · cases held
    · exact ⟨‹_›, held⟩
  refine ⟨nodup, fun other member => ?_, ?_, fun other above held member => ?_,
    fun other above held member => ?_⟩
  · obtain ⟨n, found⟩ := dismantles.known id List.mem_cons_self
    obtain ⟨m, known⟩ := dismantles.known other (List.mem_cons_of_mem _ member)
    have different : other ≠ id := fun same => fresh (same ▸ member)
    refine ⟨m.holding n.parent none, ?_⟩
    rw [taken, node?_without, if_neg different, linked.node?_freed found, if_neg different, known,
      Option.map_some]
  · exact (List.pairwise_cons.mp dismantles.order).2.imp fun apart held => apart (before held).2
  · -- Neither the first node nor anything held by it is in question any more.
    obtain ⟨different, held⟩ := before held
    exact List.mem_of_ne_of_mem different
      (dismantles.inner other above held (List.mem_cons_of_mem _ member))
  · obtain ⟨_, held⟩ := before held
    have different : above ≠ id := fun same => dismantles.holder_ne linked other (same ▸ held)
    exact List.mem_of_ne_of_mem different
      (dismantles.outer other above held (List.mem_cons_of_mem _ member))

end Dismantles

/-- The graph with some nodes taken away one after the other. -/
def dismantled (ws : Workspace) (ids : List NodeId) : Workspace := ids.foldl taken ws

namespace Dismantles

variable {ids : List NodeId}

/-- Taking the nodes away keeps links sound. -/
theorem linked (dismantles : ws.Dismantles ids) (linked : ws.Linked) :
    (ws.dismantled ids).Linked := by
  -- By induction on the list, with one node taken at each step.
  induction ids generalizing ws with
  | nil => exact linked
  | cons id rest ih => exact ih (dismantles.tail linked) (dismantles.linked_taken linked)

/-- Exactly the nodes in question are taken away, and no other node changes. -/
theorem node?_dismantled (dismantles : ws.Dismantles ids) (linked : ws.Linked) (other : NodeId) :
    (ws.dismantled ids).node? other = if other ∈ ids then none else ws.node? other := by
  -- By induction on the list; taking a node leaves those that are not listed as they were.
  induction ids generalizing ws with
  | nil => simp [dismantled]
  | cons id rest ih =>
    have later := ih (dismantles.tail linked) (dismantles.linked_taken linked)
    show ((ws.taken id).dismantled rest).node? other = _
    rw [later]
    by_cases inside : other ∈ rest
    · simp [inside]
    · rw [if_neg inside, dismantles.node?_taken linked inside]
      simp [inside]

end Dismantles

/-- Taking nodes away keeps the others in their order. -/
theorem keys_dismantled (ws : Workspace) (ids : List NodeId) :
    (ws.dismantled ids).nodes.keys = ws.nodes.keys.filter (· ∉ ids) := by
  -- By induction on the list; each step drops one key and keeps the order of the others.
  induction ids generalizing ws with
  | nil => simp [dismantled]
  | cons id rest ih =>
    have first : (ws.taken id).nodes.keys = ws.nodes.keys.filter (· ≠ id) := by
      rw [taken, without, OrderedMap.keys_erase, keys_freed]
    show ((ws.taken id).dismantled rest).nodes.keys = _
    rw [ih, first, List.filter_filter]
    refine List.filter_congr fun key _ => ?_
    simp [Bool.and_comm]

end Workspace

end QuickEntry
