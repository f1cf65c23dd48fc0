import QuickEntry.Proofs.Edit.Alike

/-! Detached nodes that are the same block with other fields, and setting such fields. -/

namespace QuickEntry

/-- Two detached nodes are one block, with different fields and connectors at most. -/
structure Node.Variant (m n : Node) : Prop where
  id : n.id = m.id
  kind : n.kind = m.kind
  mutation : n.mutation = m.mutation
  detached : m.isDetached = true
  detached' : n.isDetached = true

namespace Node.Variant

variable {g : Grain} {m n k : Node}

/-- A detached node is a variant of itself. -/
theorem refl (detached : m.isDetached = true) : m.Variant m := ⟨rfl, rfl, rfl, detached, detached⟩

/-- Being a variant goes both ways. -/
theorem symm (variant : m.Variant n) : n.Variant m :=
  ⟨variant.id.symm, variant.kind.symm, variant.mutation.symm, variant.detached', variant.detached⟩

/-- Being a variant is passed on. -/
theorem trans (left : m.Variant n) (right : n.Variant k) : m.Variant k :=
  ⟨right.id.trans left.id, right.kind.trans left.kind, right.mutation.trans left.mutation,
    left.detached, right.detached'⟩

/-- Sockets that hold nothing are known by what they offer. -/
theorem sockets_eq {xs ys : List Socket} (left : ∀ s ∈ xs, s.target = none)
    (right : ∀ s ∈ ys, s.target = none) (specs : xs.map Socket.spec = ys.map Socket.spec) :
    xs = ys := by
  -- The lists are compared from the front.
  induction xs generalizing ys with
  | nil =>
    cases ys with
    | nil => rfl
    | cons y ys => cases specs
  | cons x xs ih =>
    cases ys with
    | nil => cases specs
    | cons y ys =>
      simp only [List.map_cons, List.cons.injEq] at specs
      have head : x = y := by
        have first := left x (by simp)
        have second := right y (by simp)
        have offers := specs.1
        cases x
        cases y
        simp_all [Socket.spec]
      rw [head, ih (fun s member => left s (by simp [member]))
        (fun s member => right s (by simp [member])) specs.2]

/-- Variants with like fields and the same connectors are alike. -/
theorem alike (variant : m.Variant n) (fields : g.Fields m.fields n.fields)
    (connectors : n.connectors = m.connectors) : m.Alike g n := by
  -- Neither is connected to anything, so that connectors are all that is left to compare.
  refine ⟨fields, ?_⟩
  have output : n.output = m.output := congrArg Shape.output connectors
  have hasPrevious : n.hasPrevious = m.hasPrevious := congrArg Shape.hasPrevious connectors
  have hasNext : n.hasNext = m.hasNext := congrArg Shape.hasNext connectors
  have sockets : n.sockets = m.sockets :=
    sockets_eq (fun s member => target_of_isDetached variant.detached' member)
      (fun s member => target_of_isDetached variant.detached member)
      (congrArg Shape.sockets connectors)
  have next : n.next = m.next := by
    rw [next_of_isDetached variant.detached, next_of_isDetached variant.detached']
  have parent : n.parent = m.parent := by
    rw [parent_of_isDetached variant.detached, parent_of_isDetached variant.detached']
  cases n
  cases m
  cases variant.id
  cases variant.kind
  cases variant.mutation
  simp_all

/-- A node that is like a detached one is a variant of it. -/
theorem of_alike (alike : m.Alike g n) (detached : m.isDetached = true) : m.Variant n :=
  -- Being alike keeps everything but the fields.
  ⟨alike.id_eq, alike.kind_eq, alike.mutation_eq, detached, alike.isDetached_eq.trans detached⟩

end Node.Variant

namespace Workspace

variable {g : Grain} {ws : Workspace} {id : NodeId} {m n : Node}

/-- What a node derives does not depend on the shape that it has. -/
theorem shapeOf_reshape (ws : Workspace) (n : Node) (shape : Shape) :
    ws.shapeOf (n.reshape shape) = ws.shapeOf n := rfl

/-- A node calls no procedure unless it is of a kind that declares none. -/
theorem silent_of_kind {name : String} (calls : n.calls? = some name) (kind : m.kind = n.kind) :
    m.declaration? = none := by
  -- Whether a node declares a procedure is a question of its kind.
  have silent := Node.declaration?_of_calls? calls
  unfold Node.declaration? at silent ⊢
  rw [kind]
  split at silent
  · cases silent
  · rename_i other
    exact if_neg other

/-- A node derives the same shape when a node of its kind is replaced by another one. -/
theorem shapeOf_replaced {k : Node} (found : ws.node? id = some k) (kind : m.kind = k.kind)
    (same : n.kind = k.kind) : (ws.replaced id m).shapeOf n = ws.shapeOf n := by
  -- If it depends on a declaration, nodes of its kind declare nothing.
  refine shapeOf_congr rfl rfl (fun _ => rfl) rfl fun name calls => ?_
  have silent := silent_of_kind calls (m := m) (kind.trans same.symm)
  have silent' := silent_of_kind calls (m := k) same.symm
  rw [arity_eq, arity_eq, declared_replaced found (silent.trans silent'.symm)]

/-- A steady node stays so when a node of its kind takes its place. -/
theorem Steady.replaced (steady : ws.Steady g n) (found : ws.node? id = some n)
    (kind : m.kind = n.kind) : (ws.replaced id m).Steady g n := by
  -- If it depends on declarations, these are what they were.
  refine ⟨(shapeOf_replaced found kind rfl).trans steady.current, fun {called} calls => ?_⟩
  refine (steady.settled calls).imp_right fun agree => agree.congr fun d => ?_
  have silent := silent_of_kind calls (m := m) kind
  rw [declared_replaced found (silent.trans (silent_of_kind calls rfl).symm)]

/-- What a steady node derives is derived in every like graph from like fields. -/
theorem Steady.shapeOf_eq {ws' : Workspace} (steady : ws.Steady g n) (alike : ws.Alike g ws')
    (kind : n.kind = m.kind) (mutation : n.mutation = m.mutation)
    (fields : n.fields.Same m.fields) : ws'.shapeOf m = .ok n.connectors := by
  -- If it depends on a declaration, both graphs give it as many arguments.
  rw [← steady.current]
  refine (shapeOf_congr kind mutation fields alike.database fun called calls => ?_).symm
  exact (alike.arity_eq (steady.settled calls)).symm

/-- A field that is set leaves the node with the shape that it derives, and nodes of its kind derive
what they did before. -/
theorem current_of_setField {ws' : Workspace} (found : ws.node? id = some n) {name : String}
    {value old : Option String} (made : ws.setField id name value = .ok (old, ws')) :
    ∃ m, ws'.node? id = some m ∧ m.kind = n.kind ∧ m.mutation = n.mutation ∧ ws.Current m ∧
      ∀ {x : Node}, x.kind = n.kind → ws'.shapeOf x = ws.shapeOf x := by
  -- What a node derives does not depend on nodes of its kind.
  obtain ⟨k, shape, there, derived, rfl⟩ := of_setField made
  cases found.symm.trans there
  refine ⟨(n.withField name value).reshape shape, ?_, rfl, rfl, ?_, shapeOf_replaced found rfl⟩
  · rw [node?_replaced found, if_pos rfl]
  · rw [Current, shapeOf_reshape, derived, Node.connectors_reshape]

/-- A node derives the same shape when a node of its kind is added. -/
theorem shapeOf_added (absent : ws.node? m.id = none) (kind : m.kind = n.kind) :
    (ws.added m).shapeOf n = ws.shapeOf n := by
  -- If it depends on a declaration, nodes of its kind declare nothing.
  refine shapeOf_congr rfl rfl (fun _ => rfl) rfl fun name calls => ?_
  rw [arity_eq, arity_eq, declared_added absent (silent_of_kind calls kind)]

/-- No shape costs a detached node a connection, since it has none. -/
theorem keepsConnections_of_isDetached (detached : m.isDetached = true) (shape : Shape) :
    ws.keepsConnections m shape = true := by
  -- Nothing is in its sockets, nothing follows it, and it takes no place.
  have sockets : m.sockets.all (ws.keepsChild shape) = true := by
    refine List.all_eq_true.mpr fun s member => ?_
    rw [keepsChild, Node.target_of_isDetached detached member]
  have upward : ws.keepsParent m shape = true := by
    rw [keepsParent, Node.parent_of_isDetached detached]
  rw [keepsConnections, sockets, Node.next_of_isDetached detached, upward]
  rfl

/-- A detached node stays so in every shape. -/
theorem isDetached_reshape (detached : m.isDetached = true) (shape : Shape) :
    (m.reshape shape).isDetached = true := by
  -- No new socket finds anything to take over.
  have empty : ∀ s ∈ (m.reshape shape).sockets, s.target = none := by
    intro s member
    obtain ⟨spec, _, rfl⟩ := List.mem_map.mp member
    refine Option.bind_eq_none_iff.mpr fun t found => ?_
    exact Node.target_of_isDetached detached (List.mem_of_find?_eq_some found)
  have parent : m.parent = none := Node.parent_of_isDetached detached
  have next : m.next = none := Node.next_of_isDetached detached
  show (m.parent.isNone && m.next.isNone && (m.reshape shape).sockets.all (·.target.isNone)) = true
  rw [parent, next]
  simpa using empty

/-- Setting a field of a detached node of a known kind succeeds, and leaves a variant of the node in
the shape that it derives. -/
theorem setField_of_isDetached (found : ws.node? id = some m) (detached : m.isDetached = true)
    {kind : BlockKind} (known : BlockKind.ofName? m.kind = some kind) (name : String)
    (value : Option String) :
    ∃ n, ws.setField id name value = .ok (m.field? name, ws.replaced id n) ∧ m.Variant n ∧
      n.fields = m.fields.put name value ∧ ws.Current n := by
  -- The new shape costs no connection.
  obtain ⟨shape, derived⟩ : ∃ shape, ws.shapeOf (m.withField name value) = .ok shape :=
    ⟨_, shapeOf_of_known known⟩
  have loose : (m.withField name value).isDetached = true := detached
  have keeps : ws.keepsConnections (m.withField name value) shape = true :=
    keepsConnections_of_isDetached loose shape
  refine ⟨(m.withField name value).reshape shape, ?_, ?_, rfl, ?_⟩
  · rw [setField_eq, found]
    simp only [derived, keeps, if_true]
  · exact ⟨rfl, rfl, rfl, detached, isDetached_reshape loose shape⟩
  · rw [Current, shapeOf_reshape, derived, Node.connectors_reshape]

/-- Only the last replacement of a node counts. -/
theorem replaced_replaced (found : ws.node? id = some n) (a b : Node) :
    (ws.replaced id a).replaced id b = ws.replaced id b := by
  -- The keys never change, and under the number there is the last node.
  refine eq_of_node? (by simp [replaced, modify]) (fun other => ?_) rfl rfl rfl
  rw [node?_replaced (n := a), node?_replaced found, node?_replaced found]
  · split <;> rfl
  · rw [node?_replaced found, if_pos rfl]

/-- Replacing a node by itself changes nothing. -/
theorem replaced_self (found : ws.node? id = some n) : ws.replaced id n = ws := by
  -- The node is found where it was.
  refine eq_of_node? (by simp [replaced, modify]) (fun other => ?_) rfl rfl rfl
  rw [node?_replaced found]
  split
  · rename_i same
    rw [same, found]
  · rfl

/-- Replacing a node that was added is adding the other one. -/
theorem replaced_added (same : n.id = m.id) : (ws.added m).replaced m.id n = ws.added n := by
  -- Both lead to the other node under the new number.
  have found : (ws.added m).node? m.id = some m := by rw [node?_added, if_pos rfl]
  refine eq_of_node? ?_ (fun other => ?_) ?_ rfl rfl
  · simp [replaced, modify, added, OrderedMap.keys_insert, same]
  · rw [node?_replaced found, node?_added, node?_added, same]
    split <;> rfl
  · simp [replaced, modify, added, same]

/-- Leaving a node out does not depend on what it was replaced by. -/
theorem without_replaced (found : ws.node? id = some n) (m : Node) :
    (ws.replaced id m).without id = ws.without id := by
  -- The node is gone in both.
  refine eq_of_node? (by simp [replaced, modify, without, OrderedMap.keys_erase])
    (fun other => ?_) rfl rfl rfl
  rw [node?_without, node?_without, node?_replaced found]
  split <;> rfl

/-- Leaving a new node out again leads to a graph like the one before. -/
theorem alike_without_added (absent : ws.node? n.id = none) :
    ws.Alike g ((ws.added n).without n.id) := by
  -- Only the next number may have changed.
  have nodes : ((ws.added n).without n.id).nodes = ws.nodes :=
    OrderedMap.erase_insert absent n
  refine ⟨fun other => ?_, fun _ => by rw [nodes], rfl⟩
  rw [node?, node?, nodes]
  exact (Alike.refl ws).nodes other

/-- Adding a node that was left out leads to a graph like the one before, if the order of nodes does
not count. -/
theorem alike_added_without (own : n.id = id) (found : ws.node? id = some n)
    (loose : ¬g.nodeOrder) : ws.Alike g ((ws.without id).added n) := by
  -- The node goes to the end of the order.
  refine ⟨fun other => ?_, fun ordered => absurd ordered loose, rfl⟩
  rw [node?_added, node?_without, own]
  split
  · rename_i same
    rw [same, found]
    exact .some (.refl n)
  · exact (Alike.refl ws).nodes other

end Workspace

end QuickEntry
