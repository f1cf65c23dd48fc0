import QuickEntry.Proofs.Edit.Variant
import QuickEntry.Proofs.Reachable

/-! Blocks that keep the shape that they derive, whatever happens to the graph around them, calls of
procedures apart. -/

namespace QuickEntry

namespace Node

/-- Two nodes are one block with other links at most. -/
structure SameBlock (a b : Node) : Prop where
  kind : b.kind = a.kind
  mutation : b.mutation = a.mutation
  fields : b.fields = a.fields
  connectors : b.connectors = a.connectors

/-- A node is the same block as itself. -/
theorem SameBlock.refl (n : Node) : n.SameBlock n := ⟨rfl, rfl, rfl, rfl⟩

/-- What is the same block as the same block is the same block. -/
theorem SameBlock.trans {a b c : Node} (first : a.SameBlock b) (second : b.SameBlock c) :
    a.SameBlock c :=
  -- Each part is an equation.
  ⟨second.kind.trans first.kind, second.mutation.trans first.mutation,
    second.fields.trans first.fields, second.connectors.trans first.connectors⟩

/-- What a node holds is no part of its block. -/
theorem sameBlock_fill (n : Node) (place : Link) (occupant : Option NodeId) :
    n.SameBlock (n.fill place occupant) := by
  -- A place is filled in the sockets or behind the node.
  cases place with
  | socket parent name => exact ⟨rfl, rfl, rfl, connectors_fill n _ occupant⟩
  | next previous => exact ⟨rfl, rfl, rfl, rfl⟩

/-- A node has the shape that it derives in some graph with these component types. -/
def Derived (database : ComponentDatabase) (n : Node) : Prop :=
  ∃ ws : Workspace, ws.database = database ∧ ws.Current n

variable {database : ComponentDatabase} {n m : Node}

/-- A node keeps its derived shape when only its links change. -/
theorem Derived.of_sameBlock (derived : n.Derived database) (same : n.SameBlock m) :
    m.Derived database := by
  obtain ⟨ws, rfl, current⟩ := derived
  refine ⟨ws, rfl, ?_⟩
  -- The shape is derived from the block.
  have derives : ws.shapeOf m = ws.shapeOf n :=
    Workspace.shapeOf_congr same.kind same.mutation (fun name => by rw [same.fields]) rfl
      fun _ _ => rfl
  rw [Workspace.Current, derives, same.connectors]
  exact current

/-- A node that calls nothing has the same derived shape in all graphs with these component
types. -/
theorem Derived.current {ws : Workspace} (derived : n.Derived ws.database)
    (calls : n.calls? = none) : ws.Current n := by
  obtain ⟨other, same, current⟩ := derived
  -- Nothing but the types of components is asked around the node.
  have derives : ws.shapeOf n = other.shapeOf n :=
    Workspace.shapeOf_congr rfl rfl (fun _ => rfl) same.symm fun name called => by
      rw [calls] at called
      cases called
  rw [Workspace.Current, derives]
  exact current

/-- What holds of every derived shape holds of the connectors of a node that has one. -/
theorem Derived.connectors {P : Shape → Prop} (derived : n.Derived database)
    (every : ∀ {ws : Workspace} {shape}, ws.shapeOf n = .ok shape → P shape) : P n.connectors := by
  -- The shape was derived in some graph, and the connectors are those of it.
  obtain ⟨ws, _, current⟩ := derived
  exact every current

end Node

namespace Workspace

variable {ws ws' : Workspace} {n m : Node} {database : ComponentDatabase}

/-- Every node has the shape that it derives, unless a procedure that is declared elsewhere decides
about it. -/
structure Shaped (ws : Workspace) : Prop where
  current : ∀ {id n}, ws.node? id = some n → n.calls? = none → ws.Current n

/-- A graph with these component types, whose nodes have derived shapes. -/
structure Derives (database : ComponentDatabase) (ws : Workspace) : Prop where
  types : ws.database = database
  node : ∀ {id n}, ws.node? id = some n → n.Derived database

/-- A graph whose nodes have derived shapes is shaped. -/
theorem Derives.shaped (derives : ws.Derives database) : ws.Shaped := by
  -- A node without a call derives the same shape in every graph with these components.
  obtain ⟨rfl, node⟩ := derives
  exact ⟨fun found calls => (node found).current calls⟩

/-- Two graphs have the same blocks in the same order, and differ in links at most. -/
structure SameBlocks (ws ws' : Workspace) : Prop where
  keys : ws'.nodes.keys = ws.nodes.keys
  nodes : ∀ id, Option.Rel Node.SameBlock (ws.node? id) (ws'.node? id)
  number : ws'.nextNumber = ws.nextNumber
  components : ws'.components = ws.components
  database : ws'.database = ws.database

namespace SameBlocks

variable {ws'' : Workspace}

/-- Every graph has its own blocks. -/
theorem refl (ws : Workspace) : ws.SameBlocks ws := by
  -- A node is the same block as itself.
  refine ⟨rfl, fun id => ?_, rfl, rfl, rfl⟩
  cases ws.node? id with
  | none => exact .none
  | some n => exact .some (.refl n)

/-- The blocks of two graphs are the same if both are those of a third. -/
theorem trans (first : ws.SameBlocks ws') (second : ws'.SameBlocks ws'') : ws.SameBlocks ws'' :=
  -- Node by node, and the other parts are equations.
  ⟨second.keys.trans first.keys,
    fun id => optionRel_trans .trans (first.nodes id) (second.nodes id),
    second.number.trans first.number, second.components.trans first.components,
    second.database.trans first.database⟩

/-- A node is in the second graph if it is in the first one. -/
theorem exists_node? (same : ws.SameBlocks ws') {id : NodeId} (found : ws.node? id = some n) :
    ∃ m, ws'.node? id = some m ∧ n.SameBlock m := by
  -- The relation pairs a node with a node.
  have block := same.nodes id
  rw [found] at block
  generalize ws'.node? id = there at block
  cases block with
  | some block => exact ⟨_, rfl, block⟩

/-- A node of the second graph is in the first one. -/
theorem exists_block (same : ws.SameBlocks ws') {id : NodeId} (found : ws'.node? id = some m) :
    ∃ n : Node, ws.node? id = some n ∧ n.SameBlock m := by
  -- The relation pairs a node with a node.
  have block := same.nodes id
  rw [found] at block
  generalize ws.node? id = there at block
  cases block with
  | some block => exact ⟨_, rfl, block⟩

end SameBlocks

/-- Changing the links of a node leaves blocks the same. -/
theorem sameBlocks_modify (ws : Workspace) (id : NodeId) {f : Node → Node}
    (same : ∀ n : Node, n.SameBlock (f n)) : ws.SameBlocks (ws.modify id f) := by
  -- Only the modified node is looked at; it is the same block by assumption.
  refine ⟨OrderedMap.keys_modify _ _ _, fun other => ?_, rfl, rfl, rfl⟩
  rw [node?_modify]
  split
  · rename_i here
    rw [here]
    cases ws.node? id with
    | none => exact .none
    | some n => exact .some (same n)
  · exact (SameBlocks.refl ws).nodes other

/-- Making or cutting a link leaves blocks the same. -/
theorem sameBlocks_relink (ws : Workspace) (child : NodeId) (place : Link)
    (occupant : Option NodeId) (parent : Option Link) :
    ws.SameBlocks (ws.relink child place occupant parent) :=
  -- Two nodes change their links.
  (ws.sameBlocks_modify place.holder fun n => n.sameBlock_fill place occupant).trans
    (sameBlocks_modify _ child fun _ => ⟨rfl, rfl, rfl, rfl⟩)

/-- Freeing a node leaves blocks the same. -/
theorem sameBlocks_freed (ws : Workspace) (child : NodeId) : ws.SameBlocks (ws.freed child) := by
  -- A node on its own is left alone, and any other one is parted from its place.
  unfold freed
  split
  · exact .refl ws
  · exact ws.sameBlocks_relink child _ none none

/-- A graph has derived shapes if its blocks are those of a graph that has. -/
theorem Derives.of_sameBlocks (derives : ws.Derives database) (same : ws.SameBlocks ws') :
    ws'.Derives database := by
  -- A node that is the same block was derived as before.
  refine ⟨same.database.trans derives.types, fun {id m} found => ?_⟩
  obtain ⟨n, there, block⟩ := same.exists_block found
  exact (derives.node there).of_sameBlock block

/-- Shapes stay derived when a node comes in that has a derived one. -/
theorem Derives.insert (derives : ws.Derives database) (derived : n.Derived database)
    (inserted : ws.insert n = .ok ws') : ws'.Derives database := by
  -- The inserted node is derived by assumption, all others are as they were.
  obtain ⟨_, _, rfl⟩ := insert_eq_ok_iff.mp inserted
  refine ⟨derives.types, fun {id m} found => ?_⟩
  rw [node?_added] at found
  split at found
  · cases found
    exact derived
  · exact derives.node found

/-- Making a node leaves shapes derived, and gives the node one. -/
theorem Derives.make (derives : ws.Derives database) {kind : String} {mutation : Mutation}
    (made : ws.make kind mutation = .ok (n, ws')) : n.Derived database ∧ ws'.Derives database := by
  -- A node is created with the shape that its kind derives in this very graph.
  obtain ⟨is, rfl⟩ := make_eq_ok made
  exact ⟨⟨ws, derives.types, is.shaped⟩, derives.types, derives.node⟩

/-- Building keeps shapes derived. -/
theorem buildInvariant_derives (database : ComponentDatabase) :
    BuildInvariant (Derives database) where
  make derives made := (derives.make made).2
  enter derives made inserted :=
    let ⟨derived, counted⟩ := derives.make made
    counted.insert derived inserted
  remove {ws ws' id n} derives removed := by
    obtain ⟨_, _, rfl⟩ := remove_eq_ok_iff.mp removed
    refine ⟨derives.types, fun {other m} found => ?_⟩
    rw [node?_without] at found
    split at found
    · cases found
    · exact derives.node found
  setField {ws _ _ _ _ _} derives set := by
    -- The node takes the shape on that it derives.
    obtain ⟨n, shape, there, derived, rfl⟩ := of_setField set
    refine ⟨derives.types, fun {id m} found => ?_⟩
    rw [node?_replaced there] at found
    split at found
    · cases found
      refine ⟨ws, derives.types, ?_⟩
      rw [Current, shapeOf_reshape, derived, Node.connectors_reshape]
    · exact derives.node found
  plug derives plugged := by
    obtain ⟨_, rfl⟩ := plug_eq_ok_iff.mp plugged
    exact derives.of_sameBlocks (sameBlocks_relink _ _ _ _ _)
  unplug derives unplugged := by
    obtain ⟨_, rfl⟩ := unplug_eq_ok_iff.mp unplugged
    exact derives.of_sameBlocks (sameBlocks_freed _ _)

/-- What is built has derived shapes. -/
theorem Built.derives (built : Built database ws) : ws.Derives database := by
  -- Building goes by changes that keep the graph so.
  induction built with
  | empty => exact ⟨rfl, fun found => nomatch found⟩
  | append _ labels block ih => exact (buildInvariant_derives database).append ih labels block
  | component _ name type ih => exact ⟨ih.types, ih.node⟩

end Workspace

end QuickEntry
