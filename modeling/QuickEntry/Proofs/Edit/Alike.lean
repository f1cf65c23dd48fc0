import QuickEntry.Edit.Command
import QuickEntry.Proofs.Graph.Procedures

/-! Graphs that differ in the order of things alone, and that changes treat them alike. -/

namespace QuickEntry

/-- How much two states that count as alike have in common beyond their nodes. -/
structure Grain where
  /-- The nodes come in the same order. -/
  nodeOrder : Prop
  /-- The fields of each node come in the same order. -/
  fieldOrder : Prop
  /-- The same node is selected. -/
  selection : Prop

variable {g : Grain}

/-- Fields with the same values, in the same order if that counts. -/
structure Grain.Fields (g : Grain) (a b : OrderedMap String String) : Prop where
  same : a.Same b
  ordered : g.fieldOrder → a = b

namespace Grain.Fields

/-- Fields are like themselves. -/
theorem refl (a : OrderedMap String String) : g.Fields a a := ⟨fun _ => rfl, fun _ => rfl⟩

/-- Being alike goes both ways. -/
theorem symm {a b : OrderedMap String String} (alike : g.Fields a b) : g.Fields b a :=
  ⟨alike.same.symm, fun ordered => (alike.ordered ordered).symm⟩

/-- Being alike is passed on. -/
theorem trans {a b c : OrderedMap String String} (left : g.Fields a b) (right : g.Fields b c) :
    g.Fields a c :=
  ⟨left.same.trans right.same, fun ordered => (left.ordered ordered).trans (right.ordered ordered)⟩

/-- The same change keeps fields alike. -/
theorem put {a b : OrderedMap String String} (alike : g.Fields a b) (name : String)
    (value : Option String) : g.Fields (a.put name value) (b.put name value) :=
  -- Both sides change in the same field.
  ⟨alike.same.put name value, fun ordered => by rw [alike.ordered ordered]⟩

end Grain.Fields

/-- Nodes that differ in the order of their fields at most. -/
structure Node.Alike (g : Grain) (a b : Node) : Prop where
  fields : g.Fields a.fields b.fields
  rest : b = { a with fields := b.fields }

namespace Node.Alike

variable {a b c : Node}

/-- A node is like itself. -/
theorem refl (a : Node) : a.Alike g a := ⟨.refl _, rfl⟩

/-- Being alike goes both ways. -/
theorem symm (alike : a.Alike g b) : b.Alike g a := by
  -- What is equal apart from the fields is equal in both directions.
  refine ⟨alike.fields.symm, ?_⟩
  rw [alike.rest]

/-- Being alike is passed on. -/
theorem trans (left : a.Alike g b) (right : b.Alike g c) : a.Alike g c := by
  -- What is equal apart from the fields stays so over both steps.
  refine ⟨left.fields.trans right.fields, ?_⟩
  rw [right.rest, left.rest]

/-- Nodes that are alike are equal if the order of fields counts. -/
theorem eq (alike : a.Alike g b) (ordered : g.fieldOrder) : a = b := by
  -- The fields are all that could differ.
  rw [alike.rest, ← alike.fields.ordered ordered]

/-- Nodes that are alike have one number. -/
theorem id_eq (alike : a.Alike g b) : b.id = a.id := by rw [alike.rest]

/-- Nodes that are alike are of one kind. -/
theorem kind_eq (alike : a.Alike g b) : b.kind = a.kind := by rw [alike.rest]

/-- Nodes that are alike have one structural state. -/
theorem mutation_eq (alike : a.Alike g b) : b.mutation = a.mutation := by rw [alike.rest]

/-- Nodes that are alike take one place. -/
theorem parent_eq (alike : a.Alike g b) : b.parent = a.parent := by rw [alike.rest]

/-- Nodes that are alike have the same sockets. -/
theorem sockets_eq (alike : a.Alike g b) : b.sockets = a.sockets := by rw [alike.rest]

/-- Nodes that are alike have the same connectors. -/
theorem connectors_eq (alike : a.Alike g b) : b.connectors = a.connectors := by
  -- The fields are no connectors.
  rw [alike.rest]
  rfl

/-- Nodes that are alike are detached together. -/
theorem isDetached_eq (alike : a.Alike g b) : b.isDetached = a.isDetached := by
  -- The fields connect nothing.
  rw [alike.rest]
  rfl

/-- Nodes that are alike have the same children. -/
theorem children_eq (alike : a.Alike g b) : b.children = a.children := by
  -- The fields hold no nodes.
  rw [alike.rest]
  rfl

/-- Nodes that are alike hold the same in each place. -/
theorem occupant_eq (alike : a.Alike g b)
    (place : Link) : b.occupant place = a.occupant place := by
  -- The fields hold no nodes.
  rw [alike.rest]
  cases place <;> rfl

/-- Nodes that are alike have the same values in their fields. -/
theorem field?_eq (alike : a.Alike g b) (name : String) : b.field? name = a.field? name :=
  -- A field is asked by its name, whatever the order.
  (alike.fields.same name).symm

/-- Nodes that are alike declare the same procedure. -/
theorem declaration?_eq (alike : a.Alike g b) : b.declaration? = a.declaration? := by
  -- Only the field with the name of the procedure is asked.
  simp only [Node.declaration?, alike.kind_eq, alike.mutation_eq, alike.field?_eq]

/-- Nodes that are alike stay so with other connections and connectors. -/
theorem congr (alike : a.Alike g b) {f : Node → Node}
    (blind : ∀ n fields, f { n with fields } = { f n with fields })
    (keeps : ∀ n, (f n).fields = n.fields) : (f a).Alike g (f b) := by
  -- The change neither sees nor touches the fields.
  refine ⟨?_, ?_⟩
  · rw [keeps, keeps]
    exact alike.fields
  · rw [keeps]
    conv_lhs => rw [alike.rest]
    exact blind a b.fields

end Node.Alike

/-- A relation of what may be missing goes both ways if the relation does. -/
theorem optionRel_symm {α : Type} {r : α → α → Prop} (symm : ∀ {a b}, r a b → r b a) :
    ∀ {x y : Option α}, Option.Rel r x y → Option.Rel r y x
  | _, _, .none => .none
  | _, _, .some related => .some (symm related)

/-- A relation of what may be missing is passed on if the relation is. -/
theorem optionRel_trans {α : Type} {r : α → α → Prop} (trans : ∀ {a b c}, r a b → r b c → r a c) :
    ∀ {x y z : Option α}, Option.Rel r x y → Option.Rel r y z → Option.Rel r x z
  | _, _, _, .none, .none => .none
  | _, _, _, .some left, .some right => .some (trans left right)

/-- A change that keeps a relation keeps it of what may be missing. -/
theorem optionRel_map {α : Type} {r : α → α → Prop} {f : α → α}
    (keeps : ∀ {a b}, r a b → r (f a) (f b)) :
    ∀ {x y : Option α}, Option.Rel r x y → Option.Rel r (x.map f) (y.map f)
  | _, _, .none => .none
  | _, _, .some related => .some (keeps related)

/-- What related things agree on is the same although both may be missing. -/
theorem optionRel_bind {α β : Type} {r : α → α → Prop} {x y : Option α} (related : Option.Rel r x y)
    {f : α → Option β} (agree : ∀ {a b}, r a b → f b = f a) : y.bind f = x.bind f :=
  match related with
  | .none => rfl
  | .some related => agree related

namespace Workspace

/-- Graphs with like nodes and the same declared components, whatever their next numbers. -/
structure Alike (g : Grain) (ws ws' : Workspace) : Prop where
  nodes : ∀ id, Option.Rel (Node.Alike g) (ws.node? id) (ws'.node? id)
  keys : g.nodeOrder → ws.nodes.keys = ws'.nodes.keys
  database : ws.database = ws'.database

namespace Alike

variable {ws ws' ws'' : Workspace}

/-- A graph is like itself. -/
theorem refl (ws : Workspace) : ws.Alike g ws := by
  -- Each node is like itself.
  refine ⟨fun id => ?_, fun _ => rfl, rfl⟩
  generalize ws.node? id = found
  cases found with
  | none => exact .none
  | some n => exact .some (.refl n)

/-- Being alike goes both ways. -/
theorem symm (alike : ws.Alike g ws') : ws'.Alike g ws :=
  ⟨fun id => optionRel_symm .symm (alike.nodes id), fun ordered => (alike.keys ordered).symm,
    alike.database.symm⟩

/-- Being alike is passed on. -/
theorem trans (left : ws.Alike g ws') (right : ws'.Alike g ws'') : ws.Alike g ws'' :=
  ⟨fun id => optionRel_trans .trans (left.nodes id) (right.nodes id),
    fun ordered => (left.keys ordered).trans (right.keys ordered),
    left.database.trans right.database⟩

/-- A node of one graph has a like one in the other. -/
theorem node? (alike : ws.Alike g ws') {id : NodeId} {n : Node} (found : ws.node? id = some n) :
    ∃ n', ws'.node? id = some n' ∧ n.Alike g n' := by
  -- The two look-ups are related.
  have related := alike.nodes id
  rw [found] at related
  generalize ws'.node? id = found' at related
  cases related with
  | some same => exact ⟨_, rfl, same⟩

/-- A number that is free in one graph is free in the other. -/
theorem node?_eq_none (alike : ws.Alike g ws') {id : NodeId} (absent : ws.node? id = none) :
    ws'.node? id = none := by
  -- The two look-ups are related.
  have related := alike.nodes id
  rw [absent] at related
  generalize ws'.node? id = found' at related
  cases related with
  | none => rfl

/-- What like nodes agree on is the same under each number. -/
theorem bind_node? {β : Type} (alike : ws.Alike g ws') {f : Node → Option β}
    (agree : ∀ {a b : Node}, a.Alike g b → f b = f a) (id : NodeId) :
    (ws'.node? id).bind f = (ws.node? id).bind f :=
  -- The node is found on both sides or on none.
  optionRel_bind (alike.nodes id) agree

/-- A node takes the same place in both graphs. -/
theorem placeOf?_eq (alike : ws.Alike g ws') (id : NodeId) : ws'.placeOf? id = ws.placeOf? id :=
  -- The parent is no field.
  alike.bind_node? Node.Alike.parent_eq id

/-- A node has the same children in both graphs. -/
theorem children_eq (alike : ws.Alike g ws') (id : NodeId) :
    (ws'.node? id).map Node.children = (ws.node? id).map Node.children := by
  -- The children are found in the node.
  rw [Option.map_eq_bind, Option.map_eq_bind]
  exact alike.bind_node? (fun same => by rw [Function.comp, Function.comp, same.children_eq]) id

/-- A node has the same connectors in both graphs. -/
theorem connectors_eq (alike : ws.Alike g ws') (id : NodeId) :
    (ws'.node? id).map Node.connectors = (ws.node? id).map Node.connectors := by
  -- The connectors are found in the node.
  rw [Option.map_eq_bind, Option.map_eq_bind]
  exact alike.bind_node? (fun same => by rw [Function.comp, Function.comp, same.connectors_eq]) id

/-- A node has the same subtree in both graphs. -/
theorem subtree_eq (alike : ws.Alike g ws') (id : NodeId) (withNext : Bool) :
    ws'.subtree id withNext = ws.subtree id withNext := by
  -- A walk depends on nothing but the children.
  cases found : ws.node? id with
  | none => simp only [subtree, found, alike.node?_eq_none found]
  | some n =>
    obtain ⟨n', found', same⟩ := alike.node? found
    have rest : ∀ other, ((ws'.nodes.erase id).get? other).map Node.children =
        ((ws.nodes.erase id).get? other).map Node.children := by
      intro other
      rw [OrderedMap.get?_erase, OrderedMap.get?_erase]
      split
      · rfl
      · exact alike.children_eq other
    simp only [subtree, found, found', same.children_eq, Node.plugged, same.sockets_eq,
      visit_congr rest]

/-- A node is refused a place in both graphs or in neither, for the same reason. -/
theorem refusal_eq (alike : ws.Alike g ws') (child : NodeId) (place : Link) :
    ws'.refusal child place = ws.refusal child place := by
  -- Every check asks for something that like nodes agree on.
  cases found : ws.node? child with
  | none => simp only [refusal, found, alike.node?_eq_none found]
  | some n =>
    obtain ⟨n', found', same⟩ := alike.node? found
    cases offered : ws.node? place.holder with
    | none =>
      simp only [refusal, found, found', offered, alike.node?_eq_none offered, same.parent_eq]
    | some holder =>
      obtain ⟨holder', offered', alike'⟩ := alike.node? offered
      have decided : holder'.refusal child n' place = holder.refusal child n place := by
        rw [alike'.rest, same.rest]
        cases place <;> rfl
      simp only [refusal, found, found', offered, offered', same.parent_eq, decided,
        alike.subtree_eq]

/-- Graphs stay alike when a node is changed in ways that have nothing to do with its fields. -/
theorem modify (alike : ws.Alike g ws') (id : NodeId) {f : Node → Node}
    (blind : ∀ n fields, f { n with fields } = { f n with fields })
    (keeps : ∀ n, (f n).fields = n.fields) : (ws.modify id f).Alike g (ws'.modify id f) := by
  -- The change meets like nodes, and no keys change.
  refine ⟨fun other => ?_, fun ordered => ?_, alike.database⟩
  · rw [node?_modify, node?_modify]
    split
    · exact optionRel_map (fun same => same.congr blind keeps) (alike.nodes id)
    · exact alike.nodes other
  · simpa [Workspace.modify] using alike.keys ordered

/-- Graphs stay alike when a link is made or taken away. -/
theorem relink (alike : ws.Alike g ws') (child : NodeId) (place : Link)
    (occupant : Option NodeId) (parent : Option Link) :
    (ws.relink child place occupant parent).Alike g (ws'.relink child place occupant parent) := by
  -- Neither filling a place nor taking one has to do with fields.
  have fills : (ws.modify place.holder fun n => n.fill place occupant).Alike g
      (ws'.modify place.holder fun n => n.fill place occupant) := by
    apply alike.modify
    · intro n fields
      cases place <;> rfl
    · intro n
      cases place <;> rfl
  exact fills.modify child (fun _ _ => rfl) fun _ => rfl

/-- A node that can be plugged in can be plugged in in both graphs, which stay alike. -/
theorem plug (alike : ws.Alike g ws') {child : NodeId} {place : Link} {next : Workspace}
    (plugged : ws.plug child place = .ok next) :
    ∃ next', ws'.plug child place = .ok next' ∧ next.Alike g next' := by
  -- There is no refusal in either graph.
  rw [Workspace.plug] at plugged
  cases refused : ws.refusal child place with
  | some e =>
    rw [refused] at plugged
    cases plugged
  | none =>
    rw [refused] at plugged
    cases plugged
    refine ⟨ws'.join child place, ?_, alike.relink child place (some child) (some place)⟩
    rw [Workspace.plug, alike.refusal_eq, refused]

/-- Graphs stay alike when a node is freed. -/
theorem freed (alike : ws.Alike g ws') (child : NodeId) :
    (ws.freed child).Alike g (ws'.freed child) := by
  -- The node leaves the same place in both.
  rw [Workspace.freed, Workspace.freed, alike.placeOf?_eq]
  cases ws.placeOf? child with
  | none => exact alike
  | some place => exact alike.relink child place none none

/-- Graphs stay alike when like nodes are added to them. -/
theorem added (alike : ws.Alike g ws') {n n' : Node} (same : n.Alike g n') :
    (ws.added n).Alike g (ws'.added n') := by
  -- The new nodes have one number, which is new to both graphs or to neither.
  refine ⟨fun other => ?_, fun ordered => ?_, alike.database⟩
  · rw [node?_added, node?_added, same.id_eq]
    split
    · exact .some same
    · exact alike.nodes other
  · have keys := alike.keys ordered
    have contains : ws.nodes.contains n.id = ws'.nodes.contains n.id := by
      rw [Bool.eq_iff_iff, ← OrderedMap.mem_keys_iff, ← OrderedMap.mem_keys_iff, keys]
    simp only [Workspace.added, OrderedMap.keys_insert, same.id_eq, keys, contains]

/-- Graphs stay alike when a node is left out of them. -/
theorem without (alike : ws.Alike g ws') (id : NodeId) :
    (ws.without id).Alike g (ws'.without id) := by
  -- The node goes from both.
  refine ⟨fun other => ?_, fun ordered => ?_, alike.database⟩
  · rw [node?_without, node?_without]
    split
    · exact .none
    · exact alike.nodes other
  · simp only [Workspace.without, OrderedMap.keys_erase, alike.keys ordered]

/-- Graphs stay alike when nodes in them are replaced by like ones. -/
theorem replaced (alike : ws.Alike g ws') {id : NodeId} {n m m' : Node}
    (found : ws.node? id = some n) (same : m.Alike g m') :
    (ws.replaced id m).Alike g (ws'.replaced id m') := by
  -- The node is there in both graphs.
  obtain ⟨n', found', _⟩ := alike.node? found
  refine ⟨fun other => ?_, fun ordered => ?_, alike.database⟩
  · rw [node?_replaced found, node?_replaced found']
    split
    · exact .some same
    · exact alike.nodes other
  · simpa [Workspace.replaced, Workspace.modify] using alike.keys ordered

/-- The same procedures are declared in both graphs. -/
theorem mem_declared_iff (alike : ws.Alike g ws') (d : Option String × List String) :
    d ∈ ws'.declared ↔ d ∈ ws.declared := by
  -- Each number leads to nodes that declare the same.
  simp only [Workspace.mem_declared_iff, alike.bind_node? Node.Alike.declaration?_eq]

/-- The same procedures are declared in the same order if the order of nodes counts. -/
theorem declared_eq (alike : ws.Alike g ws') (ordered : g.nodeOrder) :
    ws'.declared = ws.declared :=
  -- Definitions are searched in the order of the nodes.
  declared_congr (alike.keys ordered).symm (alike.bind_node? Node.Alike.declaration?_eq)

end Alike

/-- The order of nodes counts, or does not matter to calls of a procedure. -/
def Settles (g : Grain) (ws : Workspace) (name : String) : Prop := g.nodeOrder ∨ ws.AgreeOn name

/-- A call finds as many arguments in both graphs if that is settled. -/
theorem Alike.arity_eq {ws ws' : Workspace} (alike : ws.Alike g ws') {name : String}
    (settled : ws.Settles g name) : ws'.arity name = ws.arity name := by
  -- The declarations come in the same order, or the order does not matter.
  rcases settled with ordered | agree
  · rw [Workspace.arity_eq, Workspace.arity_eq, alike.declared_eq ordered]
  · exact agree.arity_eq alike.mem_declared_iff

/-- A node has the shape that it derives. -/
def Current (ws : Workspace) (n : Node) : Prop := ws.shapeOf n = .ok n.connectors

/-- A node has the shape that it derives, and derives it in every graph like this one. -/
structure Steady (g : Grain) (ws : Workspace) (n : Node) : Prop where
  current : ws.Current n
  settled : ∀ {name}, n.calls? = some name → ws.Settles g name

end Workspace

/-- Canvases with like graphs, and with the same selection if that counts. -/
structure Canvas.Alike (g : Grain) (c c' : Canvas) : Prop where
  workspace : c.workspace.Alike g c'.workspace
  selection : g.selection → c.selection = c'.selection

namespace Canvas.Alike

variable {c c' c'' : Canvas}

/-- A canvas is like itself. -/
theorem refl (c : Canvas) : c.Alike g c := ⟨.refl _, fun _ => rfl⟩

/-- Being alike goes both ways. -/
theorem symm (alike : c.Alike g c') : c'.Alike g c :=
  ⟨alike.workspace.symm, fun counts => (alike.selection counts).symm⟩

/-- Being alike is passed on. -/
theorem trans (left : c.Alike g c') (right : c'.Alike g c'') : c.Alike g c'' :=
  ⟨left.workspace.trans right.workspace,
    fun counts => (left.selection counts).trans (right.selection counts)⟩

/-- Canvases stay alike when their graphs are exchanged for like ones. -/
theorem withWorkspace (alike : c.Alike g c') {ws ws' : Workspace} (same : ws.Alike g ws') :
    ({ c with workspace := ws } : Canvas).Alike g { c' with workspace := ws' } :=
  -- The selection is as before.
  ⟨same, alike.selection⟩

end Canvas.Alike

end QuickEntry
