import QuickEntry.Proofs.Insertion
import QuickEntry.Proofs.Listing
import QuickEntry.Proofs.Rollback

/-! Creating the node of an option, and building the block that says the same: both have one
outcome, and the order of the field values makes no difference to it. -/

namespace QuickEntry

namespace BlockOption

/-- The block that says what an option says, with nothing in its inputs and nothing behind it. -/
def block (o : BlockOption) (label : Option String) : Block where
  kind := o.kind
  label := label
  fields := .ofList (o.entries.map fun e => (e.1, .string e.2))
  extraState := o.extraState
  inputs := []
  next := none

/-- A node is what an option describes in a graph: it is connected to nothing, its fields are the
defaults of its kind, overridden by the values of the option, and its shape is derived from
them. -/
structure Describes (o : BlockOption) (ws : Workspace) (n : Node) : Prop where
  id : n.id = ⟨ws.nextNumber⟩
  kind : n.kind = o.kind
  mutation : Mutation.ofExtraState o.extraState = .ok n.mutation
  detached : n.isDetached = true
  derived : ∃ kind, BlockKind.ofName? o.kind = some kind ∧
    (∀ name, n.field? name =
      (o.entries.lookup name).or ((OrderedMap.ofList kind.defaultFields).get? name)) ∧
    n.connectors = kind.shape n.fields n.mutation ws.surroundings

/-- The block of an option lists the values of the option in their order. -/
theorem entries_block (o : BlockOption) (label : Option String) :
    (o.block label).fields.entries = o.entries.map fun e => (e.1, .string e.2) := by
  -- The names stay what they are, and so stay distinct.
  refine OrderedMap.entries_ofList ?_
  rw [List.map_map]
  exact o.nodup_entries

end BlockOption

/-- Graphs have the same nodes as themselves. -/
theorem Workspace.SameNodes.refl (ws : Workspace) : ws.SameNodes ws := by
  -- A node is the same as itself.
  intro id
  cases ws.node? id with
  | none => exact .none
  | some n => exact .some n.same_refl

/-- Nodes that are the same may be added to a graph under one number. -/
theorem Workspace.SameNodes.added {n m : Node} (same : n.same m = true) (own : n.id = m.id)
    (ws : Workspace) : (ws.added n).SameNodes (ws.added m) := by
  -- Only the added node is looked at; both of them have the same number.
  intro id
  rw [node?_added, node?_added, own]
  split
  · exact .some same
  · exact SameNodes.refl ws id

namespace Assembly

/-- A graph under construction is the one that a draft changes. -/
def Beside (a : Assembly) (d : Draft) : Prop := a.workspace = d.canvas.workspace

/-- Nodes are made alike. -/
theorem matches_make (kind : String) (mutation : Mutation) :
    Attempt.Matches Beside (change fun ws => ws.make kind mutation) (Draft.make kind mutation) := by
  -- Both ask the same graph for the same node.
  intro a d same
  rw [on_change, Draft.on_make, same]
  cases d.canvas.workspace.make kind mutation with
  | error e => exact ⟨rfl, same⟩
  | ok result => exact ⟨rfl, rfl⟩

/-- Nodes are inserted alike, and the log of a draft makes no difference. -/
theorem matches_insert (n : Node) :
    Attempt.Matches Beside (change fun ws => (ws.insert n).map fun ws => ((), ws))
      (Draft.record (Canvas.create n)) := by
  -- The draft also records the creation, of which the builder knows nothing.
  intro a d same
  rw [on_change, Draft.on_record, Canvas.on_create, same]
  cases d.canvas.workspace.insert n with
  | error e => exact ⟨rfl, same⟩
  | ok result => exact ⟨rfl, rfl⟩

/-- Fields are set alike, whether the old value is dropped or logged. -/
theorem matches_setField (id : NodeId) (name value : String) :
    Attempt.Matches Beside
      (change (fun ws => ws.setField id name (some value)) >>= fun _ => pure ())
      (Draft.setField id name (some value)) := by
  -- The draft also records the old value, of which the builder knows nothing.
  intro a d same
  rw [Attempt.on_bind, on_change, Draft.setField, Draft.on_record, Canvas.on_setField, same]
  cases d.canvas.workspace.setField id name (some value) with
  | error e => exact ⟨rfl, same⟩
  | ok result => exact ⟨rfl, rfl⟩

/-- To remember the name of a block changes no graph. -/
theorem matches_remember (label : Option String) (id : NodeId) :
    Attempt.Matches Beside (remember label id >>= fun _ => pure id) (pure id) :=
  -- A label leaves the graph as it is.
  fun _ _ same => ⟨rfl, same⟩

/-- Building the block of an option and creating the node of the option go through the same
changes. -/
theorem matches_append (o : BlockOption) (label : Option String) :
    Attempt.Matches Beside (append (o.block label)) (Draft.instantiate o) := by
  -- Nothing is in the inputs and nothing follows, so that only the node itself is left.
  have built : append (o.block label) = Attempt.ofExcept (Mutation.ofExtraState o.extraState) >>=
      fun mutation => change (fun ws => ws.make o.kind mutation) >>=
        fun node => change (fun ws => (ws.insert node).map fun ws => ((), ws)) >>=
          fun _ => setFields node.id (o.block label).fields.entries >>=
            fun _ => remember label node.id >>= fun _ => pure node.id := by
    simp only [BlockOption.block, append, addNode, appendInputs, appendNext, bind_assoc, pure_bind]
  have created : Draft.instantiate o = Attempt.ofExcept (Mutation.ofExtraState o.extraState) >>=
      fun mutation => Draft.make o.kind mutation >>=
        fun node => Draft.record (Canvas.create node) >>=
          fun _ => (o.entries.forM fun e => Draft.setField node.id e.1 (some e.2)) >>=
            fun _ => pure node.id := rfl
  rw [built, created, o.entries_block]
  refine (Attempt.matches_ofExcept _).bind fun mutation => ?_
  refine (matches_make o.kind mutation).bind fun node => ?_
  refine (matches_insert node).bind fun _ => ?_
  have sets : Attempt.Matches Beside
      (setFields node.id (o.entries.map fun e => (e.1, .string e.2)))
      (o.entries.forM fun e => Draft.setField node.id e.1 (some e.2)) :=
    Attempt.matches_forM (fun e => matches_setField node.id e.1 e.2) o.entries
  exact sets.bind fun _ => matches_remember label node.id

end Assembly

namespace Draft

section Created

variable {g : Grain} {o o' : BlockOption} {kind : BlockKind} {mutation : Mutation} {ws : Workspace}
  {bare bare' full full' : Node} {sets sets' : List Command}

/-- The created node is what the option describes. -/
theorem Created.describes (created : Created g o kind mutation ws bare full sets)
    (known : BlockKind.ofName? o.kind = some kind)
    (read : Mutation.ofExtraState o.extraState = .ok mutation)
    (free : ws.node? ⟨ws.nextNumber⟩ = none) : o.Describes ws full := by
  have variant := created.retouched.variant
  have named : full.kind = o.kind := variant.kind.trans created.made.kind
  have state : full.mutation = mutation := variant.mutation.trans created.made.mutation
  have derived := created.current free
  rw [Workspace.Current, Workspace.shapeOf_of_known (named ▸ known)] at derived
  refine ⟨created.fresh.id_eq, named, state ▸ read, variant.detached', kind, known, fun name => ?_,
    (Except.ok.inj derived).symm⟩
  -- The fields are what setting the values one by one leaves.
  rw [Node.field?, created.filled, o.get?_filled]

/-- Nodes that are created with the same values in some order each are the same. -/
theorem Created.same (created : Created g o kind mutation ws bare full sets)
    (created' : Created g o' kind mutation ws bare' full' sets') (named : o'.kind = o.kind)
    (perm : o'.entries.Perm o.entries) (free : ws.node? ⟨ws.nextNumber⟩ = none) :
    full.same full' = true := by
  -- Both nodes have one kind and one state; their fields agree by name, and so do the shapes
  -- derived from them.
  have variant := created.retouched.variant
  have variant' := created'.retouched.variant
  have between : full.Variant full' :=
    ⟨created'.fresh.id_eq.trans created.fresh.id_eq.symm,
      ((variant'.kind.trans created'.made.kind).trans named).trans
        (variant.kind.trans created.made.kind).symm,
      (variant'.mutation.trans created'.made.mutation).trans
        (variant.mutation.trans created.made.mutation).symm,
      variant.detached', variant'.detached'⟩
  -- The shape depends on the fields, but not on their order.
  have fields : full.fields.Same full'.fields := by
    rw [created.filled, created'.filled]
    exact BlockOption.same_filled perm kind
  have shapes : ws.shapeOf full = ws.shapeOf full' :=
    Workspace.shapeOf_congr between.kind.symm between.mutation.symm fields rfl fun _ _ => rfl
  have connectors : full'.connectors = full.connectors := by
    rw [created.current free, created'.current free] at shapes
    exact (Except.ok.inj shapes).symm
  have alike : full.Alike ⟨True, False, True⟩ full' :=
    between.alike ⟨fields, False.elim⟩ connectors
  exact alike.same

end Created

/-- The node of an option can be created exactly if its structural state can be read, its kind is
known, and the next number is free. -/
theorem instantiate_ok_iff (o : BlockOption) (d : Draft) :
    (∃ id, ((instantiate o).on d).1 = .ok id) ↔
      (∃ mutation, Mutation.ofExtraState o.extraState = .ok mutation) ∧
        (∃ kind, BlockKind.ofName? o.kind = some kind) ∧
        d.canvas.workspace.node? ⟨d.canvas.workspace.nextNumber⟩ = none := by
  -- One case for each way to fail: a state that cannot be read, a kind that does not exist, a
  -- number that is taken.
  have outcome := on_instantiate ⟨True, True, True⟩ o d
  revert outcome
  cases Mutation.ofExtraState o.extraState with
  | error e =>
    intro refused
    simp [refused]
  | ok mutation =>
    cases BlockKind.ofName? o.kind with
    | none =>
      intro refused
      simp [refused]
    | some kind =>
      cases d.canvas.workspace.node? ⟨d.canvas.workspace.nextNumber⟩ with
      | some other =>
        intro refused
        simp [refused]
      | none =>
        rintro ⟨bare, full, sets, -, made⟩
        simp [made]

/-- A node that is created is what the option describes, and still has the shape that it derives
when it is in the graph. -/
theorem instantiate_describes {o : BlockOption} {d : Draft} {id : NodeId}
    (made : ((instantiate o).on d).1 = .ok id) :
    ∃ n, ((instantiate o).on d).2.canvas.workspace.node? id = some n ∧
      o.Describes d.canvas.workspace n ∧
      ((instantiate o).on d).2.canvas.workspace.Current n := by
  obtain ⟨⟨mutation, read⟩, ⟨kind, known⟩, free⟩ := (instantiate_ok_iff o d).mp ⟨id, made⟩
  have outcome := on_instantiate ⟨True, True, True⟩ o d
  rw [read, known, free] at outcome
  obtain ⟨bare, full, sets, created, done⟩ := outcome
  rw [done] at made ⊢
  cases made
  refine ⟨full, Workspace.Fresh.found full, created.describes known read free, ?_⟩
  -- The node itself declares nothing that its own shape depends on.
  have absent : d.canvas.workspace.counted.node? full.id = none := created.fresh.id_eq ▸ free
  rw [Workspace.Current, Workspace.shapeOf_added absent rfl]
  exact created.current free

/-- The order in which an option gives its values changes neither the outcome nor the nodes that the
graph has then. -/
theorem instantiate_reordered {o o' : BlockOption} (named : o'.kind = o.kind)
    (state : o'.extraState = o.extraState) (perm : o'.entries.Perm o.entries) (d : Draft) :
    ((instantiate o').on d).1 = ((instantiate o).on d).1 ∧
      ((instantiate o).on d).2.canvas.workspace.SameNodes
        ((instantiate o').on d).2.canvas.workspace := by
  have outcome := on_instantiate ⟨True, True, True⟩ o d
  have outcome' := on_instantiate ⟨True, True, True⟩ o' d
  rw [named, state] at outcome'
  revert outcome outcome'
  -- Refusals come before any value is set.
  cases Mutation.ofExtraState o.extraState with
  | error e =>
    intro refused refused'
    rw [refused, refused']
    exact ⟨rfl, .refl _⟩
  | ok mutation =>
    cases BlockKind.ofName? o.kind with
    | none =>
      intro refused refused'
      rw [refused, refused']
      exact ⟨rfl, .refl _⟩
    | some kind =>
      cases free : d.canvas.workspace.node? ⟨d.canvas.workspace.nextNumber⟩ with
      | some other =>
        intro refused refused'
        rw [refused, refused']
        exact ⟨rfl, .refl _⟩
      | none =>
        -- Both nodes have the next number, and their presets end in the same values.
        rintro ⟨bare, full, sets, created, made⟩ ⟨bare', full', sets', created', made'⟩
        have own : full.id = full'.id := created.fresh.id_eq.trans created'.fresh.id_eq.symm
        rw [made, made']
        exact ⟨congrArg Except.ok own.symm,
          .added (created.same created' named perm free) own d.canvas.workspace.counted⟩

/-- In every graph, to build the block that an option stands for and to create the node of the
option is one and the same: either both are refused for the same reason, or both make the node
under the same number, and in either case they leave the same graph. It succeeds exactly if the
structural state can be read, the kind is known and the next number is free. The node then has the
default fields of its kind, overridden by the given ones, and the shape derived from them; and in
whatever order the values are given, the outcome is the same and so are the nodes, up to the order
of their fields. -/
theorem instantiate_as_append (o : BlockOption) (label : Option String)
    (labels : OrderedMap String NodeId) (d : Draft) :
    let before := d.canvas.workspace
    let built := before.append labels (o.block label)
    let created := (instantiate o).on d
    let after := created.2.canvas.workspace
    (built.1 = created.1 ∧ built.2.workspace = after) ∧
      ((∃ id, created.1 = .ok id) ↔
        (∃ mutation, Mutation.ofExtraState o.extraState = .ok mutation) ∧
          (∃ kind, BlockKind.ofName? o.kind = some kind) ∧
          before.node? ⟨before.nextNumber⟩ = none) ∧
      (∀ id, created.1 = .ok id → ∃ n, after.node? id = some n ∧ o.Describes before n ∧
        after.Current n) ∧
      ∀ o' : BlockOption, o'.kind = o.kind → o'.extraState = o.extraState →
        o'.entries.Perm o.entries →
          ((instantiate o').on d).1 = created.1 ∧
            after.SameNodes ((instantiate o').on d).2.canvas.workspace := by
  -- Building the block and making the node take the same steps on the graph, one with labels and
  -- the other with a log beside it.
  refine ⟨?_, instantiate_ok_iff o d, fun id => instantiate_describes, ?_⟩
  · exact Assembly.matches_append o label ⟨d.canvas.workspace, labels⟩ d rfl
  · exact fun o' named state perm => instantiate_reordered named state perm d

/-- A call of a procedure that is declared with one argument has one input, whether the call is
entered or built, and whichever of its two values is set first. -/
theorem instantiate_as_append_call :
    let definition : Block := ⟨"procedures_defnoreturn", none, .ofList [("NAME", .string "foo")],
      some "<mutation><arg name=\"x\"></arg></mutation>", [], none⟩
    let ws := ((Workspace.empty ∅).append ∅ definition).2.workspace
    let o : BlockOption := ⟨"procedures_callnoreturn", "call foo",
      some (.ofList [("NOTE", "n"), ("PROCNAME", "foo")]), none⟩
    let o' : BlockOption := { o with fields := some (.ofList [("PROCNAME", "foo"), ("NOTE", "n")]) }
    let built := ws.append ∅ (o.block none)
    let created := (instantiate o).on (.start ⟨ws, none⟩)
    let created' := (instantiate o').on (.start ⟨ws, none⟩)
    built.1 = .ok ⟨2⟩ ∧ created.1 = .ok ⟨2⟩ ∧ created'.1 = .ok ⟨2⟩ ∧
      built.2.workspace = created.2.canvas.workspace ∧
      created.2.canvas.workspace.SameNodes created'.2.canvas.workspace ∧
      ∃ n, created.2.canvas.workspace.node? ⟨2⟩ = some n ∧ n.field? "NOTE" = some "n" ∧
        n.sockets.map Socket.spec = SocketSpec.numbered "ARG" .any 1 := by
  -- A call with two presets, given in either order, takes its socket from the definition.
  intro definition ws o o'
  have made : ((instantiate o).on (.start ⟨ws, none⟩)).1 = .ok ⟨2⟩ := by decide +kernel
  have arity : ws.surroundings.arity "foo" = 1 := by decide +kernel
  have perm : o'.entries.Perm o.entries := by decide +kernel
  have note : o.entries.lookup "NOTE" = some "n" := by decide +kernel
  have name : o.entries.lookup "PROCNAME" = some "foo" := by decide +kernel
  have known : BlockKind.ofName? o.kind = some .proceduresCallNoReturn := by decide +kernel
  have read : Mutation.ofExtraState o.extraState = .ok .empty := rfl
  have named : o'.kind = o.kind := rfl
  have state : o'.extraState = o.extraState := rfl
  -- Nothing else about the graph or the options counts.
  clear_value ws o' o
  obtain ⟨⟨outcome, graph⟩, -, describes, reordered⟩ :=
    instantiate_as_append o none ∅ (.start ⟨ws, none⟩)
  obtain ⟨outcome', nodes⟩ := reordered o' named state perm
  obtain ⟨n, found, described, -⟩ := describes ⟨2⟩ made
  obtain ⟨kind, known', values, shaped⟩ := described.derived
  cases known.symm.trans known'
  have empty : n.mutation = .empty := Except.ok.inj (described.mutation.symm.trans read)
  have calls : BlockKind.proceduresCallNoReturn.calls? n.fields n.mutation = some "foo" := by
    have field : n.field? "PROCNAME" = some "foo" := by
      rw [values, name]
      rfl
    rw [Node.field?] at field
    rw [BlockKind.calls?, empty, field]
    rfl
  refine ⟨outcome.trans made, made, outcome'.trans made, graph, nodes, n, found, ?_, ?_⟩
  · rw [values, note]
    rfl
  · have sockets : n.sockets.map Socket.spec = _ := congrArg Shape.sockets shaped
    rw [sockets, BlockKind.sockets_of_calls? calls]
    exact congrArg (SocketSpec.numbered "ARG" .any) arity

end Draft

end QuickEntry
