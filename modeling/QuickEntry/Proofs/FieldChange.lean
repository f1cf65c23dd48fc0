import QuickEntry.Proofs.Reachable

/-! A change of a field never costs a connection, and is refused only if it would. -/

namespace QuickEntry

namespace Workspace

variable {ws ws' : Workspace} {id : NodeId} {n : Node} {shape : Shape}

/-- What a socket holds finds a socket of the same name and kind in a shape, and one that accepts
its output if it is an expression. -/
def HasLike (ws : Workspace) (shape : Shape) (s : Socket) : Prop :=
  -- Statements show every socket the same connector.
  ∀ child c, s.target = some child → ws.node? child = some c →
    ∃ spec ∈ shape.sockets, spec.name = s.name ∧ spec.kind = s.kind ∧
      (spec.kind = .value → ∃ output, c.output = some output ∧ spec.check.accepts output = true)

/-- The place of a node takes a shape: a socket for expressions accepts its output, and every other
place finds a connector before it. -/
def PlaceTakes (ws : Workspace) (n : Node) (shape : Shape) : Prop :=
  -- A node on its own has no place that could refuse it.
  ∀ place holder, n.parent = some place → ws.node? place.holder = some holder →
    match place with
    | .next _ => shape.hasPrevious = true
    | .socket _ name => ∃ slot, holder.socket? name = some slot ∧
      match slot.kind with
      | .value => ∃ output, shape.output = some output ∧ slot.check.accepts output = true
      | .statement => shape.hasPrevious = true

/-- Every connection of a node stays valid when the node takes on a shape. -/
structure Retains (ws : Workspace) (n : Node) (shape : Shape) : Prop where
  sockets : ∀ s ∈ n.sockets, ws.HasLike shape s
  follower : n.next.isSome = true → shape.hasNext = true
  place : ws.PlaceTakes n shape

/-- A socket passes the check before a change of shape exactly if what it holds finds its like. -/
theorem keepsChild_iff_hasLike (linked : ws.Linked) (found : ws.node? id = some n)
    (distinct : shape.Distinct) {s : Socket} (member : s ∈ n.sockets) :
    ws.keepsChild shape s = true ↔ ws.HasLike shape s := by
  have hangs : ws.Hangs id n n := ⟨found, rfl, rfl, rfl⟩
  -- A socket that is not for statements is for expressions.
  have kinds : ∀ (spec : SocketSpec) (c : Node),
      (spec.kind = .statement ∨ c.output.any spec.check.accepts = true) ↔
        (spec.kind = .value → ∃ output, c.output = some output ∧
          spec.check.accepts output = true) := by
    intro spec c
    rw [Option.any_eq_true]
    cases spec.kind <;> simp
  constructor
  · intro kept child c held known
    simpa only [kinds] using (keepsChild_iff distinct held known).mp kept
  · intro like
    cases held : s.target with
    | none => simp [keepsChild, held]
    | some child =>
      obtain ⟨c, known, _⟩ := hangs.taken linked member held
      exact (keepsChild_iff distinct held known).mpr
        (by simpa only [kinds] using like child c held known)

/-- The place of a node passes the check before a change of shape exactly if it takes the shape. -/
theorem keepsParent_iff_placeTakes (linked : ws.Linked) (found : ws.node? id = some n) :
    ws.keepsParent n shape = true ↔ ws.PlaceTakes n shape := by
  -- The place admitted the node before, so only what the new shape changes has to be asked again.
  have hangs : ws.Hangs id n n := ⟨found, rfl, rfl, rfl⟩
  rw [keepsParent_iff linked hangs]
  refine forall₂_congr fun place holder => forall₂_congr fun placed offered => ?_
  have before := linked.admitted found placed offered
  cases place with
  | next previous => exact and_iff_right before.1
  | socket parent name =>
    refine exists_congr fun slot => and_congr_right fun _ => ?_
    cases kind : slot.kind with
    | value => exact Socket.obstacle_value kind
    | statement => exact Socket.obstacle_statement kind

/-- The check before a change of shape passes exactly if every connection stays valid. -/
theorem keepsConnections_iff_retains (linked : ws.Linked) (found : ws.node? id = some n)
    (distinct : shape.Distinct) : ws.keepsConnections n shape = true ↔ ws.Retains n shape := by
  -- Each of the three tests says one part of what is retained.
  have children : (∀ s ∈ n.sockets, ws.keepsChild shape s = true) ↔
      ∀ s ∈ n.sockets, ws.HasLike shape s :=
    forall₂_congr fun s member => keepsChild_iff_hasLike linked found distinct member
  have follower : (n.next.isNone || shape.hasNext) = true ↔
      (n.next.isSome = true → shape.hasNext = true) := by
    cases n.next <;> simp
  rw [keepsConnections, Bool.and_eq_true, Bool.and_eq_true, List.all_eq_true, children, follower,
    keepsParent_iff_placeTakes linked found]
  constructor
  · rintro ⟨⟨sockets, next⟩, place⟩
    exact ⟨sockets, next, place⟩
  · rintro ⟨sockets, next, place⟩
    exact ⟨⟨sockets, next⟩, place⟩

/-- A field is set exactly if the node is there, is of a known kind, and keeps its connections valid
under the shape that it derives with the field. -/
theorem setField_eq_ok_iff_retains (linked : ws.Linked) {name : String}
    {value old : Option String} :
    ws.setField id name value = .ok (old, ws') ↔ ∃ n kind, ws.node? id = some n ∧
      BlockKind.ofName? n.kind = some kind ∧
      ws.Retains n (kind.shape (n.fields.put name value) n.mutation ws.surroundings) ∧
      old = n.field? name ∧ ws' = ws.replaced id ((n.withField name value).reshape
        (kind.shape (n.fields.put name value) n.mutation ws.surroundings)) := by
  -- A shape is derived exactly for a known kind, and the rest is how the connections are checked.
  rw [setField_eq_ok_iff linked]
  -- The connections are those of the node with its old field.
  have checked : ∀ {n shape}, ws.node? id = some n →
      ws.shapeOf (n.withField name value) = .ok shape →
        (ws.KeepsLinks id (n.withField name value) shape ↔ ws.Retains n shape) := by
    intro n shape found derived
    have distinct := distinct_of_shapeOf derived
    rw [← keepsConnections_iff linked (hangs_withField found name value) distinct]
    exact keepsConnections_iff_retains linked found distinct
  constructor
  · rintro ⟨n, shape, found, derived, keeps, rfl, rfl⟩
    have retains := (checked found derived).mp keeps
    unfold shapeOf at derived
    split at derived
    · rename_i kind known
      cases derived
      exact ⟨n, kind, found, known, retains, rfl, rfl⟩
    · cases derived
  · rintro ⟨n, kind, found, known, retains, rfl, rfl⟩
    have derived : ws.shapeOf (n.withField name value) = .ok
        (kind.shape (n.fields.put name value) n.mutation ws.surroundings) := shapeOf_of_known known
    exact ⟨n, _, found, derived, (checked found derived).mpr retains, rfl, rfl⟩

/-- A node has got other fields and the connectors of a shape, while all links and everything else
in the graph are what they were. -/
structure Refitted (ws : Workspace) (id : NodeId) (n : Node) (fields : OrderedMap String String)
    (shape : Shape) (ws' : Workspace) : Prop where
  node : ∃ m, ws'.node? id = some m ∧ m.fields = fields ∧ m.connectors = shape ∧ m.id = n.id ∧
    m.kind = n.kind ∧ m.mutation = n.mutation ∧ m.next = n.next ∧ m.parent = n.parent
  others : ∀ other, other ≠ id → ws'.node? other = ws.node? other
  keys : ws'.nodes.keys = ws.nodes.keys
  occupants : ∀ place, ws'.occupant? place = ws.occupant? place
  places : ∀ child, ws'.placeOf? child = ws.placeOf? child
  nextNumber : ws'.nextNumber = ws.nextNumber
  components : ws'.components = ws.components
  database : ws'.database = ws.database

/-- Setting a field refits the node. -/
theorem refitted_of_setField (linked : ws.Linked) (found : ws.node? id = some n) {name : String}
    {value old : Option String} (derived : ws.shapeOf (n.withField name value) = .ok shape)
    (set : ws.setField id name value = .ok (old, ws')) :
    ws.Refitted id n (n.fields.put name value) shape ws' := by
  -- Setting the field puts the reshaped node in place of the old one and touches no other.
  obtain ⟨n', shape', found', derived', keeps, rfl, rfl⟩ := (setField_eq_ok_iff linked).mp set
  cases found.symm.trans found'
  cases derived.symm.trans derived'
  have hangs := hangs_withField found name value
  refine ⟨⟨(n.withField name value).reshape shape, ?_, rfl, Node.connectors_reshape _ shape, rfl,
    rfl, rfl, rfl, rfl⟩, fun other apart => ?_, by simp [replaced, modify],
    keeps.occupant?_replaced linked hangs (distinct_of_shapeOf derived),
    placeOf?_replaced hangs shape, rfl, rfl, rfl⟩
  · rw [node?_replaced found, if_pos rfl]
  · rw [node?_replaced found, if_neg apart]

/-- In a well-formed graph, a field is set or removed exactly if the node is there, is of a known
kind, and every connection of it stays valid under the shape that it derives with the field. The
value before is given back then, the node gets the connectors of that shape, and each child is in
the place where it was. Otherwise nothing changes. -/
theorem setField_retains (wf : ws.WellFormed) (id : NodeId) (name : String)
    (value : Option String) :
    let edit : Attempt Workspace (Option String) := .ofStep (Workspace.setField · id name value)
    let derived (n : Node) (kind : BlockKind) : Shape :=
      kind.shape (n.fields.put name value) n.mutation ws.surroundings
    ((∃ old ws', edit.on ws = (.ok old, ws')) ↔ ∃ n kind, ws.node? id = some n ∧
      BlockKind.ofName? n.kind = some kind ∧ ws.Retains n (derived n kind)) ∧
    (∀ old ws', edit.on ws = (.ok old, ws') → ∃ n kind, ws.node? id = some n ∧
      BlockKind.ofName? n.kind = some kind ∧ old = n.field? name ∧
      ws.Refitted id n (n.fields.put name value) (derived n kind) ws' ∧ ws'.WellFormed) ∧
    ∀ e ws', edit.on ws = (.error e, ws') → ws' = ws := by
  -- The field is set exactly if the connections fit the new shape; the rest reads off what is then
  -- put in place.
  intro edit derived
  have linked := wf.toLinked
  have made : ∀ {old ws'}, edit.on ws = (.ok old, ws') ↔
      ws.setField id name value = .ok (old, ws') := by
    intro old ws'
    rw [Attempt.on_ofStep]
    cases ws.setField id name value <;> simp [Prod.ext_iff]
  simp only [made]
  refine ⟨⟨?_, ?_⟩, fun old ws' set => ?_, fun e ws' refused => ?_⟩
  · rintro ⟨old, ws', set⟩
    obtain ⟨n, kind, found, known, retains, _⟩ := (setField_eq_ok_iff_retains linked).mp set
    exact ⟨n, kind, found, known, retains⟩
  · rintro ⟨n, kind, found, known, retains⟩
    exact ⟨_, _, (setField_eq_ok_iff_retains linked).mpr
      ⟨n, kind, found, known, retains, rfl, rfl⟩⟩
  · obtain ⟨n, kind, found, known, _, old, _⟩ := (setField_eq_ok_iff_retains linked).mp set
    exact ⟨n, kind, found, known, old,
      refitted_of_setField linked found (shapeOf_of_known known) set, wf.setField set⟩
  · rw [Attempt.on_ofStep] at refused
    cases set : ws.setField id name value with
    | ok result =>
      rw [set] at refused
      cases refused
    | error e =>
      rw [set] at refused
      cases refused
      rfl

/-- A split keeps the text that it splits at, and so is refused to split at one of several texts. -/
theorem setField_retains_split :
    let text : Block := ⟨"text", none, ∅, none, [], none⟩
    let ws := ((Workspace.empty ∅).append ∅
      ⟨"text_split", none, ∅, none, [("AT", text)], none⟩).2.workspace
    let edit (value : String) : Attempt Workspace (Option String) :=
      .ofStep (Workspace.setField · ⟨1⟩ "OP" (some value))
    (∃ ws', (edit "SPLITATFIRST").on ws = (.ok (some "SPLIT"), ws') ∧
        ws'.occupant? (.socket ⟨1⟩ "AT") = some ⟨2⟩) ∧
      ∃ e, (edit "SPLITATANY").on ws = (.error e, ws) := by
  -- Splitting a text at the first occurrence accepts the text that is plugged in, splitting at any
  -- asks for a list.
  intro text ws edit
  have built : Workspace.Built ∅ ws := Workspace.Built.empty.append ∅ _
  have wf : ws.WellFormed := built.wellFormed
  have held : ws.occupant? (.socket ⟨1⟩ "AT") = some ⟨2⟩ := by decide +kernel
  have made : ((edit "SPLITATFIRST").on ws).1 = .ok (some "SPLIT") := by decide +kernel
  have refused : ((edit "SPLITATANY").on ws).1 = .error (.shapeConflict ⟨1⟩ "OP") := by
    decide +kernel
  constructor
  · obtain ⟨n, kind, _, _, _, refitted, _⟩ :=
      (setField_retains wf ⟨1⟩ "OP" (some "SPLITATFIRST")).2.1 _ _ (Prod.ext made rfl)
    exact ⟨_, Prod.ext made rfl, (refitted.occupants _).trans held⟩
  · have same := (setField_retains wf ⟨1⟩ "OP" (some "SPLITATANY")).2.2 _ _
      (Prod.ext refused rfl)
    exact ⟨_, Prod.ext refused same⟩

end Workspace

end QuickEntry
