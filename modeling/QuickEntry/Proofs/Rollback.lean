import QuickEntry.Proofs.Edit.Creation
import QuickEntry.Proofs.Edit.Shaped
import QuickEntry.Proofs.Edit.Snapshot

/-! Taking a draft back leaves no trace of the operations in it. -/

namespace QuickEntry

/-- Nodes that are alike are the same. -/
theorem Node.Alike.same {g : Grain} {a b : Node} (alike : a.Alike g b) : a.same b = true := by
  -- The fields are the same, and all else is equal.
  have fields : a.fields.same b.fields = true := alike.fields.same.same
  have mutation : a.mutation.same b.mutation = true := by
    rw [alike.mutation_eq, Mutation.same, OrderedMap.Same.same fun _ => rfl]
    simp
  rw [Node.same, fields, mutation, alike.mutation_eq]
  simpa using alike.rest.symm

/-- Like graphs list the same nodes. -/
theorem Workspace.Alike.snapshot_same {g : Grain} {ws ws' : Workspace} (alike : ws.Alike g ws')
    (linked : ws.Linked) (linked' : ws'.Linked) :
    List.Forall₂ (fun a b => a.same b = true) ws.snapshot ws'.snapshot :=
  -- Snapshots are paired node by node, in the order of their numbers.
  (alike.snapshot linked linked').imp fun a b (same : Node.Alike g a b) => same.same

namespace Draft

/-- What can be done in a draft. -/
inductive Operation where
  | instantiate (o : BlockOption)
  | setField (id : NodeId) (name : String) (value : Option String)
  | attach (child : NodeId) (place : Link)
  | detach (child : NodeId)
  | select (id : Option NodeId)
  | deleteSubtree (id : NodeId)

namespace Operation

/-- Do something in a draft, whatever value comes of it. -/
def attempt : Operation → Attempt Draft Unit
  | instantiate o => do let _ ← Draft.instantiate o
  | setField id name value => Draft.setField id name value
  | attach child place => Draft.attach child place
  | detach child => Draft.detach child
  | select id => Draft.select id
  | deleteSubtree id => Draft.deleteSubtree id

/-- If a field of a call is set whose inputs follow a declaration, the call has the inputs that the
declaration asks for, and all declarations of the procedure have equally many arguments if the order
of nodes is loose. -/
def Settled (loose : Prop) (ws : Workspace) : Operation → Prop
  | setField id _ _ => ∀ n name, ws.node? id = some n → n.calls? = some name →
    ws.Current n ∧ (loose → ws.AgreeOn name)
  | _ => True

end Operation

/-- A draft after some operations, each of which may be refused, also when it is half done. -/
def after (d : Draft) : List Operation → Draft
  | [] => d
  | operation :: rest => (operation.attempt.on d).2.after rest

/-- Operations may be made in two parts. -/
theorem after_append (operations others : List Operation) :
    ∀ d : Draft, d.after (operations ++ others) = (d.after operations).after others := by
  -- By induction on the first operations.
  induction operations with
  | nil => exact fun d => rfl
  | cons operation rest ih => exact fun d => ih _

/-- Fields of calls are set only where that is settled. -/
def Settled (loose : Prop) (d : Draft) : List Operation → Prop
  | [] => True
  | operation :: rest =>
    operation.Settled loose d.canvas.workspace ∧ (operation.attempt.on d).2.Settled loose rest

/-- The grain of a draft: the order of fields may change, and so may the order of nodes if it is
loose, but not the selection. -/
def Operation.grain (loose : Prop) : Grain := ⟨¬loose, False, True⟩

variable {loose : Prop} {start : Canvas} {d : Draft}

/-- A draft stays traced when a field is set of a node that has the shape that it derives. -/
theorem Traced.setField {g : Grain} (traced : Traced g False start d) (mixed : ¬g.fieldOrder)
    {id : NodeId}
    (steady : ∀ {n}, d.canvas.workspace.node? id = some n → d.canvas.workspace.Steady g n)
    (name : String) (value : Option String) :
    Traced g False start ((Draft.setField id name value).on d).2 := by
  rw [Draft.setField, on_record, Canvas.on_setField]
  cases set : d.canvas.workspace.setField id name value with
  | error e => exact traced
  | ok result =>
    obtain ⟨old, ws⟩ := result
    obtain ⟨n, _, found, _⟩ := Workspace.of_setField set
    -- The old value can be put back, if not in its old place.
    have back : g.Fields ((n.fields.put name value).put name (n.field? name)) n.fields :=
      ⟨OrderedMap.same_put_put n.fields name value, fun ordered => absurd ordered mixed⟩
    exact traced.turn (.changed (by simp) traced.wf.toLinked found (steady found) back set)
      (traced.wf.setField set)

/-- Every operation keeps a draft traced, if it is settled in a shaped graph. -/
theorem Traced.operation (traced : Traced (Operation.grain loose) False start d)
    (shaped : d.canvas.workspace.Shaped) {operation : Operation}
    (settled : operation.Settled loose d.canvas.workspace)
    (loosens : ∀ id, operation = .deleteSubtree id → loose) :
    Traced (Operation.grain loose) False start (operation.attempt.on d).2 := by
  -- One case per operation. Only setting a field asks how the node stands to the definition that it
  -- calls. Nodes that call nothing have the shape that they derive.
  cases operation with
  | instantiate o =>
    rw [Operation.attempt, Attempt.on_ignored]
    have created := traces_instantiate o d ⟨traced, False.elim⟩
    revert created
    cases (Draft.instantiate o).on d with
    | mk outcome next => cases outcome <;> exact id
  | setField id name value =>
    refine traced.setField False.elim ?_ name value
    intro n found
    cases calls : n.calls? with
    | none => exact ⟨shaped.current found calls, fun called => nomatch calls.symm.trans called⟩
    | some called =>
      obtain ⟨current, agree⟩ := settled n called found calls
      refine ⟨current, fun {name} same => ?_⟩
      cases calls.symm.trans same
      by_cases free : loose
      · exact .inr (agree free)
      · exact .inl free
  | attach child place => exact (keeps_attach traces_move child place).on traced
  | detach child => exact (traces_move child none).on traced
  | select id => exact (traces_select id).on traced
  | deleteSubtree id =>
    have loosened : ¬(Operation.grain loose).nodeOrder := fun ordered => ordered (loosens id rfl)
    exact (keeps_deleteSubtree traces_move traces_select (traces_delete loosened) id).on traced

/-- Every operation keeps a property of graphs that building keeps. -/
theorem Operation.keeps {P : Workspace → Prop} (inv : Workspace.BuildInvariant P)
    (operation : Operation) : operation.attempt.Keeps fun d => P d.canvas.workspace := by
  -- Operations are made of changes that building is made of.
  cases operation with
  | instantiate o => exact (inv.instantiate o).bind fun _ => Attempt.keeps_pure ()
  | setField id name value => exact keeps_record (inv.setFieldOnCanvas id name value)
  | attach child place => exact keeps_attach inv.moveInDraft child place
  | detach child => exact inv.moveInDraft child none
  | select id => exact keeps_select id
  | deleteSubtree id => exact inv.deleteSubtree id

/-- What every operation keeps holds after any operations. -/
theorem keeps_after {Q : Draft → Prop}
    (keeps : ∀ operation : Operation, operation.attempt.Keeps Q) (operations : List Operation) :
    ∀ d : Draft, Q d → Q (d.after operations) := by
  -- By induction on the operations, each of which may fail.
  induction operations with
  | nil => exact fun d holds => holds
  | cons operation rest ih => exact fun d holds => ih _ ((keeps operation).on holds)

/-- What all changes of a graph keep holds after any operations are taken back. -/
theorem holds_rollback {P : Workspace → Prop} (inv : Workspace.Invariant P)
    (operations : List Operation) (c : Canvas) (holds : P c.workspace) :
    P ((Draft.start c).after operations).rollback.workspace :=
  -- The operations keep the property, and so does the reversal of what they recorded.
  (inv.revert _).on (keeps_after (Operation.keeps inv.toBuildInvariant) operations (.start c) holds)

/-- All operations together keep a draft traced, if they are settled in a graph of derived shapes and
the order of nodes is loose wherever something is deleted. -/
theorem Traced.after {database : ComponentDatabase} (operations : List Operation) :
    ∀ {d : Draft}, Traced (Operation.grain loose) False start d →
      d.canvas.workspace.Derives database → d.Settled loose operations →
      (∀ id, .deleteSubtree id ∈ operations → loose) →
      Traced (Operation.grain loose) False start (d.after operations) := by
  -- The operations are made one after the other.
  induction operations with
  | nil => exact fun traced _ _ _ => traced
  | cons operation rest ih =>
    intro d traced derives settled loosens
    have first := traced.operation derives.shaped settled.1 fun id same =>
      loosens id (by simp [same])
    have kept := (operation.keeps (Workspace.buildInvariant_derives database)).on derives
    exact ih first kept settled.2 fun id member => loosens id (by simp [member])

/-- In every graph built from blocks, with every selection, after any operations in a draft, each of
them made or refused, taking the draft back leads to the nodes and the selection with which it
started. Fields may be set of a call whose inputs follow a declaration only while it has these
inputs and, if the operations delete something, all declarations of its procedure have equally many
arguments. -/
theorem rollback_restores {database : ComponentDatabase} {ws : Workspace}
    (built : Workspace.Built database ws) (selection : Option NodeId) {operations : List Operation}
    (settled : (Draft.start ⟨ws, selection⟩).Settled (∃ id, .deleteSubtree id ∈ operations)
      operations) :
    let back := ((Draft.start ⟨ws, selection⟩).after operations).rollback
    List.Forall₂ (fun a b => a.same b = true) ws.snapshot back.workspace.snapshot ∧
      back.selection = selection := by
  -- The log is a trail, which is reverted.
  have traced := Traced.after operations (d := .start ⟨ws, selection⟩)
    (traced_start built.wellFormed) built.derives settled fun id member => ⟨id, member⟩
  obtain ⟨alike, wf⟩ := traced.rollback
  exact ⟨alike.workspace.snapshot_same built.wellFormed.toLinked wf.toLinked,
    (alike.selection trivial).symm⟩

/-- A call of an undeclared procedure is restored after one of its fields was set and the call was
deleted. -/
theorem rollback_restores_call :
    let call : Block :=
      ⟨"procedures_callnoreturn", none, .ofList [("PROCNAME", .string "foo")], none, [], none⟩
    let ws := ((Workspace.empty ∅).append ∅ call).2.workspace
    let back := ((Draft.start ⟨ws, some ⟨1⟩⟩).after
      [.setField ⟨1⟩ "X" (some "1"), .deleteSubtree ⟨1⟩]).rollback
    List.Forall₂ (fun a b => a.same b = true) ws.snapshot back.workspace.snapshot ∧
      back.selection = some ⟨1⟩ := by
  -- A field of a call is set and the call deleted; both come back.
  intro call
  refine rollback_restores (Workspace.Built.empty.append ∅ call) (some ⟨1⟩) ⟨?_, trivial, trivial⟩
  intro n name found _
  cases found
  refine ⟨by rfl, fun _ a inside => ?_⟩
  cases inside

section SingleField

variable {c : Canvas} {id : NodeId} {n : Node} {name : String} {value : Option String}

/-- Setting a field and taking it back, as far as that is possible, leaves the node with the shape
that it derives. -/
theorem rollback_setField (wf : c.workspace.WellFormed) (found : c.workspace.node? id = some n)
    (set : (Draft.setField id name value).on (.start c) = (.ok (), d)) :
    d.rollback.workspace.WellFormed ∧ ∃ m, d.rollback.workspace.node? id = some m ∧
      m.kind = n.kind ∧ m.mutation = n.mutation ∧ c.workspace.Current m := by
  -- The field was set, so the node has the shape that it derives, and so it has after the reversal
  -- if this succeeds.
  rw [Draft.setField, on_record, Canvas.on_setField, Draft.start] at set
  cases made : c.workspace.setField id name value with
  | error e =>
    rw [made] at set
    cases set
  | ok result =>
    obtain ⟨old, ws⟩ := result
    rw [made] at set
    cases set
    have wf' : ws.WellFormed := wf.setField made
    obtain ⟨m, there, kind, mutation, current, steady⟩ :=
      Workspace.current_of_setField found made
    -- The field is set back, or that is refused and the node stays changed.
    have reverted := Canvas.on_revert_field id name old value ⟨ws, c.selection⟩
    rw [rollback, command, List.reverse_singleton, reverted]
    cases back : ws.setField id name old with
    | error e => exact ⟨wf', m, there, kind, mutation, current⟩
    | ok result =>
      obtain ⟨was, ws'⟩ := result
      obtain ⟨m', there', kind', mutation', current', _⟩ :=
        Workspace.current_of_setField there back
      refine ⟨wf'.setField back, m', there', kind'.trans kind, mutation'.trans mutation, ?_⟩
      exact (steady (kind'.trans kind)).symm.trans current'

/-- A field that was set is taken back without a trace exactly if the node had the shape that it
derives. -/
theorem rollback_setField_iff (wf : c.workspace.WellFormed)
    (found : c.workspace.node? id = some n)
    (set : (Draft.setField id name value).on (.start c) = (.ok (), d)) :
    List.Forall₂ (fun a b => a.same b = true) c.workspace.snapshot d.rollback.workspace.snapshot ↔
      c.workspace.Current n := by
  constructor
  · intro same
    obtain ⟨wf', m, there, kind, mutation, current⟩ := rollback_setField wf found set
    -- The node that is listed at its place is the one that derives its shape.
    obtain ⟨place, inside, listed⟩ := List.getElem_of_mem (Workspace.mem_snapshot found)
    have inside' := same.length_eq ▸ inside
    have alike := same.get inside inside'
    rw [List.get_eq_getElem, listed] at alike
    obtain ⟨fields, _, _, rest⟩ := Node.of_same alike
    have there' := wf'.toLinked.node?_of_mem (List.get_mem _ ⟨place, inside'⟩)
    rw [← rest, wf.toLinked.own found] at there'
    cases there.symm.trans there'
    refine Eq.trans ?_ current
    exact Workspace.shapeOf_congr kind.symm mutation.symm fields rfl fun _ _ => rfl
  · intro current
    -- The order of nodes does not change.
    have steady : ∀ {m}, c.workspace.node? id = some m →
        c.workspace.Steady (Operation.grain False) m := by
      intro m there
      cases found.symm.trans there
      exact ⟨current, fun _ => .inl False.elim⟩
    have traced := (traced_start wf).setField False.elim steady name value
    rw [set] at traced
    obtain ⟨alike, wf'⟩ := traced.rollback
    exact alike.workspace.snapshot_same wf.toLinked wf'.toLinked

end SingleField

end Draft

end QuickEntry
