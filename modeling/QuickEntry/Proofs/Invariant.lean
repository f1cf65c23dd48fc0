import QuickEntry.Proofs.Attempt
import QuickEntry.Proofs.Edit.Command
import QuickEntry.Proofs.Graph.Change
import QuickEntry.Session

/-! Properties of a graph that every single change keeps, kept by everything that is built from such
changes. -/

namespace QuickEntry

/-- Edits become one step when all of them are made, and are taken back otherwise. -/
theorem Document.on_transact {α : Type} (edits : Attempt Draft α) (d : Document) :
    (transact edits).on d =
      match edits.on (.start d.canvas) with
      | (.ok value, draft) => (.ok value, ⟨draft.canvas, d.history.push draft.command⟩)
      | (.error e, draft) => (.error e, { d with canvas := draft.rollback }) := rfl

/-- A property of graphs that no change costs, as long as nodes are inserted as they are made. -/
structure Workspace.BuildInvariant (P : Workspace → Prop) : Prop where
  make : ∀ {ws ws' kind mutation n}, P ws → ws.make kind mutation = .ok (n, ws') → P ws'
  enter : ∀ {ws made ws' kind mutation n}, P ws → ws.make kind mutation = .ok (n, made) →
    made.insert n = .ok ws' → P ws'
  remove : ∀ {ws ws' id n}, P ws → ws.remove id = .ok (n, ws') → P ws'
  setField : ∀ {ws ws' id name value old}, P ws → ws.setField id name value = .ok (old, ws') → P ws'
  plug : ∀ {ws ws' child place}, P ws → ws.plug child place = .ok ws' → P ws'
  unplug : ∀ {ws ws' child place}, P ws → ws.unplug child = .ok (place, ws') → P ws'

/-- A property of graphs that no change costs, whatever it is made with. -/
structure Workspace.Invariant (P : Workspace → Prop) : Prop extends BuildInvariant P where
  insert : ∀ {ws ws' n}, P ws → ws.insert n = .ok ws' → P ws'
  enter := fun holds made inserted => insert (make holds made) inserted

namespace Assembly

variable {Q : Assembly → Prop}

/-- A change of a graph under construction shows in the graph alone, or is refused. -/
theorem on_change {α : Type} (step : Workspace → Except EditError (α × Workspace)) (a : Assembly) :
    (change step).on a =
      match step a.workspace with
      | .ok (value, ws) => (.ok value, { a with workspace := ws })
      | .error e => (.error e, a) := by
  -- Labels stay what they are.
  rw [change, Attempt.on_ofStep]
  cases step a.workspace <;> rfl

/-- Building blocks keeps what each node, each field and each link keeps. -/
structure Invariant (Q : Assembly → Prop) : Prop where
  addNode : ∀ kind mutation, (addNode kind mutation).Keeps Q
  setFields : ∀ id fields, (setFields id fields).Keeps Q
  plug : ∀ child place, (plug child place).Keeps Q
  remember : ∀ label id, (remember label id).Keeps Q

mutual

/-- Building a block keeps what its parts keep. -/
theorem Invariant.append (inv : Invariant Q) : ∀ block : Block, (append block).Keeps Q
  | ⟨kind, label, fields, extraState, inputs, next⟩ => by
    -- The steps are those of the definition, one after the other.
    rw [Assembly.append]
    refine (Attempt.keeps_ofExcept _).bind fun mutation => ?_
    refine (inv.addNode kind mutation).bind fun id => ?_
    refine (inv.setFields id fields.entries).bind fun _ => ?_
    refine (inv.appendInputs id inputs).bind fun _ => ?_
    refine (inv.appendNext id next).bind fun _ => ?_
    exact (inv.remember label id).bind fun _ => Attempt.keeps_pure id

/-- Building the blocks in the inputs keeps what its parts keep. -/
theorem Invariant.appendInputs (inv : Invariant Q) (id : NodeId) :
    ∀ inputs : List (String × Block), (appendInputs id inputs).Keeps Q
  -- Along the list of inputs; each is built and plugged.
  | [] => by
    rw [Assembly.appendInputs]
    exact Attempt.keeps_pure ()
  | (name, block) :: rest => by
    rw [Assembly.appendInputs]
    refine (inv.append block).bind fun child => ?_
    exact (inv.plug child (.socket id name)).bind fun _ => inv.appendInputs id rest

/-- Building the block that follows keeps what its parts keep. -/
theorem Invariant.appendNext (inv : Invariant Q) (id : NodeId) :
    ∀ next : Option Block, (appendNext id next).Keeps Q
  -- A follower is built and plugged, if there is one.
  | none => by
    rw [Assembly.appendNext]
    exact Attempt.keeps_pure ()
  | some block => by
    rw [Assembly.appendNext]
    exact (inv.append block).bind fun child => inv.plug child (.next id)

end

end Assembly

namespace Draft

variable {Q : Draft → Prop}

/-- Looking at the graph keeps every property of a draft. -/
theorem keeps_view {α : Type} (look : Workspace → α) : (view look).Keeps Q :=
  -- Nothing is changed.
  Attempt.keeps_get.bind fun _ => Attempt.keeps_pure _

/-- Attaching a node keeps what moving nodes keeps. -/
theorem keeps_attach (moves : ∀ child target, (move child target).Keeps Q) (child : NodeId)
    (place : Link) : (attach child place).Keeps Q := by
  -- A displaced node leaves the place, the new one takes it, and the other one goes behind.
  refine (keeps_view _).bind fun displaced => ?_
  refine (Attempt.keeps_forM_option fun node _ => moves node none).bind fun _ => ?_
  refine (moves child (some place)).bind fun _ => ?_
  refine Attempt.keeps_forM_option fun node _ => ?_
  refine (keeps_view _).bind fun tail => ?_
  refine (keeps_view _).bind fun _ => (keeps_view _).bind fun _ => ?_
  split
  · exact moves node (some (.next tail))
  · exact Attempt.keeps_pure _

/-- Deleting a node of a subtree keeps what moving and deleting nodes keep. -/
theorem keeps_discard (moves : ∀ child target, (move child target).Keeps Q)
    (deletes : ∀ id, (record (Canvas.delete id)).Keeps Q) (top member : NodeId) :
    (discard top member).Keeps Q := by
  -- The top alone is not moved before.
  unfold discard
  dsimp only
  split
  · exact (moves member none).bind fun _ => deletes member
  · exact deletes member

/-- Deleting a subtree keeps what moving, selecting and deleting nodes keep. -/
theorem keeps_deleteSubtree (moves : ∀ child target, (move child target).Keeps Q)
    (selects : ∀ id, (select id).Keeps Q)
    (deletes : ∀ id, (record (Canvas.delete id)).Keeps Q) (id : NodeId) :
    (deleteSubtree id).Keeps Q := by
  -- Nodes are moved, and those that are loose are deleted.
  refine Attempt.keeps_get.bind fun d => (Attempt.keeps_ofExcept _).bind fun node => ?_
  refine (keeps_view _).bind fun doomed => Attempt.keeps_get.bind fun d => ?_
  have excises : (excise id node doomed).Keeps Q := by
    refine (Attempt.keeps_forM_option fun node _ => moves node none).bind fun _ => ?_
    refine (Attempt.keeps_forM_option fun _ _ => moves id none).bind fun _ => ?_
    refine (Attempt.keeps_forM fun member _ => keeps_discard moves deletes id member).bind
      fun _ => ?_
    exact Attempt.keeps_forM_option fun follower _ =>
      Attempt.keeps_forM_option fun place _ => moves follower (some place)
  split
  · exact (selects none).bind fun _ => excises
  · exact excises

/-- Inserting the node of an option ensures what its creation ensures and moving and selecting
keep. -/
theorem ensures_insertion {before refused : Draft → Prop} {o : BlockOption}
    (creates : (instantiate o).Ensures before (fun _ => Q) refused)
    (moves : ∀ child target, (move child target).Keeps Q) (selects : ∀ id, (select id).Keeps Q)
    (weaker : ∀ d, Q d → refused d) (selected : Option NodeId) (reach : Reach) :
    (Session.insertion o selected reach).Ensures before (fun _ => Q) refused := by
  -- The node is created, attached and selected.
  refine creates.bind fun node => ?_
  have places : (do
      let attachment ← Draft.view (·.placeFor? node selected reach)
      attachment.forM fun a => Draft.attach node a.place
      Draft.select (some node)
      return ⟨node, attachment⟩ : Attempt Draft Insertion).Keeps Q := by
    refine (keeps_view _).bind fun attachment => ?_
    refine (Attempt.keeps_forM_option fun a _ => keeps_attach moves node a.place).bind fun _ => ?_
    exact (selects (some node)).bind fun _ => Attempt.keeps_pure _
  exact places.mono (fun _ => id) (fun _ _ => id) weaker

end Draft

namespace Canvas

variable {P : Workspace → Prop}

/-- A change of the graph alone keeps the property of the graph on a canvas. -/
theorem keeps_onWorkspace {α : Type} {attempt : Attempt Workspace α} (keeps : attempt.Keeps P) :
    (onWorkspace attempt).Keeps fun c => P c.workspace :=
  -- The graph is a part of the canvas.
  keeps.within fun _ _ => rfl

/-- Selecting keeps every property of the graph. -/
theorem keeps_select (id : Option NodeId) : (select id).Keeps fun c => P c.workspace :=
  -- The selection is beside the graph.
  fun _ holds => holds

end Canvas

namespace Draft

variable {P : Workspace → Prop}

/-- Making and logging an edit keeps what the edit keeps. -/
theorem keeps_record {edit : Attempt Canvas Command} (keeps : edit.Keeps fun c => P c.workspace) :
    (record edit).Keeps fun d => P d.canvas.workspace := by
  -- The log is no part of the canvas.
  refine Attempt.Keeps.bind (keeps.within fun _ _ => rfl) fun command => ?_
  exact Attempt.keeps_modify fun _ holds => holds

/-- Selecting in a draft keeps every property of the graph. -/
theorem keeps_select (id : Option NodeId) : (select id).Keeps fun d => P d.canvas.workspace := by
  -- What is selected already is not selected again.
  refine Attempt.keeps_get.bind fun d => ?_
  split
  · exact keeps_record (Canvas.keeps_select id)
  · exact Attempt.keeps_pure _

end Draft

namespace Workspace.BuildInvariant

variable {P : Workspace → Prop}

/-- Changes of a graph under construction keep a property of the graph. -/
theorem keeps_change {α : Type} {step : Workspace → Except EditError (α × Workspace)}
    (steps : ∀ ws value ws', P ws → step ws = .ok (value, ws') → P ws') :
    (Assembly.change step).Keeps fun a => P a.workspace := by
  -- A step that is made changes the graph alone.
  intro a holds
  rw [Assembly.on_change]
  cases stepped : step a.workspace with
  | error e => exact holds
  | ok result => exact steps _ _ _ holds stepped

/-- Every single change of building keeps the property. -/
theorem assembly (inv : BuildInvariant P) : Assembly.Invariant fun a => P a.workspace where
  addNode kind mutation := by
    -- The node that is inserted is the one that was made.
    intro a holds
    rw [Assembly.addNode, Attempt.on_bind, Assembly.on_change]
    cases made : a.workspace.make kind mutation with
    | error e => exact holds
    | ok result =>
      obtain ⟨node, ws⟩ := result
      simp only [Attempt.on_bind, Assembly.on_change]
      cases inserted : ws.insert node with
      | error e => exact inv.make holds made
      | ok next => exact inv.enter holds made inserted
  setFields id fields := by
    refine Attempt.keeps_forM fun field _ => ?_
    exact (keeps_change fun ws old ws' => inv.setField).bind fun _ => Attempt.keeps_pure ()
  plug child place := by
    refine keeps_change fun ws value ws' holds plugged => ?_
    obtain ⟨next, made, same⟩ := Attempt.map_eq_ok_iff.mp plugged
    cases same
    exact inv.plug holds made
  remember label id := Attempt.keeps_modify fun _ holds => holds

/-- Building a block keeps the property, also if it fails half-way. -/
theorem append (inv : BuildInvariant P) {ws : Workspace} (holds : P ws)
    (labels : OrderedMap String NodeId) (block : Block) :
    P (ws.append labels block).2.workspace :=
  -- The builder is made of single steps on the graph.
  (inv.assembly.append block).on (show (fun a : Assembly => P a.workspace) ⟨ws, labels⟩ from holds)

/-- Moving a node keeps the property, also if the node is refused and goes back. -/
theorem move (inv : BuildInvariant P) (child : NodeId) (target : Option Link) :
    (Workspace.move child target).Keeps P := by
  -- Both plugging in and putting back plug the node somewhere.
  have puts : ∀ place : Link, (Attempt.ofUpdate (Workspace.plug · child place)).Keeps P :=
    fun place => Attempt.keeps_ofUpdate fun ws next => inv.plug
  refine (Attempt.keeps_ofStep fun ws place next => inv.unplug).bind fun source => ?_
  refine Attempt.Keeps.bind ?_ fun _ => Attempt.keeps_pure source
  exact (Attempt.keeps_forM_option fun place _ => puts place).orAfter
    (Attempt.keeps_forM_option fun place _ => puts place)

/-- Deleting a node keeps the property. -/
theorem delete (inv : BuildInvariant P) (id : NodeId) :
    (Canvas.delete id).Keeps fun c => P c.workspace :=
  -- One step on the graph, after which the command is returned.
  (Canvas.keeps_onWorkspace (Attempt.keeps_ofStep fun _ _ _ => inv.remove)).bind fun _ =>
    Attempt.keeps_pure _

/-- Setting a field keeps the property. -/
theorem setFieldOnCanvas (inv : BuildInvariant P) (id : NodeId) (name : String)
    (value : Option String) : (Canvas.setField id name value).Keeps fun c => P c.workspace :=
  -- One step on the graph, after which the command is returned.
  (Canvas.keeps_onWorkspace (Attempt.keeps_ofStep fun _ _ _ => inv.setField)).bind fun _ =>
    Attempt.keeps_pure _

/-- Moving a node on a canvas keeps the property. -/
theorem moveOnCanvas (inv : BuildInvariant P) (child : NodeId) (target : Option Link) :
    (Canvas.move child target).Keeps fun c => P c.workspace :=
  -- One move in the graph, after which the command is returned.
  (Canvas.keeps_onWorkspace (inv.move child target)).bind fun _ => Attempt.keeps_pure _

/-- Moving a node in a draft keeps the property. -/
theorem moveInDraft (inv : BuildInvariant P) (child : NodeId) (target : Option Link) :
    (Draft.move child target).Keeps fun d => P d.canvas.workspace := by
  -- A node that is where it should be is left there.
  refine (Draft.keeps_view _).bind fun node => ?_
  split
  · exact Attempt.keeps_pure _
  · exact Draft.keeps_record (inv.moveOnCanvas child target)

/-- Deleting a subtree in a draft keeps the property. -/
theorem deleteSubtree (inv : BuildInvariant P) (id : NodeId) :
    (Draft.deleteSubtree id).Keeps fun d => P d.canvas.workspace :=
  -- A deletion moves, selects and deletes.
  Draft.keeps_deleteSubtree inv.moveInDraft Draft.keeps_select
    (fun id => Draft.keeps_record (inv.delete id)) id

/-- Creating the node of an option keeps the property. -/
theorem instantiate (inv : BuildInvariant P) (o : BlockOption) :
    (Draft.instantiate o).Keeps fun d => P d.canvas.workspace := by
  -- The node is made, inserted, and given its fields.
  refine (Attempt.keeps_ofExcept _).bind fun mutation => ?_
  have makes : (Draft.make o.kind mutation).Ensures (fun d => P d.canvas.workspace)
      (fun node d => ∃ ws, P ws ∧ ws.make o.kind mutation = .ok (node, d.canvas.workspace))
      fun d => P d.canvas.workspace := by
    intro d holds
    rw [Draft.on_make]
    cases made : d.canvas.workspace.make o.kind mutation with
    | error e => exact holds
    | ok result => exact ⟨d.canvas.workspace, holds, made⟩
  have enters : ∀ node, (Draft.record (Canvas.create node)).Ensures
      (fun d => ∃ ws, P ws ∧ ws.make o.kind mutation = .ok (node, d.canvas.workspace))
      (fun _ d => P d.canvas.workspace) fun d => P d.canvas.workspace := by
    intro node d ⟨ws, holds, made⟩
    rw [Draft.on_record, Canvas.on_create]
    cases inserted : d.canvas.workspace.insert node with
    | error e => exact inv.make holds made
    | ok next => exact inv.enter holds made inserted
  refine makes.bind fun node => (enters node).bind fun _ => ?_
  refine (Attempt.keeps_forM fun field _ => ?_).bind fun _ => Attempt.keeps_pure _
  exact Draft.keeps_record (inv.setFieldOnCanvas node.id field.1 (some field.2))

/-- Inserting the node of an option in a draft keeps the property. -/
theorem insertion (inv : BuildInvariant P) (o : BlockOption) (selected : Option NodeId)
    (reach : Reach) : (Session.insertion o selected reach).Keeps fun d => P d.canvas.workspace :=
  -- An insertion makes the node, moves it and what it displaces, and selects it.
  Draft.ensures_insertion (Q := fun d => P d.canvas.workspace) (inv.instantiate o) inv.moveInDraft
    Draft.keeps_select (fun _ => id) selected reach

end Workspace.BuildInvariant

namespace Workspace.Invariant

variable {P : Workspace → Prop}

/-- Creating a node keeps the property. -/
theorem create (inv : Invariant P) (node : Node) :
    (Canvas.create node).Keeps fun c => P c.workspace :=
  -- One step on the graph, after which the command is returned.
  (Canvas.keeps_onWorkspace (Attempt.keeps_ofUpdate fun _ _ => inv.insert)).bind fun _ =>
    Attempt.keeps_pure _

/-- Reverting commands keeps what reverting each of them keeps. -/
theorem revertEach {Q : Canvas → Prop} {revert : Command → Attempt Canvas Command}
    (keeps : ∀ command, (revert command).Keeps Q) (commands : List Command) :
    ∀ reverted, (Canvas.revertEach revert reverted commands).Keeps Q := by
  -- A refusal makes those again that are reverted, which is reverting once more.
  induction commands with
  | nil => exact fun reverted => Attempt.keeps_pure _
  | cons command rest ih =>
    intro reverted
    have repairs : (reverted.forM fun again => (revert again).regardless).Keeps Q :=
      Attempt.keeps_forM fun again _ => (keeps again).regardless
    exact ((keeps command).orAfter repairs).bind fun again => ih (again :: reverted)

/-- Reverting any command keeps the property, however deep its batches are nested. -/
theorem revertWithin (inv : Invariant P) : ∀ (nesting : Nat) (command : Command),
    (Canvas.revertWithin nesting command).Keeps fun c => P c.workspace
  -- Each command is reverted by the opposite edit, and the members of a batch with less nesting.
  | nesting, .create node => by
    cases nesting <;> exact inv.delete node.id
  | nesting, .delete node => by
    cases nesting <;> exact inv.create node
  | nesting, .setField id name old new => by
    cases nesting <;>
      exact (inv.setFieldOnCanvas id name old).bind fun _ => Attempt.keeps_pure _
  | nesting, .move child old new => by
    cases nesting <;> exact (inv.moveOnCanvas child old).bind fun _ => Attempt.keeps_pure _
  | nesting, .select old new => by
    cases nesting <;> exact (Canvas.keeps_select old).bind fun _ => Attempt.keeps_pure _
  | 0, .batch members => Attempt.keeps_pure _
  | nesting + 1, .batch members =>
    (revertEach (revertWithin inv nesting) members.reverse []).bind fun _ => Attempt.keeps_pure _

/-- Reverting a command keeps the property. -/
theorem revert (inv : Invariant P) (command : Command) :
    (Canvas.revert command).Keeps fun c => P c.workspace :=
  -- By induction on the nesting of batches.
  inv.revertWithin command.nesting command

/-- A property of the graph of a draft remains when the draft becomes one step of the history, and
also if it is taken back. -/
theorem transacted {α : Type} (inv : Invariant P) {edits : Attempt Draft α} {d : Document}
    (drafted : P (edits.on (.start d.canvas)).2.canvas.workspace) :
    P ((Document.transact edits).on d).2.canvas.workspace := by
  -- Taking back is reverting the commands of the draft.
  rw [Document.on_transact]
  revert drafted
  cases edits.on (.start d.canvas) with
  | mk outcome draft =>
    cases outcome with
    | ok value => exact id
    | error e => exact fun drafted => (inv.revert draft.command).on drafted

/-- A draft keeps the property as one step of the history, also if it is taken back. -/
theorem transact {α : Type} (inv : Invariant P) {edits : Attempt Draft α}
    (keeps : edits.Keeps fun d => P d.canvas.workspace) :
    (Document.transact edits).Keeps fun d => P d.canvas.workspace :=
  -- Either the draft is taken over or it is rolled back, and both keep the property.
  Attempt.keeps_of_on fun _ holds => inv.transacted (keeps.on holds)

/-- A change of the canvas alone keeps the property in a document. -/
theorem onCanvas {α : Type} {attempt : Attempt Canvas α}
    (keeps : attempt.Keeps fun c => P c.workspace) :
    (Document.onCanvas attempt).Keeps fun d => P d.canvas.workspace :=
  -- The canvas is a part of the document.
  keeps.within fun _ _ => rfl

/-- Undoing keeps the property. -/
theorem undo (inv : Invariant P) : Document.undo.Keeps fun d => P d.canvas.workspace := by
  -- The stacks of commands are no part of the canvas.
  refine Attempt.keeps_get.bind fun d => ?_
  split
  · exact Attempt.keeps_pure _
  · refine (onCanvas (inv.revert _)).bind fun again => ?_
    exact (Attempt.keeps_modify fun _ holds => holds).bind fun _ => Attempt.keeps_pure true

/-- Redoing keeps the property. -/
theorem redo (inv : Invariant P) : Document.redo.Keeps fun d => P d.canvas.workspace := by
  -- To redo is to revert what undoing left.
  refine Attempt.keeps_get.bind fun d => ?_
  split
  · exact Attempt.keeps_pure _
  · refine (onCanvas (inv.revert _)).bind fun again => ?_
    exact (Attempt.keeps_modify fun _ holds => holds).bind fun _ => Attempt.keeps_pure true

end Workspace.Invariant

/-- Being well-formed is kept by every single change. -/
theorem Workspace.invariant_wellFormed : Invariant WellFormed where
  -- One lemma for each of the six steps.
  make wf made := wf.make made
  insert wf inserted := wf.insert inserted
  remove wf removed := wf.remove removed
  setField wf set := wf.setField set
  plug wf plugged := wf.plug plugged
  unplug wf unplugged := wf.unplug unplugged

end QuickEntry
