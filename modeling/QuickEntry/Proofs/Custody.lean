import QuickEntry.Proofs.Edit.Undo
import QuickEntry.Proofs.Event

/-! Nodes that are kept outside the graph, in the log of a draft and in the history, and properties
of the graph together with these nodes that everything keeps. -/

namespace QuickEntry

namespace Command

mutual

/-- The nodes in a command, which reverting it may bring back. -/
def nodes : Command → List Node
  | create node | delete node => [node]
  | batch members => allNodes members
  | _ => []

/-- The nodes in some commands. -/
def allNodes : List Command → List Node
  | [] => []
  | c :: rest => c.nodes ++ allNodes rest

end

/-- A node is in some commands if it is in one of them. -/
theorem mem_allNodes_iff {commands : List Command} {n : Node} :
    n ∈ allNodes commands ↔ ∃ c ∈ commands, n ∈ c.nodes := by
  -- The commands are gone through one by one.
  induction commands with
  | nil => simp [allNodes]
  | cons c rest ih => simp [allNodes, ih]

/-- Fewer commands have fewer nodes. -/
theorem allNodes_subset {commands others : List Command} (fewer : commands ⊆ others) :
    allNodes commands ⊆ allNodes others := by
  -- A node belongs to one of the commands, and this one is among the others.
  intro n member
  obtain ⟨c, inside, own⟩ := mem_allNodes_iff.mp member
  exact mem_allNodes_iff.mpr ⟨c, fewer inside, own⟩

/-- The nodes in a command are among those of several commands. -/
theorem nodes_subset {commands : List Command} {command : Command} (member : command ∈ commands) :
    command.nodes ⊆ allNodes commands :=
  -- The command is one that can be pointed at.
  fun _ own => mem_allNodes_iff.mpr ⟨command, member, own⟩

/-- Commands in the opposite order have the same nodes. -/
theorem allNodes_reverse_subset (commands : List Command) :
    allNodes commands.reverse ⊆ allNodes commands :=
  -- The order of the commands does not matter to which nodes they have.
  allNodes_subset (List.reverse_subset.mpr (List.Subset.refl commands))

end Command

/-- A property of a graph and of nodes outside it that no change costs: nodes that are made or
removed join those outside, and of these any may be inserted or forgotten. -/
structure Custody (Q : List Node → Workspace → Prop) : Prop where
  forget : ∀ {S T ws}, Q S ws → T ⊆ S → Q T ws
  make : ∀ {S ws ws' kind mutation n}, Q S ws → ws.make kind mutation = .ok (n, ws') →
    Q (n :: S) ws'
  insert : ∀ {S ws ws' n}, Q S ws → n ∈ S → ws.insert n = .ok ws' → Q S ws'
  remove : ∀ {S ws ws' id n}, Q S ws → ws.remove id = .ok (n, ws') → Q (n :: S) ws'
  setField : ∀ {S ws ws' id name value old}, Q S ws → ws.setField id name value = .ok (old, ws') →
    Q S ws'
  plug : ∀ {S ws ws' child place}, Q S ws → ws.plug child place = .ok ws' → Q S ws'
  unplug : ∀ {S ws ws' child place}, Q S ws → ws.unplug child = .ok (place, ws') → Q S ws'

variable {Q : List Node → Workspace → Prop} {S T : List Node}

namespace Custody

/-- Building keeps the property with the same nodes outside. -/
theorem building (custody : Custody Q) (S : List Node) : Workspace.BuildInvariant (Q S) where
  -- What is made or removed need not be remembered if the nodes outside stay what they were.
  make holds made := custody.forget (custody.make holds made) (List.subset_cons_self _ _)
  enter holds made inserted :=
    custody.forget (custody.insert (custody.make holds made) List.mem_cons_self inserted)
      (List.subset_cons_self _ _)
  remove holds removed := custody.forget (custody.remove holds removed) (List.subset_cons_self _ _)
  setField := custody.setField
  plug := custody.plug
  unplug := custody.unplug

end Custody

namespace Canvas

open Command (allNodes)

/-- An edit keeps a property if some nodes are outside before it; those in its command are outside
afterwards. -/
def Accounts (Q : List Node → Workspace → Prop) (known : List Node)
    (edit : Attempt Canvas Command) : Prop :=
  ∀ S, edit.Ensures (fun c => Q (known ++ S) c.workspace)
    (fun command c => Q (command.nodes ++ S) c.workspace) fun c => Q S c.workspace

variable {known others : List Node} {edit : Attempt Canvas Command}

/-- An edit may have more nodes outside before it than it asks for. -/
theorem Accounts.mono (custody : Custody Q) (accounts : Accounts Q known edit)
    (more : known ⊆ others) : Accounts Q others edit := by
  -- Knowing more nodes than the edit needs is more than it asks for; the rest is forgotten.
  intro S
  exact (accounts S).mono (fun c holds => custody.forget holds (by grind)) (fun _ _ => id)
    fun _ => id

/-- An edit whose nodes are outside keeps a property; so are the nodes in its command afterwards. -/
theorem Accounts.of_known (custody : Custody Q) (accounts : Accounts Q known edit)
    (inside : known ⊆ S) : edit.Ensures (fun c => Q S c.workspace)
      (fun command c => Q (command.nodes ++ S) c.workspace) fun c => Q S c.workspace :=
  -- The nodes of the edit are outside already, so that they count once only.
  (accounts S).mono (fun c holds => custody.forget holds (by grind)) (fun _ _ => id) fun _ => id

/-- A node that is outside can be created. -/
theorem accounts_create (custody : Custody Q) (n : Node) : Accounts Q [n] (create n) := by
  -- A node that is refused stays outside, where it is forgotten.
  intro S c holds
  rw [on_create]
  cases inserted : c.workspace.insert n with
  | error e => exact custody.forget holds (by grind)
  | ok ws => exact custody.insert holds (List.mem_append_left S List.mem_cons_self) inserted

/-- A node that is deleted is outside afterwards. -/
theorem accounts_delete (custody : Custody Q) (id : NodeId) : Accounts Q [] (delete id) := by
  -- The command keeps the node that leaves the graph.
  intro S c holds
  rw [on_delete]
  cases removed : c.workspace.remove id with
  | error e => exact holds
  | ok result => exact custody.remove holds removed

/-- Setting a field keeps every property. -/
theorem accounts_setField (custody : Custody Q) (id : NodeId) (name : String)
    (value : Option String) : Accounts Q [] (setField id name value) := by
  -- A field change keeps texts and no nodes.
  intro S c holds
  rw [on_setField]
  cases set : c.workspace.setField id name value with
  | error e => exact holds
  | ok result => exact custody.setField holds set

/-- Moving a node keeps every property. -/
theorem accounts_move (custody : Custody Q) (child : NodeId) (target : Option Link) :
    Accounts Q [] (move child target) := by
  -- A move may be refused after the node has lost its place, which keeps the property as well.
  intro S c holds
  have moved := (custody.building S).move child target c.workspace holds
  rw [on_move]
  revert moved
  cases (Workspace.move child target).on c.workspace with
  | mk outcome ws => cases outcome <;> exact id

/-- Selecting a node keeps every property. -/
theorem accounts_select (id : Option NodeId) : Accounts Q [] (select id) :=
  -- Selecting does not touch the graph.
  fun _ _ holds => holds

/-- An edit may stand for another command without nodes. -/
theorem Accounts.relabel (custody : Custody Q) (accounts : Accounts Q known edit) {again : Command}
    (bare : again.nodes = []) : Accounts Q known (edit >>= fun _ => pure again) := by
  -- The command that is given back instead has no nodes to account for.
  intro S
  refine (accounts S).bind fun command c holds => ?_
  have left : Q (again.nodes ++ S) c.workspace := custody.forget holds (by grind)
  exact left

/-- Reverting commands keeps every property if reverting each of them does. -/
theorem ensures_revertEach (custody : Custody Q) {revert : Command → Attempt Canvas Command}
    (reverts : ∀ command : Command, Accounts Q command.nodes (revert command)) (S : List Node)
    (commands : List Command) :
    ∀ reverted : List Command, (revertEach revert reverted commands).Ensures
      (fun c => Q (allNodes commands ++ (allNodes reverted ++ S)) c.workspace)
      (fun redos c => Q (allNodes redos ++ S) c.workspace) fun c => Q S c.workspace := by
  -- By induction on the commands. A command that fails has its predecessors brought back, and their
  -- nodes are then known again.
  induction commands with
  | nil =>
    intro reverted c holds
    have turned := Command.allNodes_reverse_subset reverted
    have left : Q (allNodes reverted.reverse ++ S) c.workspace :=
      custody.forget holds (by grind)
    exact left
  | cons command rest ih =>
    intro reverted
    -- The nodes of the other commands stay outside while one is reverted.
    let T := allNodes rest ++ (allNodes reverted ++ S)
    have repairs : (reverted.forM fun again => (revert again).regardless).Keeps
        fun c => Q T c.workspace := by
      refine Attempt.keeps_forM fun again member => Attempt.Keeps.regardless ?_
      have inside := Command.nodes_subset member
      exact ((reverts again).of_known custody (by grind)).mono (fun _ => id)
        (fun _ c holds => custody.forget holds (by grind)) fun _ => id
    have first : ((revert command).orAfter
        (reverted.forM fun again => (revert again).regardless)).Ensures
          (fun c => Q (command.nodes ++ T) c.workspace)
          (fun again c => Q (again.nodes ++ T) c.workspace)
          fun c => Q T c.workspace := (reverts command T).orAfter repairs
    refine (first.mono ?_ (fun _ _ => id) fun c holds => custody.forget holds (by grind)).bind
      fun again => (ih (again :: reverted)).mono ?_ (fun _ _ => id) fun _ => id
    · exact fun c holds => custody.forget holds (by grind [allNodes])
    · exact fun c holds => custody.forget holds (by grind [allNodes])

/-- Reverting a command keeps every property if the nodes in the command are outside. -/
theorem accounts_revertWithin (custody : Custody Q) : ∀ (nesting : Nat) (command : Command),
    Accounts Q command.nodes (revertWithin nesting command)
  -- Each command is reverted by the opposite edit, and a batch member by member; the depth of
  -- nesting alone decreases.
  | nesting, .create node => by
    cases nesting <;> exact (accounts_delete custody node.id).mono custody (List.nil_subset _)
  | nesting, .delete node => by
    cases nesting <;> exact accounts_create custody node
  | nesting, .setField id name old new => by
    cases nesting <;> exact (accounts_setField custody id name old).relabel custody rfl
  | nesting, .move child old new => by
    cases nesting <;> exact (accounts_move custody child old).relabel custody rfl
  | nesting, .select old new => by
    cases nesting <;> exact (accounts_select old).relabel custody rfl
  | 0, .batch members => fun S c holds => holds
  | nesting + 1, .batch members => by
    intro S
    have turned := Command.allNodes_reverse_subset members
    have each := ensures_revertEach custody (accounts_revertWithin custody nesting) S
      members.reverse []
    refine (each.mono (fun c holds => ?_) (fun _ _ => id) fun _ => id).bind fun _ _ holds => holds
    have known : Q (allNodes members ++ S) c.workspace := holds
    exact custody.forget known (by grind [allNodes])

/-- Reverting a command whose nodes are outside keeps every property. -/
theorem ensures_revert (custody : Custody Q) {command : Command} (inside : command.nodes ⊆ S) :
    (revert command).Ensures (fun c => Q S c.workspace)
      (fun again c => Q (again.nodes ++ S) c.workspace) fun c => Q S c.workspace :=
  -- The budget for nesting is that of the command itself.
  (accounts_revertWithin custody command.nesting command).of_known custody inside

end Canvas

namespace Draft

open Command (allNodes)

/-- A property of the graph of a draft and of the nodes in its log, with others outside. -/
def InCustody (Q : List Node → Workspace → Prop) (S : List Node) (d : Draft) : Prop :=
  Q (allNodes d.log ++ S) d.canvas.workspace

variable {known : List Node} {edit : Attempt Canvas Command}

/-- Making and logging an edit keeps every property if the edit does. -/
theorem ensures_record (custody : Custody Q) (accounts : Canvas.Accounts Q known edit)
    (S : List Node) : (record edit).Ensures (InCustody Q (known ++ S))
      (fun _ => InCustody Q S) (InCustody Q S) := by
  -- Before the edit, what the log keeps counts as outside; afterwards the log has the new command
  -- as well.
  intro d holds
  have made := accounts (allNodes d.log ++ S) d.canvas (custody.forget holds (by grind))
  rw [on_record]
  revert made
  cases edit.on d.canvas with
  | mk outcome next =>
    cases outcome with
    | ok command =>
      intro made
      have logged : Q (allNodes (command :: d.log) ++ S) next.workspace :=
        custody.forget made (by grind [allNodes])
      exact logged
    | error e => exact id

/-- Moving a node in a draft keeps every property. -/
theorem keeps_custody_move (custody : Custody Q) (S : List Node) (child : NodeId)
    (target : Option Link) : (move child target).Keeps (InCustody Q S) := by
  -- A move is recorded unless the node is where it should be already.
  refine (keeps_view _).bind fun node => ?_
  split
  · exact Attempt.keeps_pure _
  · exact ensures_record custody (Canvas.accounts_move custody child target) S

/-- Selecting a node in a draft keeps every property. -/
theorem keeps_custody_select (custody : Custody Q) (S : List Node) (id : Option NodeId) :
    (select id).Keeps (InCustody Q S) := by
  -- A selection is recorded only if it differs from the one before.
  refine Attempt.keeps_get.bind fun d => ?_
  split
  · exact ensures_record custody (Canvas.accounts_select id) S
  · exact Attempt.keeps_pure _

/-- Creating the node of an option keeps every property. -/
theorem keeps_custody_instantiate (custody : Custody Q) (S : List Node) (o : BlockOption) :
    (instantiate o).Keeps (InCustody Q S) := by
  -- The node is outside from when it is made until it is inserted.
  refine (Attempt.keeps_ofExcept _).bind fun mutation => ?_
  have makes : (make o.kind mutation).Ensures (InCustody Q S)
      (fun node => InCustody Q ([node] ++ S)) (InCustody Q S) := by
    intro d holds
    rw [on_make]
    cases made : d.canvas.workspace.make o.kind mutation with
    | error e => exact holds
    | ok result =>
      obtain ⟨node, ws⟩ := result
      have outside : Q (allNodes d.log ++ ([node] ++ S)) ws :=
        custody.forget (custody.make holds made) (by grind)
      exact outside
  refine makes.bind fun node => ?_
  refine (ensures_record custody (Canvas.accounts_create custody node) S).bind fun _ => ?_
  refine (Attempt.keeps_forM fun field _ => ?_).bind fun _ => Attempt.keeps_pure node.id
  exact ensures_record custody (Canvas.accounts_setField custody node.id _ _) S

/-- Deleting a subtree keeps every property. -/
theorem keeps_custody_deleteSubtree (custody : Custody Q) (S : List Node) (id : NodeId) :
    (deleteSubtree id).Keeps (InCustody Q S) :=
  -- A deletion is made of moves, one selection and deletions of single nodes.
  keeps_deleteSubtree (keeps_custody_move custody S) (keeps_custody_select custody S)
    (fun id => ensures_record custody (Canvas.accounts_delete custody id) S) id

/-- Inserting the node of an option keeps every property. -/
theorem keeps_custody_insertion (custody : Custody Q) (S : List Node) (o : BlockOption)
    (selected : Option NodeId) (reach : Reach) :
    (Session.insertion o selected reach).Keeps (InCustody Q S) :=
  -- An insertion is made of a creation, moves and a selection.
  ensures_insertion (keeps_custody_instantiate custody S o) (keeps_custody_move custody S)
    (keeps_custody_select custody S) (fun _ => id) selected reach

/-- Every operation keeps every property. -/
theorem keeps_custody_operation (custody : Custody Q) (S : List Node) (operation : Operation) :
    operation.attempt.Keeps (InCustody Q S) := by
  -- Each operation is built from edits that are recorded.
  cases operation with
  | instantiate o =>
    exact (keeps_custody_instantiate custody S o).bind fun _ => Attempt.keeps_pure ()
  | setField id name value =>
    exact ensures_record custody (Canvas.accounts_setField custody id name value) S
  | attach child place => exact keeps_attach (keeps_custody_move custody S) child place
  | detach child => exact keeps_custody_move custody S child none
  | select id => exact keeps_custody_select custody S id
  | deleteSubtree id => exact keeps_custody_deleteSubtree custody S id

/-- The nodes in the command of a draft are those in its log. -/
theorem nodes_command_subset (d : Draft) : d.command.nodes ⊆ allNodes d.log :=
  -- The batch has the log in the order of time.
  Command.allNodes_reverse_subset d.log

/-- Taking a draft back keeps every property. -/
theorem InCustody.rollback (custody : Custody Q) {d : Draft} (holds : d.InCustody Q S) :
    Q S d.rollback.workspace := by
  -- Reverting may end with or without a command to make it again, and either way the graph alone
  -- counts.
  have inside : d.command.nodes ⊆ allNodes d.log ++ S :=
    List.Subset.trans d.nodes_command_subset (List.subset_append_left _ _)
  have reverts := Canvas.ensures_revert custody inside
  have leaves : (Canvas.revert d.command).Ensures
      (fun c => Q (allNodes d.log ++ S) c.workspace) (fun _ c => Q S c.workspace)
      fun c => Q S c.workspace :=
    reverts.mono (fun _ => id) (fun _ c holds => custody.forget holds (by grind))
      fun c holds => custody.forget holds (by grind)
  exact leaves.on holds

end Draft

namespace Document

open Command (allNodes)

/-- A property of the graph of a document and of the nodes in its history. -/
def InCustody (Q : List Node → Workspace → Prop) (d : Document) : Prop :=
  Q (allNodes d.history.undoable ++ allNodes d.history.redoable) d.canvas.workspace

/-- A history that learns of a step has no other nodes than those of the step and its own. -/
theorem nodes_push_subset (h : History) (command : Command) :
    allNodes (h.push command).undoable ++ allNodes (h.push command).redoable ⊆
      command.nodes ++ (allNodes h.undoable ++ allNodes h.redoable) := by
  cases changes : command.isEmpty with
  | true =>
    rw [History.push_of_isEmpty changes]
    exact List.subset_append_right _ _
  | false =>
    -- What is forgotten takes its nodes along.
    rw [History.push_of_changes changes]
    have kept := Command.allNodes_subset
      (List.take_subset (max h.undoable.length h.depth) (command :: h.undoable))
    grind [allNodes]

/-- A draft of a document that becomes a step of its history keeps every property. -/
theorem InCustody.kept (custody : Custody Q) {d : Document} {draft : Draft}
    (drafted : draft.InCustody Q (allNodes d.history.undoable ++ allNodes d.history.redoable)) :
    InCustody Q ⟨draft.canvas, d.history.push draft.command⟩ := by
  -- The nodes of the log go into the history, and those that the history forgets are forgotten.
  have fewer := draft.nodes_command_subset
  have pushed := nodes_push_subset d.history draft.command
  exact custody.forget drafted (by grind)

/-- Edits that keep every property of a draft keep it as one step of the history, also if they are
taken back. -/
theorem keeps_custody_transact {α : Type} (custody : Custody Q) {edits : Attempt Draft α}
    (keeps : ∀ S, edits.Keeps (Draft.InCustody Q S)) : (transact edits).Keeps (InCustody Q) := by
  -- The draft starts without a log, beside the nodes in the history.
  intro d holds
  have drafted := keeps _ (.start d.canvas) holds
  rw [on_transact]
  revert drafted
  cases edits.on (.start d.canvas) with
  | mk outcome draft =>
    cases outcome with
    | error e => exact fun drafted => drafted.rollback custody
    | ok value => exact fun drafted => .kept custody drafted

/-- Reverting the newest command of one stack for another one keeps every property. -/
theorem ensures_shift (custody : Custody Q) (command : Command) (rest others : List Command) :
    (Canvas.revert command).Ensures
      (fun c => Q (allNodes (command :: rest) ++ allNodes others) c.workspace)
      (fun again c => Q (allNodes rest ++ allNodes (again :: others)) c.workspace)
      fun c => Q (allNodes (command :: rest) ++ allNodes others) c.workspace := by
  -- The command leaves one stack and its opposite comes to the other one, so that no node gets lost
  -- between them.
  have inside : command.nodes ⊆ allNodes (command :: rest) ++ allNodes others := by
    grind [allNodes]
  exact (Canvas.ensures_revert custody inside).mono (fun _ => id)
    (fun again c holds => custody.forget holds (by grind [allNodes])) fun _ => id

/-- Undoing keeps every property. -/
theorem keeps_custody_undo (custody : Custody Q) : undo.Keeps (InCustody Q) := by
  -- Only the newest command is at stake; if it cannot be reverted, the stacks stay.
  intro d holds
  rw [on_undo]
  cases newest : d.history.undoable with
  | nil => exact holds
  | cons command rest =>
    rw [InCustody, newest] at holds
    have shifted := ensures_shift custody command rest d.history.redoable d.canvas holds
    dsimp only
    revert shifted
    cases (Canvas.revert command).on d.canvas with
    | mk outcome next =>
      cases outcome with
      | ok again => exact id
      | error e =>
        intro shifted
        rw [← newest] at shifted
        exact shifted

/-- Redoing keeps every property. -/
theorem keeps_custody_redo (custody : Custody Q) : redo.Keeps (InCustody Q) := by
  intro d holds
  -- The two stacks change their parts.
  have swap : ∀ {A B : List Node} {ws : Workspace}, Q (A ++ B) ws → Q (B ++ A) ws :=
    fun holds => custody.forget holds (by grind)
  rw [on_redo]
  cases newest : d.history.redoable with
  | nil => exact holds
  | cons command rest =>
    rw [InCustody, newest] at holds
    have shifted := ensures_shift custody command rest d.history.undoable d.canvas (swap holds)
    dsimp only
    revert shifted
    cases (Canvas.revert command).on d.canvas with
    | mk outcome next =>
      cases outcome with
      | ok again => exact swap
      | error e =>
        intro shifted
        rw [← newest] at shifted
        exact swap shifted

/-- A change of the graph alone keeps every property of a document that it keeps of the graph. -/
theorem keeps_custody_graph {α : Type} {attempt : Attempt Workspace α}
    (keeps : ∀ S, attempt.Keeps (Q S)) :
    (onCanvas (Canvas.onWorkspace attempt)).Keeps (InCustody Q) :=
  -- The history is the same before and after.
  Attempt.keeps_of_on fun _ holds => (keeps _).on holds

/-- Everything that users do keeps every property that the declaration of components keeps, as long
as no nodes are brought along and the graph is not emptied. -/
theorem invariant_custody (custody : Custody Q)
    (declares : ∀ {S ws} name type, Q S ws → Q S (ws.addComponent name type)) :
    Invariant (InCustody Q) where
  -- Edits account for their nodes, graph changes outside the history leave it alone, and a restart
  -- forgets it.
  graph keeps := keeps_custody_graph fun S => keeps (custody.building S)
  declare name type :=
    keeps_custody_graph fun _ => Attempt.keeps_modify fun _ holds => declares name type holds
  select _ holds := holds
  confirm o selected reach :=
    keeps_custody_transact custody fun S => Draft.keeps_custody_insertion custody S o selected reach
  delete id :=
    keeps_custody_transact custody fun S => Draft.keeps_custody_deleteSubtree custody S id
  undo := keeps_custody_undo custody
  redo := keeps_custody_redo custody
  restart _ holds := custody.forget holds (List.nil_subset _)

end Document

namespace Session

/-- A change of the graph behind the back of the session keeps every property that it keeps of the
graph. -/
theorem keeps_custody_onWorkspace {attempt : Attempt Workspace Unit}
    (keeps : ∀ S, attempt.Keeps (Q S)) :
    (onWorkspace attempt).Keeps fun s => s.document.InCustody Q :=
  -- The history is not touched.
  keeps_onDocument (Q := Document.InCustody Q) (Document.keeps_custody_graph keeps)

/-- Operations that are taken back keep every property of the graph. -/
theorem holds_custody_rollback (custody : Custody Q) {ws : Workspace} (holds : Q S ws)
    (selection : Option NodeId) (operations : List Draft.Operation) :
    Q S ((Draft.start ⟨ws, selection⟩).after operations).rollback.workspace :=
  -- Operations on a draft keep the property with any nodes beside it, and so does taking them back.
  Draft.InCustody.rollback custody
    (Draft.keeps_after (Draft.keeps_custody_operation custody S) operations _ holds)

/-- Every action after which numbers go on keeps a property that the declaration of components
keeps, if nodes are brought along only where that keeps it as well. -/
theorem Action.keeps_custody_of_counts (custody : Custody Q)
    (declares : ∀ {S ws} name type, Q S ws → Q S (ws.addComponent name type)) {action : Action}
    (counts : action.counts = true)
    (inserts : ∀ n, action = .insert n → ∀ S ws ws', Q S ws → ws.insert n = .ok ws' → Q S ws') :
    action.attempt.Keeps fun s => s.document.InCustody Q := by
  -- Only an insertion by hand brings a node from nowhere, which is why it is left to the caller.
  cases action with
  | insert n =>
    exact keeps_custody_onWorkspace fun S =>
      Attempt.keeps_ofUpdate fun ws ws' => inserts n rfl S ws ws'
  | clear | reset => cases counts
  | _ => exact Action.keeps_of_plain (Document.invariant_custody custody declares) rfl

/-- Every action keeps a property that the removal of all nodes and the declaration of components
keep, if nodes are brought along only where that keeps it as well. -/
theorem Action.keeps_custody (custody : Custody Q) (clears : ∀ {S ws}, Q S ws → Q S ws.clear)
    (declares : ∀ {S ws} name type, Q S ws → Q S (ws.addComponent name type)) (action : Action)
    (inserts : ∀ n, action = .insert n → ∀ S ws ws', Q S ws → ws.insert n = .ok ws' → Q S ws') :
    action.attempt.Keeps fun s => s.document.InCustody Q := by
  -- Besides what counts there are two ways to empty the graph: clearing keeps the history, and
  -- resetting forgets it.
  cases action with
  | clear => exact keeps_custody_onWorkspace fun S => Attempt.keeps_modify fun _ => clears
  | reset =>
    refine Attempt.keeps_modify fun s holds => ?_
    have emptied : Q [] s.workspace.clear := clears (custody.forget holds (List.nil_subset _))
    exact emptied
  | _ => exact Action.keeps_custody_of_counts custody declares rfl inserts

/-- Every event keeps a property that the removal of all nodes and the declaration of components
keep, if nodes are brought along only where that keeps it as well. -/
theorem Event.keeps_custody (custody : Custody Q) (clears : ∀ {S ws}, Q S ws → Q S ws.clear)
    (declares : ∀ {S ws} name type, Q S ws → Q S (ws.addComponent name type)) (event : Event)
    (inserts : ∀ n, event = .act (.insert n) →
      ∀ S ws ws', Q S ws → ws.insert n = .ok ws' → Q S ws') :
    event.attempt.Keeps fun s => s.document.InCustody Q := by
  -- Operations that are kept go through a draft of the document, whose log then joins the history;
  -- those that are taken back leave no trace in it.
  cases event with
  | act action =>
    exact action.keeps_custody custody clears declares fun n same => inserts n (same ▸ rfl)
  | look =>
    have asks : refresh.Keeps fun s => s.document.InCustody Q :=
      keeps_refresh (Q := Document.InCustody Q)
    exact asks.bind fun _ => Attempt.keeps_pure ()
  | keep operations =>
    refine keeps_onDocument (Q := Document.InCustody Q) (Attempt.keeps_modify fun d holds => ?_)
    exact .kept custody
      (Draft.keeps_after (Draft.keeps_custody_operation custody _) operations (.start d.canvas)
        holds)
  | takeBack selection operations =>
    exact keeps_custody_onWorkspace fun S => Attempt.keeps_modify fun ws holds =>
      holds_custody_rollback custody holds selection operations

end Session

end QuickEntry
