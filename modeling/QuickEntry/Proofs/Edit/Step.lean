import QuickEntry.Proofs.Edit.Creation

/-! The two edits of a session as single steps of its history. -/

namespace QuickEntry

variable {g : Grain} {again : Prop}

namespace Draft

/-- Something in the log changes something. -/
def Marked (d : Draft) : Prop := ∃ command ∈ d.log, command.isEmpty = false

/-- A list of commands changes something if one of them does. -/
theorem allEmpty_eq_false {commands : List Command} {command : Command}
    (member : command ∈ commands) (changes : command.isEmpty = false) :
    Command.allEmpty commands = false := by
  -- The commands are asked one after the other.
  induction commands with
  | nil => cases member
  | cons first rest ih =>
    rcases List.mem_cons.mp member with same | later
    · rw [Command.allEmpty, ← same, changes, Bool.false_and]
    · rw [Command.allEmpty, ih later, Bool.and_false]

/-- The edits of a marked draft change something as one. -/
theorem Marked.command {d : Draft} (marked : d.Marked) : d.command.isEmpty = false := by
  -- The batch lists what the log does.
  obtain ⟨command, member, changes⟩ := marked
  rw [Draft.command, Command.isEmpty]
  exact allEmpty_eq_false (List.mem_reverse.mpr member) changes

/-- Further edits leave a draft marked. -/
theorem marks_record (edit : Attempt Canvas Command) : (record edit).Keeps Marked := by
  -- The log only grows.
  intro d marked
  obtain ⟨command, member, changes⟩ := marked
  rw [on_record]
  cases edit.on d.canvas with
  | mk outcome next =>
    cases outcome with
    | ok added => exact ⟨command, List.mem_cons_of_mem _ member, changes⟩
    | error e => exact ⟨command, member, changes⟩

/-- Moving a node leaves a draft marked. -/
theorem marks_move (child : NodeId) (target : Option Link) : (move child target).Keeps Marked := by
  -- It is recorded or left out.
  refine (keeps_view _).bind fun node => ?_
  split
  · exact Attempt.keeps_pure _
  · exact marks_record _

/-- Selecting a node leaves a draft marked. -/
theorem marks_select (id : Option NodeId) : (select id).Keeps Marked := by
  -- It is recorded or left out.
  refine Attempt.keeps_get.bind fun d => ?_
  split
  · exact marks_record _
  · exact Attempt.keeps_pure _

/-- Creating the node of an option marks a draft. -/
theorem marks_instantiate (o : BlockOption) :
    (instantiate o).Ensures (fun _ => True) (fun _ => Marked) fun _ => True := by
  -- The creation goes to the log, and field values are set after it.
  refine (Attempt.ensures_true _).bind fun mutation => (Attempt.ensures_true _).bind fun node => ?_
  have creates : (record (Canvas.create node)).Ensures (fun _ => True) (fun _ => Marked)
      fun _ => True := by
    intro d _
    rw [on_record, Canvas.on_create]
    cases d.canvas.workspace.insert node with
    | error e => trivial
    | ok ws => exact ⟨.create node, List.mem_cons_self, rfl⟩
  refine creates.bind fun _ => Attempt.Keeps.ensures ?_
  exact (Attempt.keeps_forM fun field _ => marks_record _).bind fun _ => Attempt.keeps_pure _

/-- Deleting a node marks a draft. -/
theorem marks_delete (id : NodeId) :
    (record (Canvas.delete id)).Ensures (fun _ => True) (fun _ => Marked) fun _ => True := by
  -- The removed node goes to the log.
  intro d _
  rw [on_record, Canvas.on_delete]
  cases d.canvas.workspace.remove id with
  | error e => trivial
  | ok result => exact ⟨.delete result.1, List.mem_cons_self, rfl⟩

/-- Deleting a node of a subtree marks a draft. -/
theorem marks_discard (top member : NodeId) :
    (discard top member).Ensures (fun _ => True) (fun _ => Marked) fun _ => True := by
  -- The deletion comes last, whether the node is moved before or not.
  unfold discard
  dsimp only
  split
  · exact (Attempt.ensures_true _).bind fun _ => marks_delete member
  · exact marks_delete member

/-- Deleting a subtree marks a draft. -/
theorem marks_deleteSubtree (id : NodeId) :
    (deleteSubtree id).Ensures (fun _ => True) (fun _ => Marked) fun _ => True := by
  -- At least the node itself is deleted.
  have excises : ∀ (node : Node) {doomed : List NodeId}, doomed ≠ [] →
      (excise id node doomed).Ensures (fun _ => True) (fun _ => Marked) fun _ => True := by
    intro node doomed some
    refine (Attempt.ensures_true _).bind fun _ => (Attempt.ensures_true _).bind fun _ => ?_
    -- The first node that is deleted marks the draft, and the others leave the mark.
    have discards := Attempt.ensures_forM (List.reverse_ne_nil_iff.mpr some) (marks_discard id)
      (keeps_discard marks_move (fun _ => marks_record _) id)
    refine discards.bind fun _ => Attempt.Keeps.ensures ?_
    exact Attempt.keeps_forM_option fun follower _ =>
      Attempt.keeps_forM_option fun place _ => marks_move follower place
  intro d _
  cases found : d.canvas.workspace.node? id with
  | none =>
    have refused : (deleteSubtree id).on d = (.error (.unknownNode id), d) := by
      simp [deleteSubtree, Attempt.on_bind, Workspace.get, found]
    rw [refused]
    trivial
  | some node =>
    have some : d.canvas.workspace.subtree id false ≠ [] := by simp [Workspace.subtree, found]
    simp only [deleteSubtree, view, Attempt.on_bind, Attempt.on_get, Attempt.on_ofExcept,
      Workspace.get, found, Attempt.on_pure]
    by_cases inside : d.canvas.selection.any (d.canvas.workspace.subtree id false).contains = true
    · rw [if_pos inside]
      exact ((Attempt.ensures_true _).bind fun _ => excises node some) d trivial
    · rw [if_neg inside]
      exact excises node some d trivial

end Draft

namespace Document

/-- One step was made: a trail leads from the canvas before it to the canvas after it, and the
history has it as its newest edit. -/
structure Stepped (g : Grain) (again : Prop) (d next : Document) : Prop where
  step : ∃ commands, Trail g again d.canvas commands next.canvas ∧
    (Command.batch commands).isEmpty = false ∧
    next.history = d.history.push (.batch commands)
  wf : next.canvas.workspace.WellFormed

/-- No step was made: the canvas is like the one before, and the history is the same. -/
structure Unstepped (g : Grain) (d next : Document) : Prop where
  alike : d.canvas.Alike g next.canvas
  history : next.history = d.history
  wf : next.canvas.workspace.WellFormed

/-- Edits that are traced from the start and mark their draft are one step, or none. -/
theorem on_transact_of_traced {α : Type} {edits : Attempt Draft α} {d : Document}
    (traces : edits.Ensures (fun draft => draft = .start d.canvas)
      (fun _ => Draft.Traced g again d.canvas) (Draft.Traced g again d.canvas))
    (marks : edits.Ensures (fun _ => True) (fun _ => Draft.Marked) fun _ => True) :
    match (transact edits).on d with
    | (.ok _, next) => Stepped g again d next
    | (.error _, next) => Unstepped g d next := by
  -- Refused edits are taken back along the trail.
  have traced := traces (.start d.canvas) rfl
  have marked := marks (.start d.canvas) trivial
  rw [on_transact]
  revert traced marked
  cases edits.on (.start d.canvas) with
  | mk outcome draft =>
    cases outcome with
    | ok value =>
      intro traced marked
      exact ⟨⟨draft.log.reverse, traced.trail, marked.command, rfl⟩, traced.wf⟩
    | error e =>
      intro traced _
      obtain ⟨alike, wf⟩ := traced.rollback
      exact ⟨alike, rfl, wf⟩

end Document

namespace Session

/-- A change of the document shows in the document alone. -/
theorem on_onDocument {α : Type} (attempt : Attempt Document α) (s : Session) :
    (onDocument attempt).on s =
      ((attempt.on s.document).1, { s with document := (attempt.on s.document).2 }) := rfl

/-- Picking an option changes the document, and clears the query box if it is made. -/
theorem on_confirm (o : BlockOption) (s : Session) :
    (confirm o).on s =
      match (Document.transact (insertion o s.selected? s.settings.reach)).on s.document with
      | (.ok inserted, document) => (.ok inserted, { s with document, query := "" })
      | (.error e, document) => (.error e, { s with document }) := by
  -- The query box is left after the edit.
  have unfolded : confirm o = get >>= fun s =>
      onDocument (Document.transact (insertion o s.selected? s.settings.reach)) >>=
        fun inserted => escape >>= fun _ => pure inserted := rfl
  rw [unfolded, Attempt.on_bind, Attempt.on_get]
  simp only [Attempt.on_bind, on_onDocument]
  cases (Document.transact (insertion o s.selected? s.settings.reach)).on s.document with
  | mk outcome next => cases outcome <;> rfl

/-- An edit of a session that becomes one step of its history. -/
inductive Edit where
  /-- An option is picked. -/
  | confirm (o : BlockOption)
  /-- A node is deleted with all that is in its sockets. -/
  | delete (id : NodeId)

namespace Edit

/-- Make an edit, whatever it gives back. -/
def attempt : Edit → Attempt Session Unit
  | confirm o => do let _ ← Session.confirm o
  | delete id => Session.delete id

/-- The grain is one at which an edit can be undone and redone: an option may call a procedure only
where that is settled, and a node is deleted only where the order of nodes does not count. -/
def Suits (g : Grain) (ws : Workspace) : Edit → Prop
  | confirm o => ∀ {name}, o.calls? = some name → ws.Settles g name
  | delete _ => ¬g.nodeOrder

/-- An edit of a session is one step of its history, or none if it is refused. -/
theorem on_attempt (again : Prop) {s : Session} (wf : s.workspace.WellFormed) {edit : Edit}
    (suits : edit.Suits g s.workspace) :
    match edit.attempt.on s with
    | (.ok _, next) => Document.Stepped g again s.document next.document
    | (.error _, next) => Document.Unstepped g s.document next.document := by
  -- Both edits are one transaction over steps that are traced, each in its own way.
  cases edit with
  | confirm o =>
    -- The node is created, attached and selected, and then the query box is left.
    have creates : (Draft.instantiate o).Ensures (fun draft => draft = .start s.document.canvas)
        (fun _ => Draft.Traced g again s.document.canvas)
        (Draft.Traced g again s.document.canvas) := by
      rintro _ rfl
      exact Draft.traces_instantiate o _ ⟨Draft.traced_start wf, fun _ {_} => suits⟩
    have edits := Document.on_transact_of_traced (Draft.ensures_insertion creates Draft.traces_move
      Draft.traces_select (fun _ traced => traced) s.selected? s.settings.reach)
      (Draft.ensures_insertion (Draft.marks_instantiate o) Draft.marks_move Draft.marks_select
        (fun _ _ => trivial) s.selected? s.settings.reach)
    have unfolded : (confirm o).attempt = Session.confirm o >>= fun _ => pure () := rfl
    rw [unfolded, Attempt.on_bind, on_confirm]
    revert edits
    cases (Document.transact (insertion o s.selected? s.settings.reach)).on s.document with
    | mk outcome next => cases outcome <;> exact fun stepped => stepped
  | delete id =>
    have traces : (Draft.deleteSubtree id).Ensures (fun draft => draft = .start s.document.canvas)
        (fun _ => Draft.Traced g again s.document.canvas)
        (Draft.Traced g again s.document.canvas) := by
      rintro _ rfl
      exact Draft.keeps_deleteSubtree Draft.traces_move Draft.traces_select
        (Draft.traces_delete suits) id _ (Draft.traced_start wf)
    have edits := Document.on_transact_of_traced traces (Draft.marks_deleteSubtree id)
    have unfolded : (delete id).attempt =
        onDocument (Document.transact (Draft.deleteSubtree id)) := rfl
    rw [unfolded, on_onDocument]
    revert edits
    cases (Document.transact (Draft.deleteSubtree id)).on s.document with
    | mk outcome next => cases outcome <;> exact fun stepped => stepped

end Edit

end Session

end QuickEntry
