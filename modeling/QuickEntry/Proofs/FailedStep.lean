import QuickEntry.Proofs.Edit.Orderly
import QuickEntry.Proofs.Rollback
import QuickEntry.Proofs.UndoRedo

/-! Undoing and redoing that fail: the history stays as it is, and so do the nodes and the selection
if what was reverted before the failure was met as it had been left. -/

namespace QuickEntry

/-- All steps of a history are orderly. -/
def History.Orderly (h : History) : Prop :=
  ∀ command ∈ h.undoable ++ h.redoable, command.Orderly

namespace History

variable {h : History} {command again : Command} {rest : List Command}

/-- A history without steps is orderly. -/
theorem orderly_empty (depth : Nat) : (empty depth).Orderly :=
  -- There are no commands.
  fun _ member => nomatch member

/-- A history stays orderly with one more orderly step. -/
theorem Orderly.push (orderly : h.Orderly) (step : command.Orderly) :
    (h.push command).Orderly := by
  cases changes : command.isEmpty with
  | true => rwa [push_of_isEmpty changes]
  | false =>
    -- No step is in the history but the new one and those that were there.
    intro other member
    simp only [push_of_changes changes, List.append_nil] at member
    rcases List.mem_cons.mp (List.mem_of_mem_take member) with rfl | before
    · exact step
    · exact orderly other (List.mem_append_left _ before)

/-- A history stays orderly when its newest step is undone. -/
theorem Orderly.undo (orderly : h.Orderly) (newest : h.undoable = command :: rest)
    (step : again.Orderly) :
    ({ h with undoable := rest, redoable := again :: h.redoable } : History).Orderly := by
  -- The commands are the old ones, with the newest exchanged for its reversal.
  intro other member
  simp only [List.mem_append, List.mem_cons] at member
  rcases member with before | rfl | after
  · exact orderly other (by simp [newest, before])
  · exact step
  · exact orderly other (by simp [after])

/-- A history stays orderly when the step that was undone last is redone. -/
theorem Orderly.redo (orderly : h.Orderly) (newest : h.redoable = command :: rest)
    (step : again.Orderly) :
    ({ h with undoable := again :: h.undoable, redoable := rest } : History).Orderly := by
  -- The commands are the old ones, with the newest exchanged for its reversal.
  intro other member
  simp only [List.mem_append, List.mem_cons] at member
  rcases member with (rfl | before) | after
  · exact step
  · exact orderly other (by simp [before])
  · exact orderly other (by simp [newest, after])

end History

namespace Document

/-- Edits that are an orderly step when they are made keep the history orderly. -/
theorem orderly_transact {α : Type} {edits : Attempt Draft α}
    (step : edits.Ensures (fun d => d.log = []) (fun _ d => d.command.Orderly) fun _ => True) :
    (transact edits).Keeps fun d => d.history.Orderly := by
  -- A refused transaction pushes nothing; one that succeeds pushes the batch of its log.
  intro d orderly
  have made := step (.start d.canvas) rfl
  rw [on_transact]
  revert made
  cases edits.on (.start d.canvas) with
  | mk outcome draft =>
    cases outcome with
    | ok value => exact fun command => orderly.push command
    | error e => exact fun _ => orderly

/-- Undoing keeps the history orderly. -/
theorem orderly_undo : undo.Keeps fun d => d.history.Orderly := by
  -- Only a reversal that succeeds moves a command to the other stack.
  intro d orderly
  rw [on_undo]
  cases newest : d.history.undoable with
  | nil => exact orderly
  | cons command rest =>
    have step := orderly command (by simp [newest])
    dsimp only
    cases made : (Canvas.revert command).on d.canvas with
    | mk outcome canvas =>
      cases outcome with
      | ok again => exact orderly.undo newest (Canvas.orderly_revert step made)
      | error e => exact orderly

/-- Redoing keeps the history orderly. -/
theorem orderly_redo : redo.Keeps fun d => d.history.Orderly := by
  -- Only a reversal that succeeds moves a command to the other stack.
  intro d orderly
  rw [on_redo]
  cases newest : d.history.redoable with
  | nil => exact orderly
  | cons command rest =>
    have step := orderly command (by simp [newest])
    dsimp only
    cases made : (Canvas.revert command).on d.canvas with
    | mk outcome canvas =>
      cases outcome with
      | ok again => exact orderly.redo newest (Canvas.orderly_revert step made)
      | error e => exact orderly

/-- A change of the canvas alone keeps every property of the history. -/
theorem history_onCanvas {α : Type} {H : History → Prop} (attempt : Attempt Canvas α) :
    (onCanvas attempt).Keeps fun d => H d.history := by
  -- The history lies beside the canvas, so both outcomes of the attempt hand it back as it was.
  intro d holds
  rw [onCanvas, Attempt.on_within]
  cases (attempt.on d.canvas).1 <;> exact holds

end Document

namespace Session

/-- Every action keeps a property of the history that new histories have and that confirming,
deleting, undoing and redoing keep. -/
theorem Action.keeps_history {H : History → Prop} (starts : ∀ depth, H (.empty depth))
    (confirms : ∀ o selected reach,
      (Document.transact (insertion o selected reach)).Keeps fun d => H d.history)
    (deletes : ∀ id, (Document.transact (Draft.deleteSubtree id)).Keeps fun d => H d.history)
    (undoes : Document.undo.Keeps fun d => H d.history)
    (redoes : Document.redo.Keeps fun d => H d.history) (action : Action) :
    action.attempt.Keeps fun s => H s.document.history := by
  -- The history does not know of changes of the graph.
  have graphs : ∀ {α : Type} (attempt : Attempt Workspace α),
      (Document.onCanvas (Canvas.onWorkspace attempt)).Keeps fun d => H d.history :=
    fun _ => Document.history_onCanvas _
  have behind : ∀ attempt : Attempt Workspace Unit,
      (onWorkspace attempt).Keeps fun s => H s.document.history :=
    fun attempt => keeps_onDocument (Q := fun d => H d.history) (graphs attempt)
  cases action with
  | insert node => exact behind _
  | clear => exact behind _
  | reset => exact Attempt.keeps_modify fun s _ => starts _
  | _ =>
    refine keeps_of_plain (Q := fun d => H d.history) ?_ rfl
    exact ⟨fun _ => graphs _, fun _ _ => graphs _, fun _ holds => holds, confirms, deletes, undoes,
      redoes, fun depth _ => starts depth⟩

/-- After any actions all steps of the history are orderly. -/
theorem orderly_after {s : Session} (orderly : s.document.history.Orderly) (actions : List Action) :
    (s.after actions).document.history.Orderly := by
  -- By induction over the run: an insertion starts with its creation, a deletion sets no field.
  refine keeps_after (Action.keeps_history History.orderly_empty ?_ ?_ Document.orderly_undo
    Document.orderly_redo) actions s orderly
  · intro o selected reach
    exact Document.orderly_transact ((Draft.founds_insertion o selected reach).mono
      (fun _ empty => empty) (fun _ _ founding => founding.orderly) fun _ _ => trivial)
  · intro id
    exact Document.orderly_transact ((Draft.fieldless_deleteSubtree id).ensures.mono
      (fun _ empty => Draft.fieldless_of_nil empty) (fun _ _ fieldless => fieldless.orderly)
      fun _ _ => trivial)

end Session

namespace Canvas

variable {c after : Canvas} {stack rest : List Command} {command : Command} {e : EditError}

/-- The newest of some steps meets a canvas as it has left it, as far as it can be reverted. -/
def ShowsNewest (c : Canvas) : List Command → Prop
  | .batch members :: _ => c.ShowsEach members.reverse
  -- Without a step there is nothing to revert, and all steps are batches.
  | _ => True

instance (c : Canvas) : ∀ stack, Decidable (c.ShowsNewest stack)
  | .batch members :: _ => decidableShowsEach members.reverse c
  | [] | .create _ :: _ | .delete _ :: _ | .setField .. :: _ | .move .. :: _ | .select .. :: _ =>
    .isTrue trivial

/-- If reverting the newest of some steps fails, the nodes and the selection are as before, provided
that the step is orderly and meets the canvas as it has left it. -/
theorem restored_of_error (wf : c.workspace.WellFormed) (orderly : command.Orderly)
    (newest : stack = command :: rest) (shows : c.ShowsNewest stack)
    (failed : (revert command).on c = (.error e, after)) :
    List.Forall₂ (fun a b => a.same b = true) c.workspace.snapshot after.workspace.snapshot ∧
      after.selection = c.selection := by
  -- The commands of a history are batches, so the failing one is a batch, and what it did before it
  -- failed is put back.
  subst newest
  cases command with
  | batch members =>
    obtain ⟨g, counted, alike, wf'⟩ := on_revert_batch_of_error wf orderly shows failed
    exact ⟨alike.workspace.snapshot_same wf.toLinked wf'.toLinked,
      (alike.selection counted).symm⟩
  | _ => exact orderly.elim

end Canvas

namespace Document

variable {d after : Document} {e : EditError}

/-- Undoing fails by the newest step, whose canvas it leaves. -/
theorem undo_eq_error (failed : undo.on d = (.error e, after)) :
    ∃ command rest, d.history.undoable = command :: rest ∧ after.history = d.history ∧
      (Canvas.revert command).on d.canvas = (.error e, after.canvas) := by
  -- With nothing to undo the step succeeds; otherwise it fails with its reversal.
  rw [on_undo] at failed
  split at failed
  case h_1 => cases failed
  case h_2 command rest newest =>
    split at failed <;> cases failed
    case h_2 canvas reverted => exact ⟨command, rest, newest, rfl, reverted⟩

/-- Redoing fails by the step that was undone last, whose canvas it leaves. -/
theorem redo_eq_error (failed : redo.on d = (.error e, after)) :
    ∃ command rest, d.history.redoable = command :: rest ∧ after.history = d.history ∧
      (Canvas.revert command).on d.canvas = (.error e, after.canvas) := by
  -- With nothing to redo the step succeeds; otherwise it fails with its reversal.
  rw [on_redo] at failed
  split at failed
  case h_1 => cases failed
  case h_2 command rest newest =>
    split at failed <;> cases failed
    case h_2 canvas reverted => exact ⟨command, rest, newest, rfl, reverted⟩

end Document

namespace Session

/-- After any actions, changes of the graph and selections by hand among them, undoing or redoing
that fails leaves the history as it is. It leaves the nodes and the selection as they are as well,
if each command that was reverted before the failure was met as it had left them: the field with the
value that it had got, and its node with the shape that it derives, the moved node in its new place,
and the new selection. -/
theorem failed_step_restores (database : ComponentDatabase) (settings : Settings)
    (actions : List Action) :
    let s := (Session.start (.empty database) settings).after actions
    (∀ e after, undo.on s = (.error e, after) →
      after.document.history = s.document.history ∧
      (s.document.canvas.ShowsNewest s.document.history.undoable →
        List.Forall₂ (fun a b => a.same b = true) s.workspace.snapshot after.workspace.snapshot ∧
        after.document.canvas.selection = s.document.canvas.selection)) ∧
    ∀ e after, redo.on s = (.error e, after) →
      after.document.history = s.document.history ∧
      (s.document.canvas.ShowsNewest s.document.history.redoable →
        List.Forall₂ (fun a b => a.same b = true) s.workspace.snapshot after.workspace.snapshot ∧
        after.document.canvas.selection = s.document.canvas.selection) := by
  -- Both directions revert the newest command of a stack, and every command of a reachable history
  -- is an orderly batch.
  intro s
  have wf : s.workspace.WellFormed := Workspace.wellFormed_after database settings actions
  have orderly : s.document.history.Orderly :=
    orderly_after (History.orderly_empty settings.historyDepth) actions
  constructor
  · intro e after failed
    rw [on_undo] at failed
    obtain ⟨outcome, rfl⟩ := Prod.mk.inj failed
    obtain ⟨command, rest, newest, kept, reverted⟩ :=
      Document.undo_eq_error (Prod.ext outcome rfl)
    refine ⟨kept, fun shows => Canvas.restored_of_error wf ?_ newest shows reverted⟩
    exact orderly command (by simp [newest])
  · intro e after failed
    rw [on_redo] at failed
    obtain ⟨outcome, rfl⟩ := Prod.mk.inj failed
    obtain ⟨command, rest, newest, kept, reverted⟩ :=
      Document.redo_eq_error (Prod.ext outcome rfl)
    refine ⟨kept, fun shows => Canvas.restored_of_error wf ?_ newest shows reverted⟩
    exact orderly command (by simp [newest])

/-- The node that was entered last was removed by hand, so that undoing fails after the selection
was reverted. -/
theorem failed_step_restores_beside_removal :
    let number (text : String) : BlockOption := ⟨"math_number", text, none, none⟩
    let actions : List Action := [.confirm (number "7"), .confirm (number "8"), .remove ⟨2⟩]
    let s := (Session.start (.empty ∅) {}).after actions
    let after := (undo.on s).2
    undo.on s = (.error (.unknownNode ⟨2⟩), after) ∧
      s.document.canvas.ShowsNewest s.document.history.undoable ∧
      after.document.history = s.document.history ∧
      List.Forall₂ (fun a b => a.same b = true) s.workspace.snapshot after.workspace.snapshot ∧
      after.document.canvas.selection = s.document.canvas.selection := by
  intro number actions
  dsimp only
  have restores := failed_step_restores ∅ {} actions
  have outcome : (undo.on ((Session.start (.empty ∅) {}).after actions)).1 =
      .error (.unknownNode ⟨2⟩) := by decide +kernel
  have shows : ((Session.start (.empty ∅) {}).after actions).document.canvas.ShowsNewest
      ((Session.start (.empty ∅) {}).after actions).document.history.undoable := by decide +kernel
  -- Nothing else about the session counts.
  generalize (Session.start (.empty ∅) {}).after actions = s at restores outcome shows ⊢
  have failed : undo.on s = (.error (.unknownNode ⟨2⟩), (undo.on s).2) := by rw [← outcome]
  obtain ⟨kept, restored⟩ := restores.1 _ _ failed
  exact ⟨failed, shows, kept, restored shows⟩

end Session

end QuickEntry
