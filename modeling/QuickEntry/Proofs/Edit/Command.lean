import QuickEntry.Edit.Draft

/-! What each edit of a canvas does, what reverting each command does, and what a draft logs. -/

namespace QuickEntry

namespace Canvas

variable {c : Canvas} {ws : Workspace}

/-- A change of the graph shows in the graph alone. -/
theorem on_onWorkspace {α : Type} (attempt : Attempt Workspace α) (c : Canvas) :
    (onWorkspace attempt).on c =
      ((attempt.on c.workspace).1, { c with workspace := (attempt.on c.workspace).2 }) := rfl

/-- Creating a node inserts it, or is refused without any change. -/
theorem on_create (node : Node) (c : Canvas) :
    (create node).on c =
      match c.workspace.insert node with
      | .ok ws => (.ok (.create node), { c with workspace := ws })
      | .error e => (.error e, c) := by
  -- The command follows the insertion.
  rw [create, Attempt.on_bind, on_onWorkspace, Attempt.on_ofUpdate]
  cases c.workspace.insert node <;> rfl

/-- Deleting a node removes it, or is refused without any change. -/
theorem on_delete (id : NodeId) (c : Canvas) :
    (delete id).on c =
      match c.workspace.remove id with
      | .ok (node, ws) => (.ok (.delete node), { c with workspace := ws })
      | .error e => (.error e, c) := by
  -- The command takes down the removed node.
  rw [delete, Attempt.on_bind, on_onWorkspace, Attempt.on_ofStep]
  cases c.workspace.remove id <;> rfl

/-- Setting a field keeps its old value in the command, or is refused without any change. -/
theorem on_setField (id : NodeId) (name : String) (value : Option String) (c : Canvas) :
    (setField id name value).on c =
      match c.workspace.setField id name value with
      | .ok (old, ws) => (.ok (.setField id name old value), { c with workspace := ws })
      | .error e => (.error e, c) := by
  -- The command takes down the old value.
  rw [setField, Attempt.on_bind, on_onWorkspace, Attempt.on_ofStep]
  cases c.workspace.setField id name value <;> rfl

/-- Moving a node keeps its old place in the command. -/
theorem on_move (child : NodeId) (target : Option Link) (c : Canvas) :
    (move child target).on c =
      match (Workspace.move child target).on c.workspace with
      | (.ok source, ws) => (.ok (.move child source target), { c with workspace := ws })
      | (.error e, ws) => (.error e, { c with workspace := ws }) := by
  -- The command takes down the old place.
  rw [move, Attempt.on_bind, on_onWorkspace]
  cases (Workspace.move child target).on c.workspace with
  | mk outcome next => cases outcome <;> rfl

/-- Selecting a node keeps the old selection in the command. -/
theorem on_select (id : Option NodeId) (c : Canvas) :
    (select id).on c = (.ok (.select c.selection id), { c with selection := id }) := rfl

variable {nesting : Nat}

/-- A creation is reverted by removing the node that is there now. -/
theorem on_revert_create {node removed : Node}
    (made : c.workspace.remove node.id = .ok (removed, ws)) :
    (revertWithin nesting (.create node)).on c =
      (.ok (.delete removed), { c with workspace := ws }) := by
  -- How deep batches are nested does not matter to a single command.
  have unfolded : revertWithin nesting (.create node) = delete node.id := by
    cases nesting <;> rfl
  rw [unfolded, on_delete, made]

/-- A deletion is reverted by inserting the node again. -/
theorem on_revert_delete {node : Node} (made : c.workspace.insert node = .ok ws) :
    (revertWithin nesting (.delete node)).on c =
      (.ok (.create node), { c with workspace := ws }) := by
  -- How deep batches are nested does not matter to a single command.
  have unfolded : revertWithin nesting (.delete node) = create node := by
    cases nesting <;> rfl
  rw [unfolded, on_create, made]

/-- A field command is reverted by setting the field to what it was. -/
theorem on_revert_setField {id : NodeId} {name : String} {old new was : Option String}
    (made : c.workspace.setField id name old = .ok (was, ws)) :
    (revertWithin nesting (.setField id name old new)).on c =
      (.ok (.setField id name new old), { c with workspace := ws }) := by
  -- How deep batches are nested does not matter to a single command.
  have unfolded : revertWithin nesting (.setField id name old new) =
      setField id name old >>= fun _ => pure (.setField id name new old) := by
    cases nesting <;> rfl
  rw [unfolded, Attempt.on_bind, on_setField, made]
  rfl

/-- A move is reverted by moving the node back. -/
theorem on_revert_move {child : NodeId} {old new was : Option Link}
    (made : (Workspace.move child old).on c.workspace = (.ok was, ws)) :
    (revertWithin nesting (.move child old new)).on c =
      (.ok (.move child new old), { c with workspace := ws }) := by
  -- How deep batches are nested does not matter to a single command.
  have unfolded : revertWithin nesting (.move child old new) =
      move child old >>= fun _ => pure (.move child new old) := by
    cases nesting <;> rfl
  rw [unfolded, Attempt.on_bind, on_move, made]
  rfl

/-- A selection is reverted by selecting what was selected. -/
theorem on_revert_select (old new : Option NodeId) (c : Canvas) :
    (revertWithin nesting (.select old new)).on c =
      (.ok (.select new old), { c with selection := old }) := by
  -- How deep batches are nested does not matter to a single command.
  cases nesting <;> rfl

/-- A field command is reverted as far as the field can be set to what it was. -/
theorem on_revert_field (id : NodeId) (name : String) (old new : Option String)
    (c : Canvas) :
    ((revert (.batch [.setField id name old new])).on c).2 =
      match c.workspace.setField id name old with
      | .ok (_, ws) => { c with workspace := ws }
      | .error _ => c := by
  -- If the old value is refused, nothing was reverted before that could be made again.
  have unfolded : revert (.batch [.setField id name old new]) =
      revertEach (revertWithin 0) [] [.setField id name old new] >>=
        fun redos => pure (.batch redos) := rfl
  have each : revertEach (revertWithin 0) [] [.setField id name old new] =
      (setField id name old >>= fun _ => pure (.setField id name new old)).orAfter (pure ()) >>=
        fun redo => pure [redo] := rfl
  rw [unfolded, each, Attempt.on_bind, Attempt.on_bind, Attempt.on_orAfter, Attempt.on_bind,
    on_setField]
  cases c.workspace.setField id name old <;> rfl

end Canvas

namespace Draft

/-- An edit that is made goes to the log, and a refused one does not. -/
theorem on_record (edit : Attempt Canvas Command) (d : Draft) :
    (record edit).on d =
      match edit.on d.canvas with
      | (.ok command, c) => (.ok (), ⟨c, command :: d.log⟩)
      | (.error e, c) => (.error e, ⟨c, d.log⟩) := by
  -- The log changes after the canvas.
  rw [record, Attempt.on_bind, Attempt.on_within]
  cases edit.on d.canvas with
  | mk outcome next => cases outcome <;> rfl

/-- Making a node changes nothing but the next number, or is refused. -/
theorem on_make (kind : String) (mutation : Mutation) (d : Draft) :
    (make kind mutation).on d =
      match d.canvas.workspace.make kind mutation with
      | .ok (n, ws) => (.ok n, { d with canvas := { d.canvas with workspace := ws } })
      | .error e => (.error e, d) := by
  -- The log is no part of the canvas.
  rw [make, Attempt.on_within, Canvas.on_onWorkspace, Attempt.on_ofStep]
  cases d.canvas.workspace.make kind mutation <;> rfl

end Draft

end QuickEntry
