import QuickEntry.Edit.Command

/-! The edits that can be undone, and the undone ones that can be made again. -/

namespace QuickEntry

/-- What can be undone and redone. -/
structure History where
  /-- The newest edit first. -/
  undoable : List Command
  /-- The edit undone last first. -/
  redoable : List Command
  /-- The number of edits that can be undone at most. -/
  depth : Nat
deriving Repr

namespace History

/-- The history without edits. -/
def empty (depth : Nat) : History := ⟨[], [], depth⟩

/-- Add an edit, unless it changes nothing. What was undone cannot be redone after it, and the
oldest edit is forgotten if there are now more than the depth allows. -/
def push (command : Command) (h : History) : History :=
  if command.isEmpty then h
  else
    -- A depth of zero forgets the edit at once.
    let undoable := command :: h.undoable
    { h with
      undoable := if h.depth < undoable.length then undoable.dropLast else undoable
      redoable := [] }

/-- An edit that changes nothing is not added. -/
theorem push_of_isEmpty {h : History} {command : Command} (empty : command.isEmpty = true) :
    h.push command = h := by
  -- The guard comes first.
  rw [push, if_pos empty]

/-- An edit that changes something comes first, and at most one edit is forgotten, which is the
oldest one: as many stay as there is room for, or as there were. -/
theorem push_of_changes {h : History} {command : Command} (changes : command.isEmpty = false) :
    h.push command = { h with
      undoable := (command :: h.undoable).take (max h.undoable.length h.depth)
      redoable := [] } := by
  -- To drop the last of the edits is to take as many as there were before.
  rw [push, if_neg (by simp [changes])]
  simp only [List.length_cons]
  by_cases full : h.depth ≤ h.undoable.length
  · rw [if_pos (Nat.lt_succ_of_le full), Nat.max_eq_left full, List.dropLast_eq_take]
    rfl
  · have room : h.undoable.length + 1 ≤ h.depth := Nat.lt_of_not_le full
    rw [if_neg (Nat.not_lt_of_le room), Nat.max_eq_right (Nat.le_of_lt room),
      List.take_of_length_le room]

/-- Forget everything. -/
def clear (h : History) : History := empty h.depth

/-- There is an edit to undo. -/
def canUndo (h : History) : Bool := !h.undoable.isEmpty

/-- There is an edit to redo. -/
def canRedo (h : History) : Bool := !h.redoable.isEmpty

end History

/-- A canvas with its history. -/
structure Document where
  canvas : Canvas
  history : History
deriving Repr

namespace Document

/-- A change of the canvas only. -/
def onCanvas {α : Type} (attempt : Attempt Canvas α) : Attempt Document α :=
  attempt.within (·.canvas) fun d canvas => { d with canvas }

/-- Add an edit that was made to the history. -/
def record (command : Command) : Attempt Document Unit :=
  modify fun d => { d with history := d.history.push command }

/-- Undo the newest edit; without one nothing happens. An edit that cannot be reverted stays. -/
def undo : Attempt Document Bool := do
  -- The stacks change only after the edit is reverted.
  match (← get).history.undoable with
  | [] => return false
  | command :: rest =>
    let again ← onCanvas (Canvas.revert command)
    modify fun d => { d with history :=
      { d.history with undoable := rest, redoable := again :: d.history.redoable } }
    return true

/-- Make the edit that was undone last again; without one nothing happens. An edit that cannot be
made again stays. -/
def redo : Attempt Document Bool := do
  -- To redo is to revert the command that undoing left.
  match (← get).history.redoable with
  | [] => return false
  | command :: rest =>
    let again ← onCanvas (Canvas.revert command)
    modify fun d => { d with history :=
      { d.history with undoable := again :: d.history.undoable, redoable := rest } }
    return true

end Document

end QuickEntry
