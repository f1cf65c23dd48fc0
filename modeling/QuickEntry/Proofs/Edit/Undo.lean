import QuickEntry.Proofs.Edit.Step

/-! Undoing and redoing along trails, which leads back and forth between like canvases. -/

namespace QuickEntry

variable {g : Grain} {closed : Prop}

/-- Commands of which each one leads back from one canvas to the next, as far as canvases are
listed; there are no more commands than canvases if the list is closed. -/
inductive Stacked (g : Grain) (closed : Prop) : Canvas → List Command → List Canvas → Prop
  /-- No further canvas is listed. -/
  | rest {a : Canvas} {stack : List Command} (ends : closed → stack = []) :
      Stacked g closed a stack []
  /-- The newest command leads back to the first canvas that is listed. -/
  | cons {a b : Canvas} {commands : List Command} {stack : List Command} {canvases : List Canvas}
      (trail : Trail g True b commands a) (more : Stacked g closed b stack canvases) :
      Stacked g closed a (.batch commands :: stack) (b :: canvases)

/-- The oldest commands may be forgotten together with their canvases. -/
theorem Stacked.take {a : Canvas} {stack : List Command} {canvases : List Canvas}
    (stacked : Stacked g closed a stack canvases) (depth : Nat) :
    Stacked g closed a (stack.take depth) (canvases.take depth) := by
  -- Both lists are cut at the same depth.
  induction stacked generalizing depth with
  | rest ends =>
    rw [List.take_nil]
    exact .rest fun whole => by rw [ends whole, List.take_nil]
  | cons trail _ ih =>
    cases depth with
    | zero => exact .rest fun _ => rfl
    | succ depth => exact .cons trail (ih depth)

namespace Document

/-- Undoing reverts the newest command and keeps what makes it again. -/
theorem on_undo (d : Document) :
    undo.on d =
      match d.history.undoable with
      | [] => (.ok false, d)
      | command :: rest =>
        match (Canvas.revert command).on d.canvas with
        | (.ok again, canvas) => (.ok true, ⟨canvas,
            { d.history with undoable := rest, redoable := again :: d.history.redoable }⟩)
        | (.error e, canvas) => (.error e, { d with canvas }) := by
  -- The stacks change after the canvas.
  simp only [undo, Attempt.on_bind, Attempt.on_get]
  cases d.history.undoable with
  | nil => rfl
  | cons command rest =>
    simp only [Attempt.on_bind, onCanvas, Attempt.on_within]
    cases (Canvas.revert command).on d.canvas with
    | mk outcome canvas => cases outcome <;> rfl

/-- Redoing reverts the command that undoing kept, and keeps what undoes it again. -/
theorem on_redo (d : Document) :
    redo.on d =
      match d.history.redoable with
      | [] => (.ok false, d)
      | command :: rest =>
        match (Canvas.revert command).on d.canvas with
        | (.ok again, canvas) => (.ok true, ⟨canvas,
            { d.history with undoable := again :: d.history.undoable, redoable := rest }⟩)
        | (.error e, canvas) => (.error e, { d with canvas }) := by
  -- The stacks change after the canvas.
  simp only [redo, Attempt.on_bind, Attempt.on_get]
  cases d.history.redoable with
  | nil => rfl
  | cons command rest =>
    simp only [Attempt.on_bind, onCanvas, Attempt.on_within]
    cases (Canvas.revert command).on d.canvas with
    | mk outcome canvas => cases outcome <;> rfl

/-- A document is at one of several canvases, and its history leads back and forth between them. -/
structure Remembers (g : Grain) (closed : Prop) (past : List Canvas) (now : Canvas)
    (future : List Canvas) (d : Document) : Prop where
  canvas : now.Alike g d.canvas
  wf : d.canvas.workspace.WellFormed
  undoable : Stacked g closed now d.history.undoable past
  redoable : Stacked g closed now d.history.redoable future

namespace Remembers

variable {past future : List Canvas} {now other : Canvas} {d next : Document}

/-- Undoing leads to the canvas before. -/
theorem on_undo (remembers : Remembers g closed (other :: past) now future d) :
    ∃ next, undo.on d = (.ok true, next) ∧ Remembers g closed past other (now :: future) next ∧
      next.history.depth = d.history.depth := by
  obtain ⟨canvas, wf, undoable, redoable⟩ := remembers
  rw [Document.on_undo]
  generalize d.history.undoable = stack at undoable
  cases undoable with
  | cons trail more =>
    -- The trail is reverted, which leaves a trail for redoing.
    obtain ⟨redos, c, reverted, alike, wf', back⟩ := trail.on_revert canvas wf
    simp only [reverted]
    exact ⟨_, rfl, ⟨alike, wf', more, .cons (back trivial) redoable⟩, rfl⟩

/-- Redoing leads to the canvas after. -/
theorem on_redo (remembers : Remembers g closed past now (other :: future) d) :
    ∃ next, redo.on d = (.ok true, next) ∧ Remembers g closed (now :: past) other future next ∧
      next.history.depth = d.history.depth := by
  obtain ⟨canvas, wf, undoable, redoable⟩ := remembers
  rw [Document.on_redo]
  generalize d.history.redoable = stack at redoable
  cases redoable with
  | cons trail more =>
    -- The trail is reverted, which leaves a trail for undoing.
    obtain ⟨redos, c, reverted, alike, wf', back⟩ := trail.on_revert canvas wf
    simp only [reverted]
    exact ⟨_, rfl, ⟨alike, wf', .cons (back trivial) undoable, more⟩, rfl⟩

/-- Without a canvas before there is nothing to undo. -/
theorem on_undo_nil (remembers : Remembers g True [] now future d) :
    undo.on d = (.ok false, d) := by
  -- The history has no command to revert.
  obtain ⟨_, _, undoable, _⟩ := remembers
  rw [Document.on_undo]
  generalize d.history.undoable = stack at undoable
  cases undoable with
  | rest ends => rw [ends trivial]

/-- Without a canvas after there is nothing to redo. -/
theorem on_redo_nil (remembers : Remembers g True past now [] d) :
    redo.on d = (.ok false, d) := by
  -- The history has no command to revert.
  obtain ⟨_, _, _, redoable⟩ := remembers
  rw [Document.on_redo]
  generalize d.history.redoable = stack at redoable
  cases redoable with
  | rest ends => rw [ends trivial]

/-- After a step the canvas before it is remembered, as far as the history has room for it, and no
canvas comes after. -/
theorem step (remembers : Remembers g closed past now future d) (stepped : Stepped g True d next) :
    Remembers g closed ((now :: past).take (max d.history.undoable.length d.history.depth))
        next.canvas [] next ∧
      next.history.depth = d.history.depth := by
  obtain ⟨commands, trail, marked, pushed⟩ := stepped.step
  -- The step is on top of what can be undone.
  have history := pushed.trans (History.push_of_changes marked)
  have stacked : Stacked g closed next.canvas (.batch commands :: d.history.undoable)
      (now :: past) := .cons (trail.of_alike remembers.canvas) remembers.undoable
  refine ⟨⟨.refl _, stepped.wf, ?_, ?_⟩, ?_⟩
  · rw [history]
    exact stacked.take _
  · rw [history]
    exact .rest fun _ => rfl
  · rw [history]

/-- Without a step everything is remembered as before. -/
theorem stay (remembers : Remembers g closed past now future d) (stayed : Unstepped g d next) :
    Remembers g closed past now future next ∧ next.history.depth = d.history.depth := by
  -- The history is the same, and the canvas is a like one.
  refine ⟨⟨remembers.canvas.trans stayed.alike, stayed.wf, ?_, ?_⟩, by rw [stayed.history]⟩
  · rw [stayed.history]
    exact remembers.undoable
  · rw [stayed.history]
    exact remembers.redoable

end Remembers

end Document

end QuickEntry
