import QuickEntry.Proofs.Edit.Undo

/-! The depth of a history, which bounds the steps that can be undone and those that can be redone
together, although only a new step is ever checked against it. -/

namespace QuickEntry

namespace History

/-- What may be asked of a history; undoing and redoing meet whatever canvas is there by then. -/
inductive Request where
  | push (command : Command)
  | undo (canvas : Canvas)
  | redo (canvas : Canvas)
  | clear

/-- The history after a request. -/
def serve (h : History) : Request → History
  -- The outcome does not matter, so that undoing and redoing may fail or have nothing to do.
  | .push command => h.push command
  | .undo canvas => (Document.undo.on ⟨canvas, h⟩).2.history
  | .redo canvas => (Document.redo.on ⟨canvas, h⟩).2.history
  | .clear => h.clear

/-- The history after some requests. -/
def after (h : History) (requests : List Request) : History := requests.foldl serve h

/-- The number of steps that a history keeps, to be undone or redone. -/
def size (h : History) : Nat := h.undoable.length + h.redoable.length

/-- A history keeps no more steps than its depth says. -/
def Bounded (h : History) : Prop := h.size ≤ h.depth

variable {h : History} {command : Command}

/-- A bounded history has no more steps to undo than its depth says. -/
theorem Bounded.undoable_le (bounded : h.Bounded) : h.undoable.length ≤ h.depth :=
  -- Those to redo are counted beside them.
  Nat.le_trans (Nat.le_add_right _ _) bounded

/-- What a bounded history has no room for is forgotten when a step comes in. -/
theorem Bounded.push_eq (bounded : h.Bounded) (changes : command.isEmpty = false) :
    h.push command =
      { h with undoable := (command :: h.undoable).take h.depth, redoable := [] } := by
  -- One step at most is forgotten, and the bound says that one is enough.
  rw [push_of_changes changes, Nat.max_eq_right bounded.undoable_le]

/-- A step goes from one stack to the other, with another command in its place, or both stacks stay
as they are. -/
inductive Shifts (h : History) : History → Prop
  | stay : Shifts h h
  | undone {newest again : Command} {rest : List Command} (first : h.undoable = newest :: rest) :
      Shifts h { h with undoable := rest, redoable := again :: h.redoable }
  | redone {newest again : Command} {rest : List Command} (first : h.redoable = newest :: rest) :
      Shifts h { h with undoable := again :: h.undoable, redoable := rest }

/-- Undoing moves the newest step if it can be reverted. -/
theorem shifts_undo (canvas : Canvas) : h.Shifts (Document.undo.on ⟨canvas, h⟩).2.history := by
  -- Whether the step moves is decided by reverting it, on whatever canvas there is.
  rw [Document.on_undo]
  cases first : h.undoable with
  | nil => exact .stay
  | cons newest rest =>
    dsimp only
    cases (Canvas.revert newest).on canvas with
    | mk outcome after =>
      cases outcome with
      | ok again => exact .undone first
      | error e => exact .stay

/-- Redoing moves the step that was undone last if it can be reverted. -/
theorem shifts_redo (canvas : Canvas) : h.Shifts (Document.redo.on ⟨canvas, h⟩).2.history := by
  -- What was undone is a command that is reverted like any other.
  rw [Document.on_redo]
  cases first : h.redoable with
  | nil => exact .stay
  | cons newest rest =>
    dsimp only
    cases (Canvas.revert newest).on canvas with
    | mk outcome after =>
      cases outcome with
      | ok again => exact .redone first
      | error e => exact .stay

/-- A step that goes from one stack to the other is not counted twice. -/
theorem Shifts.size_eq {after : History} (shifts : h.Shifts after) : after.size = h.size := by
  -- One stack gets what the other one loses.
  cases shifts with
  | stay => rfl
  | undone first =>
    simp only [size, first, List.length_cons]
    omega
  | redone first =>
    simp only [size, first, List.length_cons]
    omega

/-- Moving a step does not change the depth. -/
theorem Shifts.depth_eq {after : History} (shifts : h.Shifts after) : after.depth = h.depth := by
  -- Only the stacks are exchanged.
  cases shifts <;> rfl

/-- No request changes the depth. -/
theorem depth_serve (h : History) (request : Request) : (h.serve request).depth = h.depth := by
  -- Forgetting everything starts a new history of the same depth.
  cases request with
  | push command =>
    rw [serve]
    cases changes : command.isEmpty with
    | true => rw [push_of_isEmpty changes]
    | false => rw [push_of_changes changes]
  | undo canvas => exact (shifts_undo canvas).depth_eq
  | redo canvas => exact (shifts_redo canvas).depth_eq
  | clear => rfl

/-- A bounded history is bounded after every request: a new step is counted alone with those that it
leaves to be undone, and moving a step between the stacks does not count it twice. -/
theorem Bounded.serve (bounded : h.Bounded) (request : Request) : (h.serve request).Bounded := by
  -- The depth stays, so that the two stacks together have to be compared with it before and after.
  rw [Bounded, depth_serve]
  cases request with
  | push command =>
    rw [History.serve]
    cases changes : command.isEmpty with
    | true => rwa [push_of_isEmpty changes]
    | false =>
      -- Nothing is left to redo, and what is left to undo was cut to the depth.
      rw [bounded.push_eq changes]
      simp only [size, List.length_nil, Nat.add_zero]
      exact List.length_take_le _ _
  | undo canvas => exact Nat.le_trans (Nat.le_of_eq (shifts_undo canvas).size_eq) bounded
  | redo canvas => exact Nat.le_trans (Nat.le_of_eq (shifts_redo canvas).size_eq) bounded
  | clear => exact Nat.zero_le _

/-- A bounded history is bounded after any requests, and has the depth that it had. -/
theorem Bounded.after (bounded : h.Bounded) (requests : List Request) :
    (h.after requests).Bounded ∧ (h.after requests).depth = h.depth := by
  -- The bound is handed on from request to request, together with the depth that it refers to.
  induction requests generalizing h with
  | nil => exact ⟨bounded, rfl⟩
  | cons request rest ih =>
    obtain ⟨still, same⟩ := ih (bounded.serve request)
    exact ⟨still, same.trans (depth_serve h request)⟩

/-- After any requests to a history of any depth, on whatever canvases, the steps that can be undone
and those that can be redone together are no more than the depth. A step that changes nothing is not
added. Any other one leaves nothing to redo and comes first among those to be undone, of which the
oldest one is forgotten if there is no room for it. -/
theorem within_depth (depth : Nat) (requests : List Request) :
    let h := (empty depth).after requests
    h.undoable.length + h.redoable.length ≤ depth ∧
    ∀ command : Command,
      (command.isEmpty = true → h.push command = h) ∧
      (command.isEmpty = false → (h.push command).redoable = [] ∧
        ∃ forgotten, command :: h.undoable = (h.push command).undoable ++ forgotten ∧
          forgotten.length ≤ 1 ∧
          (forgotten ≠ [] → (h.push command).undoable.length = depth)) := by
  intro h
  have start : (empty depth).Bounded := Nat.zero_le depth
  -- The bound holds from the start on, and the depth stays what it was.
  obtain ⟨bounded, same⟩ := start.after requests
  have same : h.depth = depth := same
  have within : h.undoable.length + h.redoable.length ≤ depth := by
    rw [← same]
    exact bounded
  refine ⟨within, fun command => ⟨push_of_isEmpty, fun changes => ?_⟩⟩
  rw [bounded.push_eq changes, same]
  -- What is forgotten is what the cut leaves out, at most one command.
  refine ⟨rfl, (command :: h.undoable).drop depth, (List.take_append_drop _ _).symm, ?_, ?_⟩
  · rw [List.length_drop, List.length_cons]
    omega
  · intro dropped
    have long : depth < (command :: h.undoable).length :=
      Nat.lt_of_not_le fun short => dropped (List.drop_eq_nil_of_le short)
    exact List.length_take_of_le (Nat.le_of_lt long)

/-- With a depth of one the first of two steps is forgotten. -/
theorem within_depth_one :
    let pick (n : Nat) : Command := .select none (some ⟨n⟩)
    let h := (empty 1).after [.push (pick 1)]
    (pick 2).isEmpty = false ∧ h.undoable = [pick 1] ∧ (h.push (pick 2)).redoable = [] ∧
      ∃ forgotten, [pick 2, pick 1] = (h.push (pick 2)).undoable ++ forgotten ∧
        forgotten.length ≤ 1 := by
  -- One step is kept, so a second one makes the first be forgotten.
  intro pick h
  obtain ⟨emptied, forgotten, parts, short, _⟩ :=
    ((within_depth 1 [.push (pick 1)]).2 (pick 2)).2 rfl
  exact ⟨rfl, rfl, emptied, forgotten, parts, short⟩

end History

end QuickEntry
