import QuickEntry.Proofs.Edit.Snapshot
import QuickEntry.Proofs.Edit.Undo
import QuickEntry.Proofs.Reachable

/-! Every edit of a session is one step, which can be undone and redone any number of times. -/

namespace QuickEntry

/-- Canvases that are alike show the same nodes, and the same selection, if the grain counts the
order of fields and the selection. -/
theorem Canvas.Alike.shown {g : Grain} {c c' : Canvas} (alike : c.Alike g c')
    (ordered : g.fieldOrder) (counted : g.selection) (wf : c.workspace.WellFormed)
    (wf' : c'.workspace.WellFormed) :
    c'.workspace.snapshot = c.workspace.snapshot ∧ c'.selection = c.selection :=
  -- With the fields in the same order, a snapshot shows no difference.
  ⟨(alike.workspace.snapshot_eq ordered wf.toLinked wf'.toLinked).symm,
    (alike.selection counted).symm⟩

namespace Session

/-- Undoing in a session undoes in its document. -/
theorem on_undo (s : Session) :
    undo.on s = ((Document.undo.on s.document).1,
      { s with document := (Document.undo.on s.document).2 }) :=
  -- The document is undone, and nothing around it.
  on_onDocument Document.undo s

/-- Redoing in a session redoes in its document. -/
theorem on_redo (s : Session) :
    redo.on s = ((Document.redo.on s.document).1,
      { s with document := (Document.redo.on s.document).2 }) :=
  -- The document is redone, and nothing around it.
  on_onDocument Document.redo s

/-- A session after a number of rounds of undoing and redoing. -/
def rounds (s : Session) : Nat → Session
  | 0 => s
  | n + 1 => (redo.on (undo.on (s.rounds n)).2).2

/-- A document that remembers a canvas is led back to it by undoing, and forth again by redoing. -/
theorem on_round {g : Grain} {past : List Canvas} {before now : Canvas} {s : Session}
    (remembers : s.document.Remembers g False (before :: past) now []) :
    ∃ undone redone, undo.on s = (.ok true, undone) ∧ redo.on undone = (.ok true, redone) ∧
      before.Alike g undone.document.canvas ∧ undone.workspace.WellFormed ∧
      redone.document.Remembers g False (before :: past) now [] := by
  -- The canvas that is left is remembered for redoing.
  obtain ⟨undone, undid, middle, _⟩ := remembers.on_undo
  obtain ⟨redone, redid, last, _⟩ := middle.on_redo
  refine ⟨{ s with document := undone }, { s with document := redone }, ?_, ?_, middle.canvas,
    middle.wf, last⟩
  · rw [on_undo, undid]
  · rw [on_redo, redid]

/-- Rounds of undoing and redoing leave a session where it is. -/
theorem remembers_rounds {g : Grain} {past : List Canvas} {before now : Canvas} {s : Session}
    (remembers : s.document.Remembers g False (before :: past) now []) (n : Nat) :
    (s.rounds n).document.Remembers g False (before :: past) now [] := by
  -- Each round ends where it starts.
  induction n with
  | zero => exact remembers
  | succ n ih =>
    obtain ⟨undone, redone, undid, redid, _, _, last⟩ := on_round ih
    rw [rounds, undid, redid]
    exact last

/-- The finest grain at which an edit can always be undone and redone. -/
def Edit.grain : Edit → Grain
  -- What was deleted comes back as the newest node.
  | confirm _ => ⟨True, True, True⟩
  | delete _ => ⟨False, True, True⟩

/-- Every edit can be undone and redone at its own grain. -/
theorem Edit.suits_grain (edit : Edit) (ws : Workspace) : edit.Suits edit.grain ws := by
  -- With the order of nodes everything is settled.
  cases edit with
  | confirm o => exact fun _ => .inl trivial
  | delete _ => exact False.elim

/-- An edit that is made in a session with a well-formed graph and some history is one step. Undoing
it leads to the nodes and the selection before the edit, and redoing it to those after the edit, and
this can be repeated any number of times. -/
theorem undo_redo_of_edit {s after : Session} {edit : Edit} (wf : s.workspace.WellFormed)
    (deep : 1 ≤ s.document.history.depth) (made : edit.attempt.on s = (.ok (), after)) (n : Nat) :
    ∃ undone redone,
      undo.on (after.rounds n) = (.ok true, undone) ∧
      undone.workspace.snapshot = s.workspace.snapshot ∧
      undone.document.canvas.selection = s.document.canvas.selection ∧
      redo.on undone = (.ok true, redone) ∧
      redone.workspace.snapshot = after.workspace.snapshot ∧
      redone.document.canvas.selection = after.document.canvas.selection := by
  -- The history remembers the canvas before the edit.
  have stepped := Edit.on_attempt True wf (edit.suits_grain s.workspace)
  rw [made] at stepped
  have start : s.document.Remembers edit.grain False [] s.document.canvas [] :=
    ⟨.refl _, wf, .rest False.elim, .rest False.elim⟩
  obtain ⟨remembers, _⟩ := start.step stepped
  -- A history of some depth has room for it.
  have room : 1 ≤ max s.document.history.undoable.length s.document.history.depth :=
    Nat.le_trans deep (Nat.le_max_right _ _)
  rw [List.take_of_length_le room] at remembers
  -- So do all later rounds.
  obtain ⟨undone, redone, undid, redid, back, wf', last⟩ := on_round (remembers_rounds remembers n)
  have counts : edit.grain.fieldOrder ∧ edit.grain.selection := by
    cases edit <;> exact ⟨trivial, trivial⟩
  obtain ⟨nodes, selection⟩ := back.shown counts.1 counts.2 wf wf'
  obtain ⟨nodes', selection'⟩ := last.canvas.shown counts.1 counts.2 stepped.wf last.wf
  exact ⟨undone, redone, undid, nodes, selection, redid, nodes', selection'⟩

/-- A call that is entered behind the first of two statements, which puts the second one behind the
call, and the second one deleted with the statement in it, which puts a third one into its place,
can both be undone and redone three times over. -/
theorem undo_redo_between_statements :
    let command (next : Option Block) : Block := ⟨"lexical_variable_set", none, ∅, none, [], next⟩
    let conditional : Block :=
      ⟨"controls_if", none, ∅, none, [("DO0", command none)], some (command none)⟩
    let ws := ((Workspace.empty ∅).append ∅ (command (some conditional))).2.workspace
    let s : Session := ⟨⟨⟨ws, some ⟨1⟩⟩, .empty 1⟩, {}, none, "call"⟩
    let enter := Edit.confirm ⟨"procedures_callnoreturn", "call", none, none⟩
    let after (edit : Edit) := (edit.attempt.on s).2
    ((after enter).workspace.occupant? (.next ⟨1⟩) = some ⟨5⟩ ∧
      (after enter).workspace.occupant? (.next ⟨5⟩) = some ⟨2⟩) ∧
    ((after (.delete ⟨2⟩)).workspace.occupant? (.next ⟨1⟩) = some ⟨4⟩ ∧
      (after (.delete ⟨2⟩)).workspace.node? ⟨3⟩ = none) ∧
    ∀ edit ∈ [enter, .delete ⟨2⟩], ∃ undone redone,
      undo.on ((after edit).rounds 2) = (.ok true, undone) ∧
      undone.workspace.snapshot = s.workspace.snapshot ∧
      undone.document.canvas.selection = s.document.canvas.selection ∧
      redo.on undone = (.ok true, redone) ∧
      redone.workspace.snapshot = (after edit).workspace.snapshot ∧
      redone.document.canvas.selection = (after edit).document.canvas.selection := by
  -- A call is put between a command and a conditional; instead, the conditional is deleted with
  -- what it holds.
  intro command conditional ws s enter after
  have built : Workspace.Built ∅ ws := Workspace.Built.empty.append ∅ _
  have entered : enter.attempt.on s = (.ok (), after enter) := Prod.ext (by decide +kernel) rfl
  have deleted : (Edit.delete ⟨2⟩).attempt.on s = (.ok (), after (.delete ⟨2⟩)) :=
    Prod.ext (by decide +kernel) rfl
  refine ⟨⟨by decide +kernel, by decide +kernel⟩, ⟨by decide +kernel, by decide +kernel⟩, ?_⟩
  intro edit listed
  have made : edit.attempt.on s = (.ok (), after edit) := by
    rcases List.mem_pair.mp listed with rfl | rfl
    · exact entered
    · exact deleted
  exact undo_redo_of_edit (s := s) built.wellFormed (Nat.le_refl 1) made 2

end Session

end QuickEntry
