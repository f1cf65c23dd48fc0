import QuickEntry.Proofs.Edit.Command
import QuickEntry.Proofs.Edit.Move
import QuickEntry.Proofs.Reachable

/-! Moving a node is all or nothing: a refused move leaves everything as it is, and a move that is
made can be taken back. -/

namespace QuickEntry

/-- A move is refused because the node is not there, or for the reason for which the node that has
left its place is not taken in the new one. -/
theorem Workspace.Linked.cause_of_on_move {ws ws' : Workspace} (linked : ws.Linked)
    {child : NodeId} {target : Option Link} {e : EditError}
    (refused : (move child target).on ws = (.error e, ws')) :
    ws.node? child = none ∧ e = .unknownNode child ∨
      ∃ source freed place, ws.unplug child = .ok (source, freed) ∧ target = some place ∧
        freed.plug child place = .error e := by
  rw [linked.on_move] at refused
  cases found : ws.node? child with
  | none =>
    rw [found] at refused
    cases refused
    exact .inl ⟨rfl, rfl⟩
  | some n =>
    simp only [found] at refused
    -- Without a new place there is nothing that could refuse the node.
    cases target with
    | none => cases refused
    | some place =>
      refine .inr ⟨n.parent, ws.freed child, place, unplug_eq found, rfl, ?_⟩
      simp only [Workspace.put] at refused
      split at refused
      · cases refused
      · cases refused
        assumption

namespace Canvas

/-- A move of a node of a well-formed graph is made or refused as a whole. A refused one leaves the
canvas as it is, and is refused because the node is not there, or else for the reason for which the
node that has left its place is not taken in the new one. One that is made tells the place before,
and moving the node back there leads to exactly the same canvas again. A node that is unplugged can
always be plugged in again where it was, which leads to the same graph. -/
theorem move_all_or_nothing {c : Canvas} (wf : c.workspace.WellFormed) (child : NodeId)
    (target : Option Link) :
    (∀ e c', (move child target).on c = (.error e, c') → c' = c ∧
      (c.workspace.node? child = none ∧ e = .unknownNode child ∨
        ∃ source freed place, c.workspace.unplug child = .ok (source, freed) ∧
          target = some place ∧ freed.plug child place = .error e)) ∧
    (∀ command c', (move child target).on c = (.ok command, c') →
      ∃ source, command = .move child source target ∧ c.workspace.placeOf? child = source ∧
        (move child source).on c' = (.ok (.move child target source), c)) ∧
    ∀ source freed, c.workspace.unplug child = .ok (source, freed) →
      match source with
      | none => freed = c.workspace
      | some place => freed.plug child place = .ok c.workspace := by
  -- A move that fails has put the child back; one that succeeds is undone by the move to its old
  -- place.
  have linked := wf.toLinked
  obtain ⟨ws, selection⟩ := c
  refine ⟨fun e c' refused => ?_, fun command c' made => ?_, fun source freed unplugged => ?_⟩
  · rw [on_move] at refused
    cases moves : (Workspace.move child target).on ws with
    | mk outcome next =>
      rw [moves] at refused
      cases outcome with
      | ok source => cases refused
      | error cause =>
        cases refused
        rw [linked.on_move_of_error moves]
        exact ⟨rfl, linked.cause_of_on_move moves⟩
  · rw [on_move] at made
    cases moves : (Workspace.move child target).on ws with
    | mk outcome next =>
      rw [moves] at made
      cases outcome with
      | error e => cases made
      | ok source =>
        cases made
        -- The way back is a move as well.
        have moved := linked.on_move_eq_ok_iff.mp moves
        have back := (moved.linked linked).on_move_eq_ok_iff.mpr (moved.back linked)
        exact ⟨source, rfl, moved.source, by rw [on_move, back]⟩
  · -- Freeing the child and putting it back is the identity.
    obtain ⟨⟨n, found, rfl⟩, rfl⟩ := Workspace.unplug_eq_ok_iff.mp unplugged
    have back := linked.put_freed found
    cases parent : n.parent with
    | none => rw [parent] at back; exact Except.ok.inj back
    | some place => rw [parent] at back; exact back

/-- A number stays where it is when it is to go where a truth value belongs, and goes back there
after it was taken out. -/
theorem move_all_or_nothing_number :
    let bare (kind : String) : Block := ⟨kind, none, ∅, none, [], none⟩
    let root : Block := ⟨"math_single", none, ∅, none, [("NUM", bare "math_number")], none⟩
    let ws := (((Workspace.empty ∅).append ∅ (bare "logic_negate")).2.workspace.append ∅
      root).2.workspace
    let c : Canvas := ⟨ws, none⟩
    let place : Link := .socket ⟨2⟩ "NUM"
    (∃ e, (move ⟨3⟩ (some (.socket ⟨1⟩ "BOOL"))).on c = (.error e, c)) ∧
      ∃ c', (move ⟨3⟩ none).on c = (.ok (.move ⟨3⟩ (some place) none), c') ∧
        (move ⟨3⟩ (some place)).on c' = (.ok (.move ⟨3⟩ none (some place)), c) := by
  -- A number is refused where a condition is asked for, and is back in its socket after it was
  -- taken out.
  intro bare root ws c place
  have built : Workspace.Built ∅ ws := (Workspace.Built.empty.append ∅ _).append ∅ _
  have wf : ws.WellFormed := built.wellFormed
  have refused : ((Workspace.move ⟨3⟩ (some (.socket ⟨1⟩ "BOOL"))).on ws).1 =
      .error (.incompatible ⟨3⟩ (.socket ⟨1⟩ "BOOL") .typeMismatch) := by decide +kernel
  have made : ((Workspace.move ⟨3⟩ none).on ws).1 = .ok (some place) := by decide +kernel
  clear built
  clear_value ws
  constructor
  · have moves := on_move ⟨3⟩ (some (.socket ⟨1⟩ "BOOL")) c
    rw [show (Workspace.move ⟨3⟩ _).on c.workspace = (_, _) from Prod.ext refused rfl] at moves
    obtain ⟨same, _⟩ := (move_all_or_nothing (c := c) wf ⟨3⟩ _).1 _ _ moves
    exact ⟨_, moves.trans (congrArg _ same)⟩
  · have moves := on_move ⟨3⟩ none c
    rw [show (Workspace.move ⟨3⟩ _).on c.workspace = (_, _) from Prod.ext made rfl] at moves
    obtain ⟨source, same, _, back⟩ := (move_all_or_nothing (c := c) wf ⟨3⟩ none).2.1 _ _ moves
    cases same
    exact ⟨_, moves, back⟩

end Canvas

end QuickEntry
