import QuickEntry.Proofs.Edit.Reversal

/-! Drafts whose log is a trail from where they started, and the edits that keep it so. -/

namespace QuickEntry

variable {g : Grain} {again : Prop}

namespace Draft

/-- The log of a draft is a trail from a canvas to the present one, whose graph is well-formed. -/
structure Traced (g : Grain) (again : Prop) (start : Canvas) (d : Draft) : Prop where
  trail : Trail g again start d.log.reverse d.canvas
  wf : d.canvas.workspace.WellFormed

/-- A draft without edits is traced. -/
theorem traced_start {c : Canvas} (wf : c.workspace.WellFormed) : Traced g again c (start c) :=
  -- Nothing has been recorded.
  ⟨.alike (.refl c), wf⟩

namespace Traced

variable {start c : Canvas} {d : Draft}

/-- A draft stays traced by one more step. -/
theorem turn (traced : Traced g again start d) {commands : List Command}
    (made : Turn g again d.canvas commands c) (wf : c.workspace.WellFormed) :
    Traced g again start ⟨c, commands.reverse ++ d.log⟩ := by
  -- The newest command comes first in the log and last on the trail.
  refine ⟨?_, wf⟩
  rw [List.reverse_append, List.reverse_reverse]
  exact traced.trail.append (.turn made)

/-- A draft stays traced on a like canvas. -/
theorem alike (traced : Traced g again start d) (same : d.canvas.Alike g c)
    (wf : c.workspace.WellFormed) : Traced g again start ⟨c, d.log⟩ :=
  -- The log leads to whatever is alike.
  ⟨traced.trail.to_alike same, wf⟩

/-- Taking back a traced draft leads to a canvas like the one at its start. -/
theorem rollback (traced : Traced g again start d) :
    start.Alike g d.rollback ∧ d.rollback.workspace.WellFormed := by
  -- The trail can be reverted from its very end.
  obtain ⟨redos, a, reverted, alike, wf, _⟩ := traced.trail.on_revert (.refl d.canvas) traced.wf
  have same : d.rollback = a := congrArg Prod.snd reverted
  rw [same]
  exact ⟨alike, wf⟩

end Traced

/-- Taking a detached node out is a trail, if the order of the nodes does not count. -/
theorem trail_remove {c : Canvas} (linked : c.workspace.Linked) (loose : ¬g.nodeOrder) {id : NodeId}
    {n : Node} {ws : Workspace} (removed : c.workspace.remove id = .ok (n, ws)) :
    Trail g again c [.delete n] { c with workspace := ws } := by
  obtain ⟨found, detached, rfl⟩ := Workspace.remove_eq_ok_iff.mp removed
  have own : n.id = id := linked.own found
  -- The node was there as if it had been added last.
  have added : c.Alike g { c with workspace := (c.workspace.without id).added n } :=
    ⟨Workspace.alike_added_without own found loose, fun _ => rfl⟩
  have absent : (c.workspace.without id).node? n.id = none := by
    rw [Workspace.node?_without, if_pos own]
  have gone : Turn g again _ ([] ++ [.delete n]) _ :=
    .gone (c := { c with workspace := c.workspace.without id }) absent (.refl detached)
      (fun some => absurd rfl some) (.alike (.refl _))
      ⟨fun _ => .refl n, fun some => absurd rfl some⟩
  exact Trail.of_alike added (.turn gone)

section Keeps

variable {start : Canvas}

/-- Moving a node keeps a draft traced, also if the node is refused. -/
theorem traces_move (child : NodeId) (target : Option Link) :
    (move child target).Keeps (Traced g again start) := by
  -- A refused node is back where it was, and a node that is in place stays there.
  refine (keeps_view _).bind fun node => ?_
  split
  · exact Attempt.keeps_pure _
  · intro d traced
    have linked := traced.wf.toLinked
    rw [on_record, Canvas.on_move]
    cases moved : (Workspace.move child target).on d.canvas.workspace with
    | mk outcome ws =>
      cases outcome with
      | ok source =>
        have wf := (Workspace.invariant_wellFormed.move child target).on traced.wf
        rw [moved] at wf
        exact traced.turn (.moved linked (linked.on_move_eq_ok_iff.mp moved)) wf
      | error e =>
        have same := linked.on_move_of_error moved
        subst same
        exact traced

/-- Selecting a node keeps a draft traced. -/
theorem traces_select (id : Option NodeId) : (select id).Keeps (Traced g again start) := by
  -- What is selected already is not selected again.
  refine Attempt.keeps_get.bind fun d => ?_
  split
  · intro d traced
    rw [on_record, Canvas.on_select]
    exact traced.turn .selected traced.wf
  · exact Attempt.keeps_pure _

/-- Deleting a detached node keeps a draft traced, if the order of nodes does not count. -/
theorem traces_delete (loose : ¬g.nodeOrder) (id : NodeId) :
    (record (Canvas.delete id)).Keeps (Traced g again start) := by
  -- A deletion puts the node back at another place of the order, so the order must not count.
  intro d traced
  rw [on_record, Canvas.on_delete]
  cases removed : d.canvas.workspace.remove id with
  | error e => exact traced
  | ok result =>
    obtain ⟨n, ws⟩ := result
    refine ⟨?_, traced.wf.remove removed⟩
    show Trail g again start (.delete n :: d.log).reverse _
    rw [List.reverse_cons]
    exact traced.trail.append (trail_remove traced.wf.toLinked loose removed)

end Keeps

end Draft

end QuickEntry
