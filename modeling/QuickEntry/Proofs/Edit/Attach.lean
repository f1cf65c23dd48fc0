import QuickEntry.Proofs.Edit.Command
import QuickEntry.Proofs.Edit.Move
import QuickEntry.Proofs.Graph.Splice

/-! Attaching a detached node in a draft, which always succeeds where the place suits the node. -/

namespace QuickEntry

namespace Workspace

variable {ws : Workspace} {child : NodeId} {place : Link}

/-- To part a node from its place is to move it nowhere. -/
theorem moved_part (placed : ws.placeOf? child = some place) :
    ws.Moved child (some place) none (ws.part child place) where
  -- Freeing the child takes it out of the place that it has.
  found := (node?_of_placeOf? placed).imp fun _ => And.left
  source := placed
  target := by rw [freed, placed, put]

/-- To join a node to a place that it can take is to move it there. -/
theorem CanTake.moved {n holder : Node} (can : ws.CanTake child place n holder) :
    ws.Moved child none (some place) (ws.join child place) where
  -- A block without a place is plugged straight in.
  found := ⟨n, can.found⟩
  source := (placeOf?_of_node? can.found).trans can.free
  target := by
    rw [freed_of_placeOf? ((placeOf?_of_node? can.found).trans can.free)]
    exact plug_eq_ok_iff.mpr ⟨⟨n, holder, can⟩, rfl⟩

/-- The chain of a node without a follower ends at the node. -/
theorem chainEnd_of_next {n : Node} (found : ws.node? child = some n) (last : n.next = none) :
    ws.chainEnd child = child := by
  -- No step of the walk leads on.
  unfold chainEnd
  cases ws.nodes.size with
  | zero => rfl
  | succ steps => rw [follow, found, Option.bind_some, last]

/-- A node can go behind another one: this one has a connector after it, and the node has one before
it. -/
def joins (ws : Workspace) (tail displaced : NodeId) : Bool :=
  (ws.node? tail).any (·.hasNext) && (ws.node? displaced).any (·.hasPrevious)

/-- Nodes that can follow one another are there and have the connectors between them. -/
theorem joins_iff {tail displaced : NodeId} :
    ws.joins tail displaced = true ↔ (∃ t, ws.node? tail = some t ∧ t.hasNext = true) ∧
      ∃ d, ws.node? displaced = some d ∧ d.hasPrevious = true := by
  -- Both connections are tested where the blocks are known.
  simp [joins, Option.any_eq_true]

end Workspace

namespace Draft

variable {ws ws' : Workspace} {selection : Option NodeId} {log : List Command} {child : NodeId}
  {place : Link}

/-- To look at the graph changes nothing. -/
theorem on_view {α : Type} (look : Workspace → α) (d : Draft) :
    (view look).on d = (.ok (look d.canvas.workspace), d) := rfl

/-- After a node is selected it is the selected one, whether or not it was so before. -/
theorem on_select (id : Option NodeId) (ws : Workspace) (selection : Option NodeId)
    (log : List Command) :
    ∃ log', (select id).on ⟨⟨ws, selection⟩, log⟩ = (.ok (), ⟨⟨ws, id⟩, log'⟩) := by
  -- A selection that is already there is not recorded.
  by_cases same : selection = id
  · subst same
    exact ⟨log, by simp [select, Attempt.on_bind]⟩
  · exact ⟨.select selection id :: log, by
      simp [select, Attempt.on_bind, same, on_record, Canvas.on_select]⟩

/-- A move that can be made is made, and logged, unless it leads nowhere new. -/
theorem on_move (linked : ws.Linked) {source target : Option Link}
    (moved : ws.Moved child source target ws') (leaves : source ≠ target) :
    (move child target).on ⟨⟨ws, selection⟩, log⟩ =
      (.ok (), ⟨⟨ws', selection⟩, .move child source target :: log⟩) := by
  -- The block leaves its place, so the move is recorded, and the canvas carries it out.
  obtain ⟨n, found⟩ := moved.found
  have away : ¬n.parent = target := by
    rw [← Workspace.placeOf?_of_node? found, moved.source]
    exact leaves
  simp only [move, Attempt.on_bind, on_view, found, Option.any_some, away, decide_false,
    Bool.false_eq_true, if_false, on_record, Canvas.on_move, linked.on_move_eq_ok_iff.mpr moved]

/-- A displaced node is moved behind a chain if the two join. -/
theorem on_moveBehind_eq (ws : Workspace) (displaced child : NodeId) (selection : Option NodeId)
    (log : List Command) :
    (moveBehind displaced child).on ⟨⟨ws, selection⟩, log⟩ =
      if ws.joins (ws.chainEnd child) displaced then
        (move displaced (some (.next (ws.chainEnd child)))).on ⟨⟨ws, selection⟩, log⟩
      else (.ok (), ⟨⟨ws, selection⟩, log⟩) := by
  -- The two tests of the program are the two sides of the condition.
  cases joins : ws.joins (ws.chainEnd child) displaced <;> rw [Workspace.joins] at joins <;>
    simp only [moveBehind, Attempt.on_bind, Attempt.on_pure, on_view, joins, Bool.false_eq_true,
      if_false, if_true]

/-- A displaced node that can follow another one, which has no follower, is moved behind it. -/
theorem on_moveBehind (linked : ws.Linked) {displaced : NodeId} {f m : Node}
    (can : ws.CanTake displaced (.next child) f m) :
    (moveBehind displaced child).on ⟨⟨ws, selection⟩, log⟩ = (.ok (),
      ⟨⟨ws.join displaced (.next child), selection⟩,
        .move displaced none (some (.next child)) :: log⟩) := by
  -- The block is the last of its own chain.
  have last : ws.chainEnd child = child := Workspace.chainEnd_of_next can.offered can.empty
  have joins : ws.joins child displaced = true :=
    Workspace.joins_iff.mpr ⟨⟨m, can.offered, can.fits.1⟩, f, can.found, can.fits.2⟩
  rw [on_moveBehind_eq, last, if_pos joins]
  exact on_move linked can.moved (by simp)

/-- To attach a node is to detach what has its place, to move the node there, and to move what had
the place behind it. -/
theorem attach_eq (child : NodeId) (place : Link) :
    attach child place = view (·.occupant? place) >>= fun displaced =>
      displaced.forM detach >>= fun _ => move child (some place) >>= fun _ =>
        displaced.forM fun displaced => moveBehind displaced child := rfl

/-- A detached node that can come into a place is attached there. -/
theorem on_attach {n holder : Node} (enter : ws.CanEnter child place n holder)
    (linked : ws.Linked) (selection : Option NodeId) (log : List Command) :
    ∃ log', (attach child place).on ⟨⟨ws, selection⟩, log⟩ =
      (.ok (), ⟨⟨ws.spliced child place, selection⟩, log'⟩) := by
  rw [attach_eq, Attempt.on_bind, on_view, Workspace.spliced]
  cases taken : ws.occupant? place with
  | none =>
    -- The node goes straight into the free place.
    have free := enter.canTake linked taken
    refine ⟨.move child none (some place) :: log, ?_⟩
    simp only [Option.forM, Attempt.on_bind, Attempt.on_pure,
      on_move linked free.moved (by simp)]
  | some follower =>
    -- The displaced node makes room, the new one moves in, and the displaced one goes behind it.
    have placed := (enter.displaced linked taken).1
    have cleared := linked.part placed
    have roomy := enter.canTake_part linked taken
    obtain ⟨f, m, behind⟩ := enter.canTake_follower linked taken
    refine ⟨.move follower none (some (.next child)) :: .move child none (some place) ::
      .move follower (some place) none :: log, ?_⟩
    simp only [Option.forM, detach, Attempt.on_bind,
      on_move linked (Workspace.moved_part placed) (by simp), on_move cleared roomy.moved (by simp),
      on_moveBehind (roomy.linked_join cleared) behind]

end Draft

end QuickEntry
