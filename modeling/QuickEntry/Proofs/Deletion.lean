import QuickEntry.Proofs.Edit.Attach
import QuickEntry.Proofs.Edit.Step
import QuickEntry.Proofs.Graph.Excision
import QuickEntry.Proofs.Graph.Fresh

/-! Deleting a node with what is in its sockets: what goes, what stays, and what heals. -/

namespace QuickEntry

namespace Draft

variable {ws : Workspace} {n : Node}

/-- A node that is there is taken out of its place, if it has one. -/
theorem on_detach (linked : ws.Linked) {child : NodeId} (found : ws.node? child = some n)
    (selection : Option NodeId) (log : List Command) :
    ∃ log', (detach child).on ⟨⟨ws, selection⟩, log⟩ =
      (.ok (), ⟨⟨ws.freed child, selection⟩, log'⟩) := by
  -- A node without a place is left alone, any other is moved out of it.
  have placed := Workspace.placeOf?_of_node? found
  cases parent : n.parent with
  | none =>
    refine ⟨log, ?_⟩
    rw [Workspace.freed_of_placeOf? (placed.trans parent)]
    simp [detach, move, Attempt.on_bind, on_view, found, parent]
  | some place =>
    have moved := Workspace.moved_part (placed.trans parent)
    have freed : ws.freed child = ws.part child place := by
      rw [Workspace.freed, placed.trans parent]
    exact ⟨.move child (some place) none :: log, freed ▸ on_move linked moved (by simp)⟩

/-- The next node to be taken away is deleted, if the top is on its own. -/
theorem on_discard {top id : NodeId} {rest : List NodeId} (dismantles : ws.Dismantles (id :: rest))
    (linked : ws.Linked) (alone : ws.placeOf? top = none) (selection : Option NodeId)
    (log : List Command) :
    ∃ log', (discard top id).on ⟨⟨ws, selection⟩, log⟩ =
      (.ok (), ⟨⟨ws.taken id, selection⟩, log'⟩) := by
  -- A freed node that holds nothing can be removed.
  obtain ⟨m, there, detached⟩ := dismantles.detached linked
  have removed : (ws.freed id).remove id = .ok (m, ws.taken id) :=
    Workspace.remove_eq_ok_iff.mpr ⟨there, detached, rfl⟩
  unfold discard
  by_cases same : id = top
  · -- The top has no place to lose.
    have free : ws.freed id = ws := Workspace.freed_of_placeOf? (same ▸ alone)
    rw [free] at removed
    refine ⟨.delete m :: log, ?_⟩
    rw [if_neg (not_not_intro same)]
    simp only [on_record, Canvas.on_delete, removed]
  · obtain ⟨n, found⟩ := dismantles.known id List.mem_cons_self
    obtain ⟨log', freed⟩ := on_detach linked found selection log
    refine ⟨.delete m :: log', ?_⟩
    rw [if_pos same]
    simp only [Attempt.on_bind, freed, on_record, Canvas.on_delete, removed]

/-- Nodes that can be taken away one after the other are, if the top of them is on its own. -/
theorem on_dismantle {top : NodeId} {ids : List NodeId} (selection : Option NodeId) :
    ∀ {ws : Workspace} (log : List Command), ws.Dismantles ids → ws.Linked →
      ws.placeOf? top = none → ∃ log', (ids.forM (discard top)).on ⟨⟨ws, selection⟩, log⟩ =
        (.ok (), ⟨⟨ws.dismantled ids, selection⟩, log'⟩) := by
  -- What is left can be taken apart further, and the top stays on its own.
  induction ids with
  | nil => exact fun log _ _ _ => ⟨log, rfl⟩
  | cons id rest ih =>
    intro ws log dismantles linked alone
    obtain ⟨log₁, first⟩ := on_discard dismantles linked alone selection log
    obtain ⟨log₂, others⟩ := ih log₁ (dismantles.tail linked) (dismantles.linked_taken linked)
      (linked.placeOf?_taken_of_none alone id)
    refine ⟨log₂, ?_⟩
    show (discard top id >>= fun _ => rest.forM (discard top)).on _ = _
    rw [Attempt.on_bind, first]
    exact others

/-- What follows a node loses its place. -/
theorem on_unchain (linked : ws.Linked) (found : ws.node? n.id = some n)
    (selection : Option NodeId) (log : List Command) :
    ∃ log', (n.next.forM detach).on ⟨⟨ws, selection⟩, log⟩ =
      (.ok (), ⟨⟨ws.unchained n, selection⟩, log'⟩) := by
  -- The follower has a place, since links are recorded on both sides.
  unfold Workspace.unchained
  cases next : n.next with
  | none => exact ⟨log, rfl⟩
  | some follower =>
    obtain ⟨f, known, _⟩ :=
      Workspace.node?_of_placeOf? (linked.placeOf?_follower found next)
    exact on_detach linked known selection log

/-- A node that has lost its follower loses its place, if it has one. -/
theorem on_loosen (linked : ws.Linked) (found : ws.node? n.id = some n)
    (selection : Option NodeId) (log : List Command) :
    ∃ log', (n.parent.forM fun _ => detach n.id).on ⟨⟨ws.unchained n, selection⟩, log⟩ =
      (.ok (), ⟨⟨ws.loosened n, selection⟩, log'⟩) := by
  -- The node has the place that it had when its follower was there.
  have top := linked.node?_unchained found n.id
  rw [if_pos rfl] at top
  cases parent : n.parent with
  | none =>
    have alone : (ws.unchained n).placeOf? n.id = none :=
      (Workspace.placeOf?_of_node? top).trans parent
    refine ⟨log, ?_⟩
    rw [Workspace.loosened, Workspace.freed_of_placeOf? alone]
    rfl
  | some place => exact on_detach (linked.unchained n) top selection log

/-- What followed a node that is no expression takes the place of the node. -/
theorem on_mend (linked : ws.Linked) (found : ws.node? n.id = some n)
    (plain : n.output = none ∨ n.hasNext = false) (selection : Option NodeId)
    (log : List Command) :
    ∃ log', (n.next.forM fun follower => n.parent.forM fun place => move follower (some place)).on
        ⟨⟨ws.vacated n, selection⟩, log⟩ =
      (.ok (), ⟨⟨ws.excised n, selection⟩, log'⟩) := by
  -- Without a follower or a place there is nothing to mend.
  unfold Workspace.excised Workspace.mended
  cases next : n.next with
  | none => exact ⟨log, rfl⟩
  | some follower =>
    cases parent : n.parent with
    | none => exact ⟨log, rfl⟩
    | some place =>
      obtain ⟨f, holder, can⟩ := linked.canTake_follower found plain next parent
      exact ⟨_, on_move (linked.vacated found) can.moved (by simp)⟩

/-- Deleting a node that is not there is refused at once. -/
theorem on_deleteSubtree_of_absent {id : NodeId} {d : Draft}
    (absent : d.canvas.workspace.node? id = none) :
    (deleteSubtree id).on d = (.error (.unknownNode id), d) := by
  -- The node is looked up first.
  simp [deleteSubtree, Attempt.on_bind, Workspace.get, absent]

/-- A node that is no expression is cut out of the graph once the selection is settled. -/
theorem on_excise (linked : ws.Linked) (found : ws.node? n.id = some n)
    (plain : n.output = none ∨ n.hasNext = false) (selection : Option NodeId)
    (log : List Command) :
    ∃ log', (excise n.id n (ws.subtree n.id false)).on ⟨⟨ws, selection⟩, log⟩ =
      (.ok (), ⟨⟨ws.excised n, selection⟩, log'⟩) := by
  have unchained := linked.unchained n
  have alone : (ws.loosened n).placeOf? n.id = none :=
    (unchained.placeOf?_freed_eq n.id n.id).trans (if_pos rfl)
  -- The parts of the deletion are those of the graph without the node, one after the other.
  obtain ⟨log₁, unchain⟩ := on_unchain linked found selection log
  obtain ⟨log₂, loosen⟩ := on_loosen linked found selection log₁
  obtain ⟨log₃, taken⟩ := on_dismantle selection log₂ (linked.dismantles found)
    (unchained.freed n.id) alone
  obtain ⟨log₄, mend⟩ := on_mend linked found plain selection log₃
  refine ⟨log₄, ?_⟩
  have order : (ws.subtree n.id false).reverse = ws.doomed n := rfl
  simp only [excise, Attempt.on_bind, unchain, loosen, order, taken]
  exact mend

/-- A node that is no expression is deleted with what is in its sockets, and a selection among the
deleted nodes is given up. -/
theorem on_deleteSubtree (linked : ws.Linked) (found : ws.node? n.id = some n)
    (plain : n.output = none ∨ n.hasNext = false) (selection : Option NodeId)
    (log : List Command) :
    ∃ log', (deleteSubtree n.id).on ⟨⟨ws, selection⟩, log⟩ =
      (.ok (), ⟨⟨ws.excised n, selection.filter (· ∉ ws.subtree n.id false)⟩, log'⟩) := by
  -- If the selection lies in the subtree, it is given up before anything is taken out; the rest of
  -- the run is the same.
  have unfolded : (deleteSubtree n.id).on ⟨⟨ws, selection⟩, log⟩ =
      ((if selection.any (ws.subtree n.id false).contains then select none else pure ()) >>=
        fun _ => excise n.id n (ws.subtree n.id false)).on ⟨⟨ws, selection⟩, log⟩ := by
    simp only [deleteSubtree, Attempt.on_bind, Attempt.on_get, Attempt.on_ofExcept, Workspace.get,
      found, on_view]
    split
    · exact Attempt.on_bind _ _ _
    · rfl
  rw [unfolded, Attempt.on_bind]
  cases selection with
  | none => exact on_excise linked found plain none log
  | some chosen =>
    by_cases inside : chosen ∈ ws.subtree n.id false
    · obtain ⟨log₁, given⟩ := on_select none ws (some chosen) log
      obtain ⟨log₂, deleted⟩ := on_excise linked found plain none log₁
      refine ⟨log₂, ?_⟩
      simp [Option.filter, inside, given, deleted]
    · obtain ⟨log₁, deleted⟩ := on_excise linked found plain (some chosen) log
      exact ⟨log₁, by simp [Option.filter, inside, deleted]⟩

end Draft

namespace Session

/-- Deleting a node that is not there is refused, and changes nothing. -/
theorem on_delete_of_absent {s : Session} {id : NodeId} (absent : s.workspace.node? id = none) :
    (delete id).on s = (.error (.unknownNode id), s) := by
  -- A transaction that fails at once has nothing to take back.
  have refused : (Draft.deleteSubtree id).on (.start s.document.canvas) =
      (.error (.unknownNode id), .start s.document.canvas) :=
    Draft.on_deleteSubtree_of_absent absent
  rw [delete, on_onDocument, Document.on_transact, refused]
  rfl

/-- Deleting a node that is there and no expression is one step of the history. -/
theorem on_delete {s : Session} {n : Node} (linked : s.workspace.Linked)
    (found : s.workspace.node? n.id = some n) (plain : n.output = none ∨ n.hasNext = false) :
    ∃ command : Command, command.isEmpty = false ∧
      (delete n.id).on s = (.ok (), { s with document := ⟨⟨s.workspace.excised n,
        s.document.canvas.selection.filter (· ∉ s.workspace.subtree n.id false)⟩,
        s.document.history.push command⟩ }) := by
  obtain ⟨log, deleted⟩ :=
    Draft.on_deleteSubtree linked found plain s.document.canvas.selection []
  -- The deletion of the node itself is in the log, so that the step is not empty.
  have marked := Draft.marks_deleteSubtree n.id ⟨⟨s.workspace, s.document.canvas.selection⟩, []⟩
    trivial
  rw [deleted] at marked
  have pushed : (Command.batch log.reverse).isEmpty = false := Draft.Marked.command marked
  have deleted : (Draft.deleteSubtree n.id).on (.start s.document.canvas) = _ := deleted
  refine ⟨.batch log.reverse, pushed, ?_⟩
  rw [delete, on_onDocument, Document.on_transact, deleted]
  rfl

/-- In a session with a well-formed graph in which no node has both an output and a connector after
it, deleting a node succeeds exactly if the node is there, and otherwise changes nothing. If the node
is there, exactly the node and what is in its sockets go, and the others stay in their order: every
place that held the node holds its follower, or nothing without one, all other places hold what they
held, and the follower takes the place of the node, or none, and keeps all that is below it, so that
the chain of the node goes on without it. A selection among what goes is given up, any other one
stays, and the deletion is one step of the history. -/
theorem delete_removes {s : Session} (wf : s.workspace.WellFormed)
    (apart : ∀ id n, s.workspace.node? id = some n → n.output = none ∨ n.hasNext = false)
    (id : NodeId) :
    let ws := s.workspace
    let history := s.document.history
    let doomed := ws.subtree id false
    match ws.node? id with
    | none => (delete id).on s = (.error (.unknownNode id), s)
    | some gone => ∃ ws' selection, ∃ command : Command, command.isEmpty = false ∧
      (delete id).on s =
        (.ok (), { s with document := ⟨⟨ws', selection⟩, history.push command⟩ }) ∧
      selection = s.document.canvas.selection.filter (· ∉ doomed) ∧
      ws'.nodes.keys = ws.nodes.keys.filter (· ∉ doomed) ∧
      (∀ other, ws'.node? other =
        if other ∈ doomed then none else (ws.node? other).map gone.healed) ∧
      (∀ place : Link, place.holder ∉ doomed → ws'.occupant? place =
        if ws.occupant? place = some id then gone.next else ws.occupant? place) ∧
      (∀ follower, gone.next = some follower → ws'.placeOf? follower = gone.parent ∧
        ∀ below, ws.Below follower below → below ∉ doomed) ∧
      ∀ before behind, ws.Chain (before ++ id :: behind) → ws'.Chain (before ++ behind) := by
  -- What is left is the graph without the subtree and with the chain closed, and each clause is a
  -- property of it.
  intro ws history doomed
  have linked : ws.Linked := wf.toLinked
  split
  · rename_i absent
    exact on_delete_of_absent absent
  · rename_i gone found
    obtain rfl : gone.id = id := linked.own found
    have plain := apart gone.id gone found
    obtain ⟨command, changes, made⟩ := on_delete linked found plain
    have members : ∀ other, other ∈ doomed ↔ other ∈ ws.doomed gone :=
      fun other => List.mem_reverse.symm
    have nodes := linked.node?_excised found plain
    refine ⟨ws.excised gone, _, command, changes, made, rfl, ?_, ?_, ?_, ?_, ?_⟩
    · simp only [ws.keys_excised, members]
    · simp only [nodes, members, implies_true]
    · intro place stays
      exact linked.occupant?_excised found plain ((members _).not.mp stays)
    · intro follower next
      have kept : ∀ below, ws.Below follower below → below ∉ doomed := fun below hangs =>
        (members _).not.mpr (linked.not_mem_doomed_of_follower found next hangs)
      obtain ⟨f, known, _⟩ := Workspace.node?_of_placeOf? (linked.placeOf?_follower found next)
      refine ⟨?_, kept⟩
      rw [Workspace.placeOf?, nodes, if_neg ((members _).not.mp (kept follower .refl)), known,
        Option.map_some, Option.bind_some, Node.healed, linked.own known, if_pos next]
    · exact fun before behind chain => linked.chain_excised found plain chain

/-- A conditional that is deleted from between two statements takes the statement in it along, and
the selection with it, and leaves the two in one chain. -/
theorem delete_removes_between :
    let command (next : Option Block) : Block := ⟨"lexical_variable_set", none, ∅, none, [], next⟩
    let conditional : Block :=
      ⟨"controls_if", none, ∅, none, [("DO0", command none)], some (command none)⟩
    let ws := ((Workspace.empty ∅).append ∅ (command (some conditional))).2.workspace
    let s : Session := ⟨⟨⟨ws, some ⟨3⟩⟩, .empty 1⟩, {}, none, ""⟩
    let after := ((delete ⟨2⟩).on s).2
    after.workspace.nodes.keys = [⟨1⟩, ⟨4⟩] ∧ after.document.canvas.selection = none ∧
      after.workspace.Chain [⟨1⟩, ⟨4⟩] := by
  -- A conditional with a command inside, between two commands: what is inside goes with it, and the
  -- two come together.
  intro command conditional ws s after
  have built : Workspace.Built ∅ ws := Workspace.Built.empty.append ∅ _
  have chain : ws.Chain ([⟨1⟩] ++ ⟨2⟩ :: [⟨4⟩]) := by
    refine ⟨?_, ?_, ?_⟩
    · have known : ∀ id ∈ [(⟨1⟩ : NodeId), ⟨2⟩, ⟨4⟩], (ws.node? id).isSome = true := by
        decide +kernel
      exact fun id member => Option.isSome_iff_exists.mp (known id member)
    · exact .cons_cons (by decide +kernel) (.cons_cons (by decide +kernel) (.singleton _))
    · rintro _ ⟨⟩
      decide +kernel
  have there : (ws.node? ⟨2⟩).isSome = true := by decide +kernel
  obtain ⟨gone, found⟩ := Option.isSome_iff_exists.mp there
  have removes := delete_removes (s := s) built.wellFormed (fun id n => built.apart) ⟨2⟩
  simp only [show s.workspace.node? ⟨2⟩ = some gone from found] at removes
  obtain ⟨ws', selection, command, _, made, chosen, keys, _, _, _, chains⟩ := removes
  have workspace : after.workspace = ws' := congrArg (·.2.workspace) made
  have selected : after.document.canvas.selection = selection :=
    congrArg (·.2.document.canvas.selection) made
  rw [workspace, selected, keys, chosen]
  exact ⟨by decide +kernel, by decide +kernel, chains [⟨1⟩] [⟨4⟩] chain⟩

end Session

end QuickEntry
