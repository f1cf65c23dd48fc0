import QuickEntry.Proofs.Attempt
import QuickEntry.Proofs.Edit.Alike

/-! Moving nodes: a refused move changes nothing, and a move back undoes a move. -/

namespace QuickEntry

namespace Workspace

variable {ws ws' : Workspace} {child : NodeId} {n : Node}

/-- Plug a node into a place, or leave it on its own. -/
def put (ws : Workspace) (child : NodeId) (target : Option Link) : Except EditError Workspace :=
  match target with
  | none => .ok ws
  | some place => ws.plug child place

/-- A freed node has no place. -/
theorem placeOf?_freed (linked : ws.Linked) (child : NodeId) :
    (ws.freed child).placeOf? child = none := by
  -- It has none already, or leaves the one that it has.
  unfold freed
  split
  · assumption
  · rename_i place placed
    obtain ⟨n, found, _⟩ := node?_of_placeOf? placed
    rw [part_eq_relink, placeOf?_relink found (linked.holder_ne placed), if_pos rfl]

/-- A node without a place is free already. -/
theorem freed_of_placeOf? (free : ws.placeOf? child = none) : ws.freed child = ws := by
  -- There is no place to leave.
  rw [freed, free]

/-- Freeing a node keeps links sound. -/
theorem Linked.freed (linked : ws.Linked) (child : NodeId) : (ws.freed child).Linked := by
  -- A node on its own is left alone, and any other one is parted from its place.
  unfold Workspace.freed
  split
  · exact linked
  · rename_i place placed
    exact linked.part placed

/-- Putting a node somewhere keeps links sound. -/
theorem Linked.put (linked : ws.Linked) {target : Option Link}
    (put : ws.put child target = .ok ws') : ws'.Linked := by
  -- A node that is plugged in could take the place.
  cases target with
  | none =>
    cases put
    exact linked
  | some place =>
    obtain ⟨⟨n, holder, can⟩, rfl⟩ := plug_eq_ok_iff.mp put
    exact can.linked_join linked

/-- A freed node can be put back where it was. -/
theorem Linked.put_freed (linked : ws.Linked) (found : ws.node? child = some n) :
    (ws.freed child).put child n.parent = .ok ws := by
  -- Its place is still free and still suits it.
  have placed := placeOf?_of_node? found
  rw [Workspace.freed, placed]
  cases parent : n.parent with
  | none => rfl
  | some place => exact linked.plug_part (placed.trans parent)

/-- Moving a node that is there frees it and puts it into its new place; if it is refused there, it
is put back and nothing changes. -/
theorem Linked.on_move (linked : ws.Linked) (child : NodeId) (target : Option Link) :
    (move child target).on ws =
      match ws.node? child with
      | none => (.error (.unknownNode child), ws)
      | some n =>
        match (ws.freed child).put child target with
        | .ok next => (.ok n.parent, next)
        | .error e => (.error e, ws) := by
  -- An attempt to plug a node in is the same for its new place and for its old one.
  have puts : ∀ (place : Option Link) (graph : Workspace),
      (place.forM fun place => Attempt.ofUpdate (Workspace.plug · child place) :
        Attempt Workspace Unit).on graph =
        match graph.put child place with
        | .ok next => (.ok (), next)
        | .error e => (.error e, graph) := by
    intro place graph
    cases place with
    | none => rfl
    | some place =>
      simp only [Option.forM, Workspace.put]
      rw [Attempt.on_ofUpdate]
      cases graph.plug child place <;> rfl
  have unfolded : move child target = Attempt.ofStep (Workspace.unplug · child) >>= fun source =>
      ((target.forM fun place => Attempt.ofUpdate (Workspace.plug · child place)).orAfter
        (source.forM fun place => Attempt.ofUpdate (Workspace.plug · child place))) >>=
          fun _ => pure source := rfl
  rw [unfolded, Attempt.on_bind, Attempt.on_ofStep]
  -- Freeing fails only for a node that is not there, and putting it back never fails.
  cases found : ws.node? child with
  | none => simp only [unplug_of_absent found]
  | some n =>
    simp only [unplug_eq found, Attempt.on_bind, Attempt.on_orAfter, puts]
    cases (ws.freed child).put child target with
    | ok next => rfl
    | error e => simp only [linked.put_freed found]

/-- A node is moved from one place to another, either of which may be none. -/
structure Moved (ws : Workspace) (child : NodeId) (source target : Option Link)
    (ws' : Workspace) : Prop where
  found : ∃ n, ws.node? child = some n
  source : ws.placeOf? child = source
  target : (ws.freed child).put child target = .ok ws'

/-- A move is made exactly if the freed node can be put into its new place. -/
theorem Linked.on_move_eq_ok_iff (linked : ws.Linked) {source target : Option Link} :
    (move child target).on ws = (.ok source, ws') ↔ ws.Moved child source target ws' := by
  -- The node has to be there, and not to be refused.
  rw [linked.on_move]
  cases found : ws.node? child with
  | none =>
    simp only [Prod.mk.injEq, reduceCtorEq, false_and, false_iff]
    rintro ⟨⟨n, there⟩, _, _⟩
    rw [found] at there
    cases there
  | some n =>
    have placed := placeOf?_of_node? found
    -- A refused place would be an error, an accepted one leaves this very graph.
    cases put : (ws.freed child).put child target with
    | error e =>
      simp only [Prod.mk.injEq, reduceCtorEq, false_and, false_iff]
      rintro ⟨_, _, there⟩
      rw [put] at there
      cases there
    | ok next =>
      simp only [Prod.mk.injEq, Except.ok.injEq]
      constructor
      · rintro ⟨rfl, rfl⟩
        exact ⟨⟨n, found⟩, placed, put⟩
      · rintro ⟨_, source, there⟩
        rw [put] at there
        exact ⟨placed.symm.trans source, Except.ok.inj there⟩

/-- A refused move changes nothing. -/
theorem Linked.on_move_of_error (linked : ws.Linked) {target : Option Link} {e : EditError}
    (refused : (move child target).on ws = (.error e, ws')) : ws' = ws := by
  -- The node is not there, or it is back where it was.
  rw [linked.on_move] at refused
  split at refused
  · cases refused
    rfl
  · split at refused
    · cases refused
    · cases refused
      rfl

/-- Freeing a node keeps it in the graph, and all others. -/
theorem isSome_node?_freed (linked : ws.Linked) (child id : NodeId) :
    ((ws.freed child).node? id).isSome = (ws.node? id).isSome := by
  -- Only links change.
  unfold freed
  split
  · rfl
  · rename_i place placed
    exact isSome_node?_relink (linked.holder_ne placed) none none id

/-- Freeing a node after it was put somewhere leads to the graph where it was free. -/
theorem freed_of_put (free : ws.placeOf? child = none) {target : Option Link}
    (put : ws.put child target = .ok ws') : ws'.freed child = ws ∧ ws'.placeOf? child = target := by
  -- Parting undoes joining.
  cases target with
  | none =>
    cases put
    exact ⟨freed_of_placeOf? free, free⟩
  | some place =>
    obtain ⟨⟨n, holder, can⟩, rfl⟩ := plug_eq_ok_iff.mp put
    have placed : (ws.join child place).placeOf? child = some place := by
      rw [join_eq_relink, placeOf?_relink can.found can.apart, if_pos rfl]
    exact ⟨by rw [freed, placed]; exact can.part_join, placed⟩

namespace Moved

variable {source target : Option Link}

/-- A move keeps links sound. -/
theorem linked (moved : ws.Moved child source target ws') (linked : ws.Linked) : ws'.Linked :=
  -- A move frees the child and puts it into its new place.
  (linked.freed child).put moved.target

/-- Moving a node back undoes a move. -/
theorem back (moved : ws.Moved child source target ws') (linked : ws.Linked) :
    ws'.Moved child target source ws := by
  -- From either place the node is freed to the same graph.
  obtain ⟨n, found⟩ := moved.found
  obtain ⟨freed, placed⟩ := freed_of_put (placeOf?_freed linked child) moved.target
  have there : (ws'.node? child).isSome = true := by
    rw [← isSome_node?_freed (moved.linked linked) child, freed, isSome_node?_freed linked, found]
    rfl
  refine ⟨Option.isSome_iff_exists.mp there, placed, ?_⟩
  rw [freed, ← moved.source, placeOf?_of_node? found]
  exact linked.put_freed found

/-- A move in one graph can be made in every graph like it, and leads to like graphs. -/
theorem congr {g : Grain} {other : Workspace} (moved : ws.Moved child source target ws')
    (alike : ws.Alike g other) :
    ∃ other', other.Moved child source target other' ∧ ws'.Alike g other' := by
  -- The node is there in both, is freed in both, and is taken in both.
  obtain ⟨n, found⟩ := moved.found
  obtain ⟨n', found', _⟩ := alike.node? found
  have source' : other.placeOf? child = source := (alike.placeOf?_eq child).trans moved.source
  have put := moved.target
  cases target with
  | none =>
    cases put
    exact ⟨other.freed child, ⟨⟨n', found'⟩, source', rfl⟩, alike.freed child⟩
  | some place =>
    obtain ⟨next, plugged, same⟩ := (alike.freed child).plug put
    exact ⟨next, ⟨⟨n', found'⟩, source', plugged⟩, same⟩

end Moved

end Workspace

end QuickEntry
