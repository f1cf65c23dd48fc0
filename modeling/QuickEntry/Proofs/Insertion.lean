import QuickEntry.Proofs.Edit.Attach
import QuickEntry.Proofs.Edit.Step
import QuickEntry.Proofs.Graph.Fresh

/-! Picking an option: when it is refused, and what the node that it makes does to the graph. -/

namespace QuickEntry

variable {g : Grain}

namespace Draft.Created

variable {o : BlockOption} {kind : BlockKind} {mutation : Mutation} {ws : Workspace}
  {bare full : Node} {sets : List Command}

/-- The created node is a fresh one. -/
theorem fresh (created : Created g o kind mutation ws bare full sets) : ws.Fresh full := by
  -- Its shape was derived when its last field was set, or else when it was made.
  obtain ⟨around, n, derived⟩ :
      ∃ (around : Workspace) (n : Node), around.shapeOf n = .ok full.connectors := by
    by_cases none : sets = []
    · rw [created.retouched.unset none]
      exact ⟨ws, bare, created.made.shaped⟩
    · exact ⟨_, full, created.retouched.set none⟩
  exact ⟨created.retouched.variant.id.trans created.made.id, created.retouched.variant.detached',
    Workspace.distinct_of_shapeOf derived, Workspace.balanced_of_shapeOf derived⟩

/-- The created node has the shape that it derives in the graph before. -/
theorem current (created : Created g o kind mutation ws bare full sets)
    (free : ws.node? ⟨ws.nextNumber⟩ = .none) : ws.Current full := by
  -- Without a preset the shape is the one the node was created with, otherwise it was derived again
  -- after the last one.
  by_cases none : sets = []
  · rw [created.retouched.unset none]
    exact created.made.shaped
  · -- Nodes of its own kind make no difference.
    have variant := created.retouched.variant
    have absent : ws.counted.node? bare.id = .none := created.made.id ▸ free
    have derived := created.retouched.set none
    rwa [Workspace.Current, Workspace.shapeOf_added absent variant.kind.symm] at derived

end Draft.Created

namespace Session

/-- Without a readable structural state or a known kind an option is refused at once. With both its
node is created, comes into the place that is proposed for it, and is selected. -/
theorem on_insertion (g : Grain) (o : BlockOption) {c : Canvas} (wf : c.workspace.WellFormed)
    (distinct : c.workspace.Distinct) (selected : Option NodeId) (reach : Reach) :
    match Mutation.ofExtraState o.extraState, BlockKind.ofName? o.kind with
    | .ok mutation, some kind => ∃ bare n sets log,
      Draft.Created g o kind mutation c.workspace bare n sets ∧
      (insertion o selected reach).on (.start c) =
        (.ok ⟨n.id, (c.workspace.counted.added n).placeFor? n.id selected reach⟩,
          ⟨⟨c.workspace.grown n ((c.workspace.counted.added n).placeFor? n.id selected reach),
            some n.id⟩, log⟩)
    | _, _ => ∃ e, (insertion o selected reach).on (.start c) = (.error e, .start c) := by
  have unfolded : insertion o selected reach = Draft.instantiate o >>= fun node =>
      Draft.view (·.placeFor? node selected reach) >>= fun attachment =>
        (attachment.forM fun a => Draft.attach node a.place) >>= fun _ =>
          Draft.select (some node) >>= fun _ => pure ⟨node, attachment⟩ := rfl
  obtain ⟨ws, selection⟩ := c
  have creation := Draft.on_instantiate g o (.start ⟨ws, selection⟩)
  have free : ws.node? ⟨ws.nextNumber⟩ = none := wf.node?_next rfl
  rw [Draft.start, free] at creation
  rw [unfolded, Attempt.on_bind, Draft.start]
  revert creation
  cases Mutation.ofExtraState o.extraState with
  | error e =>
    intro refused
    exact ⟨e, by rw [refused]⟩
  | ok mutation =>
    cases BlockKind.ofName? o.kind with
    | none =>
      intro refused
      exact ⟨_, by rw [refused]⟩
    | some kind =>
      rintro ⟨bare, n, sets, created, made⟩
      have fresh : ws.Fresh n := created.fresh
      rw [made]
      simp only [Attempt.on_bind, Draft.on_view]
      cases proposal : (ws.counted.added n).placeFor? n.id selected reach with
      | none =>
        -- The node stays on its own.
        obtain ⟨log, chosen⟩ := Draft.on_select (some n.id) (ws.counted.added n) selection
          (sets.reverse ++ [.create bare])
        refine ⟨bare, n, sets, log, created, ?_⟩
        simp only [Option.forM, Attempt.on_pure, chosen, proposal, Workspace.grown]
      | some a =>
        -- The node comes into the place, since it was proposed.
        obtain ⟨_, _, _, holder, enter⟩ := fresh.canEnter wf distinct proposal
        obtain ⟨log, attached⟩ := Draft.on_attach enter (fresh.wellFormed_added wf).toLinked
          selection (sets.reverse ++ [.create bare])
        obtain ⟨log', chosen⟩ := Draft.on_select (some n.id)
          ((ws.counted.added n).spliced n.id a.place) selection log
        refine ⟨bare, n, sets, log', created, ?_⟩
        simp only [Option.forM, attached, Attempt.on_pure, chosen, proposal, Workspace.grown]

/-- A refused option leaves the session as it is. One that is not refused adds its node to the
graph, and its edits to the history. -/
theorem on_confirm_cases (g : Grain) (o : BlockOption) {s : Session} (wf : s.workspace.WellFormed)
    (distinct : s.workspace.Distinct) :
    match Mutation.ofExtraState o.extraState, BlockKind.ofName? o.kind with
    | .ok mutation, some kind => ∃ bare n sets command attachment,
      Draft.Created g o kind mutation s.workspace bare n sets ∧ command.isEmpty = false ∧
      attachment = (s.workspace.counted.added n).placeFor? n.id s.selected? s.settings.reach ∧
      (confirm o).on s = (.ok ⟨n.id, attachment⟩, { s with
        document := ⟨⟨s.workspace.grown n attachment, some n.id⟩, s.document.history.push command⟩
        query := "" })
    | _, _ => ∃ e, (confirm o).on s = (.error e, s) := by
  -- The insertion succeeds if the option describes a node, and then it has made at least the
  -- creation, so that its batch is pushed.
  have insertion := on_insertion g o (c := s.document.canvas) wf distinct s.selected?
    s.settings.reach
  have marked := Draft.ensures_insertion (Draft.marks_instantiate o) Draft.marks_move
    Draft.marks_select (fun _ _ => trivial) s.selected? s.settings.reach
    (.start s.document.canvas) trivial
  rw [on_confirm, Document.on_transact]
  revert insertion
  split
  · rintro ⟨bare, n, sets, log, created, made⟩
    rw [made] at marked ⊢
    exact ⟨bare, n, sets, _, _, created, marked.command, rfl, rfl⟩
  · rintro ⟨e, refused⟩
    refine ⟨e, ?_⟩
    rw [refused]
    rfl

/-- In a session with a well-formed graph in which the sockets of each node have distinct names, an
option is refused exactly if its structural state cannot be read or its kind is not known, wherever
its node would go; and a refused option leaves the session as it is. -/
theorem confirm_refused_iff {s : Session} (wf : s.workspace.WellFormed)
    (distinct : s.workspace.Distinct) (o : BlockOption) :
    ((∃ e, ((confirm o).on s).1 = .error e) ↔
      (∃ e, Mutation.ofExtraState o.extraState = .error e) ∨ BlockKind.ofName? o.kind = none) ∧
    ((∃ e, ((confirm o).on s).1 = .error e) → ((confirm o).on s).2 = s) := by
  -- An option that can be read and whose kind is known always leads to an insertion.
  have cases := on_confirm_cases ⟨True, True, True⟩ o wf distinct
  revert cases
  cases Mutation.ofExtraState o.extraState with
  | error e =>
    rintro ⟨e', refused⟩
    simp [refused]
  | ok mutation =>
    cases BlockKind.ofName? o.kind with
    | none =>
      rintro ⟨e', refused⟩
      simp [refused]
    | some kind =>
      rintro ⟨bare, n, sets, command, attachment, _, _, _, made⟩
      simp [made]

/-- Beside a selected statement an option is refused if its kind is not known, which leaves the
session as it is, and no statement without a document is refused. -/
theorem confirm_refused_beside_statement :
    let ws := ((Workspace.empty ∅).append ∅
      ⟨"lexical_variable_set", none, ∅, none, [], none⟩).2.workspace
    let s : Session := ⟨⟨⟨ws, some ⟨1⟩⟩, .empty 1⟩, {}, none, "call"⟩
    ((confirm ⟨"procedures", "call", none, none⟩).on s).2 = s ∧
      ¬∃ e, ((confirm ⟨"procedures_callnoreturn", "call", none, none⟩).on s).1 = .error e := by
  -- A kind that does not exist is refused beside a statement, an existing one is put behind it.
  intro ws s
  have built : Workspace.Built ∅ ws := Workspace.Built.empty.append ∅ _
  have unknown := confirm_refused_iff (s := s) built.wellFormed built.distinct
    ⟨"procedures", "call", none, none⟩
  have known := confirm_refused_iff (s := s) built.wellFormed built.distinct
    ⟨"procedures_callnoreturn", "call", none, none⟩
  refine ⟨unknown.2 (unknown.1.mpr (.inr (by decide +kernel))), fun refused => ?_⟩
  rcases known.1.mp refused with ⟨e, unread⟩ | missing
  · cases unread
  · revert missing
    decide +kernel

/-- In a session with a well-formed graph in which the sockets of each node have distinct names, an
option that is not refused adds one node and selects it, as one step of the history. Without a place
for the node no other node changes. With one the place holds the new node, which is followed by what
the place held before, and nothing else changes; only the place after a statement may have held
something, and the new node comes into the chain of that statement right behind it. -/
theorem confirm_inserts {s after : Session} {o : BlockOption} {inserted : Insertion}
    (wf : s.workspace.WellFormed) (distinct : s.workspace.Distinct)
    (made : (confirm o).on s = (.ok inserted, after)) :
    let ws := s.workspace
    let ws' := after.workspace
    let new := inserted.node
    ws.node? new = none ∧ ws'.nodes.keys = ws.nodes.keys ++ [new] ∧
    after.document.canvas.selection = some new ∧ after.document.history.redoable = [] ∧
    after.document.history.undoable.length = min (s.document.history.undoable.length + 1)
      (max s.document.history.undoable.length s.document.history.depth) ∧
    match inserted.attachment with
    | none =>
      (∀ id, id ≠ new → ws'.node? id = ws.node? id) ∧
      ∃ n, ws'.node? new = some n ∧ n.isDetached = true
    | some a =>
      (∀ id, id ≠ new → ws'.node? id = (ws.node? id).map (ws.yielded new a.place)) ∧
      (∃ n, ws'.node? new = some n ∧ n.parent = some a.place ∧ n.next = ws.occupant? a.place ∧
        ∀ slot ∈ n.sockets, slot.target = none) ∧
      ws'.occupant? a.place = some new ∧
      ((∃ previous, a.place = .next previous) ↔
        a.rule = .afterSelected ∨ a.rule = .afterEnclosing) ∧
      ((∃ parent name, a.place = .socket parent name) → ws.occupant? a.place = none) ∧
      ∀ previous before behind, a.place = .next previous →
        ws.Chain (before ++ previous :: behind) →
        ws'.Chain (before ++ previous :: new :: behind) := by
  -- What is made is the graph grown at the proposed place, so each clause is a property of the
  -- grown graph.
  have cases := on_confirm_cases ⟨True, True, True⟩ o wf distinct
  rw [made] at cases
  split at cases
  · obtain ⟨bare, n, sets, command, attachment, created, marked, proposal, same⟩ := cases
    cases same
    have fresh := created.fresh
    have steps : (s.document.history.push command).redoable = [] ∧
        (s.document.history.push command).undoable.length =
          min (s.document.history.undoable.length + 1)
            (max s.document.history.undoable.length s.document.history.depth) := by
      simp [History.push_of_changes marked, Nat.min_comm]
    -- Attaching the node changes links only.
    have keys : (s.workspace.grown n attachment).nodes.keys = s.workspace.nodes.keys ++ [n.id] := by
      unfold Workspace.grown
      split
      · exact fresh.keys_added wf
      · rw [Workspace.keys_spliced, fresh.keys_added wf]
    refine ⟨fresh.absent wf, keys, rfl, steps.1, steps.2, ?_⟩
    cases attachment with
    | none =>
      -- Without a proposal the node stands for itself.
      exact ⟨fun id other => Workspace.Fresh.node?_added_of_ne other, n,
        Workspace.Fresh.found n, fresh.detached⟩
    | some a =>
      -- What was proposed can be entered, and whoever is there goes behind the new node.
      obtain ⟨_, _, proposed, holder, enter⟩ := fresh.canEnter wf distinct proposal.symm
      have self := fresh.node?_grown_self wf enter
      have linked := (fresh.wellFormed_grown wf enter).toLinked
      refine ⟨fun id other => fresh.node?_grown wf enter other,
        ⟨_, self, rfl, rfl, fun slot member => Node.target_of_isDetached fresh.detached member⟩,
        (linked.paired _ _).mpr (Workspace.placeOf?_of_node? self), proposed.after, ?_,
        fun previous before behind place chain => fresh.chain_grown wf enter place chain⟩
      rintro ⟨parent, name, place⟩
      exact (Workspace.Fresh.occupant?_place enter).symm.trans (proposed.free parent name place)
  · obtain ⟨e, refused⟩ := cases
    cases refused

/-- A statement that is entered where the first of two is selected comes between them. -/
theorem confirm_inserts_between :
    let command (next : Option Block) : Block := ⟨"lexical_variable_set", none, ∅, none, [], next⟩
    let ws := ((Workspace.empty ∅).append ∅ (command (some (command none)))).2.workspace
    let s : Session := ⟨⟨⟨ws, some ⟨1⟩⟩, .empty 1⟩, {}, none, ""⟩
    let after := ((confirm ⟨"procedures_callnoreturn", "call", none, none⟩).on s).2
    after.workspace.nodes.keys = ws.nodes.keys ++ [⟨3⟩] ∧
      after.workspace.occupant? (.next ⟨1⟩) = some ⟨3⟩ ∧
      after.workspace.Chain [⟨1⟩, ⟨3⟩, ⟨2⟩] := by
  -- A call is put between the first statement and the second.
  intro command ws s after
  have built : Workspace.Built ∅ ws := Workspace.Built.empty.append ∅ _
  have made : (confirm ⟨"procedures_callnoreturn", "call", none, none⟩).on s =
      (.ok ⟨⟨3⟩, some ⟨.next ⟨1⟩, .afterSelected⟩⟩, after) := Prod.ext (by decide +kernel) rfl
  have chain : ws.Chain ([] ++ ⟨1⟩ :: [⟨2⟩]) := by
    refine ⟨?_, List.isChain_cons_cons.mpr ⟨by decide +kernel, .singleton _⟩, ?_⟩
    · have known : ∀ id ∈ [(⟨1⟩ : NodeId), ⟨2⟩], (ws.node? id).isSome = true := by decide +kernel
      exact fun id member => Option.isSome_iff_exists.mp (known id member)
    · rintro _ ⟨⟩
      decide +kernel
  obtain ⟨_, keys, _, _, _, _, _, held, _, _, chains⟩ :=
    confirm_inserts (s := s) built.wellFormed built.distinct made
  exact ⟨keys, held, chains ⟨1⟩ [] [⟨2⟩] rfl chain⟩

end Session

end QuickEntry
