import QuickEntry.Proofs.Invariant
import QuickEntry.Proofs.Relocation

/-! The end of a chain of statements: the walk that looks for it is never cut short, and the place
behind it is free for a statement that was displaced. -/

namespace QuickEntry

namespace Workspace

variable {ws : Workspace} {id last child : NodeId} {rest : List NodeId} {n : Node} {place : Link}

/-- No node is followed by two. -/
theorem rightUnique_follows (ws : Workspace) :
    Relator.RightUnique fun previous id => ws.occupant? (.next previous) = some id :=
  -- A next connection holds at most one block.
  fun _ _ _ first second => Option.some.inj (first.symm.trans second)

/-- The end of the chain that goes on from a node is the only node without a follower to which the
chain leads. -/
theorem Linked.eq_chainEnd_iff (linked : ws.Linked) (found : ws.node? id = some n) :
    last = ws.chainEnd id ↔
      Relation.ReflTransGen (fun previous id => ws.occupant? (.next previous) = some id) id last ∧
        ws.occupant? (.next last) = none := by
  -- The chain from the node ends somewhere, and following next connections leaves no choice.
  obtain ⟨rest, chain⟩ := linked.exists_chain found
  have final := chain.getLast?_eq linked
  have leads := List.relationReflTransGen_of_exists_isChain_cons rest chain.linked
    (Option.some.inj ((List.getLast?_eq_some_getLast _).symm.trans final))
  have ends := chain.ends _ final
  constructor
  · rintro rfl
    exact ⟨leads, ends⟩
  · rintro ⟨leads', ends'⟩
    -- From the same node one of the two ends is before the other, but nothing comes after an end.
    have stuck : ∀ {a b : NodeId}, ws.occupant? (.next a) = none →
        Relation.ReflTransGen (fun previous id => ws.occupant? (.next previous) = some id) a b →
        a = b := by
      intro a b free onward
      rcases onward.cases_head with same | ⟨next, follows, _⟩
      · exact same
      · cases free.symm.trans follows
    rcases Relation.ReflTransGen.total_of_right_unique ws.rightUnique_follows leads' leads with
      onward | onward
    · exact stuck ends' onward
    · exact (stuck ends onward).symm

/-- A walk along a chain that may take as many steps as there are nodes, or more, comes to its end. -/
theorem Linked.follow_eq_chainEnd (linked : ws.Linked) (found : ws.node? id = some n) {steps : Nat}
    (enough : ws.nodes.size ≤ steps) : ws.follow steps id = ws.chainEnd id := by
  -- The chain from the block is finite, and a walk of at least that many steps ends at its last.
  obtain ⟨rest, chain⟩ := linked.exists_chain found
  -- Each block of a chain lies below the first, so the chain has no repetition.
  have short : (id :: rest).length ≤ ws.nodes.size :=
    linked.length_le_of_descends chain.known (linked.descends_of_follows chain.linked)
  have walked := follow_of_follows chain.linked chain.ends
    (Nat.le_of_succ_le (Nat.le_trans short enough))
  exact Option.some.inj (walked.symm.trans (chain.getLast?_eq linked))

/-- The end of the chain that goes on from a node hangs below the node. -/
theorem Linked.chainEnd_mem_subtree (linked : ws.Linked) (found : ws.node? id = some n) :
    ws.chainEnd id ∈ ws.subtree id true := by
  -- The blocks of a chain lie below its first block.
  obtain ⟨rest, chain⟩ := linked.exists_chain found
  have member := List.mem_of_getLast? (chain.getLast?_eq linked)
  exact (linked.mem_subtree_iff found).mpr (chain.below linked _ member)

/-- The place behind the end of a chain is free. -/
theorem Linked.occupant?_chainEnd (linked : ws.Linked) (id : NodeId) :
    ws.occupant? (.next (ws.chainEnd id)) = none := by
  cases found : ws.node? id with
  | some n => exact ((linked.eq_chainEnd_iff found).mp rfl).2
  | none =>
    -- The chain of a node that is not there ends at once.
    have here : ws.chainEnd id = id := by
      unfold chainEnd
      cases ws.nodes.size with
      | zero => rfl
      | succ steps => rw [follow, found, Option.bind_none]
    rw [here, occupant?, Link.holder, found, Option.bind_none]

/-- A place that has been cleared is free. -/
theorem Linked.occupant?_cleared (linked : ws.Linked) (place : Link) :
    (ws.cleared place).occupant? place = none := by
  -- Whoever still sat in the place would have kept it as its own, but its occupant was taken out.
  refine Option.eq_none_iff_forall_ne_some.mpr fun id taken => ?_
  rw [(linked.cleared place).paired, linked.placeOf?_cleared] at taken
  split at taken
  · cases taken
  · rename_i other
    exact other ((linked.paired place id).mpr taken)

/-- Freeing a node makes no other node take a place. -/
theorem Linked.occupant?_freed_eq_none (linked : ws.Linked) (free : ws.occupant? place = none)
    (child : NodeId) : (ws.freed child).occupant? place = none := by
  -- Freeing a block takes it out of its own place and puts nothing into another.
  refine Option.eq_none_iff_forall_ne_some.mpr fun id taken => ?_
  rw [(linked.freed child).paired, linked.placeOf?_freed_eq] at taken
  split at taken
  · cases taken
  · cases free.symm.trans ((linked.paired place id).mpr taken)

end Workspace

/-- A holder says that a place is taken only if it holds a node there. -/
theorem Node.occupant_of_refusal {holder n : Node} {child : NodeId} {place other : Link}
    (refused : holder.refusal child n place = some (.occupied other)) :
    ∃ id, holder.occupant place = some id := by
  -- Were the place free, the holder would refuse for another reason or not at all.
  refine Option.ne_none_iff_exists'.mp fun free => ?_
  cases place with
  -- A socket that is missing is refused by its name, one without a target is not refused.
  | socket parent name =>
    simp only [Node.refusal] at refused
    cases found : holder.socket? name with
    | none => simp [found] at refused
    | some slot =>
      have empty : slot.target = none := by simpa [Node.occupant, found] using free
      simp [found, empty] at refused
  -- A free next connection is refused only of a block that cannot be followed.
  | next previous =>
    have empty : holder.next = none := free
    simp only [Node.refusal, empty] at refused
    split at refused
    · cases refused
    · simp at refused

namespace Workspace

/-- A node is refused because the place is taken only if it is. -/
theorem occupant?_of_refusal {ws : Workspace} {child : NodeId} {place other : Link}
    (refused : ws.refusal child place = some (.occupied other)) :
    ∃ id, ws.occupant? place = some id := by
  -- Of the reasons why a place is refused, only those of its holder name an occupant.
  unfold refusal at refused
  split at refused
  · cases refused
  split at refused
  · cases refused
  split at refused
  · cases refused
  rename_i holder offered
  split at refused
  · rename_i e suits
    cases refused
    obtain ⟨id, held⟩ := Node.occupant_of_refusal suits
    exact ⟨id, (occupant?_of_node? offered).trans held⟩
  · split at refused <;> cases refused

end Workspace

namespace Draft

variable {ws : Workspace} {place : Link}

/-- A node that is moved to a free place is not told that the place is taken. -/
theorem move_ne_occupied (linked : ws.Linked) (free : ws.occupant? place = none) (child : NodeId)
    (selection : Option NodeId) (log : List Command) (other : Link) :
    ((move child (some place)).on ⟨⟨ws, selection⟩, log⟩).1 ≠ .error (.occupied other) := by
  -- A move frees the block before it asks the holder, and freeing it leaves the place free.
  simp only [move, Attempt.on_bind, on_view]
  split
  · simp
  · simp only [on_record, Canvas.on_move, linked.on_move, Workspace.put, Workspace.plug]
    cases ws.node? child with
    | none => simp
    | some n =>
      cases refused : (ws.freed child).refusal child place with
      | none => simp
      | some e =>
        simp only [ne_eq, Except.error.injEq]
        rintro rfl
        obtain ⟨id, taken⟩ := Workspace.occupant?_of_refusal refused
        cases (linked.occupant?_freed_eq_none free child).symm.trans taken

/-- Attaching a node meets no place that is taken: the place that is asked for has been cleared, and
the one behind the chain, to which what was displaced goes, was free all along. -/
theorem attach_ne_occupied (wf : ws.WellFormed) (child : NodeId) (place : Link)
    (selection : Option NodeId) (log : List Command) (other : Link) :
    ((attach child place).on ⟨⟨ws, selection⟩, log⟩).1 ≠ .error (.occupied other) := by
  -- Two moves can meet an occupant: that of the block, whose place was cleared before, and that of
  -- the displaced one, which goes behind the end of the chain.
  have linked := wf.toLinked
  obtain ⟨log', clears⟩ := on_clear linked place selection log
  have cleared := wf.of_sameBlocks (ws.sameBlocks_cleared place) (linked.cleared place)
  have told := move_ne_occupied cleared.toLinked (linked.occupant?_cleared place) child selection
    log' other
  have keeps := Workspace.invariant_wellFormed.moveInDraft child (some place)
    ⟨⟨ws.cleared place, selection⟩, log'⟩ cleared
  simp only [attach_eq, Attempt.on_bind, on_view, clears]
  revert told keeps
  cases (move child (some place)).on ⟨⟨ws.cleared place, selection⟩, log'⟩ with
  | mk outcome d =>
    cases outcome with
    -- The first move into the cleared place is the only one made.
    | error e => exact fun told _ => told
    | ok _ =>
      intro _ wf'
      cases ws.occupant? place with
      | none => simp [Option.forM]
      | some displaced =>
        simp only [Option.forM]
        rw [on_moveBehind_eq]
        -- The displaced chain goes to the last block, behind which nothing follows.
        split
        · exact move_ne_occupied wf'.toLinked (wf'.toLinked.occupant?_chainEnd child) displaced _ _
            other
        · simp

end Draft

namespace Workspace

/-- In a well-formed graph the walk along the chain from a node that is there ends at the only node
without a follower to which the chain leads, and leads no further with more steps than there are
nodes. The end is below the node. No attempt to attach a node, whichever and wherever, is refused
because a place is taken, although what had the place before goes behind the end of a chain. -/
theorem chainEnd_reached {ws : Workspace} (wf : ws.WellFormed) {id : NodeId} {n : Node}
    (found : ws.node? id = some n) :
    (∀ last, last = ws.chainEnd id ↔
      Relation.ReflTransGen (fun previous id => ws.occupant? (.next previous) = some id) id last ∧
        ws.occupant? (.next last) = none) ∧
    (∀ steps, ws.nodes.size ≤ steps → ws.follow steps id = ws.chainEnd id) ∧
    ws.chainEnd id ∈ ws.subtree id true ∧
    ∀ child place selection log other,
      ((Draft.attach child place).on ⟨⟨ws, selection⟩, log⟩).1 ≠ .error (.occupied other) := by
  -- The clauses are one lemma each; the last needs the links to be well formed in the draft as
  -- well.
  have linked := wf.toLinked
  exact ⟨fun _ => linked.eq_chainEnd_iff found, fun _ => linked.follow_eq_chainEnd found,
    linked.chainEnd_mem_subtree found, Draft.attach_ne_occupied wf⟩

/-- The chain of two statements ends at the second one, and a third one comes between them without
meeting a place that is taken. -/
theorem chainEnd_reached_pair :
    let command (next : Option Block) : Block := ⟨"lexical_variable_set", none, ∅, none, [], next⟩
    let ws := (((Workspace.empty ∅).append ∅ (command (some (command none)))).2.workspace.append ∅
      (command none)).2.workspace
    ws.chainEnd ⟨1⟩ = ⟨2⟩ ∧ ws.occupant? (.next ⟨2⟩) = none ∧ ws.follow 100 ⟨1⟩ = ⟨2⟩ ∧
      ⟨2⟩ ∈ ws.subtree ⟨1⟩ true ∧
      ((Draft.attach ⟨3⟩ (.next ⟨1⟩)).on ⟨⟨ws, none⟩, []⟩).1 ≠ .error (.occupied (.next ⟨3⟩)) := by
  -- Two statements in a chain and a third one apart, which displaces the second.
  intro command ws
  have built : Workspace.Built ∅ ws := (Workspace.Built.empty.append ∅ _).append ∅ _
  have there : (ws.node? ⟨1⟩).isSome = true := by decide +kernel
  obtain ⟨n, found⟩ := Option.isSome_iff_exists.mp there
  have last : ws.chainEnd ⟨1⟩ = ⟨2⟩ := by decide +kernel
  obtain ⟨unique, reached, below, free⟩ := chainEnd_reached built.wellFormed found
  refine ⟨last, ((unique ⟨2⟩).mp last.symm).2, ?_, last ▸ below, free _ _ _ _ _⟩
  exact (reached 100 (by decide +kernel)).trans last

end Workspace

end QuickEntry
