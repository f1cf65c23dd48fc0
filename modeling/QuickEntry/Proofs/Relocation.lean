import QuickEntry.Proofs.Edit.Attach
import QuickEntry.Proofs.Edit.Shaped
import QuickEntry.Proofs.Graph.Chain
import QuickEntry.Proofs.Graph.Removal

/-! A node that is put into a place from wherever it is, with all that hangs from it, and the node
that it displaces. -/

namespace QuickEntry

namespace Workspace

variable {ws : Workspace} {child displaced id : NodeId} {place : Link} {n holder : Node}

/-- A node on its own can take a free place that suits it and is not below it. -/
theorem Linked.canTake (linked : ws.Linked) (found : ws.node? child = some n)
    (alone : ws.placeOf? child = none) (offered : ws.node? place.holder = some holder)
    (empty : ws.occupant? place = none) (fits : holder.Admits n place)
    (outside : ¬ws.Below child place.holder) : ws.CanTake child place n holder where
  -- Every condition is one of the assumptions, read from the side of the nodes instead of the
  -- links.
  found := found
  free := (placeOf?_of_node? found).symm.trans alone
  offered := offered
  has := fits.hasPlace
  empty := (occupant?_of_node? offered).symm.trans empty
  fits := fits
  outside inside := outside ((linked.mem_subtree_iff found).mp inside)

/-- The graph with a place that is free, and what took it on its own. -/
def cleared (ws : Workspace) (place : Link) : Workspace :=
  match ws.occupant? place with
  | none => ws
  | some displaced => ws.freed displaced

/-- The graph with a place that is free, and a node on its own that may take it. -/
def opened (ws : Workspace) (child : NodeId) (place : Link) : Workspace :=
  (ws.cleared place).freed child

/-- The graph with a node in a place, and what took the place before on its own. -/
def settled (ws : Workspace) (child : NodeId) (place : Link) : Workspace :=
  (ws.opened child place).join child place

/-- Clearing a place leaves links sound. -/
theorem Linked.cleared (linked : ws.Linked) (place : Link) : (ws.cleared place).Linked := by
  -- Clearing frees one node at most.
  unfold Workspace.cleared
  split
  · exact linked
  · exact linked.freed _

/-- Clearing a place leaves blocks the same. -/
theorem sameBlocks_cleared (ws : Workspace) (place : Link) : ws.SameBlocks (ws.cleared place) := by
  -- Freeing a node touches links alone.
  unfold cleared
  split
  · exact .refl ws
  · exact ws.sameBlocks_freed _

/-- Freeing a node and clearing a place leaves blocks the same. -/
theorem sameBlocks_opened (ws : Workspace) (child : NodeId) (place : Link) :
    ws.SameBlocks (ws.opened child place) :=
  -- Opening is clearing and freeing.
  (ws.sameBlocks_cleared place).trans (sameBlocks_freed _ child)

/-- Putting a node into a place leaves blocks the same. -/
theorem sameBlocks_settled (ws : Workspace) (child : NodeId) (place : Link) :
    ws.SameBlocks (ws.settled child place) :=
  -- Settling is opening and joining, which touches links alone.
  (ws.sameBlocks_opened child place).trans (sameBlocks_relink _ child place _ _)

/-- Only what took a place loses its own when the place is cleared. -/
theorem Linked.placeOf?_cleared (linked : ws.Linked) (place : Link) (id : NodeId) :
    (ws.cleared place).placeOf? id =
      if ws.occupant? place = some id then none else ws.placeOf? id := by
  -- Only what was in the place loses its place.
  unfold Workspace.cleared
  cases ws.occupant? place with
  | none => simp
  | some displaced => simp only [linked.placeOf?_freed_eq, Option.some.injEq, eq_comm]

/-- The node that may take a place and what took it before have no place in between. -/
theorem Linked.placeOf?_opened (linked : ws.Linked) (child : NodeId) (place : Link) (id : NodeId) :
    (ws.opened child place).placeOf? id =
      if id = child then none
      else if ws.occupant? place = some id then none else ws.placeOf? id := by
  -- The node is freed after the place is cleared, so that its own case comes first.
  rw [opened, (linked.cleared place).placeOf?_freed_eq, linked.placeOf?_cleared]

/-- Whether two nodes can follow one another is a question of their blocks. -/
theorem SameBlocks.joins_eq {ws' : Workspace} (same : ws.SameBlocks ws') (tail displaced : NodeId) :
    ws'.joins tail displaced = ws.joins tail displaced := by
  -- Whether two nodes join is asked of their connectors, which belong to the block.
  have any : ∀ (id : NodeId) (look : Node → Bool), (∀ {n m}, n.SameBlock m → look m = look n) →
      (ws'.node? id).any look = (ws.node? id).any look := by
    intro id look keeps
    have block := same.nodes id
    generalize ws.node? id = before, ws'.node? id = after at block
    cases block with
    | none => rfl
    | some block => exact keeps block
  rw [joins, joins, any tail (·.hasNext) fun block => congrArg Shape.hasNext block.connectors,
    any displaced (·.hasPrevious) fun block => congrArg Shape.hasPrevious block.connectors]

/-- A graph with sound links and the blocks of a well-formed one is well-formed. -/
theorem WellFormed.of_sameBlocks {ws' : Workspace} (wf : ws.WellFormed) (same : ws.SameBlocks ws')
    (linked : ws'.Linked) : ws'.WellFormed := by
  -- The numbers are those of the same blocks, below the same counter.
  refine ⟨linked, fun {id m} found => ?_⟩
  obtain ⟨n, there, _⟩ := same.exists_block found
  rw [same.number]
  exact wf.numbered there

/-- A node can be put into a place: the place suits it, and is not below it. -/
structure Suits (ws : Workspace) (child : NodeId) (place : Link) (n holder : Node) : Prop where
  found : ws.node? child = some n
  offered : ws.node? place.holder = some holder
  fits : holder.Admits n place
  outside : ¬ws.Below child place.holder

namespace Suits

variable (suits : ws.Suits child place n holder) (linked : ws.Linked)

include suits in
/-- The holder of the place is another node. -/
theorem apart : place.holder ≠ child :=
  -- A node is below itself.
  fun same => suits.outside (same ▸ .refl)

include suits in
/-- The place is not behind a node below the one that is put into it. -/
theorem ne_next (below : ws.Below child id) : place ≠ .next id := by
  -- The holder of the place would be below the node.
  rintro rfl
  exact suits.outside below

include linked in
/-- What is below a node in between was so before. -/
theorem below_of_opened {top : NodeId} (below : (ws.opened child place).Below top id) :
    ws.Below top id := by
  refine below.of_more fun {id above} held => ?_
  -- No node has got another holder.
  rw [holder?, linked.placeOf?_opened] at held
  split at held
  · cases held
  · split at held
    · cases held
    · exact held

include suits linked in
/-- The node can take the place once it is free. -/
theorem canTake : ∃ n' holder', (ws.opened child place).CanTake child place n' holder' := by
  -- The blocks are the same as before, so that what fitted still fits; what has to be seen is that
  -- the place is free and the node on its own.
  have opened : (ws.opened child place).Linked := (linked.cleared place).freed child
  have same := ws.sameBlocks_opened child place
  obtain ⟨n', found, block⟩ := same.exists_node? suits.found
  obtain ⟨holder', offered, block'⟩ := same.exists_node? suits.offered
  -- What was in the place was freed, and nothing else came in.
  have empty : (ws.opened child place).occupant? place = none := by
    refine Option.eq_none_iff_forall_ne_some.mpr fun id taken => ?_
    rw [opened.paired, linked.placeOf?_opened] at taken
    split at taken
    · cases taken
    · split at taken
      · cases taken
      · rename_i other
        exact other ((linked.paired place id).mpr taken)
  have alone : (ws.opened child place).placeOf? child = none := by
    rw [linked.placeOf?_opened, if_pos rfl]
  exact ⟨n', holder', opened.canTake found alone offered empty
    (suits.fits.congr block'.connectors.symm block.connectors.symm)
    fun below => suits.outside (below_of_opened linked below)⟩

include suits linked in
/-- The node takes the place, what took it before is on its own, and no other node has another
place. -/
theorem placeOf?_settled (id : NodeId) :
    (ws.settled child place).placeOf? id =
      if id = child then some place
      else if ws.occupant? place = some id then none else ws.placeOf? id := by
  -- Joining gives the node its place, in a graph where it had none.
  obtain ⟨n', holder', can⟩ := suits.canTake linked
  rw [settled, join_eq_relink, placeOf?_relink can.found can.apart, linked.placeOf?_opened]
  split <;> rfl

include suits linked in
/-- Putting the node into the place leaves links sound. -/
theorem linked_settled : (ws.settled child place).Linked := by
  -- The node takes a place that it can take.
  obtain ⟨n', holder', can⟩ := suits.canTake linked
  exact can.linked_join ((linked.cleared place).freed child)

include suits linked in
/-- A displaced node is not above the node that displaces it. -/
theorem not_below_displaced (taken : ws.occupant? place = some displaced)
    (other : displaced ≠ child) : ¬(ws.settled child place).Below displaced child := by
  obtain ⟨n', holder', can⟩ := suits.canTake linked
  have hung := holder?_join can.found can.apart
  intro below
  cases below with
  | refl => exact other rfl
  | step held onward =>
    rw [settled, hung, if_pos rfl] at held
    cases held
    -- The displaced node would be above the place that it took, or the node above its new one.
    rcases onward.of_hung hung with before | before
    · have above : ws.holder? displaced = some place.holder :=
        holder?_eq_some_iff.mpr ⟨place, (linked.paired place displaced).mp taken, rfl⟩
      exact (linked.rooted displaced).not_below above (below_of_opened linked before)
    · exact suits.outside (below_of_opened linked before)

section Chain

variable {rest : List NodeId} {tail : NodeId} (chain : ws.Chain (child :: rest))

include suits linked chain in
/-- The chain of the node comes along. -/
theorem chain_settled : (ws.settled child place).Chain (child :: rest) := by
  -- The nodes of the chain are the same blocks, and their followers are read off the table of
  -- places.
  have linked' := suits.linked_settled linked
  have same := ws.sameBlocks_settled child place
  refine chain.congr (fun id member => ?_) fun id member => Option.ext fun other => ?_
  · obtain ⟨m, found⟩ := chain.known id member
    obtain ⟨m', found', _⟩ := same.exists_node? found
    exact ⟨m', found'⟩
  · have below := chain.below linked id member
    -- The place lies outside the chain, so that none of the chain loses its follower to it.
    have away : place ≠ .next id := suits.ne_next below
    rw [linked'.paired, linked.paired, suits.placeOf?_settled linked]
    by_cases first : other = child
    · -- The node does not follow a node of its own chain.
      subst first
      have free : ws.placeOf? other ≠ some (.next id) := fun placed =>
        (linked.rooted other).not_below (holder?_eq_some_iff.mpr ⟨_, placed, rfl⟩) below
      simp [away, free]
    · rw [if_neg first]
      split
      · rename_i taken
        have placed := (linked.paired place other).mp taken
        simp [placed, away]
      · rfl

include suits linked chain in
/-- The displaced node can follow the chain of the node that displaces it, if the two join. -/
theorem canFollow (last : (child :: rest).getLast? = some tail)
    (taken : ws.occupant? place = some displaced) (other : displaced ≠ child)
    (joins : ws.joins tail displaced = true) :
    ∃ d t, (ws.settled child place).CanTake displaced (.next tail) d t := by
  -- The end of the chain has nothing behind it and an onward connector, and the displaced node is
  -- on its own.
  have linked' := suits.linked_settled linked
  have chain' := suits.chain_settled linked chain
  rw [← (ws.sameBlocks_settled child place).joins_eq] at joins
  obtain ⟨⟨t, final, onward⟩, d, found, inward⟩ := joins_iff.mp joins
  have alone : (ws.settled child place).placeOf? displaced = none := by
    rw [suits.placeOf?_settled linked, if_neg other, if_pos taken]
  refine ⟨d, t, linked'.canTake found alone final (chain'.ends tail last) ⟨onward, inward⟩
    fun below => ?_⟩
  · -- The node is above its chain, and neither of the two is above the other.
    rcases below.total (chain'.below linked' tail (List.mem_of_getLast? last)) with up | down
    · exact suits.not_below_displaced linked taken other up
    · cases down with
      | refl => exact other rfl
      | step held _ =>
        rw [holder?, alone] at held
        cases held

include suits linked chain in
/-- The links of a graph in which the node has its place, and what took the place before follows the
chain or is on its own, as the holders of the places see them. -/
theorem occupant?_of_placeOf? (last : (child :: rest).getLast? = some tail) {ws' : Workspace}
    (linked' : ws'.Linked)
    (placed : ∀ id, ws'.placeOf? id =
      if id = child then some place
      else if ws.occupant? place = some id then
        if ws.joins tail id = true then some (.next tail) else none
      else ws.placeOf? id) (other : Link) :
    ws'.occupant? other =
      if other = place then some child
      else if other = .next tail then
        (ws.occupant? place).filter fun displaced => displaced ≠ child && ws.joins tail displaced
      else if ws.placeOf? child = some other then none
      else ws.occupant? other := by
  -- A place holds the node that names it, so that the table is the one of places read the other way
  -- round.
  have away : place ≠ .next tail :=
    suits.ne_next (chain.below linked tail (List.mem_of_getLast? last))
  -- A place is named by one node only.
  have unique : ∀ {id}, ws.placeOf? id = some other → ws.placeOf? child = some other → id = child :=
    fun first second => Option.some.inj
      (((linked.paired other _).mpr first).symm.trans ((linked.paired other _).mpr second))
  refine Option.ext fun id => ?_
  rw [linked'.paired, placed]
  have before := linked.paired other id
  by_cases here : other = place
  · subst here
    rw [if_pos rfl]
    split_ifs <;> grind
  rw [if_neg here]
  by_cases behind : other = .next tail
  · -- Nothing was behind the chain, and only the displaced node may be there now.
    subst behind
    have nothing := chain.placeOf?_ne_next linked last id
    rw [if_pos rfl, Option.filter_eq_some_iff]
    split_ifs <;> grind
  · rw [if_neg behind]
    have paired := linked.paired place id
    split_ifs <;> grind

end Chain

end Suits

/-- A node that is taken out of its place and put back there leaves the graph as it was. -/
theorem Linked.settled_self (linked : ws.Linked) (taken : ws.occupant? place = some child) :
    ws.settled child place = ws := by
  -- Freeing the node and joining it to its place again comes back to the same graph.
  have placed := (linked.paired place child).mp taken
  have cleared : ws.cleared place = ws.freed child := by rw [Workspace.cleared, taken]
  have parted : ws.freed child = ws.part child place := by rw [Workspace.freed, placed]
  rw [settled, opened, cleared, freed_of_placeOf? (placeOf?_freed linked child), parted]
  exact linked.join_part placed

/-- A node cannot follow its own chain. -/
theorem Linked.refusal_own_chain (linked : ws.Linked) {rest : List NodeId} {tail : NodeId}
    (chain : ws.Chain (child :: rest)) (last : (child :: rest).getLast? = some tail)
    (joins : ws.joins tail child = true) :
    (ws.freed child).refusal child (.next tail) =
      some (.incompatible child (.next tail) .cycle) := by
  -- Every other check passes, so that the walk that looks for cycles has the last word.
  have linked' := linked.freed child
  rw [← (ws.sameBlocks_freed child).joins_eq] at joins
  obtain ⟨⟨t, final, onward⟩, n, found, inward⟩ := joins_iff.mp joins
  have free : n.parent = none := by
    rw [← placeOf?_of_node? found, placeOf?_freed linked]
  have held : (ws.freed child).occupant? (.next tail) = t.occupant (.next tail) :=
    occupant?_of_node? final
  have empty : t.occupant (.next tail) = none := by
    rw [← held]
    refine Option.eq_none_iff_forall_ne_some.mpr fun id taken => ?_
    rw [linked'.paired, linked.placeOf?_freed_eq] at taken
    split at taken
    · cases taken
    · exact chain.placeOf?_ne_next linked last id taken
  have fits : t.refusal child n (.next tail) = none :=
    Node.refusal_eq_none_iff.mpr ⟨trivial, empty, onward, inward⟩
  -- The end of the chain is below the node.
  have inside : tail ∈ (ws.freed child).subtree child true := by
    refine (linked'.mem_subtree_iff found).mpr ?_
    refine (chain.below linked tail (List.mem_of_getLast? last)).of_kept ?_
    intro id above other _ held
    rw [linked.holder?_freed, if_neg other]
    exact held
  simp only [refusal, found, free, Link.holder, final, fits, Option.isSome_none, Bool.false_eq_true,
    if_false, List.contains_iff_mem, inside, if_true]

end Workspace

namespace Draft

variable {ws : Workspace} {child displaced : NodeId} {place : Link} {n holder : Node}

/-- A move that is refused changes nothing. -/
theorem on_move_of_refusal (linked : ws.Linked) (found : ws.node? child = some n)
    (away : ws.placeOf? child ≠ some place) {e : EditError}
    (refused : (ws.freed child).refusal child place = some e) (selection : Option NodeId)
    (log : List Command) :
    (move child (some place)).on ⟨⟨ws, selection⟩, log⟩ =
      (.error e, ⟨⟨ws, selection⟩, log⟩) := by
  -- A move that is refused half-way puts the node back, so that nothing changes.
  have moves : ¬n.parent = some place := by
    rwa [← Workspace.placeOf?_of_node? found]
  have put : (ws.freed child).put child (some place) = .error e := by
    rw [Workspace.put, Workspace.plug, refused]
  simp only [move, Attempt.on_bind, on_view, found, Option.any_some, moves, decide_false,
    Bool.false_eq_true, if_false, on_record, Canvas.on_move, linked.on_move, put]

/-- What takes a place is taken out of it. -/
theorem on_clear (linked : ws.Linked) (place : Link) (selection : Option NodeId)
    (log : List Command) :
    ∃ log', ((ws.occupant? place).forM detach : Attempt Draft Unit).on ⟨⟨ws, selection⟩, log⟩ =
      (.ok (), ⟨⟨ws.cleared place, selection⟩, log'⟩) := by
  -- There is nothing to detach unless the place is taken.
  rw [Workspace.cleared]
  cases taken : ws.occupant? place with
  | none => exact ⟨log, rfl⟩
  | some displaced =>
    have placed := (linked.paired place displaced).mp taken
    obtain ⟨d, found, _⟩ := linked.occupant_parent taken
    exact ⟨.move displaced (some place) none :: log,
      on_move linked ⟨⟨d, found⟩, placed, rfl⟩ (by simp)⟩

/-- A node that suits a place is put there before what it displaces is looked after. -/
theorem on_attach_eq (suits : ws.Suits child place n holder) (linked : ws.Linked)
    (selection : Option NodeId) (log : List Command) :
    ∃ log', (attach child place).on ⟨⟨ws, selection⟩, log⟩ =
      ((ws.occupant? place).forM fun displaced => moveBehind displaced child).on
        ⟨⟨ws.settled child place, selection⟩, log'⟩ := by
  -- What takes the place is freed, and then the node is moved into it.
  obtain ⟨log', clears⟩ := on_clear linked place selection log
  have leaves : (ws.cleared place).placeOf? child ≠ some place := by
    rw [linked.placeOf?_cleared]
    split
    · simp
    · rename_i other
      exact fun placed => other ((linked.paired place child).mpr placed)
  obtain ⟨n', found, _⟩ := (ws.sameBlocks_cleared place).exists_node? suits.found
  obtain ⟨n'', holder', can⟩ := suits.canTake linked
  have moved : (ws.cleared place).Moved child ((ws.cleared place).placeOf? child) (some place)
      (ws.settled child place) :=
    ⟨⟨n', found⟩, rfl, Workspace.plug_eq_ok_iff.mpr ⟨⟨n'', holder', can⟩, rfl⟩⟩
  refine ⟨.move child ((ws.cleared place).placeOf? child) (some place) :: log', ?_⟩
  simp only [attach_eq, Attempt.on_bind, on_view, clears,
    on_move (linked.cleared place) moved leaves]

/-- A node that is to be moved behind its own chain stays where it is, and is refused if it could
follow the last node of the chain. -/
theorem on_moveBehind_self (linked : ws.Linked) (found : ws.node? child = some n)
    (selection : Option NodeId) (log : List Command) :
    (moveBehind child child).on ⟨⟨ws, selection⟩, log⟩ =
      (if ws.joins (ws.chainEnd child) child = true then
        .error (.incompatible child (.next (ws.chainEnd child)) .cycle) else .ok (),
        ⟨⟨ws, selection⟩, log⟩) := by
  -- A node that displaces itself is asked to follow its own chain, which would be a cycle if it
  -- fits.
  obtain ⟨rest, chain⟩ := linked.exists_chain found
  have last := chain.getLast?_eq linked
  have away := chain.placeOf?_ne_next linked last child
  rw [on_moveBehind_eq]
  split
  · rename_i joins
    exact on_move_of_refusal linked found away (linked.refusal_own_chain chain last joins) selection
      log
  · rfl

/-- Another node that was displaced is moved behind the chain of the node that took its place, if
the two join, and stays on its own otherwise. -/
theorem on_moveBehind_other (linked : ws.Linked) (suits : ws.Suits child place n holder)
    (taken : ws.occupant? place = some displaced) (other : displaced ≠ child)
    (selection : Option NodeId) (log : List Command) :
    ∃ ws' log', (moveBehind displaced child).on ⟨⟨ws.settled child place, selection⟩, log⟩ =
        (.ok (), ⟨⟨ws', selection⟩, log'⟩) ∧
      ws'.Linked ∧ ws.SameBlocks ws' ∧
      ∀ id, ws'.placeOf? id =
        if id = child then some place
        else if id = displaced then
          if ws.joins (ws.chainEnd child) displaced = true then some (.next (ws.chainEnd child))
          else none
        else ws.placeOf? id := by
  -- After settling, the chain of the node ends where it did, and its end has nothing behind it.
  have linked' := suits.linked_settled linked
  have blocks := ws.sameBlocks_settled child place
  obtain ⟨rest, chain⟩ := linked.exists_chain suits.found
  have last := chain.getLast?_eq linked
  have stays : (ws.settled child place).chainEnd child = ws.chainEnd child :=
    Option.some.inj (((suits.chain_settled linked chain).getLast?_eq linked').symm.trans last)
  -- Only one node was displaced.
  have placed : ∀ id, (ws.settled child place).placeOf? id =
      if id = child then some place else if id = displaced then none else ws.placeOf? id := by
    intro id
    simp only [suits.placeOf?_settled linked, taken, Option.some.injEq, eq_comm]
  rw [on_moveBehind_eq, stays, blocks.joins_eq]
  cases joins : ws.joins (ws.chainEnd child) displaced with
  | false => exact ⟨_, log, rfl, linked', blocks, by simpa using placed⟩
  | true =>
    obtain ⟨d, t, can⟩ := suits.canFollow linked chain last taken other joins
    refine ⟨(ws.settled child place).join displaced (.next (ws.chainEnd child)), _,
      on_move linked' can.moved (by simp), can.linked_join linked',
      blocks.trans (Workspace.sameBlocks_relink _ _ _ _ _), fun id => ?_⟩
    rw [Workspace.join_eq_relink, Workspace.placeOf?_relink can.found can.apart, placed]
    by_cases same : id = displaced
    · rw [if_pos same, if_neg (same ▸ other), if_pos same]
      rfl
    · rw [if_neg same, if_neg same, if_neg same]

/-- In every well-formed graph, with every selection, a node that is there is put into a place that
is there and suits it, unless the place is offered by the node itself or somewhere below it. After
that the place holds the node. What it held before, if that is another node, follows the last
statement of the node's chain if the two have the connectors between them, and is on its own
otherwise. The former place of the node is empty, and nothing else changes. If the place held the
node already, the graph stays as it is, but the attempt is refused if the node could follow the last
statement of its own chain. -/
theorem attach_places {ws : Workspace} (wf : ws.WellFormed) {child : NodeId} {place : Link}
    {n holder : Node} (found : ws.node? child = some n)
    (offered : ws.node? place.holder = some holder) (fits : holder.Admits n place)
    (outside : place.holder ∉ ws.subtree child true) (selection : Option NodeId)
    (log : List Command) :
    ∃ rest tail ws' log', ws.Chain (child :: rest) ∧ (child :: rest).getLast? = some tail ∧
      (attach child place).on ⟨⟨ws, selection⟩, log⟩ =
        (if ws.occupant? place = some child ∧ ws.joins tail child = true then
          .error (.incompatible child (.next tail) .cycle) else .ok (),
          ⟨⟨ws', selection⟩, log'⟩) ∧
      (ws.occupant? place = some child → ws' = ws) ∧ ws'.WellFormed ∧ ws.SameBlocks ws' ∧
      (∀ id, ws'.placeOf? id =
        if id = child then some place
        else if ws.occupant? place = some id then
          if ws.joins tail id = true then some (.next tail) else none
        else ws.placeOf? id) ∧
      ∀ other, ws'.occupant? other =
        if other = place then some child
        else if other = .next tail then
          (ws.occupant? place).filter fun displaced => displaced ≠ child && ws.joins tail displaced
        else if ws.placeOf? child = some other then none
        else ws.occupant? other := by
  -- The attempt depends on who is in the place: nobody, the child itself, or another block, which
  -- is then put behind the child's chain.
  have linked := wf.toLinked
  have suits : ws.Suits child place n holder :=
    ⟨found, offered, fits, fun below => outside ((linked.mem_subtree_iff found).mpr below)⟩
  obtain ⟨rest, chain⟩ := linked.exists_chain found
  have last := chain.getLast?_eq linked
  have blocks := ws.sameBlocks_settled child place
  obtain ⟨log', attached⟩ := on_attach_eq suits linked selection log
  -- How the links change decides how the places are taken.
  suffices ∃ ws' log', (attach child place).on ⟨⟨ws, selection⟩, log⟩ =
        (if ws.occupant? place = some child ∧ ws.joins (ws.chainEnd child) child = true then
          .error (.incompatible child (.next (ws.chainEnd child)) .cycle) else .ok (),
          ⟨⟨ws', selection⟩, log'⟩) ∧
      (ws.occupant? place = some child → ws' = ws) ∧ ws'.Linked ∧ ws.SameBlocks ws' ∧
      ∀ id, ws'.placeOf? id =
        if id = child then some place
        else if ws.occupant? place = some id then
          if ws.joins (ws.chainEnd child) id = true then some (.next (ws.chainEnd child)) else none
        else ws.placeOf? id by
    obtain ⟨ws', log', made, held, linked', blocks, placed⟩ := this
    exact ⟨rest, _, ws', log', chain, last, made, held, wf.of_sameBlocks blocks linked', blocks,
      placed, suits.occupant?_of_placeOf? linked chain last linked' placed⟩
  rw [attached]
  cases taken : ws.occupant? place with
  | none =>
    -- Nobody is displaced, so the child settles and nothing else happens.
    refine ⟨ws.settled child place, log', by simp [Option.forM], by simp,
      suits.linked_settled linked, blocks, fun id => ?_⟩
    rw [suits.placeOf?_settled linked, taken]
    simp
  | some displaced =>
    by_cases self : displaced = child
    · -- The child leaves its place and takes it again; only moving it behind itself can fail.
      subst self
      rw [linked.settled_self taken]
      refine ⟨ws, log', by simp [Option.forM, on_moveBehind_self linked found], fun _ => rfl,
        linked, .refl ws, fun id => ?_⟩
      by_cases same : id = displaced
      · rw [if_pos same, same, (linked.paired place displaced).mp taken]
      · simp [same, Ne.symm same]
    · -- The displaced block goes behind the last one of the chain, or nowhere.
      obtain ⟨ws', log'', made, linked', blocks, placed⟩ :=
        on_moveBehind_other linked suits taken self selection log'
      refine ⟨ws', log'', by simp [Option.forM, made, self], by simp [self], linked', blocks,
        fun id => ?_⟩
      rw [placed]
      by_cases same : id = displaced
      · subst same
        simp
      · simp [same, Ne.symm same]

/-- Two statements that are put behind the first of two others come between these. -/
theorem attach_places_between :
    let command (next : Option Block) : Block := ⟨"lexical_variable_set", none, ∅, none, [], next⟩
    let pair : Block := command (some (command none))
    let ws := (((Workspace.empty ∅).append ∅ pair).2.workspace.append ∅ pair).2.workspace
    let result := (attach ⟨3⟩ (.next ⟨1⟩)).on ⟨⟨ws, none⟩, []⟩
    let after := result.2.canvas.workspace
    result.1 = .ok () ∧ after.occupant? (.next ⟨1⟩) = some ⟨3⟩ ∧
      after.occupant? (.next ⟨4⟩) = some ⟨2⟩ := by
  -- Two pairs of commands: the second pair goes between the commands of the first.
  intro command pair ws result after
  have built : Workspace.Built ∅ ws := (Workspace.Built.empty.append ∅ _).append ∅ _
  have meets : ws.joins ⟨1⟩ ⟨3⟩ = true := by decide +kernel
  obtain ⟨⟨holder, offered, onward⟩, n, found, inward⟩ := Workspace.joins_iff.mp meets
  have offered : ws.node? (Link.next ⟨1⟩).holder = some holder := offered
  obtain ⟨rest, tail, ws', log, chain, last, made, _, _, _, _, held⟩ :=
    attach_places built.wellFormed found offered ⟨onward, inward⟩ (by decide +kernel) none []
  have final : tail = ⟨4⟩ := by
    have final : ws.chainEnd ⟨3⟩ = ⟨4⟩ := by decide +kernel
    rw [← final]
    exact Option.some.inj (last.symm.trans (chain.getLast?_eq built.wellFormed.toLinked))
  subst final
  have displaced : ws.occupant? (.next ⟨1⟩) = some ⟨2⟩ := by decide +kernel
  have joins : ws.joins ⟨4⟩ ⟨2⟩ = true := by decide +kernel
  rw [displaced, if_neg (by simp)] at made
  have same : after = ws' := congrArg (·.2.canvas.workspace) made
  refine ⟨congrArg (·.1) made, ?_, ?_⟩
  · rw [same, held, if_pos rfl]
  · rw [same, held, if_neg (by simp), if_pos rfl, displaced]
    simp [joins]

end Draft

end QuickEntry
