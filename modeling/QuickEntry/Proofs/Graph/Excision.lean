import QuickEntry.Proofs.Graph.Chain
import QuickEntry.Proofs.Graph.Removal

/-! A node cut out of a graph with all that is in its sockets: what followed it takes its place. -/

namespace QuickEntry

namespace Workspace

variable {ws : Workspace} {n : Node} {id : NodeId}

/-- The graph in which a node has lost what followed it. -/
def unchained (ws : Workspace) (n : Node) : Workspace := n.next.elim ws ws.freed

/-- The graph in which a node is on its own, but for what is in its sockets. -/
def loosened (ws : Workspace) (n : Node) : Workspace := (ws.unchained n).freed n.id

/-- What is deleted with a node, in the order in which it is taken away. -/
def doomed (ws : Workspace) (n : Node) : List NodeId := (ws.subtree n.id false).reverse

/-- The graph without a node and what is in its sockets, and with what followed the node on its
own. -/
def vacated (ws : Workspace) (n : Node) : Workspace := (ws.loosened n).dismantled (ws.doomed n)

/-- The graph with what follows a node put into the place of the node. -/
def mended (ws : Workspace) (n : Node) : Workspace :=
  -- What followed a node on its own stays on its own.
  match n.next, n.parent with
  | some follower, some place => ws.join follower place
  | _, _ => ws

/-- The graph without a node and what is in its sockets, and with what followed the node in its
place. -/
def excised (ws : Workspace) (n : Node) : Workspace := (ws.vacated n).mended n

namespace Linked

variable (linked : ws.Linked)

include linked

/-- A node that loses its follower keeps links sound. -/
theorem unchained (n : Node) : (ws.unchained n).Linked := by
  -- Only the follower is freed, if there is one.
  unfold Workspace.unchained
  cases n.next with
  | none => exact linked
  | some follower => exact linked.freed follower

/-- When a node loses its follower, no other node loses its holder. -/
theorem holder?_unchained (n : Node) (id : NodeId) :
    (ws.unchained n).holder? id = if n.next = some id then none else ws.holder? id := by
  -- Only the follower has lost its holder.
  unfold Workspace.unchained
  cases n.next with
  | none => simp
  | some follower => simp [linked.holder?_freed, eq_comm]

/-- What is below a node without its follower was below the node before. -/
theorem below_of_unchained {top : NodeId} (below : (ws.unchained n).Below top id) :
    ws.Below top id := by
  -- Every holder was one before.
  refine below.of_more fun {x above} held => ?_
  rw [linked.holder?_unchained] at held
  split at held
  · cases held
  · exact held

variable (found : ws.node? n.id = some n)

include found

/-- What follows a node names the place after the node as its own. -/
theorem placeOf?_follower {follower : NodeId} (next : n.next = some follower) :
    ws.placeOf? follower = some (.next n.id) :=
  -- The two directions of the connection agree.
  have taken : ws.occupant? (.next n.id) = some follower := (occupant?_of_node? found).trans next
  (linked.paired _ _).mp taken

/-- No node follows itself. -/
theorem follower_ne {follower : NodeId} (next : n.next = some follower) : follower ≠ n.id :=
  -- No block holds itself.
  (linked.holder_ne (linked.placeOf?_follower found next)).symm

/-- When a node loses its follower, the two lose the link between them, and all other nodes stay as
they are. -/
theorem node?_unchained (id : NodeId) :
    (ws.unchained n).node? id =
      if id = n.id then some { n with next := none }
      else (ws.node? id).map fun m => if n.next = some id then { m with parent := none } else m := by
  -- Freeing the follower empties its own place and the connection of the one that is deleted.
  unfold Workspace.unchained
  cases next : n.next with
  | none =>
    have alone : { n with next := none } = n := by rw [← next]
    rw [alone]
    split
    · rename_i same
      rw [same]
      exact found
    · simp
  | some follower =>
    have different := linked.follower_ne found next
    have placed := linked.placeOf?_follower found next
    obtain ⟨f, known, parent⟩ := node?_of_placeOf? placed
    show (ws.freed follower).node? id = _
    rw [linked.node?_freed known, parent]
    by_cases top : id = n.id
    · subst top
      rw [if_neg different.symm, if_pos rfl, found]
      simp [Node.holding, Link.holder, Node.fill]
    · rw [if_neg top]
      by_cases follows : id = follower
      · simp [follows, known]
      · rw [if_neg follows]
        cases there : ws.node? id with
        | none => rfl
        | some m =>
          have apart : m.id ≠ n.id := by rwa [linked.own there]
          have other : ¬some follower = some id := fun same => follows (Option.some.inj same).symm
          simp [Node.holding, Link.holder, apart, other]

/-- What is deleted with a node is the subtree of the node when it has lost its follower. -/
theorem doomed_eq : ws.doomed n = ((ws.unchained n).subtree n.id true).reverse := by
  have top := linked.node?_unchained found n.id
  rw [if_pos rfl] at top
  have walk : visit (ws.nodes.erase n.id) n.plugged =
      visit ((ws.unchained n).nodes.erase n.id) n.plugged := by
    -- Among the other nodes the follower alone changes, and not in its children.
    refine visit_congr (fun id => ?_) _
    rw [OrderedMap.get?_erase, OrderedMap.get?_erase]
    split
    · rfl
    · rename_i different
      have changed := linked.node?_unchained found id
      rw [if_neg different] at changed
      show (ws.node? id).map Node.children = ((ws.unchained n).node? id).map Node.children
      rw [changed, Option.map_map]
      congr 1
      funext m
      simp only [Function.comp_apply]
      split <;> rfl
  have plugged : ({ n with next := none } : Node).children = n.plugged := by
    simp [Node.children, Node.plugged]
  simp only [doomed, subtree, found, top, plugged, if_true, Bool.false_eq_true, if_false, walk]

/-- What is deleted with a node is what is below the node when it has lost its follower. -/
theorem mem_doomed_iff : id ∈ ws.doomed n ↔ (ws.unchained n).Below n.id id := by
  -- The doomed are the subtree without the follower, listed backwards.
  have top := linked.node?_unchained found n.id
  rw [if_pos rfl] at top
  rw [linked.doomed_eq found, List.mem_reverse, (linked.unchained n).mem_subtree_iff top]

/-- The node itself is deleted. -/
theorem mem_doomed : n.id ∈ ws.doomed n :=
  -- A block is below itself.
  (linked.mem_doomed_iff found).mpr .refl

/-- Nothing above a node is deleted with it. -/
theorem not_mem_doomed_of_above {above : NodeId} (held : ws.holder? n.id = some above)
    (upper : ws.Below id above) : id ∉ ws.doomed n := by
  -- Otherwise the block would be above and below its holder.
  intro member
  have lower := linked.below_of_unchained ((linked.mem_doomed_iff found).mp member)
  exact (linked.rooted n.id).not_below held (lower.trans upper)

/-- Nothing below the follower of a node is deleted with the node. -/
theorem not_mem_doomed_of_follower {follower : NodeId} (next : n.next = some follower)
    (below : ws.Below follower id) : id ∉ ws.doomed n := by
  have held : ws.holder? follower = some n.id :=
    holder?_eq_some_iff.mpr ⟨_, linked.placeOf?_follower found next, rfl⟩
  rw [linked.mem_doomed_iff found]
  intro doomed
  -- From what is below the follower, the way up leads to the follower, which is a root.
  induction below with
  | refl =>
    cases doomed with
    | refl => exact linked.follower_ne found next rfl
    | step up _ =>
      rw [linked.holder?_unchained, if_pos next] at up
      cases up
  | @step x above up below ih =>
    cases doomed with
    | refl => exact (linked.rooted follower).not_below held (.step up below)
    | step up' doomed =>
      rw [linked.holder?_unchained] at up'
      split at up'
      · cases up'
      · cases up.symm.trans up'
        exact ih doomed

/-- A node that is loosened, and its follower, lose their places. -/
theorem node?_loosened (different : id ≠ n.id) :
    (ws.loosened n).node? id = (ws.node? id).map fun m =>
      (if n.next = some id then { m with parent := none } else m).holding n.parent none := by
  -- The block leaves its holder, after its follower has left it.
  have top := linked.node?_unchained found n.id
  rw [if_pos rfl] at top
  rw [loosened, (linked.unchained n).node?_freed top, if_neg different,
    linked.node?_unchained found, if_neg different, Option.map_map]
  rfl

/-- A loosened node can be taken away with what is in its sockets. -/
theorem dismantles : (ws.loosened n).Dismantles (ws.doomed n) := by
  have unchained := linked.unchained n
  have members : ∀ {id}, id ∈ ws.doomed n ↔ (ws.unchained n).Below n.id id :=
    linked.mem_doomed_iff found
  have before : ∀ {id above}, (ws.loosened n).holder? id = some above →
      id ≠ n.id ∧ (ws.unchained n).holder? id = some above := by
    intro id above held
    rw [loosened, unchained.holder?_freed] at held
    split at held
    · cases held
    · exact ⟨‹_›, held⟩
  refine ⟨?_, fun id member => ?_, ?_, fun id above held member => ?_,
    fun id above held member => ?_⟩
  · rw [doomed, List.nodup_reverse]
    exact nodup_subtree ws n.id false
  · -- What is below the top has a place, and so is there.
    have there : ∃ m, (ws.unchained n).node? id = some m := by
      cases members.mp member with
      | refl => exact ⟨_, (linked.node?_unchained found n.id).trans (if_pos rfl)⟩
      | step up _ =>
        obtain ⟨place, placed, _⟩ := holder?_eq_some_iff.mp up
        exact (node?_of_placeOf? placed).imp fun _ => And.left
    obtain ⟨m, known⟩ := there
    rw [← Option.isSome_iff_exists, loosened, isSome_node?_freed unchained, known]
    rfl
  · rw [linked.doomed_eq found, List.pairwise_reverse]
    exact (unchained.pairwise_subtree n.id).imp fun apart held => apart (before held).2
  · exact members.mpr (.step (before held).2 (members.mp member))
  · obtain ⟨different, held⟩ := before held
    -- The node is not the top, so that the way from the top leads over its holder.
    cases members.mp member with
    | refl => exact absurd rfl different
    | step up below =>
      cases held.symm.trans up
      exact members.mpr below

/-- When a node is deleted, and its follower is left on its own, the nodes that stay lose their
links to both. -/
theorem node?_vacated (id : NodeId) :
    (ws.vacated n).node? id = if id ∈ ws.doomed n then none else (ws.node? id).map fun m =>
      (if n.next = some id then { m with parent := none } else m).holding n.parent none := by
  -- What remains was not doomed, and has changed only by losing the block or being its follower.
  have loosened : (ws.loosened n).Linked := (linked.unchained n).freed n.id
  rw [vacated, (linked.dismantles found).node?_dismantled loosened]
  split
  · rfl
  · rename_i stays
    exact linked.node?_loosened found fun same => stays (same ▸ linked.mem_doomed found)

/-- When a node is deleted, and its follower is left on its own, links stay sound. -/
theorem vacated : (ws.vacated n).Linked :=
  -- A subtree is dismantled from its leaves.
  (linked.dismantles found).linked ((linked.unchained n).freed n.id)

/-- When a node is deleted, and its follower is left on its own, nothing gets another holder. -/
theorem holder?_of_vacated {above : NodeId} (held : (ws.vacated n).holder? id = some above) :
    ws.holder? id = some above := by
  -- Vacating only takes places away.
  obtain ⟨place, placed, holder⟩ := holder?_eq_some_iff.mp held
  obtain ⟨m, there, parent⟩ := node?_of_placeOf? placed
  refine holder?_eq_some_iff.mpr ⟨place, ?_, holder⟩
  rw [linked.node?_vacated found] at there
  split at there
  · cases there
  · obtain ⟨k, known, rfl⟩ := Option.map_eq_some_iff.mp there
    rw [Node.parent_holding] at parent
    split at parent
    · cases parent
    · exact (placeOf?_of_node? known).trans parent

/-- The follower of a node that is no expression fits into the place of the node. -/
theorem admits_follower {follower : NodeId} {f holder : Node} {place : Link}
    (plain : n.output = none ∨ n.hasNext = false) (next : n.next = some follower)
    (known : ws.node? follower = some f) (parent : n.parent = some place)
    (offered : ws.node? place.holder = some holder) : holder.Admits f place := by
  obtain ⟨hasNext, hasPrevious⟩ := linked.connectors_next found next known
  have silent : n.output = none := plain.resolve_right (by simp [hasNext])
  have fits := linked.admitted found parent offered
  cases place with
  | next previous => exact ⟨fits.1, hasPrevious⟩
  | socket above name =>
    -- The socket holds the node without an output, so that it is one for statements.
    obtain ⟨slot, search, free⟩ := fits
    refine ⟨slot, search, ?_⟩
    cases kind : slot.kind with
    | statement => exact (Socket.obstacle_statement kind).mpr hasPrevious
    | value =>
      obtain ⟨output, given, _⟩ := (Socket.obstacle_value kind).mp free
      rw [silent] at given
      cases given

/-- When a node that is no expression is deleted, its follower can take its place. -/
theorem canTake_follower {follower : NodeId} {place : Link}
    (plain : n.output = none ∨ n.hasNext = false) (next : n.next = some follower)
    (parent : n.parent = some place) :
    ∃ f holder, (ws.vacated n).CanTake follower place f holder := by
  obtain ⟨f, known, follows⟩ := node?_of_placeOf? (linked.placeOf?_follower found next)
  obtain ⟨holder, offered, occupied⟩ := linked.parent_occupant found parent
  have held : ws.holder? n.id = some place.holder :=
    holder?_eq_some_iff.mpr ⟨place, (placeOf?_of_node? found).trans parent, rfl⟩
  have chained : ws.holder? follower = some n.id :=
    holder?_eq_some_iff.mpr ⟨_, linked.placeOf?_follower found next, rfl⟩
  have apart : place.holder ≠ follower := fun same =>
    (linked.rooted n.id).not_below held (same ▸ .step chained .refl)
  -- The follower and the holder of the place both stay, without their links to the node.
  have freed : (ws.vacated n).node? follower = some { f with parent := none } := by
    have different : f.id ≠ place.holder := by
      rw [linked.own known]
      exact apart.symm
    rw [linked.node?_vacated found, if_neg (linked.not_mem_doomed_of_follower found next .refl),
      known, Option.map_some, if_pos next, parent]
    simp only [Node.holding, if_neg different]
  have emptied : (ws.vacated n).node? place.holder = some (holder.fill place none) := by
    have other : n.next ≠ some place.holder := by
      rw [next]
      exact fun same => apart (Option.some.inj same).symm
    rw [linked.node?_vacated found, if_neg (linked.not_mem_doomed_of_above found held .refl),
      offered, Option.map_some, if_neg other, parent]
    simp only [Node.holding, linked.own offered, if_true]
  have has := Node.hasPlace_of_occupant occupied
  refine ⟨_, _, freed, rfl, emptied, has.congr (Node.connectors_fill holder place none).symm, ?_,
    (linked.admits_follower found plain next known parent offered).congr
      (Node.connectors_fill holder place none).symm rfl, ?_⟩
  · rw [Node.occupant_fill has none rfl, if_pos rfl]
  · -- The holder of the place was above the follower.
    rw [(linked.vacated found).mem_subtree_iff freed]
    intro below
    have before := below.of_more fun up => linked.holder?_of_vacated found up
    exact (linked.rooted follower).not_below chained (.step held before)

/-- When a node that is no expression is deleted, the nodes that stay are healed. -/
theorem node?_excised (plain : n.output = none ∨ n.hasNext = false) (id : NodeId) :
    (ws.excised n).node? id = if id ∈ ws.doomed n then none else (ws.node? id).map n.healed := by
  have vacated := linked.node?_vacated found
  have own : ∀ {id m}, ws.node? id = some m → m.id = id := linked.own
  -- Without a follower or a place there is nothing to mend.
  have still : n.next = none ∨ n.parent = none → (ws.vacated n).node? id =
      if id ∈ ws.doomed n then none else (ws.node? id).map n.healed := by
    intro open'
    rw [vacated]
    cases known : ws.node? id with
    | none => rfl
    | some m =>
      rw [Option.map_some, Option.map_some, Node.healed, own known]
      rcases open' with next | parent
      · simp [next]
      · simp [parent, Node.holding]
  unfold excised mended
  cases next : n.next with
  | none => exact still (.inl next)
  | some follower =>
    cases parent : n.parent with
    | none => exact still (.inr parent)
    | some place =>
      obtain ⟨f, holder, can⟩ := linked.canTake_follower found plain next parent
      have apart : place.holder ≠ follower := can.apart
      show ((ws.vacated n).join follower place).node? id = _
      rw [join_eq_relink, node?_relink apart, vacated follower, vacated id,
        if_neg (linked.not_mem_doomed_of_follower found next .refl), next, parent]
      by_cases first : id = follower
      · -- The follower gets the place.
        subst first
        rw [if_pos rfl, if_neg (linked.not_mem_doomed_of_follower found next .refl)]
        cases known : ws.node? id with
        | none => rfl
        | some m => simp [Node.holding, Node.healed, own known, next, parent, apart.symm]
      · rw [if_neg first]
        by_cases second : id = place.holder
        · -- The holder of the place gets the follower.
          subst second
          rw [if_pos rfl]
          split
          · rfl
          · cases known : ws.node? place.holder with
            | none => rfl
            | some m => simp [Node.holding, Node.healed, own known, next, parent, apart.symm,
                Node.fill_fill]
        · rw [if_neg second]
          split
          · rfl
          · cases known : ws.node? id with
            | none => rfl
            | some m => simp [Node.holding, Node.healed, own known, next, parent, second,
                Ne.symm first]

/-- When a node that is no expression is deleted, its follower takes its place, and all other places
of the nodes that stay hold what they held. -/
theorem occupant?_excised (plain : n.output = none ∨ n.hasNext = false) {place : Link}
    (stays : place.holder ∉ ws.doomed n) :
    (ws.excised n).occupant? place =
      if ws.occupant? place = some n.id then n.next else ws.occupant? place := by
  -- The follower comes to stand where the block stood, and every other place outside the subtree
  -- keeps its occupant.
  have named : ws.occupant? place = some n.id ↔ n.parent = some place :=
    (linked.paired place n.id).trans (by rw [placeOf?_of_node? found])
  rw [occupant?, linked.node?_excised found plain, if_neg stays]
  cases known : ws.node? place.holder with
  | none =>
    have empty : ws.occupant? place = none := by rw [occupant?, known, Option.bind_none]
    simp [empty]
  | some m =>
    have own := linked.own known
    have held : ws.occupant? place = m.occupant place := occupant?_of_node? known
    rw [Option.map_some, Option.bind_some, Node.healed, own]
    by_cases follows : n.next = some place.holder
    · -- The follower does not hold the node that it follows.
      have above := linked.placeOf?_follower found follows
      have untaken : ¬ws.occupant? place = some n.id := by
        intro taken
        have up : ws.holder? n.id = some place.holder :=
          holder?_eq_some_iff.mpr ⟨place, (linked.paired place n.id).mp taken, rfl⟩
        have down : ws.holder? place.holder = some n.id := holder?_eq_some_iff.mpr ⟨_, above, rfl⟩
        exact (linked.rooted n.id).not_below up (.step down .refl)
      rw [if_pos follows, if_neg untaken, held]
      cases place <;> rfl
    · rw [if_neg follows]
      cases parent : n.parent with
      | none =>
        rw [if_neg (by simp [named, parent]), held]
        rfl
      | some taken =>
        simp only [Node.holding, own]
        split
        · rename_i offers
          obtain ⟨holder, offered, occupied⟩ := linked.parent_occupant found parent
          rw [← offers] at offered
          cases known.symm.trans offered
          rw [Node.occupant_fill (Node.hasPlace_of_occupant occupied) n.next offers]
          have same : ws.occupant? place = some n.id ↔ place = taken := by
            rw [named, parent, Option.some.injEq, eq_comm]
          simp only [same]
          rw [held]
        · rename_i elsewhere
          have other : ¬ws.occupant? place = some n.id := by
            rw [named, parent, Option.some.injEq]
            exact fun same => elsewhere (congrArg Link.holder same).symm
          rw [if_neg other, held]

/-- Nothing that comes after a node in its chain is deleted with it. -/
theorem not_mem_doomed_of_chain {before after : List NodeId}
    (chain : ws.Chain (before ++ n.id :: after)) (behind : id ∈ after) : id ∉ ws.doomed n := by
  obtain ⟨_, ordered, _⟩ := List.pairwise_append.mp (chain.pairwise linked)
  obtain ⟨_, linking, _⟩ := List.isChain_append.mp chain.linked
  cases after with
  | nil => cases behind
  | cons follower rest =>
    have taken : ws.occupant? (.next n.id) = some follower := (List.isChain_cons_cons.mp linking).1
    have next : n.next = some follower := (occupant?_of_node? found).symm.trans taken
    refine linked.not_mem_doomed_of_follower found next ?_
    -- The others come after the follower.
    rcases List.mem_cons.mp behind with same | later
    · exact same ▸ .refl
    · obtain ⟨above, held, below⟩ :=
        (List.pairwise_cons.mp (List.pairwise_cons.mp ordered).2).1 id later
      exact .step held below

/-- When a node that is no expression is deleted, its chain goes on without it. -/
theorem chain_excised (plain : n.output = none ∨ n.hasNext = false) {before after : List NodeId}
    (chain : ws.Chain (before ++ n.id :: after)) : (ws.excised n).Chain (before ++ after) := by
  obtain ⟨_, ordered, apart⟩ := List.pairwise_append.mp (chain.pairwise linked)
  -- The nodes before it are above the node, and those after it are below its follower.
  have stays : ∀ id ∈ before ++ after, id ∉ ws.doomed n := by
    intro id member
    rcases List.mem_append.mp member with above | behind
    · obtain ⟨holder, held, upper⟩ := apart id above n.id List.mem_cons_self
      exact linked.not_mem_doomed_of_above found held upper
    · exact linked.not_mem_doomed_of_chain found chain behind
  refine chain.remove linked (fun id member => ?_) fun id member => ?_
  · have inside : id ∈ before ++ n.id :: after := by
      simp only [List.mem_append, List.mem_cons] at member ⊢
      exact member.imp_right .inr
    obtain ⟨m, known⟩ := chain.known id inside
    exact ⟨n.healed m, by
      rw [linked.node?_excised found plain, if_neg (stays id member), known, Option.map_some]⟩
  · have next : ws.occupant? (.next n.id) = n.next := occupant?_of_node? found
    have outside : (Link.next id).holder ∉ ws.doomed n := stays id member
    rw [linked.occupant?_excised found plain outside, next]

end Linked

/-- Deleting a node keeps the nodes that stay in their order. -/
theorem keys_excised (ws : Workspace) (n : Node) :
    (ws.excised n).nodes.keys = ws.nodes.keys.filter (· ∉ ws.doomed n) := by
  -- Only dismantling removes keys; freeing and joining do not.
  have loosened : (ws.loosened n).nodes.keys = ws.nodes.keys := by
    rw [loosened, keys_freed, unchained]
    cases n.next with
    | none => rfl
    | some follower => exact keys_freed ws follower
  have vacated : (ws.vacated n).nodes.keys = ws.nodes.keys.filter (· ∉ ws.doomed n) := by
    rw [vacated, keys_dismantled, loosened]
  rw [← vacated, excised, mended]
  split
  · simp only [join, modify, OrderedMap.keys_modify]
  · rfl

end Workspace

end QuickEntry
