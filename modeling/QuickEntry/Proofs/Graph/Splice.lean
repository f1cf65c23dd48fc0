import QuickEntry.Proofs.Attachment

/-! A detached node that comes into a place, with the statement that follows there moved behind
it. -/

namespace QuickEntry

namespace Workspace

/-- With a root hung below a node, what is below a top was so before, or is below the root and so
with it. -/
theorem Below.of_hung {ws ws' : Workspace} {child above top x : NodeId}
    (hung : ∀ id, ws'.holder? id = if id = child then some above else ws.holder? id)
    (below : ws'.Below top x) : ws.Below top x ∨ ws.Below child x := by
  -- Only the step from the root upwards is new.
  induction below with
  | refl => exact .inl .refl
  | @step x y held _ ih =>
    rw [hung] at held
    split at held
    · rename_i root
      subst root
      exact .inr .refl
    · exact ih.imp (.step held) (.step held)

section Links

variable {ws : Workspace} {child top x : NodeId} {place : Link} {n : Node}

/-- Joining a node to a place gives it the holder of the place, and no other node a new one. -/
theorem holder?_join (found : ws.node? child = some n) (apart : place.holder ≠ child)
    (id : NodeId) :
    (ws.join child place).holder? id =
      if id = child then some place.holder else ws.holder? id := by
  -- The holder is read off the place.
  simp only [holder?, join_eq_relink, placeOf?_relink found apart]
  split <;> rfl

/-- When a node is parted from its place, nothing comes below anything. -/
theorem Linked.below_of_part (linked : ws.Linked) (placed : ws.placeOf? child = some place)
    (below : (ws.part child place).Below top x) : ws.Below top x := by
  obtain ⟨n, found, _⟩ := node?_of_placeOf? placed
  refine below.of_more fun {id above} held => ?_
  -- Only the parted node has another holder now, which is none.
  simp only [holder?, part_eq_relink, placeOf?_relink found (linked.holder_ne placed)] at held ⊢
  split at held
  · cases held
  · exact held

/-- When a detached node is joined to a place, what it comes to be below was above the place. -/
theorem Linked.below_of_join (linked : ws.Linked) (found : ws.node? child = some n)
    (detached : n.isDetached = true) (apart : place.holder ≠ child) (other : child ≠ top)
    (below : (ws.join child place).Below top child) : ws.Below top place.holder := by
  cases below with
  | refl => exact absurd rfl other
  | step held onward =>
    rw [holder?_join found apart, if_pos rfl] at held
    cases held
    -- The way from the place upwards does not lead through the node.
    rcases onward.of_hung (holder?_join found apart) with before | before
    · exact before
    · exact absurd (linked.below_of_isDetached found detached before) apart

end Links

/-- The graph with a detached node in a place, and the node that took the place behind it. -/
def spliced (ws : Workspace) (child : NodeId) (place : Link) : Workspace :=
  -- A displaced node makes room first, and follows the new one afterwards.
  match ws.occupant? place with
  | none => ws.join child place
  | some follower => ((ws.part follower place).join child place).join follower (.next child)

/-- Coming into a place leaves the order of the nodes as it is. -/
theorem keys_spliced (ws : Workspace) (child : NodeId) (place : Link) :
    (ws.spliced child place).nodes.keys = ws.nodes.keys := by
  -- Nodes are modified, none is added or removed.
  unfold spliced
  split <;> simp only [join, part, modify, OrderedMap.keys_modify]

/-- A detached node can come into a place: the place takes it, and if the place is not free, it is
one after a statement and the node has a place after it as well. -/
structure CanEnter (ws : Workspace) (child : NodeId) (place : Link) (n holder : Node) : Prop where
  found : ws.node? child = some n
  detached : n.isDetached = true
  offered : ws.node? place.holder = some holder
  apart : place.holder ≠ child
  fits : holder.Admits n place
  onward : ∀ follower, ws.occupant? place = some follower →
    n.hasNext = true ∧ ∃ previous, place = .next previous

namespace CanEnter

variable {ws : Workspace} {child : NodeId} {place : Link} {n holder : Node}

/-- A detached node can take a free place that suits it. -/
theorem canTake (enter : ws.CanEnter child place n holder) (linked : ws.Linked)
    (empty : ws.occupant? place = none) : ws.CanTake child place n holder where
  found := enter.found
  free := Node.parent_of_isDetached enter.detached
  offered := enter.offered
  has := enter.fits.hasPlace
  empty := (occupant?_of_node? enter.offered).symm.trans empty
  fits := enter.fits
  outside inside :=
    -- Nothing but the node itself is below it.
    enter.apart (linked.below_of_isDetached enter.found enter.detached
      ((linked.mem_subtree_iff enter.found).mp inside))

section Displaced

variable {follower : NodeId}

/-- The node that is displaced is another one, of which the place is known. -/
theorem displaced (enter : ws.CanEnter child place n holder) (linked : ws.Linked)
    (taken : ws.occupant? place = some follower) :
    ws.placeOf? follower = some place ∧ follower ≠ child ∧ place.holder ≠ follower := by
  have placed := (linked.paired place follower).mp taken
  refine ⟨placed, ?_, linked.holder_ne placed⟩
  -- The new node has no place.
  rintro rfl
  rw [placeOf?_of_node? enter.found, Node.parent_of_isDetached enter.detached] at placed
  cases placed

/-- When the displaced node has made room, the place is free and still suits the new node. -/
theorem part (enter : ws.CanEnter child place n holder) (linked : ws.Linked)
    (taken : ws.occupant? place = some follower) :
    (ws.part follower place).CanEnter child place n (holder.fill place none) ∧
      (ws.part follower place).occupant? place = none := by
  obtain ⟨_, other, apart⟩ := enter.displaced linked taken
  -- The displaced node and the holder of the place are the only ones that change.
  have free : (ws.part follower place).occupant? place = none := by
    rw [part_eq_relink, occupant?_relink enter.offered enter.fits.hasPlace apart, if_pos rfl]
  refine ⟨⟨?_, enter.detached, ?_, enter.apart, ?_, ?_⟩, free⟩
  · rw [part_eq_relink, node?_relink apart, if_neg other.symm, if_neg enter.apart.symm,
      enter.found]
  · rw [part_eq_relink, node?_relink apart, if_neg apart, if_pos rfl, enter.offered,
      Option.map_some]
  · exact enter.fits.congr (Node.connectors_fill holder place none).symm rfl
  · intro again occupied
    rw [free] at occupied
    cases occupied

/-- When the displaced node has made room, the new node can take the place. -/
theorem canTake_part (enter : ws.CanEnter child place n holder) (linked : ws.Linked)
    (taken : ws.occupant? place = some follower) :
    (ws.part follower place).CanTake child place n (holder.fill place none) := by
  -- Once the follower is out of the place, nothing else stands in the way.
  obtain ⟨again, free⟩ := enter.part linked taken
  exact again.canTake (linked.part (enter.displaced linked taken).1) free

/-- When the new node has taken the place, the displaced one can follow it. -/
theorem canTake_follower (enter : ws.CanEnter child place n holder) (linked : ws.Linked)
    (taken : ws.occupant? place = some follower) :
    ∃ f m, ((ws.part follower place).join child place).CanTake follower (.next child) f m := by
  obtain ⟨placed, other, apart⟩ := enter.displaced linked taken
  obtain ⟨f, found, parent⟩ := node?_of_placeOf? placed
  obtain ⟨hasNext, previous, rfl⟩ := enter.onward follower taken
  have silent : n.next = none := Node.next_of_isDetached enter.detached
  have cleared := linked.part placed
  have roomy := enter.canTake_part linked taken
  have made : ((ws.part follower (.next previous)).join child (.next previous)).node? follower =
      some { f with parent := none } := by
    rw [join_eq_relink, node?_relink enter.apart, if_neg other, if_neg apart.symm,
      part_eq_relink, node?_relink apart, if_pos rfl, found, Option.map_some]
  have entered : ((ws.part follower (.next previous)).join child (.next previous)).node? child =
      some { n with parent := some (.next previous) } := by
    rw [join_eq_relink, node?_relink enter.apart, if_pos rfl, roomy.found, Option.map_some]
  exact ⟨_, _, {
    found := made
    free := rfl
    offered := entered
    has := trivial
    empty := silent
    -- The displaced node followed a statement, so that it can follow another one.
    fits := ⟨hasNext, (linked.admitted found parent enter.offered).2⟩
    outside := fun inside =>
      -- The new node hangs below the old place, which is not below the displaced node.
      have below := ((roomy.linked_join cleared).mem_subtree_iff made).mp inside
      have before := cleared.below_of_join roomy.found enter.detached enter.apart other.symm below
      (linked.rooted follower).not_below (holder?_eq_some_iff.mpr ⟨_, placed, rfl⟩)
        (linked.below_of_part placed before) }⟩

end Displaced

/-- A detached node that comes into a place keeps the graph well-formed. -/
theorem wellFormed_spliced (enter : ws.CanEnter child place n holder) (wf : ws.WellFormed) :
    (ws.spliced child place).WellFormed := by
  -- Up to three links change, each of them in a way that keeps the rest in order.
  unfold spliced
  split
  · rename_i free
    exact (enter.canTake wf.toLinked free).wellFormed_join wf
  · rename_i follower taken
    obtain ⟨f, m, behind⟩ := enter.canTake_follower wf.toLinked taken
    exact behind.wellFormed_join ((enter.canTake_part wf.toLinked taken).wellFormed_join
      (wf.part (enter.displaced wf.toLinked taken).1))

/-- When a detached node comes into a place, the node itself, the holder of the place and the node
that is displaced change their links, and no other node changes. -/
theorem node?_spliced (enter : ws.CanEnter child place n holder) (linked : ws.Linked)
    (id : NodeId) :
    (ws.spliced child place).node? id =
      if id = child then some { n with parent := some place, next := ws.occupant? place }
      else if id = place.holder then some (holder.fill place (some child))
      else if ws.occupant? place = some id then
        (ws.node? id).map fun f => { f with parent := some (.next child) }
      else ws.node? id := by
  -- Three nodes may change: the one that enters, its holder and whoever was there before.
  have silent := Node.next_of_isDetached enter.detached
  unfold spliced
  split
  · -- The place was free.
    rename_i free
    rw [join_eq_relink, node?_relink enter.apart]
    split_ifs with first second
    · simp only [enter.found, Option.map_some, free, ← silent]
    · rw [second, enter.offered, Option.map_some]
    · rename_i third
      rw [free] at third
      cases third
    · rfl
  · -- Three links change, one after the other.
    rename_i follower taken
    obtain ⟨_, other, apart⟩ := enter.displaced linked taken
    have aside : (Link.next child).holder ≠ follower := other.symm
    have own : (Link.next child).holder = child := rfl
    simp only [taken, join_eq_relink, part_eq_relink, node?_relink aside, node?_relink enter.apart,
      node?_relink apart, own, Option.some.injEq]
    by_cases first : id = child
    · subst first
      simp [other.symm, enter.apart.symm, enter.found, Node.fill]
    · by_cases second : id = place.holder
      · subst second
        simp [first, apart, enter.offered, Node.fill_fill]
      · by_cases third : id = follower
        · subst third
          simp [first, second, Function.comp_def]
        · simp [first, second, third, Ne.symm third]

end CanEnter

/-- A detached node can come into the place that is proposed for it, if it has a connector after it
wherever it has one before it. -/
theorem Linked.canEnter {ws : Workspace} (linked : ws.Linked) {new selected : NodeId} {n : Node}
    {a : Attachment} (found : ws.node? new = some n) (detached : n.isDetached = true)
    (together : n.hasPrevious = true → n.hasNext = true) (other : selected ≠ new)
    (proposed : ws.Proposed n selected a) : ∃ holder, ws.CanEnter new a.place n holder := by
  -- A free node has nothing below it, so the place is not inside it.
  obtain ⟨holder, offered, admits⟩ := proposed.offered
  refine ⟨holder, found, detached, offered, fun same => ?_, admits, fun follower taken => ?_⟩
  · -- Only the node itself is below it.
    exact other (linked.below_of_isDetached found detached (same ▸ proposed.below))
  · cases place : a.place with
    | socket parent name =>
      rw [proposed.free parent name place] at taken
      cases taken
    | next previous =>
      rw [place] at admits
      exact ⟨together admits.2, previous, rfl⟩

end Workspace

end QuickEntry
