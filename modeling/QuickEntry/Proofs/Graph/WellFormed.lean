import QuickEntry.Proofs.Graph.Node
import QuickEntry.Proofs.OrderedMap

/-! Well-formed graphs: links agree on both sides, lead to roots, and join what fits. -/

namespace QuickEntry

namespace Workspace

/-- The place that a node takes. -/
def placeOf? (ws : Workspace) (id : NodeId) : Option Link := (ws.node? id).bind (·.parent)

/-- The node that offers the place of a node. -/
def holder? (ws : Workspace) (id : NodeId) : Option NodeId := (ws.placeOf? id).map Link.holder

/-- Following the parent links from a node comes to an end. -/
inductive Rooted (ws : Workspace) : NodeId → Prop
  /-- The walk ends at a node without a parent. -/
  | root {id : NodeId} (free : ws.holder? id = none) : Rooted ws id
  /-- The walk goes on from a node to the one that holds it. -/
  | step {id above : NodeId} (held : ws.holder? id = some above) (rooted : Rooted ws above) :
      Rooted ws id

/-- A node hangs below another one, at any depth, or is that node. -/
inductive Below (ws : Workspace) (top : NodeId) : NodeId → Prop
  /-- Every node is below itself. -/
  | refl : Below ws top top
  /-- What a node below holds is below. -/
  | step {id above : NodeId} (held : ws.holder? id = some above) (below : Below ws top above) :
      Below ws top id

/-- The links of a graph agree on both sides, lead to roots, and join what fits. -/
structure Linked (ws : Workspace) : Prop where
  /-- Every node is stored under its own number. -/
  own : ∀ {id n}, ws.node? id = some n → n.id = id
  /-- A place holds a node exactly when the node names the place as its own. -/
  paired : ∀ place id, ws.occupant? place = some id ↔ ws.placeOf? id = some place
  /-- Of several sockets with one name only the first holds a node. -/
  first : ∀ {id n}, ws.node? id = some n → n.FirstOnly
  /-- No parent links form a cycle. -/
  rooted : ∀ id, ws.Rooted id
  /-- Every place takes the node that it holds. -/
  admitted : ∀ {id n place holder}, ws.node? id = some n → n.parent = some place →
    ws.node? place.holder = some holder → holder.Admits n place

/-- A graph with sound links whose next number is above all numbers in use. -/
structure WellFormed (ws : Workspace) : Prop extends Linked ws where
  /-- The next number is a fresh one. -/
  numbered : ∀ {id n}, ws.node? id = some n → id.number < ws.nextNumber

/-- The place of a node is found in the node. -/
theorem placeOf?_of_node? {ws : Workspace} {id : NodeId} {n : Node}
    (found : ws.node? id = some n) : ws.placeOf? id = n.parent := by
  -- The search for the node succeeds.
  rw [placeOf?, found, Option.bind_some]

/-- A node with a place is there. -/
theorem node?_of_placeOf? {ws : Workspace} {id : NodeId} {place : Link}
    (placed : ws.placeOf? id = some place) :
    ∃ n, ws.node? id = some n ∧ n.parent = some place :=
  -- A place is read off a node.
  Option.bind_eq_some_iff.mp placed

/-- An occupied place is offered by a node that is there. -/
theorem node?_of_occupant? {ws : Workspace} {place : Link} {id : NodeId}
    (occupied : ws.occupant? place = some id) :
    ∃ holder, ws.node? place.holder = some holder ∧ holder.occupant place = some id :=
  -- An occupant is read off a node.
  Option.bind_eq_some_iff.mp occupied

/-- A node that offers a place decides who takes it. -/
theorem occupant?_of_node? {ws : Workspace} {place : Link} {holder : Node}
    (found : ws.node? place.holder = some holder) :
    ws.occupant? place = holder.occupant place := by
  -- The search for the holder succeeds.
  rw [occupant?, found, Option.bind_some]

/-- The holder of a node is the one that offers its place. -/
theorem holder?_eq_some_iff {ws : Workspace} {id above : NodeId} :
    ws.holder? id = some above ↔ ∃ place, ws.placeOf? id = some place ∧ place.holder = above :=
  -- The holder is read off the place.
  Option.map_eq_some_iff

/-- Taking away parent links leaves every walk along them finite. -/
theorem Rooted.of_fewer {ws ws' : Workspace}
    (fewer : ∀ id, ws'.holder? id = ws.holder? id ∨ ws'.holder? id = none) {id : NodeId}
    (rooted : ws.Rooted id) : ws'.Rooted id := by
  -- Each step of the old walk is a step of the new one, or its end.
  induction rooted with
  | root free =>
    rename_i id
    rcases fewer id with same | none
    · exact .root (same.trans free)
    · exact .root none
  | step held _ ih =>
    rename_i id above _
    rcases fewer id with same | none
    · exact .step (same.trans held) ih
    · exact .root none

/-- A new parent link for a root closes no cycle if the root is not above its new holder. -/
theorem Rooted.of_hung {ws ws' : Workspace} {child above : NodeId}
    (hung : ∀ id, ws'.holder? id = if id = child then some above else ws.holder? id)
    (apart : ¬ws.Below child above) (rooted : ∀ id, ws.Rooted id) (id : NodeId) :
    ws'.Rooted id := by
  -- Walks from nodes that are not below the child never meet the new link.
  have elsewhere : ∀ {id}, ws.Rooted id → ¬ws.Below child id → ws'.Rooted id := by
    intro id walk
    induction walk with
    | root free =>
      rename_i id
      intro outside
      have other : id ≠ child := by
        rintro rfl
        exact outside .refl
      exact .root (by rw [hung, if_neg other, free])
    | step held _ ih =>
      rename_i id above _
      intro outside
      have other : id ≠ child := by
        rintro rfl
        exact outside .refl
      exact .step (by rw [hung, if_neg other, held]) (ih fun below => outside (.step held below))
  -- All other walks reach the child, go on to its holder, and end from there.
  induction rooted id with
  | root free =>
    rename_i id
    by_cases same : id = child
    · exact .step (by rw [hung, if_pos same]) (elsewhere (rooted above) apart)
    · exact .root (by rw [hung, if_neg same, free])
  | step held _ ih =>
    rename_i id above' _
    by_cases same : id = child
    · exact .step (by rw [hung, if_pos same]) (elsewhere (rooted above) apart)
    · exact .step (by rw [hung, if_neg same, held]) ih

/-- What hangs below a node hangs below its holder. -/
theorem Below.lift {ws : Workspace} {id above x : NodeId} (below : ws.Below id x)
    (held : ws.holder? id = some above) : ws.Below above x := by
  -- The walk gets one more step at its upper end.
  induction below with
  | refl => exact .step held .refl
  | step link _ ih => exact .step link ih

/-- With more parent links more nodes hang below a node. -/
theorem Below.of_more {ws ws' : Workspace} {top id : NodeId} (below : ws'.Below top id)
    (more : ∀ {id above}, ws'.holder? id = some above → ws.holder? id = some above) :
    ws.Below top id := by
  -- Each step of the walk is there in both graphs.
  induction below with
  | refl => exact .refl
  | step held _ ih => exact .step (more held) ih

/-- Nothing that holds a node hangs below it. -/
theorem Rooted.not_below {ws : Workspace} {id : NodeId} (rooted : ws.Rooted id) {above : NodeId}
    (held : ws.holder? id = some above) : ¬ws.Below id above := by
  -- Going up from a node to its holder, the question moves up with it.
  induction rooted generalizing above with
  | root free => rw [free] at held; cases held
  | step up _ ih =>
    rename_i id next _
    obtain rfl : next = above := Option.some.inj (up.symm.trans held)
    intro below
    -- A walk from the holder back to the node passes the holder of the holder.
    cases below with
    | refl => exact ih up .refl
    | step link rest => exact ih link (rest.lift up)

/-- A well-formed graph offers no node a place at itself. -/
theorem Linked.holder_ne {ws : Workspace} (linked : ws.Linked) {id : NodeId} {place : Link}
    (placed : ws.placeOf? id = some place) : place.holder ≠ id := by
  -- The walk along the parent links would go round in one step.
  intro same
  have held : ws.holder? id = some id := holder?_eq_some_iff.mpr ⟨place, placed, same⟩
  exact (linked.rooted id).not_below held .refl

/-- The node that takes a place is there, and the place is its own. -/
theorem Linked.occupant_parent {ws : Workspace} (linked : ws.Linked) {place : Link} {id : NodeId}
    (occupied : ws.occupant? place = some id) :
    ∃ n, ws.node? id = some n ∧ n.parent = some place :=
  -- The two directions of a link agree.
  node?_of_placeOf? ((linked.paired place id).mp occupied)

/-- The place of a node is offered by a node that is there and holds it. -/
theorem Linked.parent_occupant {ws : Workspace} (linked : ws.Linked) {id : NodeId} {n : Node}
    {place : Link} (found : ws.node? id = some n) (placed : n.parent = some place) :
    ∃ holder, ws.node? place.holder = some holder ∧ holder.occupant place = some id :=
  -- The two directions of a link agree.
  node?_of_occupant? ((linked.paired place id).mpr ((placeOf?_of_node? found).trans placed))

/-- A socket holds a node exactly when the node names the socket as its place. -/
theorem Linked.socket_iff {ws : Workspace} (linked : ws.Linked) (parent : NodeId) (name : String)
    (child : NodeId) :
    (∃ n, ws.node? parent = some n ∧ ∃ s ∈ n.sockets, s.name = name ∧ s.target = some child) ↔
      ∃ m, ws.node? child = some m ∧ m.parent = some (.socket parent name) := by
  -- The name of an occupied socket leads to that socket.
  constructor
  · rintro ⟨n, found, occupied⟩
    have held : n.occupant (.socket parent name) = some child :=
      (linked.first found).occupant_socket_iff.mpr occupied
    have taken : ws.occupant? (.socket parent name) = some child :=
      (occupant?_of_node? found).trans held
    exact linked.occupant_parent taken
  · rintro ⟨m, found, placed⟩
    obtain ⟨n, offered, held⟩ := linked.parent_occupant found placed
    exact ⟨n, offered, (linked.first offered).occupant_socket_iff.mp held⟩

/-- A node follows another one exactly when it names the place after that one as its own. -/
theorem Linked.next_iff {ws : Workspace} (linked : ws.Linked) (previous child : NodeId) :
    (∃ n, ws.node? previous = some n ∧ n.next = some child) ↔
      ∃ m, ws.node? child = some m ∧ m.parent = some (.next previous) := by
  -- The follower is what the place after the node holds.
  constructor
  · rintro ⟨n, found, next⟩
    have taken : ws.occupant? (.next previous) = some child :=
      (occupant?_of_node? found).trans next
    exact linked.occupant_parent taken
  · rintro ⟨m, found, placed⟩
    exact linked.parent_occupant found placed

/-- A socket takes the node that it holds. -/
theorem Linked.obstacle_eq_none {ws : Workspace} (linked : ws.Linked) {parent child : NodeId}
    {n m : Node} (offered : ws.node? parent = some n) {s : Socket} (member : s ∈ n.sockets)
    (held : s.target = some child) (found : ws.node? child = some m) : s.obstacle m = none := by
  -- The node names the socket, which the search for that name finds.
  obtain ⟨m', found', placed⟩ :=
    (linked.socket_iff parent s.name child).mp ⟨n, offered, s, member, rfl, held⟩
  cases found.symm.trans found'
  obtain ⟨slot, search, free⟩ := linked.admitted found placed offered
  have same : n.socket? s.name = some s :=
    (linked.first offered).find?_of_target member held _ (by simp)
      fun t suits => by simpa using suits
  cases same.symm.trans search
  exact free

/-- A node and its follower have the connectors between them. -/
theorem Linked.connectors_next {ws : Workspace} (linked : ws.Linked) {previous child : NodeId}
    {n m : Node} (offered : ws.node? previous = some n) (next : n.next = some child)
    (found : ws.node? child = some m) : n.hasNext = true ∧ m.hasPrevious = true := by
  -- The follower names the place after the node.
  obtain ⟨m', found', placed⟩ := (linked.next_iff previous child).mp ⟨n, offered, next⟩
  cases found.symm.trans found'
  exact linked.admitted found placed offered

/-- A graph without nodes is well-formed. -/
theorem wellFormed_of_no_nodes {ws : Workspace} (empty : ws.nodes = ∅) : ws.WellFormed := by
  -- No number leads to a node.
  have none : ∀ id, ws.node? id = none := by
    intro id
    rw [node?, empty]
    exact OrderedMap.get?_empty id
  have free : ∀ id, ws.placeOf? id = Option.none := by
    intro id
    rw [placeOf?, none id, Option.bind_none]
  constructor
  · constructor
    · intro id n found
      rw [none] at found
      cases found
    · -- No node has a place and no place has an occupant.
      intro place id
      rw [free, occupant?, none]
      simp
    · intro id n found
      rw [none] at found
      cases found
    · intro id
      exact .root (by rw [holder?, free]; rfl)
    · intro id n place holder found
      rw [none] at found
      cases found
  · intro id n found
    rw [none] at found
    cases found

end Workspace

end QuickEntry
