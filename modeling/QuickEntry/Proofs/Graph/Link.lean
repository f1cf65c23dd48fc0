import QuickEntry.Proofs.Graph.Subtree

/-! Plugging and unplugging: what changes, that links stay sound, and that each undoes the other. -/

namespace QuickEntry

namespace Node

/-- Only the last filling of a socket counts. -/
theorem modifySocket_modifySocket (name : String) (before after : Option NodeId)
    (sockets : List Socket) :
    modifySocket name (fun s => { s with target := after })
        (modifySocket name (fun s => { s with target := before }) sockets) =
      modifySocket name (fun s => { s with target := after }) sockets := by
  -- Both changes meet the same socket.
  induction sockets with
  | nil => rfl
  | cons s rest ih =>
    by_cases here : s.name = name
    · simp [modifySocket, here]
    · simpa [modifySocket, here] using ih

/-- Filling a socket with what it holds changes nothing. -/
theorem modifySocket_self (name : String) (target : Option NodeId) (sockets : List Socket)
    (held : (sockets.find? (·.name = name)).bind (·.target) = target) :
    modifySocket name (fun s => { s with target }) sockets = sockets := by
  -- The first socket of the name is the only one changed.
  induction sockets with
  | nil => rfl
  | cons s rest ih =>
    by_cases here : s.name = name
    · simp only [List.find?_cons, here, decide_true, Option.bind_some] at held
      rw [modifySocket, if_pos here, ← held]
    · simp only [List.find?_cons, here, decide_false] at held
      simp [modifySocket, here, ih held]

/-- Only the last filling of a place counts. -/
theorem fill_fill (n : Node) (place : Link) (before after : Option NodeId) :
    (n.fill place before).fill place after = n.fill place after := by
  -- The two fillings meet in the same place.
  cases place with
  | socket parent name => simp [fill, modifySocket_modifySocket]
  | next previous => rfl

/-- Filling a place with what it holds changes nothing. -/
theorem fill_self {n : Node} {place : Link} {occupant : Option NodeId}
    (held : n.occupant place = occupant) : n.fill place occupant = n := by
  -- The occupant replaces itself.
  cases place with
  | socket parent name => rw [fill, modifySocket_self name occupant n.sockets held]
  | next previous => rw [← held]; rfl

end Node

namespace Workspace

/-- Put a node, or nothing, into a place, and give another node a place, or none. -/
def relink (ws : Workspace) (child : NodeId) (place : Link) (occupant : Option NodeId)
    (parent : Option Link) : Workspace :=
  -- This is what joining and parting have in common.
  (ws.modify place.holder fun n => n.fill place occupant).modify child fun n => { n with parent }

/-- To join is to fill a place with the child, which takes it. -/
theorem join_eq_relink (ws : Workspace) (child : NodeId) (place : Link) :
    ws.join child place = ws.relink child place (some child) (some place) := rfl

/-- To part is to empty a place, which the child leaves. -/
theorem part_eq_relink (ws : Workspace) (child : NodeId) (place : Link) :
    ws.part child place = ws.relink child place none none := rfl

/-- Graphs with the same nodes in the same order are equal if all else is. -/
theorem eq_of_node? {ws ws' : Workspace} (keys : ws.nodes.keys = ws'.nodes.keys)
    (found : ∀ id, ws.node? id = ws'.node? id) (number : ws.nextNumber = ws'.nextNumber)
    (components : ws.components = ws'.components) (database : ws.database = ws'.database) :
    ws = ws' := by
  -- The map of the nodes is determined by its keys and values.
  have nodes : ws.nodes = ws'.nodes := OrderedMap.eq_of_get? keys found
  cases ws
  cases ws'
  simp_all

section Relink

variable {ws : Workspace} {child : NodeId} {place : Link}

/-- A new link shows in the child and in the holder of the place alone. -/
theorem node?_relink (apart : place.holder ≠ child) (occupant : Option NodeId)
    (parent : Option Link) (id : NodeId) :
    (ws.relink child place occupant parent).node? id =
      if id = child then (ws.node? child).map fun n => { n with parent }
      else if id = place.holder then (ws.node? id).map fun n => n.fill place occupant
      else ws.node? id := by
  -- The child is not the holder, so that the two changes do not meet.
  rw [relink, node?_modify, node?_modify]
  by_cases same : id = child
  · rw [if_pos same, if_pos same, if_neg apart.symm]
  · rw [if_neg same, if_neg same]
    by_cases held : id = place.holder
    · rw [node?_modify, if_pos held, if_pos held, held]
    · rw [node?_modify, if_neg held, if_neg held]

/-- A new link changes no connectors. -/
theorem connectors_relink (apart : place.holder ≠ child) (occupant : Option NodeId)
    (parent : Option Link) (id : NodeId) :
    ((ws.relink child place occupant parent).node? id).map Node.connectors =
      (ws.node? id).map Node.connectors := by
  -- Neither an occupant nor a parent is a connector.
  rw [node?_relink apart]
  split
  · rename_i same
    rw [same, Option.map_map]
    rfl
  · split
    · rw [Option.map_map]
      congr 1
      funext n
      exact Node.connectors_fill n place occupant
    · rfl

/-- A new link gives the child its place, and no other node a new one. -/
theorem placeOf?_relink {n : Node} (found : ws.node? child = some n)
    (apart : place.holder ≠ child) (occupant : Option NodeId) (parent : Option Link)
    (id : NodeId) :
    (ws.relink child place occupant parent).placeOf? id =
      if id = child then parent else ws.placeOf? id := by
  -- Filling a place leaves the place of the holder alone.
  rw [placeOf?, node?_relink apart]
  split
  · rw [found]
    rfl
  · split
    · rw [placeOf?, Option.bind_map]
      congr 1
      funext m
      exact Node.parent_fill m place occupant
    · rfl

/-- A new link fills its place, and no other one. -/
theorem occupant?_relink {holder : Node} (offered : ws.node? place.holder = some holder)
    (has : holder.HasPlace place) (apart : place.holder ≠ child) (occupant : Option NodeId)
    (parent : Option Link) (other : Link) :
    (ws.relink child place occupant parent).occupant? other =
      if other = place then occupant else ws.occupant? other := by
  -- Only places of the same holder can be touched.
  rw [occupant?, node?_relink apart]
  by_cases same : other.holder = place.holder
  · rw [if_neg (same ▸ apart), if_pos same, same, offered]
    simp only [Option.map_some, Option.bind_some]
    rw [Node.occupant_fill has occupant same]
    split
    · rfl
    · rw [occupant?, same, offered, Option.bind_some]
  · have different : other ≠ place := fun eq => same (eq ▸ rfl)
    rw [if_neg different, if_neg same]
    by_cases held : other.holder = child
    · rw [if_pos held, occupant?, held, Option.bind_map]
      rfl
    · rw [if_neg held, occupant?]

/-- The nodes that a new link leaves have the same sockets in number and order of names. -/
theorem Linked.firstOnly_relink (linked : ws.Linked) (apart : place.holder ≠ child)
    (occupant : Option NodeId) (parent : Option Link) {id : NodeId} {n : Node}
    (found : (ws.relink child place occupant parent).node? id = some n) : n.FirstOnly := by
  -- Only the first socket of a name is ever filled.
  rw [node?_relink apart] at found
  split at found
  · obtain ⟨m, known, rfl⟩ := Option.map_eq_some_iff.mp found
    have first : m.FirstOnly := linked.first known
    exact first
  · split at found
    · obtain ⟨m, known, rfl⟩ := Option.map_eq_some_iff.mp found
      exact (linked.first known).fill place occupant
    · exact linked.first found

/-- The nodes that a new link leaves keep their numbers. -/
theorem Linked.own_relink (linked : ws.Linked) (apart : place.holder ≠ child)
    (occupant : Option NodeId) (parent : Option Link) {id : NodeId} {n : Node}
    (found : (ws.relink child place occupant parent).node? id = some n) : n.id = id := by
  -- No change of a link touches a number.
  rw [node?_relink apart] at found
  split at found
  · rename_i same
    obtain ⟨m, known, rfl⟩ := Option.map_eq_some_iff.mp found
    have number : m.id = child := linked.own known
    exact number.trans same.symm
  · split at found
    · obtain ⟨m, known, rfl⟩ := Option.map_eq_some_iff.mp found
      rw [Node.id_fill]
      exact linked.own known
    · exact linked.own found

/-- A new link keeps links sound if both sides agree, no cycle arises, and the child fits. -/
theorem Linked.relink (linked : ws.Linked) {n holder : Node}
    (found : ws.node? child = some n) (offered : ws.node? place.holder = some holder)
    (has : holder.HasPlace place) (apart : place.holder ≠ child) {occupant : Option NodeId}
    {parent : Option Link}
    (paired : ∀ other id, (if other = place then occupant else ws.occupant? other) = some id ↔
      (if id = child then parent else ws.placeOf? id) = some other)
    (rooted : ∀ id, (ws.relink child place occupant parent).Rooted id)
    (fits : ∀ p holder, parent = some p → ws.node? p.holder = some holder → holder.Admits n p) :
    (ws.relink child place occupant parent).Linked where
  own := linked.own_relink apart occupant parent
  paired other id := by
    rw [occupant?_relink offered has apart, placeOf?_relink found apart]
    exact paired other id
  first := linked.firstOnly_relink apart occupant parent
  rooted := rooted
  admitted := by
    -- The connectors are the old ones, so that what fitted before still fits.
    intro id m p above known placed held
    have connectors : ∀ other,
        ((ws.relink child place occupant parent).node? other).map Node.connectors =
          (ws.node? other).map Node.connectors := connectors_relink apart occupant parent
    have taken : (ws.relink child place occupant parent).placeOf? id = some p := by
      rw [placeOf?_of_node? known, placed]
    rw [placeOf?_relink found apart] at taken
    obtain ⟨above', held', unchanged⟩ : ∃ above', ws.node? p.holder = some above' ∧
        above'.connectors = above.connectors := by
      have here := connectors p.holder
      rw [held] at here
      exact Option.map_eq_some_iff.mp here.symm
    obtain ⟨m', known', alike⟩ : ∃ m', ws.node? id = some m' ∧
        m'.connectors = m.connectors := by
      have here := connectors id
      rw [known] at here
      exact Option.map_eq_some_iff.mp here.symm
    -- A link of the child is the new one, any other link was there before.
    split at taken
    · rename_i same
      obtain rfl : n = m' := Option.some.inj (found.symm.trans (same ▸ known'))
      exact (fits p above' taken held').congr unchanged alike
    · rw [placeOf?_of_node? known'] at taken
      exact (linked.admitted known' taken held').congr unchanged alike

/-- Only the last change of a link counts. -/
theorem relink_relink (apart : place.holder ≠ child) (before after : Option NodeId)
    (left right : Option Link) :
    (ws.relink child place before left).relink child place after right =
      ws.relink child place after right := by
  -- The keys never change, and each node is changed in the same members again.
  refine eq_of_node? (by simp [relink, modify]) (fun id => ?_) rfl rfl rfl
  simp only [node?_relink apart]
  by_cases same : id = child
  · simp only [if_pos same, if_true, Option.map_map]
    rfl
  · simp only [if_neg same]
    by_cases held : id = place.holder
    · simp only [if_pos held, Option.map_map]
      congr 1
      funext n
      exact Node.fill_fill n place before after
    · simp only [if_neg held]

/-- A link that is there already changes nothing. -/
theorem relink_self {occupant : Option NodeId} {parent : Option Link}
    (held : ws.occupant? place = occupant) (placed : ws.placeOf? child = parent)
    (apart : place.holder ≠ child) : ws.relink child place occupant parent = ws := by
  -- Each of the two nodes gets what it has.
  refine eq_of_node? (by simp [relink, modify]) (fun id => ?_) rfl rfl rfl
  rw [node?_relink apart]
  split
  · rename_i same
    rw [same]
    cases found : ws.node? child with
    | none => rfl
    | some n =>
      rw [placeOf?_of_node? found] at placed
      rw [Option.map_some, ← placed]
  · split
    · rename_i same
      rw [same]
      cases found : ws.node? place.holder with
      | none => rfl
      | some n =>
        rw [occupant?_of_node? found] at held
        rw [Option.map_some, Node.fill_self held]
    · rfl

end Relink

/-- A node can take a place: it has none, the place is there and empty, the two fit, and the place
is not offered below the node. -/
structure CanTake (ws : Workspace) (child : NodeId) (place : Link) (n holder : Node) : Prop where
  found : ws.node? child = some n
  free : n.parent = none
  offered : ws.node? place.holder = some holder
  has : holder.HasPlace place
  empty : holder.occupant place = none
  fits : holder.Admits n place
  outside : place.holder ∉ ws.subtree child true

/-- A node is refused a place unless it can take it. -/
theorem refusal_eq_none_iff {ws : Workspace} {child : NodeId} {place : Link} :
    ws.refusal child place = none ↔ ∃ n holder, ws.CanTake child place n holder := by
  -- The checks are made one after the other, and all of them have to pass.
  constructor
  · intro accepted
    unfold refusal at accepted
    split at accepted
    · cases accepted
    · rename_i n found
      split at accepted
      · cases accepted
      · rename_i free
        split at accepted
        · cases accepted
        · rename_i holder offered
          split at accepted
          · cases accepted
          · rename_i suits
            split at accepted
            · cases accepted
            · rename_i outside
              obtain ⟨has, empty, fits⟩ := Node.refusal_eq_none_iff.mp suits
              exact ⟨n, holder, found, by simpa using free, offered, has, empty, fits,
                by simpa using outside⟩
  · rintro ⟨n, holder, can⟩
    have suits : holder.refusal child n place = none :=
      Node.refusal_eq_none_iff.mpr ⟨can.has, can.empty, can.fits⟩
    simp [refusal, can.found, can.free, can.offered, suits, can.outside]

/-- Plugging succeeds exactly when the node can take the place, and then joins the two. -/
theorem plug_eq_ok_iff {ws ws' : Workspace} {child : NodeId} {place : Link} :
    ws.plug child place = .ok ws' ↔
      (∃ n holder, ws.CanTake child place n holder) ∧ ws' = ws.join child place := by
  -- The graph is joined when there is no refusal.
  rw [← refusal_eq_none_iff, plug]
  cases ws.refusal child place with
  | none => simp [eq_comm]
  | some e => simp

/-- A node is in its own subtree. -/
theorem self_mem_subtree {ws : Workspace} {id : NodeId} {n : Node}
    (found : ws.node? id = some n) (withNext : Bool) : id ∈ ws.subtree id withNext := by
  -- The subtree starts with its top.
  simp [subtree, found]

section Plug

variable {ws : Workspace} {child : NodeId} {place : Link} {n holder : Node}

/-- A place that a node can take is not offered by the node itself. -/
theorem CanTake.apart (can : ws.CanTake child place n holder) : place.holder ≠ child := by
  -- The node is in its own subtree.
  intro same
  exact can.outside (same ▸ self_mem_subtree can.found true)

/-- Joining a node to a place that it can take keeps links sound. -/
theorem CanTake.linked_join (can : ws.CanTake child place n holder) (linked : ws.Linked) :
    (ws.join child place).Linked := by
  -- The place was empty and the node was free, so that nothing else is taken or left.
  have empty : ws.occupant? place = none := by rw [occupant?_of_node? can.offered, can.empty]
  have free : ws.placeOf? child = none := by rw [placeOf?_of_node? can.found, can.free]
  have apart := can.apart
  rw [join_eq_relink]
  refine linked.relink can.found can.offered can.has apart ?_ ?_ ?_
  · intro other id
    by_cases here : other = place <;> by_cases same : id = child
    · simp [here, same]
    · have elsewhere : ¬ws.placeOf? id = some place := fun taken => by
        rw [← linked.paired, empty] at taken
        cases taken
      simpa [here, same, Ne.symm same] using elsewhere
    · have elsewhere : ¬ws.occupant? other = some child := fun taken => by
        rw [linked.paired, free] at taken
        cases taken
      simpa [here, same, Ne.symm here] using elsewhere
    · rw [if_neg here, if_neg same]
      exact linked.paired other id
  · -- The only new parent link hangs the node somewhere that is not below it.
    have hung : ∀ id, (ws.relink child place (some child) (some place)).holder? id =
        if id = child then some place.holder else ws.holder? id := by
      intro id
      rw [holder?, placeOf?_relink can.found apart]
      split <;> rfl
    have outside : ¬ws.Below child place.holder := by
      rw [← linked.mem_subtree_iff can.found]
      exact can.outside
    exact Rooted.of_hung hung outside linked.rooted
  · intro p above named offered
    obtain rfl : place = p := Option.some.inj named
    obtain rfl : holder = above := Option.some.inj (can.offered.symm.trans offered)
    exact can.fits

/-- Parting a node from its place keeps links sound. -/
theorem Linked.part (linked : ws.Linked) (placed : ws.placeOf? child = some place) :
    (ws.part child place).Linked := by
  -- The place held the node and nothing else.
  have held : ws.occupant? place = some child := (linked.paired place child).mpr placed
  obtain ⟨n, found, _⟩ := node?_of_placeOf? placed
  obtain ⟨holder, offered, occupied⟩ := node?_of_occupant? held
  have apart : place.holder ≠ child := linked.holder_ne placed
  rw [part_eq_relink]
  refine linked.relink found offered (Node.hasPlace_of_occupant occupied) apart ?_ ?_ ?_
  · intro other id
    by_cases here : other = place <;> by_cases same : id = child
    · simp [here, same]
    · have elsewhere : ¬ws.placeOf? id = some place := fun taken => by
        rw [← linked.paired, held] at taken
        exact same (Option.some.inj taken).symm
      simpa [here, same] using elsewhere
    · have elsewhere : ¬ws.occupant? other = some child := fun taken => by
        rw [linked.paired, placed] at taken
        exact here (Option.some.inj taken).symm
      simpa [here, same] using elsewhere
    · rw [if_neg here, if_neg same]
      exact linked.paired other id
  · -- One parent link is gone, and no new one is there.
    have fewer : ∀ id, (ws.relink child place none none).holder? id = ws.holder? id ∨
        (ws.relink child place none none).holder? id = none := by
      intro id
      rw [holder?, placeOf?_relink found apart]
      split
      · exact .inr rfl
      · exact .inl rfl
    exact fun id => Rooted.of_fewer fewer (linked.rooted id)
  · intro p above named
    cases named

/-- Parting undoes joining. -/
theorem CanTake.part_join (can : ws.CanTake child place n holder) :
    (ws.join child place).part child place = ws := by
  -- The place was empty and the node was free.
  rw [join_eq_relink, part_eq_relink, relink_relink can.apart]
  apply relink_self _ _ can.apart
  · rw [occupant?_of_node? can.offered, can.empty]
  · rw [placeOf?_of_node? can.found, can.free]

/-- Joining undoes parting. -/
theorem Linked.join_part (linked : ws.Linked) (placed : ws.placeOf? child = some place) :
    (ws.part child place).join child place = ws := by
  -- The place held the node, which named it as its own.
  have apart := linked.holder_ne placed
  rw [part_eq_relink, join_eq_relink, relink_relink apart]
  exact relink_self ((linked.paired place child).mpr placed) placed apart

/-- A node that has been parted from its place can take it again. -/
theorem Linked.canTake_part (linked : ws.Linked) (placed : ws.placeOf? child = some place) :
    ∃ n holder, (ws.part child place).CanTake child place n holder := by
  -- The connectors are those that fitted before, and no cycle was there before.
  obtain ⟨n, found, parent⟩ := node?_of_placeOf? placed
  obtain ⟨holder, offered, occupied⟩ := linked.parent_occupant found parent
  have apart := linked.holder_ne placed
  have has := Node.hasPlace_of_occupant occupied
  refine ⟨{ n with parent := none }, holder.fill place none, ?_, rfl, ?_, ?_, ?_, ?_, ?_⟩
  · rw [part_eq_relink, node?_relink apart, if_pos rfl, found]
    rfl
  · rw [part_eq_relink, node?_relink apart, if_neg apart, if_pos rfl, offered]
    rfl
  · exact has.congr (Node.connectors_fill holder place none).symm
  · rw [Node.occupant_fill has none rfl, if_pos rfl]
  · exact (linked.admitted found parent offered).congr
      (Node.connectors_fill holder place none).symm rfl
  · -- A walk down to the holder would have been a cycle before the parting.
    have there : (ws.part child place).node? child = some { n with parent := none } := by
      rw [part_eq_relink, node?_relink apart, if_pos rfl, found]
      rfl
    rw [(linked.part placed).mem_subtree_iff there]
    intro below
    have held : ws.holder? child = some place.holder := by rw [holder?, placed]; rfl
    refine (linked.rooted child).not_below held (below.of_more ?_)
    intro id above up
    rw [part_eq_relink, holder?, placeOf?_relink found apart] at up
    split at up
    · cases up
    · exact up

/-- A node that has been parted from its place can be plugged in again, which undoes the parting. -/
theorem Linked.plug_part (linked : ws.Linked) (placed : ws.placeOf? child = some place) :
    (ws.part child place).plug child place = .ok ws :=
  -- What was parted can be joined in the same place, which is then as before.
  plug_eq_ok_iff.mpr ⟨linked.canTake_part placed, (linked.join_part placed).symm⟩

/-- No change of a link gives or takes numbers. -/
theorem isSome_node?_relink (apart : place.holder ≠ child) (occupant : Option NodeId)
    (parent : Option Link) (id : NodeId) :
    ((ws.relink child place occupant parent).node? id).isSome = (ws.node? id).isSome := by
  -- The connectors of the nodes are the same, and so is whether there are any.
  have same : ((ws.relink child place occupant parent).node? id).map Node.connectors =
      (ws.node? id).map Node.connectors := connectors_relink apart occupant parent id
  simpa using congrArg Option.isSome same

/-- A change of a link uses no numbers up. -/
theorem WellFormed.numbered_relink (wf : ws.WellFormed) (apart : place.holder ≠ child)
    (occupant : Option NodeId) (parent : Option Link) {id : NodeId} {m : Node}
    (found : (ws.relink child place occupant parent).node? id = some m) :
    id.number < ws.nextNumber := by
  -- The node was there before.
  have known : ((ws.relink child place occupant parent).node? id).isSome =
      (ws.node? id).isSome := isSome_node?_relink apart occupant parent id
  rw [found] at known
  obtain ⟨k, there⟩ := Option.isSome_iff_exists.mp known.symm
  exact wf.numbered there

/-- Joining a node to a place that it can take keeps the graph well-formed. -/
theorem CanTake.wellFormed_join (can : ws.CanTake child place n holder) (wf : ws.WellFormed) :
    (ws.join child place).WellFormed :=
  -- The links stay paired, and no number is given.
  ⟨can.linked_join wf.toLinked, fun found =>
    wf.numbered_relink can.apart (some child) (some place) found⟩

/-- Parting a node from its place keeps the graph well-formed. -/
theorem WellFormed.part (wf : ws.WellFormed) (placed : ws.placeOf? child = some place) :
    (ws.part child place).WellFormed :=
  -- The links stay paired, and no number is given.
  ⟨wf.toLinked.part placed, fun found =>
    wf.numbered_relink (wf.toLinked.holder_ne placed) none none found⟩

/-- Plugging keeps the graph well-formed. -/
theorem WellFormed.plug (wf : ws.WellFormed) {ws' : Workspace}
    (plugged : ws.plug child place = .ok ws') : ws'.WellFormed := by
  -- A node that is plugged in could take the place.
  obtain ⟨⟨n, holder, can⟩, rfl⟩ := plug_eq_ok_iff.mp plugged
  exact can.wellFormed_join wf

end Plug

/-- The graph with a node taken out of its place, if it has one. -/
def freed (ws : Workspace) (child : NodeId) : Workspace :=
  -- A node on its own stays on its own.
  match ws.placeOf? child with
  | none => ws
  | some place => ws.part child place

/-- Unplugging a node that is there frees it and gives its place back. -/
theorem unplug_eq {ws : Workspace} {child : NodeId} {n : Node} (found : ws.node? child = some n) :
    ws.unplug child = .ok (n.parent, ws.freed child) := by
  -- Both sides look at the place of the node.
  rw [freed, placeOf?_of_node? found]
  simp only [unplug, get, found, bind, Except.bind]
  cases n.parent <;> rfl

/-- Unplugging a node that is not there is refused. -/
theorem unplug_of_absent {ws : Workspace} {child : NodeId} (absent : ws.node? child = none) :
    ws.unplug child = .error (.unknownNode child) := by
  -- The search for the node fails.
  simp [unplug, get, absent, bind, Except.bind]

/-- Unplugging a node that is there frees it. -/
theorem unplug_eq_ok_iff {ws ws' : Workspace} {child : NodeId} {place : Option Link} :
    ws.unplug child = .ok (place, ws') ↔
      (∃ n, ws.node? child = some n ∧ place = n.parent) ∧ ws' = ws.freed child := by
  -- Unplugging fails only for a block that is not there.
  cases found : ws.node? child with
  | none => simp [unplug_of_absent found]
  | some n => simp [unplug_eq found, eq_comm]

/-- Freeing a node keeps the graph well-formed. -/
theorem WellFormed.freed {ws : Workspace} (wf : ws.WellFormed) (child : NodeId) :
    (ws.freed child).WellFormed := by
  -- A node on its own is left alone, and any other one is parted from its place.
  unfold Workspace.freed
  split
  · exact wf
  · rename_i place placed
    exact wf.part placed

/-- Unplugging keeps the graph well-formed. -/
theorem WellFormed.unplug {ws ws' : Workspace} (wf : ws.WellFormed) {child : NodeId}
    {place : Option Link} (unplugged : ws.unplug child = .ok (place, ws')) : ws'.WellFormed := by
  -- What is unplugged is freed.
  obtain ⟨_, rfl⟩ := unplug_eq_ok_iff.mp unplugged
  exact wf.freed child

end Workspace

end QuickEntry
