import QuickEntry.Proofs.Graph.Link
import QuickEntry.Proofs.Graph.Reshape

/-! Making, inserting and removing nodes and setting fields: what changes, and that graphs stay
well-formed. -/

namespace QuickEntry

/-- A node with a field set, or removed, in its old shape. -/
def Node.withField (n : Node) (name : String) (value : Option String) : Node :=
  { n with fields := n.fields.put name value }

namespace Workspace

section Apart

variable {ws ws' : Workspace}

/-- Links stay sound if every place and every occupant stays, and what is there still fits. -/
theorem Linked.of_links (linked : ws.Linked) (places : ∀ id, ws'.placeOf? id = ws.placeOf? id)
    (occupants : ∀ place, ws'.occupant? place = ws.occupant? place)
    (own : ∀ {id n}, ws'.node? id = some n → n.id = id)
    (first : ∀ {id n}, ws'.node? id = some n → n.FirstOnly)
    (admitted : ∀ {id n place holder}, ws'.node? id = some n → n.parent = some place →
      ws'.node? place.holder = some holder → holder.Admits n place) : ws'.Linked where
  own := own
  paired place id := by
    rw [places, occupants]
    exact linked.paired place id
  first := first
  rooted id := by
    -- The parent links are the same, and so are the walks along them.
    refine (linked.rooted id).of_fewer fun other => .inl ?_
    rw [holder?, holder?, places]
  admitted := admitted

/-- A detached node takes no place and holds nothing. -/
theorem unlinked_of_isDetached {id : NodeId}
    (detached : ∀ n, ws.node? id = some n → n.isDetached = true) :
    ws.placeOf? id = none ∧ ∀ place : Link, place.holder = id → ws.occupant? place = none := by
  -- Both directions are read off the node itself, if it is there.
  constructor
  · refine Option.bind_eq_none_iff.mpr fun n found => ?_
    exact Node.parent_of_isDetached (detached n found)
  · intro place holder
    refine Option.bind_eq_none_iff.mpr fun n found => ?_
    exact Node.occupant_of_isDetached (detached n (holder ▸ found)) place

/-- Links stay sound when a detached node comes, goes or changes. -/
theorem Linked.of_apart (linked : ws.Linked) (id : NodeId)
    (others : ∀ other, other ≠ id → ws'.node? other = ws.node? other)
    (before : ∀ n, ws.node? id = some n → n.isDetached = true)
    (after : ∀ n, ws'.node? id = some n → n.isDetached = true ∧ n.id = id) : ws'.Linked := by
  -- No link says that the node is there.
  have lone := unlinked_of_isDetached before
  have apart := unlinked_of_isDetached fun n (found : ws'.node? id = some n) => (after n found).1
  refine linked.of_links (fun other => ?_) (fun place => ?_) ?_ ?_ ?_
  · by_cases same : other = id
    · rw [same, apart.1, lone.1]
    · rw [placeOf?, placeOf?, others other same]
  · by_cases same : place.holder = id
    · rw [apart.2 place same, lone.2 place same]
    · rw [occupant?, occupant?, others place.holder same]
  · intro other n found
    by_cases same : other = id
    · rw [same] at found ⊢
      exact (after n found).2
    · rw [others other same] at found
      exact linked.own found
  · intro other n found
    by_cases same : other = id
    · exact Node.firstOnly_of_isDetached (after n (same ▸ found)).1
    · rw [others other same] at found
      exact linked.first found
  · intro other n place holder found placed offered
    -- The node has neither a place nor an occupant, so it takes part in no link.
    have elsewhere : other ≠ id := by
      intro same
      rw [Node.parent_of_isDetached (after n (same ▸ found)).1] at placed
      cases placed
    rw [others other elsewhere] at found
    obtain ⟨above, known, occupied⟩ := linked.parent_occupant found placed
    have kept : place.holder ≠ id := by
      intro same
      rw [Node.occupant_of_isDetached (before above (same ▸ known))] at occupied
      cases occupied
    rw [others _ kept] at offered
    exact linked.admitted found placed offered

end Apart

section Insert

variable {ws ws' : Workspace} {id : NodeId} {n : Node}

/-- The graph with a node put under its number, and later numbers above it. -/
def added (ws : Workspace) (n : Node) : Workspace :=
  { ws with nodes := ws.nodes.insert n.id n, nextNumber := max ws.nextNumber (n.id.number + 1) }

/-- The graph without the node of a number. -/
def without (ws : Workspace) (id : NodeId) : Workspace := { ws with nodes := ws.nodes.erase id }

/-- An added node is found under its number, and the others are where they were. -/
theorem node?_added (ws : Workspace) (n : Node) (other : NodeId) :
    (ws.added n).node? other = if other = n.id then some n else ws.node? other :=
  -- The map is extended at one key.
  ws.nodes.get?_insert n.id other n

/-- A node left out is gone, and the others are where they were. -/
theorem node?_without (ws : Workspace) (id other : NodeId) :
    (ws.without id).node? other = if other = id then none else ws.node? other :=
  -- The map loses one key.
  ws.nodes.get?_erase id other

/-- A node is inserted exactly if its number is free and it is detached. -/
theorem insert_eq_ok_iff :
    ws.insert n = .ok ws' ↔
      ws.node? n.id = none ∧ n.isDetached = true ∧ ws' = ws.added n := by
  -- The two checks of the definition come one after the other.
  unfold insert
  cases present : ws.contains n.id with
  | true =>
    obtain ⟨m, found⟩ := OrderedMap.contains_iff.mp present
    simp [node?, found]
  | false =>
    have absent : ws.node? n.id = none := OrderedMap.contains_eq_false_iff.mp present
    cases detached : n.isDetached with
    | false => simp
    | true => simp [absent, added, eq_comm]

/-- A node is removed exactly if it is there and detached. -/
theorem remove_eq_ok_iff :
    ws.remove id = .ok (n, ws') ↔
      ws.node? id = some n ∧ n.isDetached = true ∧ ws' = ws.without id := by
  -- The two checks of the definition come one after the other.
  unfold remove
  cases found : ws.node? id with
  | none => simp
  | some m =>
    by_cases detached : m.isDetached = true
    · simp only [detached, if_true, Except.ok.injEq, Prod.mk.injEq, Option.some.injEq, without]
      constructor
      · rintro ⟨rfl, rfl⟩
        exact ⟨rfl, detached, rfl⟩
      · rintro ⟨rfl, _, rfl⟩
        exact ⟨rfl, rfl⟩
    · simp only [detached, if_false, reduceCtorEq, Option.some.injEq, false_iff]
      rintro ⟨rfl, detached', _⟩
      exact detached detached'

/-- Inserting keeps the graph well-formed, whatever the node looks like. -/
theorem WellFormed.insert (wf : ws.WellFormed) (inserted : ws.insert n = .ok ws') :
    ws'.WellFormed := by
  -- A detached node brings no links, and later numbers are above its own.
  obtain ⟨absent, detached, rfl⟩ := insert_eq_ok_iff.mp inserted
  refine ⟨wf.toLinked.of_apart n.id ?_ ?_ ?_, ?_⟩
  · intro other different
    rw [node?_added, if_neg different]
  · intro m found
    rw [absent] at found
    cases found
  · intro m found
    rw [node?_added, if_pos rfl] at found
    cases found
    exact ⟨detached, rfl⟩
  · intro other m found
    show other.number < max ws.nextNumber (n.id.number + 1)
    rw [node?_added] at found
    split at found
    · rename_i same
      rw [same]
      omega
    · have smaller := wf.numbered found
      omega

/-- Removing keeps the graph well-formed. -/
theorem WellFormed.remove (wf : ws.WellFormed) (removed : ws.remove id = .ok (n, ws')) :
    ws'.WellFormed := by
  -- A detached node takes no links along.
  obtain ⟨found, detached, rfl⟩ := remove_eq_ok_iff.mp removed
  refine ⟨wf.toLinked.of_apart id ?_ ?_ ?_, ?_⟩
  · intro other different
    rw [node?_without, if_neg different]
  · intro m present
    cases found.symm.trans present
    exact detached
  · intro m present
    rw [node?_without, if_pos rfl] at present
    cases present
  · intro other m present
    rw [node?_without] at present
    split at present
    · cases present
    · exact wf.numbered present

end Insert

/-- The graph with one more number used up. -/
def counted (ws : Workspace) : Workspace := { ws with nextNumber := ws.nextNumber + 1 }

/-- What making a node gives: a detached node under the next number, in the shape that it
derives. -/
structure Made (ws : Workspace) (kind : String) (mutation : Mutation) (n : Node) : Prop where
  id : n.id = ⟨ws.nextNumber⟩
  kind : n.kind = kind
  mutation : n.mutation = mutation
  known : ∃ known, BlockKind.ofName? n.kind = some known ∧ n.fields = .ofList known.defaultFields
  detached : n.isDetached = true
  shaped : ws.shapeOf n = .ok n.connectors

/-- Making a node gives such a node and uses its number up. -/
theorem make_eq_ok {ws ws' : Workspace} {kind : String} {mutation : Mutation} {n : Node}
    (made : ws.make kind mutation = .ok (n, ws')) :
    ws.Made kind mutation n ∧ ws' = ws.counted := by
  -- The blank node has no sockets to hold anything, and then takes its shape on.
  unfold make at made
  split at made
  · cases made
  · rename_i known found
    cases made
    refine ⟨⟨rfl, rfl, rfl, ⟨known, found, rfl⟩, ?_, ?_⟩, rfl⟩
    · simp [Node.isDetached, Node.reshape, Node.reuse]
    · rw [Node.connectors_reshape]
      simp [shapeOf, Node.reshape, found]

/-- Nodes of every known kind can be made. -/
theorem make_of_known (ws : Workspace) {kind : String} {known : BlockKind}
    (found : BlockKind.ofName? kind = some known) (mutation : Mutation) :
    ∃ n, ws.make kind mutation = .ok (n, ws.counted) ∧ ws.Made kind mutation n := by
  -- Nothing else is asked of the kind.
  have made : ∃ n, ws.make kind mutation = .ok (n, ws.counted) := by
    rw [make, found]
    exact ⟨_, rfl⟩
  obtain ⟨n, made⟩ := made
  exact ⟨n, made, (make_eq_ok made).1⟩

/-- No node has the next number. -/
theorem WellFormed.node?_next {ws : Workspace} (wf : ws.WellFormed) {id : NodeId}
    (next : id = ⟨ws.nextNumber⟩) : ws.node? id = none := by
  -- All numbers in use are below it.
  cases found : ws.node? id with
  | none => rfl
  | some n =>
    have below := wf.numbered found
    rw [next] at below
    exact absurd below (Nat.lt_irrefl _)

/-- A well-formed graph stays so when a number is used up. -/
theorem WellFormed.counted {ws : Workspace} (wf : ws.WellFormed) : ws.counted.WellFormed := by
  -- No node is there that was not there before.
  refine ⟨wf.toLinked.of_links (fun _ => rfl) (fun _ => rfl) wf.own wf.first wf.admitted, ?_⟩
  intro id m found
  have smaller := wf.numbered found
  exact Nat.lt_succ_of_lt smaller

/-- A graph stays well-formed when a detached node is inserted under the next number. -/
theorem WellFormed.added {ws : Workspace} (wf : ws.WellFormed) {n : Node}
    (next : n.id = ⟨ws.nextNumber⟩) (detached : n.isDetached = true) :
    (ws.counted.added n).WellFormed :=
  -- A new node with the next number is an insertion after counting up.
  wf.counted.insert (insert_eq_ok_iff.mpr ⟨wf.node?_next next, detached, rfl⟩)

/-- A node that is inserted under the next number comes last in the order of the nodes. -/
theorem WellFormed.keys_added {ws : Workspace} (wf : ws.WellFormed) {n : Node}
    (next : n.id = ⟨ws.nextNumber⟩) :
    (ws.counted.added n).nodes.keys = ws.nodes.keys ++ [n.id] := by
  -- The number is new, so its key comes last.
  have absent : ws.nodes.contains n.id = false :=
    OrderedMap.contains_eq_false_iff.mpr (wf.node?_next next)
  rw [Workspace.added, OrderedMap.keys_insert, Workspace.counted, absent, if_neg (by simp)]

/-- Making a node keeps the graph well-formed. -/
theorem WellFormed.make {ws ws' : Workspace} (wf : ws.WellFormed) {kind : String}
    {mutation : Mutation} {n : Node} (made : ws.make kind mutation = .ok (n, ws')) :
    ws'.WellFormed := by
  -- Only a number is used up.
  obtain ⟨_, rfl⟩ := make_eq_ok made
  exact wf.counted

section SetField

variable {ws ws' : Workspace} {id : NodeId} {n m : Node} {shape : Shape}

/-- A node keeps its links in a shape: its occupied sockets survive, its places take what they
hold, and the place that it takes still takes it. -/
structure KeepsLinks (ws : Workspace) (id : NodeId) (m : Node) (shape : Shape) : Prop where
  survives : m.Survives shape
  holds : ∀ {place child c}, place.holder = id → m.occupant place = some child →
    ws.node? child = some c → (m.reshape shape).Admits c place
  fits : ∀ {place holder}, m.parent = some place → ws.node? place.holder = some holder →
    holder.Admits (m.reshape shape) place

/-- A node is found in a graph, up to what its links do not depend on. -/
structure Hangs (ws : Workspace) (id : NodeId) (n m : Node) : Prop where
  found : ws.node? id = some n
  parent : m.parent = n.parent
  next : m.next = n.next
  sockets : m.sockets = n.sockets

/-- What a place of the node holds is what the graph says. -/
theorem Hangs.occupant (hangs : ws.Hangs id n m) (place : Link) :
    m.occupant place = n.occupant place := by
  -- Sockets and follower are the same.
  cases place with
  | socket parent name => simp only [Node.occupant, Node.socket?, hangs.sockets]
  | next previous => exact hangs.next

/-- Whatever the node holds is there and fits. -/
theorem Hangs.admits (hangs : ws.Hangs id n m) (linked : ws.Linked) {place : Link} {child : NodeId}
    (holder : place.holder = id) (occupied : m.occupant place = some child) :
    ∃ c, ws.node? child = some c ∧ n.Admits c place := by
  -- The two sides of the link agree.
  have found : ws.node? place.holder = some n := holder ▸ hangs.found
  have taken : ws.occupant? place = some child := by
    rw [occupant?_of_node? found, ← hangs.occupant, occupied]
  obtain ⟨c, known, placed⟩ := linked.occupant_parent taken
  exact ⟨c, known, linked.admitted known placed found⟩

/-- Of several sockets with one name only the first holds a node. -/
theorem Hangs.firstOnly (hangs : ws.Hangs id n m) (linked : ws.Linked) : m.FirstOnly := by
  -- This is so in the graph.
  rw [Node.FirstOnly, hangs.sockets]
  exact linked.first hangs.found

/-- What an occupied socket of the node holds is there and was taken by that socket. -/
theorem Hangs.taken (hangs : ws.Hangs id n m) (linked : ws.Linked) {s : Socket} {child : NodeId}
    (member : s ∈ m.sockets) (held : s.target = some child) :
    ∃ c, ws.node? child = some c ∧ s.obstacle c = none := by
  -- The socket is the first one of its name.
  have first := hangs.firstOnly linked
  have occupied : m.occupant (.socket id s.name) = some child :=
    first.occupant_socket_iff.mpr ⟨s, member, rfl, held⟩
  obtain ⟨c, known, slot, found, free⟩ := hangs.admits linked rfl occupied
  have same : m.socket? s.name = some s :=
    first.find?_of_target member held _ (by simp) fun t suits => by simpa using suits
  rw [Node.socket?, hangs.sockets] at same
  cases same.symm.trans found
  exact ⟨c, known, free⟩

/-- A socket of a reshaped node is the one made for the input of its name. -/
theorem socket?_reshape (distinct : shape.Distinct) {spec : SocketSpec}
    (inside : spec ∈ shape.sockets) (m : Node) :
    (m.reshape shape).socket? spec.name = some (Node.reuse m.sockets spec) := by
  -- The input is the only one of its name.
  have names : (m.reshape shape).connectors.Distinct := by
    rw [Node.connectors_reshape]
    exact distinct
  refine Node.find?_of_distinct names (List.mem_map.mpr ⟨spec, inside, rfl⟩) _ ?_ fun t suits => ?_
  · simp [Node.reuse]
  · exact decide_eq_true_eq.mp suits

/-- An occupied socket is kept if it has a like one, which accepts the output of an expression. -/
theorem keepsChild_iff (distinct : shape.Distinct) {s : Socket} {child : NodeId} {c : Node}
    (held : s.target = some child) (known : ws.node? child = some c) :
    ws.keepsChild shape s = true ↔ ∃ spec ∈ shape.sockets, spec.name = s.name ∧
      spec.kind = s.kind ∧ (spec.kind = .statement ∨ c.output.any spec.check.accepts = true) := by
  -- The search for a like input finds the only one of that name.
  unfold keepsChild
  rw [held]
  constructor
  · intro kept
    split at kept
    · rename_i absent
      cases absent
    · cases kept
    · rename_i other spec same found
      cases same
      have like := List.find?_some found
      simp only [Bool.and_eq_true, decide_eq_true_eq] at like
      rw [known, Option.bind_some, Bool.or_eq_true, decide_eq_true_eq] at kept
      exact ⟨spec, List.mem_of_find?_eq_some found, like.1, like.2, kept⟩
  · rintro ⟨spec, inside, name, kind, accepts⟩
    -- Names are distinct, so whatever the search finds is this input.
    have found : shape.sockets.find? (fun spec => spec.name = s.name && spec.kind = s.kind) =
        some spec := by
      cases search : shape.sockets.find? (fun spec => spec.name = s.name && spec.kind = s.kind) with
      | none =>
        have missed := List.find?_eq_none.mp search spec inside
        simp [name, kind] at missed
      | some other =>
        have like := List.find?_some search
        simp only [Bool.and_eq_true, decide_eq_true_eq] at like
        rw [List.inj_on_of_nodup_map distinct (List.mem_of_find?_eq_some search) inside
          (like.1.trans name.symm)]
    rw [found]
    simpa only [known, Option.bind_some, Bool.or_eq_true, decide_eq_true_eq] using accepts

/-- A socket takes a node that a socket of the same kind takes, if it accepts its output in the case
of an expression. -/
theorem obstacle_iff_of_kind {s t : Socket} {c : Node} (kind : t.kind = s.kind)
    (free : s.obstacle c = none) :
    t.obstacle c = none ↔ t.kind = .statement ∨ c.output.any t.check.accepts = true := by
  -- Statements show the same connector to both sockets.
  cases sort : t.kind with
  | statement =>
    rw [Socket.obstacle_statement sort, ← Socket.obstacle_statement (kind.symm.trans sort)]
    simpa using free
  | value =>
    rw [Socket.obstacle_value sort, Option.any_eq_true]
    simp

/-- The place of a node is kept if its holder takes the node in its new shape. -/
theorem keepsParent_iff (linked : ws.Linked) (hangs : ws.Hangs id n m) :
    ws.keepsParent m shape = true ↔ ∀ place holder, m.parent = some place →
      ws.node? place.holder = some holder → holder.Admits (m.reshape shape) place := by
  -- A node with a place has a holder, which took it before.
  unfold keepsParent
  cases placed : m.parent with
  | none => simp
  | some place =>
    obtain ⟨holder, offered, occupied⟩ :=
      linked.parent_occupant hangs.found (hangs.parent.symm.trans placed)
    have before := linked.admitted hangs.found (hangs.parent.symm.trans placed) offered
    -- There is one such place and one such holder.
    have single : (∀ place' holder', some place = some place' →
        ws.node? place'.holder = some holder' → holder'.Admits (m.reshape shape) place') ↔
        holder.Admits (m.reshape shape) place := by
      constructor
      · intro all
        exact all place holder rfl offered
      · intro fits place' holder' same offered'
        cases same
        cases offered.symm.trans offered'
        exact fits
    rw [single]
    cases place with
    | next previous =>
      -- The holder has its connection already, so the shape must keep its own.
      show shape.hasPrevious = true ↔ holder.hasNext = true ∧ shape.hasPrevious = true
      simp [before.1]
    | socket parent name =>
      -- The socket has not changed, so it is the new output that it must accept.
      obtain ⟨slot, found, _⟩ := before
      have search : (ws.node? parent).bind (·.socket? name) = some slot := by
        rw [show ws.node? parent = some holder from offered, Option.bind_some, found]
      have decided : holder.Admits (m.reshape shape) (.socket parent name) ↔
          slot.obstacle (m.reshape shape) = none := by
        simp [Node.Admits, found]
      rw [decided]
      simp only [search]
      cases kind : slot.kind with
      | statement =>
        rw [Socket.obstacle_statement kind]
        rfl
      | value =>
        rw [Socket.obstacle_value kind, Option.any_eq_true]
        rfl

/-- The sockets of a node pass the check exactly if they survive and take what they hold. -/
theorem keepsChildren_iff (linked : ws.Linked) (hangs : ws.Hangs id n m)
    (distinct : shape.Distinct) :
    (∀ s ∈ m.sockets, ws.keepsChild shape s = true) ↔ m.Survives shape ∧
      ∀ name child c, m.occupant (.socket id name) = some child → ws.node? child = some c →
        (m.reshape shape).Admits c (.socket id name) := by
  -- Each occupied socket must be there in the new shape, by name and kind, and accept its child
  -- still.
  have first := hangs.firstOnly linked
  constructor
  · intro children
    constructor
    · intro s member child held
      obtain ⟨c, known, _⟩ := hangs.taken linked member held
      obtain ⟨spec, inside, name, kind, _⟩ :=
        (keepsChild_iff distinct held known).mp (children s member)
      exact ⟨spec, inside, name, kind⟩
    · intro name child c occupied known
      obtain ⟨s, member, named, held⟩ := first.occupant_socket_iff.mp occupied
      obtain ⟨c', known', free⟩ := hangs.taken linked member held
      cases known.symm.trans known'
      obtain ⟨spec, inside, same, kind, accepts⟩ :=
        (keepsChild_iff distinct held known).mp (children s member)
      have there := socket?_reshape distinct inside m
      rw [same, named] at there
      exact ⟨_, there, (obstacle_iff_of_kind (t := Node.reuse m.sockets spec) kind free).mpr
        accepts⟩
  · rintro ⟨survives, holds⟩ s member
    cases held : s.target with
    | none => simp [keepsChild, held]
    | some child =>
      obtain ⟨c, known, free⟩ := hangs.taken linked member held
      obtain ⟨spec, inside, same, kind⟩ := survives s member child held
      have occupied : m.occupant (.socket id s.name) = some child :=
        first.occupant_socket_iff.mpr ⟨s, member, rfl, held⟩
      obtain ⟨slot, found, fits⟩ := holds s.name child c occupied known
      have there := socket?_reshape distinct inside m
      rw [same] at there
      cases there.symm.trans found
      exact (keepsChild_iff distinct held known).mpr ⟨spec, inside, same, kind,
        (obstacle_iff_of_kind (t := Node.reuse m.sockets spec) kind free).mp fits⟩

/-- The place after a node passes the check exactly if it takes what it holds. -/
theorem keepsNext_iff (linked : ws.Linked) (hangs : ws.Hangs id n m) :
    (m.next = none ∨ shape.hasNext = true) ↔ ∀ child c, m.next = some child →
      ws.node? child = some c → (m.reshape shape).Admits c (.next id) := by
  -- What comes after the node was taken before, and has a connector to it.
  constructor
  · rintro (absent | has) child c next known
    · rw [absent] at next
      cases next
    · have occupied : m.occupant (.next id) = some child := next
      obtain ⟨c', known', fits⟩ := hangs.admits linked rfl occupied
      cases known.symm.trans known'
      exact ⟨has, fits.2⟩
  · intro holds
    cases next : m.next with
    | none => exact .inl rfl
    | some child =>
      have occupied : m.occupant (.next id) = some child := next
      obtain ⟨c, known, _⟩ := hangs.admits linked rfl occupied
      exact .inr (holds child c next known).1

/-- The check before a change of shape passes exactly if the node keeps its links. -/
theorem keepsConnections_iff (linked : ws.Linked) (hangs : ws.Hangs id n m)
    (distinct : shape.Distinct) :
    ws.keepsConnections m shape = true ↔ ws.KeepsLinks id m shape := by
  -- The three parts of the check are the three parts of keeping the links.
  rw [keepsConnections, Bool.and_eq_true, Bool.and_eq_true, keepsParent_iff linked hangs,
    List.all_eq_true, keepsChildren_iff linked hangs distinct, Bool.or_eq_true,
    Option.isNone_iff_eq_none, keepsNext_iff linked hangs]
  constructor
  · rintro ⟨⟨⟨survives, sockets⟩, follower⟩, upward⟩
    refine ⟨survives, ?_, fun placed offered => upward _ _ placed offered⟩
    intro place child c holder occupied known
    subst holder
    cases place with
    | socket parent name => exact sockets name child c occupied known
    | next previous => exact follower child c occupied known
  · rintro ⟨survives, holds, fits⟩
    have sockets : ∀ name child c, m.occupant (.socket id name) = some child →
        ws.node? child = some c → (m.reshape shape).Admits c (.socket id name) :=
      fun name child c occupied known => holds rfl occupied known
    have follower : ∀ child c, m.occupant (.next id) = some child →
        ws.node? child = some c → (m.reshape shape).Admits c (.next id) :=
      fun child c occupied known => holds rfl occupied known
    exact ⟨⟨⟨survives, sockets⟩, follower⟩, fun place holder placed offered => fits placed offered⟩

/-- A node with another field hangs where the node hangs. -/
theorem hangs_withField (found : ws.node? id = some n) (name : String) (value : Option String) :
    ws.Hangs id n (n.withField name value) := ⟨found, rfl, rfl, rfl⟩

/-- The graph with a node in the place of the one with its number. -/
def replaced (ws : Workspace) (id : NodeId) (n : Node) : Workspace := ws.modify id fun _ => n

/-- A replaced node is found under its number, and the others are where they were. -/
theorem node?_replaced (found : ws.node? id = some n) (m : Node) (other : NodeId) :
    (ws.replaced id m).node? other = if other = id then some m else ws.node? other := by
  -- There is a node to be replaced.
  rw [replaced, node?_modify, found]
  rfl

/-- Setting a field looks the node up, derives its new shape, and checks its links. -/
theorem setField_eq (name : String) (value : Option String) :
    ws.setField id name value = match ws.node? id with
      | none => .error (.unknownNode id)
      | some n => match ws.shapeOf (n.withField name value) with
        | .error e => .error e
        | .ok shape =>
          if ws.keepsConnections (n.withField name value) shape then
            .ok (n.field? name, ws.replaced id ((n.withField name value).reshape shape))
          else .error (.shapeConflict id name) := by
  -- The value goes in or the field goes out, and the rest is the same in both cases.
  have unfolded : ws.setField id name value = (do
      let n ← ws.get id
      let shape ← ws.shapeOf (n.withField name value)
      if ws.keepsConnections (n.withField name value) shape then
        return (n.field? name, ws.replaced id ((n.withField name value).reshape shape))
      else throw (.shapeConflict id name)) := by
    cases value <;> rfl
  rw [unfolded, get]
  cases ws.node? id with
  | none => rfl
  | some n =>
    dsimp only [bind, Except.bind]
    cases ws.shapeOf (n.withField name value) <;> rfl

/-- A node of which a field is set takes on the shape that it derives. -/
theorem of_setField {name : String} {value old : Option String}
    (set : ws.setField id name value = .ok (old, ws')) : ∃ n shape, ws.node? id = some n ∧
      ws.shapeOf (n.withField name value) = .ok shape ∧
      ws' = ws.replaced id ((n.withField name value).reshape shape) := by
  -- The field is set only after the node is found, a shape is derived and the connections fit it.
  rw [setField_eq] at set
  cases found : ws.node? id with
  | none =>
    rw [found] at set
    cases set
  | some n =>
    cases derived : ws.shapeOf (n.withField name value) with
    | error e =>
      simp only [found, derived] at set
      cases set
    | ok shape =>
      simp only [found, derived] at set
      split at set
      · cases set
        exact ⟨n, shape, rfl, derived, rfl⟩
      · cases set

/-- A field is set exactly if the node is there, derives a shape with it, and keeps its links in
that shape. -/
theorem setField_eq_ok_iff (linked : ws.Linked) {name : String} {value old : Option String} :
    ws.setField id name value = .ok (old, ws') ↔ ∃ n shape, ws.node? id = some n ∧
      ws.shapeOf (n.withField name value) = .ok shape ∧
      ws.KeepsLinks id (n.withField name value) shape ∧ old = n.field? name ∧
      ws' = ws.replaced id ((n.withField name value).reshape shape) := by
  -- The check of the links passes exactly if the node keeps them.
  rw [setField_eq]
  cases found : ws.node? id with
  | none => simp
  | some n =>
    cases derived : ws.shapeOf (n.withField name value) with
    | error e => simp [derived]
    | ok shape =>
      have checked := keepsConnections_iff linked (hangs_withField found name value)
        (distinct_of_shapeOf derived)
      simp only [Option.some.injEq, exists_and_left, ↓existsAndEq, derived, Except.ok.injEq,
        true_and, ← checked]
      cases ws.keepsConnections (n.withField name value) shape <;> simp [eq_comm]

/-- In a shape in which a node keeps its links, every place that it offers takes what it holds, and
its own place takes it. -/
theorem KeepsLinks.admits_replaced (keeps : ws.KeepsLinks id m shape) (linked : ws.Linked)
    (hangs : ws.Hangs id n m) {other : NodeId} {k holder : Node} {place : Link}
    (found : (ws.replaced id (m.reshape shape)).node? other = some k)
    (placed : k.parent = some place)
    (offered : (ws.replaced id (m.reshape shape)).node? place.holder = some holder) :
    holder.Admits k place := by
  rw [node?_replaced hangs.found] at found offered
  -- The node may be on either side of the link, but not on both.
  by_cases child : other = id
  · rw [if_pos child] at found
    cases found
    have apart : place.holder ≠ id :=
      linked.holder_ne ((placeOf?_of_node? hangs.found).trans (hangs.parent.symm.trans placed))
    rw [if_neg apart] at offered
    exact keeps.fits placed offered
  · rw [if_neg child] at found
    split at offered
    · rename_i here
      cases offered
      obtain ⟨above, known, occupied⟩ := linked.parent_occupant found placed
      rw [here] at known
      cases hangs.found.symm.trans known
      exact keeps.holds here ((hangs.occupant place).trans occupied) found
    · exact linked.admitted found placed offered

/-- A node that takes on a shape stays in its place, and so do the others. -/
theorem placeOf?_replaced (hangs : ws.Hangs id n m) (shape : Shape) (other : NodeId) :
    (ws.replaced id (m.reshape shape)).placeOf? other = ws.placeOf? other := by
  -- The new node hangs where the old one did.
  rw [placeOf?, placeOf?, node?_replaced hangs.found]
  split
  · rename_i same
    rw [same, hangs.found]
    exact hangs.parent
  · rfl

/-- Each place holds what it held when a node takes on a shape in which it keeps its links. -/
theorem KeepsLinks.occupant?_replaced (keeps : ws.KeepsLinks id m shape) (linked : ws.Linked)
    (hangs : ws.Hangs id n m) (distinct : shape.Distinct) (place : Link) :
    (ws.replaced id (m.reshape shape)).occupant? place = ws.occupant? place := by
  -- The new node holds what the old one did, place by place.
  rw [occupant?, occupant?, node?_replaced hangs.found]
  split
  · rename_i same
    rw [same, hangs.found]
    exact (Node.occupant_reshape (hangs.firstOnly linked) distinct keeps.survives place).trans
      (hangs.occupant place)
  · rfl

/-- A node that takes on a shape in which it keeps its links keeps the links of the graph sound. -/
theorem KeepsLinks.linked_replaced (keeps : ws.KeepsLinks id m shape) (linked : ws.Linked)
    (hangs : ws.Hangs id n m) (distinct : shape.Distinct) (own : m.id = id) :
    (ws.replaced id (m.reshape shape)).Linked := by
  -- The node takes the place that it took, and each place holds what it held.
  refine linked.of_links (placeOf?_replaced hangs shape)
    (keeps.occupant?_replaced linked hangs distinct) ?_ ?_ (keeps.admits_replaced linked hangs)
  · intro other k found
    rw [node?_replaced hangs.found] at found
    split at found
    · rename_i same
      cases found
      exact own.trans same.symm
    · exact linked.own found
  · intro other k found
    rw [node?_replaced hangs.found] at found
    split at found
    · cases found
      exact Node.firstOnly_reshape distinct m
    · exact linked.first found

/-- A node with the links of a node of a sound graph keeps them in the connectors of that node, in
every graph whose other nodes have the same connectors. -/
theorem Linked.keepsLinks (linked : ws.Linked) (found : ws.node? id = some n)
    (others : ∀ other, other ≠ id →
      (ws'.node? other).map Node.connectors = (ws.node? other).map Node.connectors)
    (survives : m.Survives n.connectors) (occupants : ∀ place, m.occupant place = n.occupant place)
    (parent : m.parent = n.parent) : ws'.KeepsLinks id m n.connectors := by
  -- What fitted before fits again, since all connectors are what they were.
  have same : n.connectors = (m.reshape n.connectors).connectors :=
    (Node.connectors_reshape m n.connectors).symm
  refine ⟨survives, ?_, ?_⟩
  · intro place child k holder occupied known
    -- What the node holds was plugged into it when it had the same connectors.
    have taken : ws.occupant? place = some child := by
      rw [occupant?_of_node? (holder ▸ found), ← occupants, occupied]
    have placed := (linked.paired place child).mp taken
    obtain ⟨j, there, above⟩ := node?_of_placeOf? placed
    have apart : child ≠ id := by
      rintro rfl
      exact linked.holder_ne placed holder
    have equal := others child apart
    rw [known, there, Option.map_some, Option.map_some, Option.some.injEq] at equal
    exact (linked.admitted there above (holder ▸ found)).congr same equal.symm
  · intro place holder placed offered
    rw [parent] at placed
    obtain ⟨j, there, _⟩ := linked.parent_occupant found placed
    have apart := linked.holder_ne ((placeOf?_of_node? found).trans placed)
    have equal := others place.holder apart
    rw [offered, there, Option.map_some, Option.map_some, Option.some.injEq] at equal
    exact (linked.admitted found placed there).congr equal.symm same

/-- Setting a field keeps the graph well-formed. -/
theorem WellFormed.setField (wf : ws.WellFormed) {name : String} {value old : Option String}
    (set : ws.setField id name value = .ok (old, ws')) : ws'.WellFormed := by
  -- The node is replaced by itself with another field and in another shape.
  obtain ⟨n, shape, found, derived, keeps, rfl, rfl⟩ := (setField_eq_ok_iff wf.toLinked).mp set
  refine ⟨keeps.linked_replaced wf.toLinked (hangs_withField found name value)
    (distinct_of_shapeOf derived) (wf.own (n := n) found), ?_⟩
  intro other k present
  rw [node?_replaced found] at present
  split at present
  · rename_i same
    rw [same]
    exact wf.numbered found
  · exact wf.numbered present

end SetField

end Workspace

end QuickEntry
