import QuickEntry.Proofs.OrderedMap
import QuickEntry.Workspace.Change

/-! A node by itself: what its places hold, and what each change of the node does to them. -/

namespace QuickEntry

/-- The input that a socket offers, whatever it holds. -/
def Socket.spec (s : Socket) : SocketSpec := ⟨s.name, s.kind, s.check⟩

/-- Sockets that offer the same input take the same nodes. -/
theorem Socket.obstacle_congr {s t : Socket} (same : s.spec = t.spec) (n : Node) :
    s.obstacle n = t.obstacle n := by
  -- Only kind and check are asked.
  simp only [Socket.spec, SocketSpec.mk.injEq] at same
  simp only [Socket.obstacle, same]

/-- A socket for statements takes every node with a previous connector. -/
theorem Socket.obstacle_statement {s : Socket} (kind : s.kind = .statement) {n : Node} :
    s.obstacle n = none ↔ n.hasPrevious = true := by
  -- The output of the node plays no part.
  unfold Socket.obstacle
  rw [kind]
  cases n.output <;> by_cases has : n.hasPrevious = true <;> simp [has]

/-- A socket for expressions takes every node with an output that it accepts. -/
theorem Socket.obstacle_value {s : Socket} (kind : s.kind = .value) {n : Node} :
    s.obstacle n = none ↔ ∃ output, n.output = some output ∧ s.check.accepts output = true := by
  -- Without an output there is an obstacle in any case.
  unfold Socket.obstacle
  rw [kind]
  cases output : n.output with
  | none => simp
  | some type => by_cases accepted : s.check.accepts type = true <;> simp [accepted]

namespace Node

/-- Nodes that are the same have the same values in their fields and settings, and all else is
equal. -/
theorem of_same {a b : Node} (same : a.same b = true) :
    a.fields.Same b.fields ∧ a.mutation.attributes.Same b.mutation.attributes ∧
      a.mutation.args = b.mutation.args ∧
      { a with fields := b.fields, mutation := b.mutation } = b := by
  -- Fields and settings are compared apart.
  simp only [Node.same, Mutation.same, Bool.and_eq_true, decide_eq_true_eq] at same
  obtain ⟨⟨fields, settings, args⟩, rest⟩ := same
  exact ⟨.of_same fields, .of_same settings, args, rest⟩

/-- Of several sockets with one name only the first can hold a node. -/
def FirstOnly (n : Node) : Prop :=
  -- The list is in the order of the sockets, so that the second of a pair is the later one.
  n.sockets.Pairwise fun s t => s.name = t.name → t.target = none

/-- A holder takes a node in one of its places, be the place free or not. -/
def Admits (holder node : Node) : Link → Prop
  -- A socket decides by output or previous connector, the place after a statement by connectors.
  | .socket _ name => ∃ slot, holder.socket? name = some slot ∧ slot.obstacle node = none
  | .next _ => holder.hasNext = true ∧ node.hasPrevious = true

/-- The connectors and sockets that a node has, whatever they hold. -/
def connectors (n : Node) : Shape :=
  ⟨n.output, n.hasPrevious, n.hasNext, n.sockets.map Socket.spec⟩

/-- A search for a name that is changed finds the changed socket. -/
theorem find?_modifySocket (name wanted : String) (f : Socket → Socket) (sockets : List Socket)
    (named : ∀ s, (f s).name = s.name) :
    (modifySocket name f sockets).find? (·.name = wanted) =
      if wanted = name then (sockets.find? (·.name = name)).map f
      else sockets.find? (·.name = wanted) := by
  -- The search and the change stop at the same socket.
  induction sockets with
  | nil => simp [modifySocket]
  | cons s rest ih =>
    by_cases here : s.name = name
    · by_cases same : wanted = name
      · simp [modifySocket, here, same, named]
      · have other : ¬name = wanted := fun eq => same eq.symm
        simp [modifySocket, here, same, other, named]
    · by_cases same : wanted = name
      · subst same
        simpa [modifySocket, here] using ih
      · by_cases found : s.name = wanted
        · simp [modifySocket, same, found]
        · simpa [modifySocket, here, same, found] using ih

/-- A change of what a socket holds leaves the inputs alone. -/
theorem map_spec_modifySocket (name : String) (target : Option NodeId) (sockets : List Socket) :
    (modifySocket name (fun s => { s with target }) sockets).map Socket.spec =
      sockets.map Socket.spec := by
  -- The occupant is no part of an input.
  induction sockets with
  | nil => rfl
  | cons s rest ih =>
    by_cases here : s.name = name
    · simp [modifySocket, here, Socket.spec]
    · simpa [modifySocket, here] using ih

/-- A socket of the changed list was there before, or is the changed one. -/
theorem mem_modifySocket {name : String} {f : Socket → Socket} {sockets : List Socket} {t : Socket}
    (member : t ∈ modifySocket name f sockets) :
    t ∈ sockets ∨ ∃ s ∈ sockets, s.name = name ∧ t = f s := by
  -- The list is changed in one position at most.
  induction sockets with
  | nil => simp [modifySocket] at member
  | cons s rest ih =>
    by_cases here : s.name = name
    · simp only [modifySocket, here, if_true, List.mem_cons] at member
      rcases member with same | later
      · exact .inr ⟨s, by simp, here, same⟩
      · exact .inl (by simp [later])
    · simp only [modifySocket, here, if_false, List.mem_cons] at member
      rcases member with same | later
      · exact .inl (by simp [same])
      · rcases ih later with old | ⟨u, inside, named, same⟩
        · exact .inl (by simp [old])
        · exact .inr ⟨u, by simp [inside], named, same⟩

/-- Filling the first socket of a name leaves the others of that name empty. -/
theorem firstOnly_modifySocket (name : String) (target : Option NodeId) {sockets : List Socket}
    (first : sockets.Pairwise fun s t => s.name = t.name → t.target = none) :
    (modifySocket name (fun s => { s with target }) sockets).Pairwise
      fun s t => s.name = t.name → t.target = none := by
  -- The changed socket has no socket of its name before it.
  induction sockets with
  | nil => simp [modifySocket]
  | cons s rest ih =>
    rw [List.pairwise_cons] at first
    by_cases here : s.name = name
    · simp only [modifySocket, here, if_true, List.pairwise_cons]
      exact ⟨fun t member same => first.1 t member (here.trans same), first.2⟩
    · simp only [modifySocket, here, if_false, List.pairwise_cons]
      refine ⟨fun t member same => ?_, ih first.2⟩
      rcases mem_modifySocket member with old | ⟨u, _, named, changed⟩
      · exact first.1 t old same
      · have : t.name = name := by rw [changed]; exact named
        exact absurd (same.trans this) here

/-- Filling a place of a node leaves all connectors alone. -/
@[simp] theorem connectors_fill (n : Node) (place : Link) (occupant : Option NodeId) :
    (n.fill place occupant).connectors = n.connectors := by
  -- Only occupants change.
  cases place with
  | socket parent name => simp [fill, connectors, map_spec_modifySocket]
  | next previous => rfl

/-- Filling a place of a node leaves the node's own place alone. -/
@[simp] theorem parent_fill (n : Node) (place : Link) (occupant : Option NodeId) :
    (n.fill place occupant).parent = n.parent := by
  -- Only the sockets or the follower change.
  cases place <;> rfl

/-- Filling a place of a node leaves the node's number alone. -/
@[simp] theorem id_fill (n : Node) (place : Link) (occupant : Option NodeId) :
    (n.fill place occupant).id = n.id := by
  -- Only the sockets or the follower change.
  cases place <;> rfl

/-- Filling a place keeps the rule about sockets of one name. -/
theorem FirstOnly.fill {n : Node} (first : n.FirstOnly) (place : Link)
    (occupant : Option NodeId) : (n.fill place occupant).FirstOnly := by
  -- The place after a statement is no socket.
  cases place with
  | socket parent name => exact firstOnly_modifySocket name occupant first
  | next previous => exact first

/-- A node has a place: one of its sockets, or the place after it. -/
def HasPlace (n : Node) : Link → Prop
  -- Whether a follower fits is another question.
  | .socket _ name => ∃ slot, n.socket? name = some slot
  | .next _ => True

/-- A place that is occupied is there. -/
theorem hasPlace_of_occupant {n : Node} {place : Link} {id : NodeId}
    (occupied : n.occupant place = some id) : n.HasPlace place := by
  -- Only a socket that is found holds a node.
  cases place with
  | socket parent name =>
    obtain ⟨slot, found, _⟩ := Option.bind_eq_some_iff.mp occupied
    exact ⟨slot, found⟩
  | next previous => trivial

/-- A filled place holds its occupant, and the other places hold what they held. -/
theorem occupant_fill {n : Node} {place : Link} (has : n.HasPlace place)
    (occupant : Option NodeId) {other : Link} (holder : other.holder = place.holder) :
    (n.fill place occupant).occupant other =
      if other = place then occupant else n.occupant other := by
  -- A socket is known by its name, and there is one place after a statement.
  cases place with
  | socket parent name =>
    obtain ⟨slot, found⟩ := has
    cases other with
    | socket parent' name' =>
      simp only [Link.holder] at holder
      subst holder
      -- Filling changes no name, so the search finds the same socket.
      have search := find?_modifySocket name name' (fun s => { s with target := occupant })
        n.sockets fun _ => rfl
      simp only [Node.occupant, Node.fill, socket?, Link.socket.injEq, true_and, search]
      split
      · rw [show n.sockets.find? (·.name = name) = some slot from found]
        rfl
      · rfl
    | next previous => simp [Node.occupant, Node.fill]
  | next previous =>
    cases other with
    | socket parent' name' => simp [Node.occupant, Node.fill, socket?]
    | next previous' =>
      simp only [Link.holder] at holder
      simp [Node.occupant, Node.fill, holder]

/-- Nodes with the same connectors have sockets of the same inputs under each name. -/
theorem socket?_spec_congr {a b : Node} (same : a.connectors = b.connectors) (name : String) :
    (a.socket? name).map Socket.spec = (b.socket? name).map Socket.spec := by
  -- A search by name commutes with forgetting what the sockets hold.
  have sockets : a.sockets.map Socket.spec = b.sockets.map Socket.spec := by
    simpa [connectors] using congrArg Shape.sockets same
  have forget : ∀ n : Node, (n.socket? name).map Socket.spec =
      (n.sockets.map Socket.spec).find? (·.name = name) := by
    intro n
    rw [List.find?_map]
    rfl
  rw [forget, forget, sockets]

/-- Nodes with the same connectors have the same places. -/
theorem HasPlace.congr {a b : Node} {place : Link} (has : a.HasPlace place)
    (same : a.connectors = b.connectors) : b.HasPlace place := by
  -- A socket is there under its name in both or in neither.
  cases place with
  | socket parent name =>
    obtain ⟨slot, found⟩ := has
    have specs := socket?_spec_congr same name
    rw [found] at specs
    obtain ⟨slot', found', _⟩ := Option.map_eq_some_iff.mp specs.symm
    exact ⟨slot', found'⟩
  | next previous => trivial

/-- A node fits a place as long as the connectors on both sides stay the same. -/
theorem Admits.congr {holder holder' node node' : Node} {place : Link}
    (admits : holder.Admits node place) (held : holder.connectors = holder'.connectors)
    (fits : node.connectors = node'.connectors) : holder'.Admits node' place := by
  -- Fitting depends on inputs, the output and the two statement connectors.
  have outputs : node.output = node'.output := congrArg Shape.output fits
  have previous : node.hasPrevious = node'.hasPrevious := congrArg Shape.hasPrevious fits
  cases place with
  | socket parent name =>
    obtain ⟨slot, found, free⟩ := admits
    have specs := socket?_spec_congr held name
    rw [found] at specs
    obtain ⟨slot', found', spec⟩ := Option.map_eq_some_iff.mp specs.symm
    refine ⟨slot', found', ?_⟩
    rw [Socket.obstacle_congr spec node']
    simpa only [Socket.obstacle, outputs, previous] using free
  | next _ =>
    have next : holder.hasNext = holder'.hasNext := congrArg Shape.hasNext held
    exact ⟨next ▸ admits.1, previous ▸ admits.2⟩

/-- A holder that does not refuse a node for a place has the place, free, and takes the node. -/
theorem refusal_eq_none_iff {holder node : Node} {child : NodeId} {place : Link} :
    holder.refusal child node place = none ↔
      holder.HasPlace place ∧ holder.occupant place = none ∧ holder.Admits node place := by
  -- The checks of the definition are the three parts in turn.
  cases place with
  | socket parent name =>
    simp only [refusal, HasPlace, Node.occupant, Admits]
    cases found : holder.socket? name with
    | none => simp
    | some slot =>
      cases target : slot.target with
      | none => simp [target]
      | some id => simp [target]
  | next previous =>
    simp only [refusal, HasPlace, Node.occupant, Admits, true_and]
    by_cases hasNext : holder.hasNext = true <;> by_cases hasPrevious : node.hasPrevious = true <;>
      cases next : holder.next <;> simp [hasNext, hasPrevious]

/-- A detached node takes no place. -/
theorem parent_of_isDetached {n : Node} (detached : n.isDetached = true) : n.parent = none := by
  -- This is the first of the three parts of being detached.
  simp only [isDetached, Bool.and_eq_true, Option.isNone_iff_eq_none] at detached
  exact detached.1.1

/-- A detached node has no follower. -/
theorem next_of_isDetached {n : Node} (detached : n.isDetached = true) : n.next = none := by
  -- This is the second of the three parts of being detached.
  simp only [isDetached, Bool.and_eq_true, Option.isNone_iff_eq_none] at detached
  exact detached.1.2

/-- A detached node holds nothing in its sockets. -/
theorem target_of_isDetached {n : Node} (detached : n.isDetached = true) {s : Socket}
    (member : s ∈ n.sockets) : s.target = none := by
  -- This is the last of the three parts of being detached.
  simp only [isDetached, Bool.and_eq_true, List.all_eq_true, Option.isNone_iff_eq_none] at detached
  exact detached.2 s member

/-- A detached node holds nothing in any place. -/
theorem occupant_of_isDetached {n : Node} (detached : n.isDetached = true) (place : Link) :
    n.occupant place = none := by
  -- Neither a socket nor the place after the node is taken.
  cases place with
  | socket parent name =>
    simp only [Node.occupant, socket?, Option.bind_eq_none_iff]
    intro slot found
    exact target_of_isDetached detached (List.mem_of_find?_eq_some found)
  | next previous => exact next_of_isDetached detached

/-- A detached node respects the rule about sockets of one name. -/
theorem firstOnly_of_isDetached {n : Node} (detached : n.isDetached = true) : n.FirstOnly := by
  -- No socket holds anything.
  apply List.Pairwise.imp_of_mem (R := fun _ _ => True)
  · intro s t _ member _ _
    exact target_of_isDetached detached member
  · exact List.pairwise_of_forall fun _ _ => trivial

/-- With the rule about sockets of one name, a socket holds a node exactly when its name leads to
that node. -/
theorem FirstOnly.occupant_socket_iff {n : Node} (first : n.FirstOnly) {parent id : NodeId}
    {name : String} :
    n.occupant (.socket parent name) = some id ↔
      ∃ s ∈ n.sockets, s.name = name ∧ s.target = some id := by
  -- A socket behind another one of its name holds nothing.
  unfold FirstOnly at first
  simp only [Node.occupant, socket?]
  generalize n.sockets = sockets at first ⊢
  induction sockets with
  | nil => simp
  | cons s rest ih =>
    rw [List.pairwise_cons] at first
    by_cases here : s.name = name
    · simp only [List.find?_cons, here, decide_true, Option.bind_some]
      constructor
      · intro held
        exact ⟨s, by simp, here, held⟩
      · rintro ⟨t, member, named, held⟩
        rcases List.mem_cons.mp member with same | later
        · -- The search ends at the first socket of the name.
          exact same ▸ held
        · have empty := first.1 t later (here.trans named.symm)
          rw [empty] at held
          cases held
    · simp only [List.find?_cons, here, decide_false, ih first.2, List.mem_cons]
      constructor
      · rintro ⟨t, member, named, held⟩
        exact ⟨t, .inr member, named, held⟩
      · rintro ⟨t, same | member, named, held⟩
        · exact absurd (same ▸ named) here
        · exact ⟨t, member, named, held⟩

/-- An occupied socket is the first of its name, and so the one that a search for it finds. -/
theorem FirstOnly.find?_of_target {n : Node} (first : n.FirstOnly) {s : Socket}
    (member : s ∈ n.sockets) {id : NodeId} (held : s.target = some id) (wanted : Socket → Bool)
    (suits : wanted s = true) (named : ∀ t, wanted t = true → t.name = s.name) :
    n.sockets.find? wanted = some s := by
  -- The search finds a socket of the name, behind which no socket of the name is occupied.
  cases found : n.sockets.find? wanted with
  | none => exact absurd suits (List.find?_eq_none.mp found s member)
  | some t =>
    obtain ⟨suitable, before, after, split, unsuitable⟩ :=
      List.find?_eq_some_iff_append.mp found
    rw [split] at member
    rcases List.mem_append.mp member with earlier | here
    · have passed := unsuitable s earlier
      rw [suits] at passed
      cases passed
    · rcases List.mem_cons.mp here with same | later
      · rw [same]
      · have empty : s.target = none := by
          have pairs := first
          rw [FirstOnly, split, List.pairwise_append, List.pairwise_cons] at pairs
          exact pairs.2.1.1 s later (named t suitable)
        rw [empty] at held
        cases held

end Node

end QuickEntry
