import QuickEntry.Proofs.Graph.Shape

/-! A node that takes on a shape: what it holds afterwards, and how it gets its old shape back. -/

namespace QuickEntry

namespace Node

/-- Every socket of a node that holds something finds its like in a shape. -/
def Survives (n : Node) (shape : Shape) : Prop :=
  -- A like socket has the same name and kind, whatever it accepts.
  ∀ s ∈ n.sockets, ∀ id, s.target = some id →
    ∃ spec ∈ shape.sockets, spec.name = s.name ∧ spec.kind = s.kind

/-- A node that takes on a shape has the connectors of that shape. -/
@[simp] theorem connectors_reshape (n : Node) (shape : Shape) :
    (n.reshape shape).connectors = shape := by
  -- Each new socket offers the input that it was made for.
  simp [connectors, reshape, reuse, Socket.spec, Function.comp_def]

/-- A socket is the only one of its name if names are distinct. -/
theorem find?_of_distinct {n : Node} (distinct : n.connectors.Distinct) {s : Socket}
    (member : s ∈ n.sockets) (wanted : Socket → Bool) (suits : wanted s = true)
    (named : ∀ t, wanted t = true → t.name = s.name) : n.sockets.find? wanted = some s := by
  -- Whatever the search finds has the name of the socket, and so is the socket.
  cases found : n.sockets.find? wanted with
  | none => exact absurd suits (List.find?_eq_none.mp found s member)
  | some t =>
    have names : (n.sockets.map (·.name)).Nodup := by
      rw [Shape.Distinct, connectors, List.map_map] at distinct
      exact distinct
    have same : t.name = s.name := named t (List.find?_some found)
    rw [List.inj_on_of_nodup_map names (List.mem_of_find?_eq_some found) member same]

/-- A reshaped node has at most one socket of each name if the shape has. -/
theorem firstOnly_reshape {shape : Shape} (distinct : shape.Distinct) (n : Node) :
    (n.reshape shape).FirstOnly := by
  -- No two sockets have one name.
  have names : (n.reshape shape).connectors.Distinct := by
    rw [connectors_reshape]
    exact distinct
  rw [Shape.Distinct, connectors, List.map_map] at names
  refine (List.pairwise_map.mp names).imp fun {s t} different same => ?_
  exact absurd same different

/-- A socket of a name and kind is found again in a reshaped node if the shape has its like. -/
theorem reuse_of_target {n : Node} (first : n.FirstOnly) {s : Socket} (member : s ∈ n.sockets)
    {id : NodeId} (held : s.target = some id) {spec : SocketSpec} (name : spec.name = s.name)
    (kind : spec.kind = s.kind) : (reuse n.sockets spec).target = some id := by
  -- The search by name and kind finds the occupied socket.
  have found := first.find?_of_target member held
    (fun t => t.name = spec.name && t.kind = spec.kind) (by simp [name, kind])
    fun t suits => by
      simp only [Bool.and_eq_true, decide_eq_true_eq] at suits
      exact suits.1.trans name
  rw [reuse, found]
  exact held

/-- A node that takes on a shape holds in each place what it held there, if its occupied sockets
survive. -/
theorem occupant_reshape {n : Node} {shape : Shape} (first : n.FirstOnly)
    (distinct : shape.Distinct) (survives : n.Survives shape) (place : Link) :
    (n.reshape shape).occupant place = n.occupant place := by
  -- The place after the node does not depend on the shape.
  cases place with
  | next previous => rfl
  | socket parent name =>
    apply Option.ext
    intro id
    rw [(firstOnly_reshape distinct n).occupant_socket_iff, first.occupant_socket_iff]
    constructor
    · -- What a new socket holds is taken from an old one of its name.
      rintro ⟨s, member, named, held⟩
      obtain ⟨spec, _, rfl⟩ := List.mem_map.mp member
      obtain ⟨t, found, target⟩ := Option.bind_eq_some_iff.mp held
      have like := List.find?_some found
      simp only [Bool.and_eq_true, decide_eq_true_eq] at like
      exact ⟨t, List.mem_of_find?_eq_some found, like.1.trans named, target⟩
    · -- An occupied socket finds its like, which takes over what it held.
      rintro ⟨s, member, named, held⟩
      obtain ⟨spec, inside, same, kind⟩ := survives s member id held
      exact ⟨reuse n.sockets spec, List.mem_map.mpr ⟨spec, inside, rfl⟩, same.trans named,
        reuse_of_target first member held same kind⟩

/-- What a node took over into a shape can go back into the shape that it had. -/
theorem survives_back (n : Node) (shape : Shape) : (n.reshape shape).Survives n.connectors := by
  -- Each occupied socket took over what a like one held.
  intro s member id held
  obtain ⟨spec, _, rfl⟩ := List.mem_map.mp member
  obtain ⟨t, found, _⟩ := Option.bind_eq_some_iff.mp held
  have like := List.find?_some found
  simp only [Bool.and_eq_true, decide_eq_true_eq] at like
  exact ⟨t.spec, List.mem_map.mpr ⟨t, List.mem_of_find?_eq_some found, rfl⟩, like.1, like.2⟩

/-- A node that has taken on a shape in which its occupied sockets survive gets back what it was
when it takes on its old shape. -/
theorem reshape_back {n : Node} {shape : Shape} (names : n.connectors.Distinct)
    (distinct : shape.Distinct) (first : n.FirstOnly) (survives : n.Survives shape) :
    (n.reshape shape).reshape n.connectors = n := by
  -- All but the occupants of the sockets is part of the old shape.
  have sockets : n.connectors.sockets.map (reuse (n.reshape shape).sockets) = n.sockets := by
    rw [connectors, List.map_map]
    conv_rhs => rw [← List.map_id n.sockets]
    refine List.map_congr_left fun s member => ?_
    have target : (reuse (n.reshape shape).sockets s.spec).target = s.target := by
      cases held : s.target with
      | some id =>
        -- The socket went over into its like, which goes back.
        obtain ⟨spec, inside, same, kind⟩ := survives s member id held
        refine reuse_of_target (n := n.reshape shape) (firstOnly_reshape distinct n)
          (s := reuse n.sockets spec) (List.mem_map.mpr ⟨spec, inside, rfl⟩)
          (reuse_of_target first member held same kind) same.symm kind.symm
      | none =>
        -- A like of an empty socket took nothing over.
        refine Option.bind_eq_none_iff.mpr fun t found => ?_
        obtain ⟨spec, _, rfl⟩ := List.mem_map.mp (List.mem_of_find?_eq_some found)
        have like := List.find?_some found
        simp only [Bool.and_eq_true, decide_eq_true_eq] at like
        have search := find?_of_distinct names member
          (fun t => t.name = spec.name && t.kind = spec.kind)
          (by simpa using ⟨like.1.symm, like.2.symm⟩) fun t suits => by
            simp only [Bool.and_eq_true, decide_eq_true_eq] at suits
            exact suits.1.trans like.1
        simp only [reuse, search, Option.bind_some, held]
    show Socket.mk s.name s.kind s.check _ = s
    rw [show Option.bind _ _ = s.target from target]
  rw [reshape, sockets]
  rfl

end Node

end QuickEntry
