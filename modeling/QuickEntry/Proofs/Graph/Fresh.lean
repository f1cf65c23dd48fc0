import QuickEntry.Proofs.Edit.Shaped
import QuickEntry.Proofs.Graph.Chain
import QuickEntry.Proofs.Graph.Splice

/-! Fresh nodes, which come into every place that is proposed for them in a graph whose nodes have
sockets of distinct names. -/

namespace QuickEntry

namespace Workspace

variable {ws : Workspace} {n : Node}

/-- In what is built the sockets of each node have distinct names. -/
theorem Built.distinct {database : ComponentDatabase} (built : Built database ws) :
    ws.Distinct :=
  -- Kinds give their sockets distinct names, and a built node has the connectors that its kind
  -- derives.
  fun _ _ found => (built.derives.node found).connectors distinct_of_shapeOf

/-- In what is built no node has both an output and a connector after it. -/
theorem Built.apart {database : ComponentDatabase} (built : Built database ws) {id : NodeId}
    (found : ws.node? id = some n) : n.output = none ∨ n.hasNext = false := by
  -- The connectors are those that the kind derives, and no kind balances an output against a next
  -- connector.
  have balanced : n.connectors.Balanced :=
    (built.derives.node found).connectors balanced_of_shapeOf
  cases given : n.output with
  | none => exact .inl rfl
  | some output => exact .inr (balanced.apart (by simp [Node.connectors, given]))

/-- The graph with a new node, which comes into a place if there is one. -/
def grown (ws : Workspace) (n : Node) (attachment : Option Attachment) : Workspace :=
  -- The number of the node is used up.
  match attachment with
  | none => ws.counted.added n
  | some a => (ws.counted.added n).spliced n.id a.place

/-- A node after a new one has come into a place: it holds the new node if the place is offered by
it, follows the new node if it took the place before, and otherwise stays as it is. -/
def yielded (ws : Workspace) (new : NodeId) (place : Link) (n : Node) : Node :=
  if n.id = place.holder then n.fill place (some new)
  else if ws.occupant? place = some n.id then { n with parent := some (.next new) }
  else n

/-- A node that may come into a graph: it has the next number, and it is detached, in a shape with
inputs of distinct names and balanced connectors. -/
structure Fresh (ws : Workspace) (n : Node) : Prop where
  id_eq : n.id = ⟨ws.nextNumber⟩
  detached : n.isDetached = true
  names : n.connectors.Distinct
  balanced : n.connectors.Balanced

namespace Fresh

/-- A fresh node is new. -/
theorem absent (fresh : ws.Fresh n) (wf : ws.WellFormed) : ws.node? n.id = none :=
  -- The number of a fresh node is the one that the graph gives out next.
  wf.node?_next fresh.id_eq

/-- A graph stays well-formed with a fresh node. -/
theorem wellFormed_added (fresh : ws.Fresh n) (wf : ws.WellFormed) :
    (ws.counted.added n).WellFormed :=
  -- A fresh node is detached, so that it brings no links that could dangle.
  wf.added fresh.id_eq fresh.detached

/-- A fresh node is found in the graph that it has come into. -/
theorem found (n : Node) : (ws.counted.added n).node? n.id = some n := by
  -- The node stands under its own number.
  rw [node?_added, if_pos rfl]

/-- The other nodes are those from before. -/
theorem node?_added_of_ne {id : NodeId} (other : id ≠ n.id) :
    (ws.counted.added n).node? id = ws.node? id := by
  -- Counting on does not touch the nodes.
  rw [node?_added, if_neg other]
  rfl

/-- The places of the other nodes hold what they held. -/
theorem occupant?_added_of_ne {place : Link} (other : place.holder ≠ n.id) :
    (ws.counted.added n).occupant? place = ws.occupant? place := by
  -- A place is looked up at its holder, which is another node.
  rw [occupant?, occupant?, node?_added_of_ne other]

/-- In every node the sockets still have distinct names. -/
theorem distinct_added (fresh : ws.Fresh n) (distinct : ws.Distinct) :
    (ws.counted.added n).Distinct := by
  -- The one node that comes in has distinct socket names itself.
  intro id m known
  by_cases same : id = n.id
  · rw [same, found] at known
    cases known
    exact fresh.names
  · rw [node?_added_of_ne same] at known
    exact distinct known

/-- A fresh node can come into every place that is proposed for it. -/
theorem canEnter (fresh : ws.Fresh n) (wf : ws.WellFormed) (distinct : ws.Distinct)
    {selected : Option NodeId} {reach : Reach} {a : Attachment}
    (proposal : (ws.counted.added n).placeFor? n.id selected reach = some a) :
    ∃ id, selected = some id ∧ (ws.counted.added n).Proposed n id a ∧
      ∃ holder, (ws.counted.added n).CanEnter n.id a.place n holder := by
  -- The proposal was made for the graph in which the node stands on its own, and a node on its own
  -- can take every place that is proposed to it.
  have linked := (fresh.wellFormed_added wf).toLinked
  obtain ⟨id, chosen, other, proposed⟩ :=
    linked.proposed (fresh.distinct_added distinct) (found n) proposal
  exact ⟨id, chosen, proposed, linked.canEnter (found n) fresh.detached
    (fun has => fresh.balanced.together.symm.trans has) other proposed⟩

/-- A fresh node comes last in the order of the nodes. -/
theorem keys_added (fresh : ws.Fresh n) (wf : ws.WellFormed) :
    (ws.counted.added n).nodes.keys = ws.nodes.keys ++ [n.id] :=
  -- New keys go behind the others.
  wf.keys_added fresh.id_eq

section Entered

variable {a : Attachment} {holder : Node}

/-- A place into which a fresh node comes is offered by one of the other nodes, and holds what it
held without the fresh node. -/
theorem occupant?_place (enter : (ws.counted.added n).CanEnter n.id a.place n holder) :
    (ws.counted.added n).occupant? a.place = ws.occupant? a.place :=
  -- The place belongs to another node, since nothing is plugged into itself.
  occupant?_added_of_ne enter.apart

/-- When a fresh node has come into a place, the other nodes have yielded to it. -/
theorem node?_grown (fresh : ws.Fresh n) (wf : ws.WellFormed)
    (enter : (ws.counted.added n).CanEnter n.id a.place n holder) {id : NodeId}
    (other : id ≠ n.id) :
    (ws.grown n (some a)).node? id = (ws.node? id).map (ws.yielded n.id a.place) := by
  -- Of the other nodes only two can change: the holder of the place, and what was there before.
  have linked := (fresh.wellFormed_added wf).toLinked
  rw [grown, enter.node?_spliced linked, if_neg other, occupant?_place enter]
  split
  · -- The holder of the place.
    rename_i offers
    have offered := enter.offered
    rw [← offers, node?_added_of_ne other] at offered
    rw [offered, Option.map_some, yielded, wf.own offered, if_pos offers]
  · -- Any other node, which may have been in the place.
    rename_i elsewhere
    rw [node?_added_of_ne other]
    cases found : ws.node? id with
    | none => simp
    | some m =>
      have own := wf.own found
      split
      · rename_i taken
        simp only [Option.map_some, yielded, own, if_neg elsewhere, if_pos taken]
      · rename_i untaken
        simp only [Option.map_some, yielded, own, if_neg elsewhere, if_neg untaken]

/-- When a fresh node has come into a place, it takes that place, and what the place held follows
it. -/
theorem node?_grown_self (fresh : ws.Fresh n) (wf : ws.WellFormed)
    (enter : (ws.counted.added n).CanEnter n.id a.place n holder) :
    (ws.grown n (some a)).node? n.id =
      some { n with parent := some a.place, next := ws.occupant? a.place } := by
  -- What was in the place before now follows the new node.
  rw [grown, enter.node?_spliced (fresh.wellFormed_added wf).toLinked, if_pos rfl,
    occupant?_place enter]

/-- A graph stays well-formed when a fresh node comes into a place. -/
theorem wellFormed_grown (fresh : ws.Fresh n) (wf : ws.WellFormed)
    (enter : (ws.counted.added n).CanEnter n.id a.place n holder) :
    (ws.grown n (some a)).WellFormed :=
  -- The new node is spliced into a graph in which it stood on its own.
  enter.wellFormed_spliced (fresh.wellFormed_added wf)

/-- When a fresh node has come into the place after a statement, it follows that statement in its
chain. -/
theorem chain_grown (fresh : ws.Fresh n) (wf : ws.WellFormed)
    (enter : (ws.counted.added n).CanEnter n.id a.place n holder) {previous : NodeId}
    (place : a.place = .next previous) {before after : List NodeId}
    (chain : ws.Chain (before ++ previous :: after)) :
    (ws.grown n (some a)).Chain (before ++ previous :: n.id :: after) := by
  -- What follows a node is read off the look-up equations of the grown graph: the node before the
  -- place, the new node and all others are the three cases.
  have grown := fresh.wellFormed_grown wf enter
  have self := fresh.node?_grown_self wf enter
  have follows : ∀ id, (ws.grown n (some a)).occupant? (.next id) =
      ((ws.grown n (some a)).node? id).bind (·.next) := fun _ => rfl
  refine chain.insert wf.toLinked (fresh.absent wf) ?_ ?_ ?_ ?_
  · rintro id (rfl | ⟨m, found⟩)
    · exact ⟨_, self⟩
    · by_cases same : id = n.id
      · exact ⟨_, same ▸ self⟩
      · exact ⟨_, by rw [fresh.node?_grown wf enter same, found, Option.map_some]⟩
  · exact (grown.paired _ _).mpr ((placeOf?_of_node? self).trans (congrArg some place))
  · rw [follows, self, Option.bind_some, place]
  · intro id other apart
    rw [follows, fresh.node?_grown wf enter other]
    show _ = (ws.node? id).bind (·.next)
    cases found : ws.node? id with
    | none => rfl
    | some m =>
      -- Only the node before the place gets another follower.
      have elsewhere : m.id ≠ a.place.holder := by
        rw [wf.own found, place]
        exact apart
      simp only [Option.map_some, Option.bind_some, yielded, if_neg elsewhere]
      split <;> rfl

end Entered

end Fresh

end Workspace

end QuickEntry
