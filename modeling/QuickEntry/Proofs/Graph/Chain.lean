import Mathlib.Data.List.Chain
import QuickEntry.Proofs.Graph.WellFormed

/-! Chains of statements, and a statement that comes into one. -/

namespace QuickEntry

namespace Workspace

variable {ws ws' : Workspace}

/-- What is below a node that is below another one is below that one. -/
theorem Below.trans {top middle id : NodeId} (upper : ws.Below top middle)
    (lower : ws.Below middle id) : ws.Below top id := by
  -- By induction on the lower part.
  induction lower with
  | refl => exact upper
  | step held _ ih => exact .step held ih

/-- Of two nodes that a third one is below, one is below the other. -/
theorem Below.total {top other id : NodeId} (upper : ws.Below top id) (lower : ws.Below other id) :
    ws.Below top other ∨ ws.Below other top := by
  -- Going up from the third node, both walks make the same steps until one of them ends.
  induction upper with
  | refl => exact .inr lower
  | step held below ih =>
    cases lower with
    | refl => exact .inl (.step held below)
    | step held' lower' =>
      cases held.symm.trans held'
      exact ih lower'

/-- What is below a node stays so if all that is below it, the node itself apart, is held as
before. -/
theorem Below.of_kept {top id : NodeId} (below : ws.Below top id)
    (kept : ∀ {id above}, id ≠ top → ws.Below top id → ws.holder? id = some above →
      ws'.holder? id = some above) : ws'.Below top id := by
  -- By induction on the way down; only the holders on that way have to be kept.
  induction below with
  | refl => exact .refl
  | @step id above held below ih =>
    by_cases same : id = top
    · subst same
      exact .refl
    · exact .step (kept same (.step held below) held) ih

section Descending

variable {ids : List NodeId}

/-- Nodes that are held each by the one before hang each below all nodes before it. -/
theorem pairwise_of_descends (descends : ids.IsChain fun above id => ws.holder? id = some above) :
    ids.Pairwise fun top id => ∃ above, ws.holder? id = some above ∧ ws.Below top above := by
  -- A node hangs right below the one that holds it, and so below all that this one is below.
  let Under (top id : NodeId) : Prop := ∃ above, ws.holder? id = some above ∧ ws.Below top above
  have transitive : IsTrans NodeId Under := ⟨fun _ _ _ ⟨_, held, upper⟩ ⟨above, held', lower⟩ =>
    ⟨above, held', (Below.step held upper).trans lower⟩⟩
  have under : ids.IsChain Under := descends.imp fun above id held => ⟨above, held, .refl⟩
  exact List.isChain_iff_pairwise.mp under

/-- No node comes twice on a way down. -/
theorem Linked.nodup_of_descends (linked : ws.Linked)
    (descends : ids.IsChain fun above id => ws.holder? id = some above) : ids.Nodup := by
  -- Every node hangs below those before it, and so it is none of them.
  refine (pairwise_of_descends descends).imp ?_
  rintro id _ ⟨above, held, below⟩ rfl
  exact (linked.rooted id).not_below held below

/-- No way down passes more nodes than there are in the graph. -/
theorem Linked.length_le_of_descends (linked : ws.Linked)
    (known : ∀ id ∈ ids, ∃ n, ws.node? id = some n)
    (descends : ids.IsChain fun above id => ws.holder? id = some above) :
    ids.length ≤ ws.nodes.size := by
  -- There is no repetition, since nothing is below itself, and every member is a node.
  have inside : ids ⊆ ws.nodes.keys := fun id member =>
    (OrderedMap.mem_keys_iff _ _).mpr (OrderedMap.contains_iff.mpr (known id member))
  have short := (List.subperm_of_subset (linked.nodup_of_descends descends) inside).length_le
  simpa [OrderedMap.keys, OrderedMap.size] using short

/-- Nodes that follow one another are held each by the one before. -/
theorem Linked.descends_of_follows (linked : ws.Linked)
    (follows : ids.IsChain fun previous id => ws.occupant? (.next previous) = some id) :
    ids.IsChain fun above id => ws.holder? id = some above :=
  -- What follows a block is held by it.
  follows.imp fun previous _ follows =>
    holder?_eq_some_iff.mpr ⟨.next previous, (linked.paired _ _).mp follows, rfl⟩

end Descending

/-- Nodes of which each one follows the one before it, up to the end of their chain. -/
structure Chain (ws : Workspace) (ids : List NodeId) : Prop where
  known : ∀ id ∈ ids, ∃ n, ws.node? id = some n
  linked : ids.IsChain fun previous id => ws.occupant? (.next previous) = some id
  ends : ∀ last ∈ ids.getLast?, ws.occupant? (.next last) = none

/-- Every node of a chain hangs below all nodes before it. -/
theorem Chain.pairwise {ids : List NodeId} (chain : ws.Chain ids) (linked : ws.Linked) :
    ids.Pairwise fun top id => ∃ above, ws.holder? id = some above ∧ ws.Below top above :=
  -- Each member is below all those before it.
  pairwise_of_descends (linked.descends_of_follows chain.linked)

/-- No node comes twice in a chain. -/
theorem Chain.nodup {ids : List NodeId} (chain : ws.Chain ids) (linked : ws.Linked) :
    ids.Nodup :=
  -- Nothing is below itself.
  linked.nodup_of_descends (linked.descends_of_follows chain.linked)

section Ends

variable {id : NodeId} {rest : List NodeId} {n : Node}

/-- All nodes of a chain are below its first one. -/
theorem Chain.below (chain : ws.Chain (id :: rest)) (linked : ws.Linked) :
    ∀ member ∈ id :: rest, ws.Below id member := by
  -- The first member is above all others.
  have under := List.pairwise_cons.mp (chain.pairwise linked)
  refine List.forall_mem_cons.mpr ⟨.refl, fun member inside => ?_⟩
  obtain ⟨above, held, below⟩ := under.1 member inside
  exact .step held below

/-- A chain goes on from every node that is there. -/
theorem Linked.exists_chain (linked : ws.Linked) (found : ws.node? id = some n) :
    ∃ rest, ws.Chain (id :: rest) := by
  -- A walk of a given length is made, or ends before.
  have walks : ∀ (steps : Nat) {id : NodeId} {n : Node}, ws.node? id = some n →
      ∃ rest, (∀ member ∈ id :: rest, ∃ n, ws.node? member = some n) ∧
        (id :: rest).IsChain (fun previous id => ws.occupant? (.next previous) = some id) ∧
        (rest.length = steps ∨
          ∀ last ∈ (id :: rest).getLast?, ws.occupant? (.next last) = none) := by
    intro steps
    induction steps with
    | zero => exact fun {id n} found => ⟨[], by simp [found], .singleton id, .inl rfl⟩
    | succ steps ih =>
      intro id n found
      cases next : ws.occupant? (.next id) with
      | none => exact ⟨[], by simp [found], .singleton id, .inr (by simp [next])⟩
      | some follower =>
        obtain ⟨m, there, _⟩ := linked.occupant_parent next
        obtain ⟨rest, known, follows, ends⟩ := ih there
        refine ⟨follower :: rest, List.forall_mem_cons.mpr ⟨⟨n, found⟩, known⟩,
          List.isChain_cons_cons.mpr ⟨next, follows⟩, ?_⟩
        rcases ends with long | ends
        · exact .inl (congrArg (· + 1) long)
        · exact .inr (by simpa using ends)
  obtain ⟨rest, known, follows, ends⟩ := walks ws.nodes.size found
  refine ⟨rest, known, follows, ends.resolve_left fun long => ?_⟩
  -- A walk through more nodes than there are has not been made.
  have short := linked.length_le_of_descends known (linked.descends_of_follows follows)
  rw [List.length_cons, long] at short
  exact Nat.lt_irrefl _ short

/-- A walk along a chain comes to its end, if it takes enough steps. -/
theorem follow_of_follows {steps : Nat}
    (follows : (id :: rest).IsChain fun previous id => ws.occupant? (.next previous) = some id)
    (ends : ∀ last ∈ (id :: rest).getLast?, ws.occupant? (.next last) = none)
    (enough : rest.length ≤ steps) : (id :: rest).getLast? = some (ws.follow steps id) := by
  -- What follows a node is what the place after it holds.
  have onward : ∀ id, (ws.node? id).bind (·.next) = ws.occupant? (.next id) := fun _ => rfl
  induction rest generalizing id steps with
  | nil =>
    have last : ws.occupant? (.next id) = none := ends id rfl
    cases steps with
    | zero => rfl
    | succ steps => rw [follow, onward, last]; rfl
  | cons follower rest ih =>
    obtain ⟨next, follows⟩ := List.isChain_cons_cons.mp follows
    cases steps with
    | zero => cases enough
    | succ steps =>
      rw [follow, onward, next, List.getLast?_cons_cons]
      exact ih follows (by simpa using ends) (Nat.le_of_succ_le_succ enough)

/-- The end of the chain that goes on from a node is the last node of this chain. -/
theorem Chain.getLast?_eq (chain : ws.Chain (id :: rest)) (linked : ws.Linked) :
    (id :: rest).getLast? = some (ws.chainEnd id) := by
  -- A chain has no more members than there are nodes, so the walk does not stop early.
  have short := linked.length_le_of_descends chain.known
    (linked.descends_of_follows chain.linked)
  exact follow_of_follows chain.linked chain.ends (Nat.le_of_succ_le short)

/-- No node follows the last one of a chain. -/
theorem Chain.placeOf?_ne_next {ids : List NodeId} {last : NodeId} (chain : ws.Chain ids)
    (linked : ws.Linked) (final : ids.getLast? = some last) (id : NodeId) :
    ws.placeOf? id ≠ some (.next last) := by
  -- Nothing follows the last member.
  intro follows
  have held := (linked.paired _ id).mpr follows
  rw [chain.ends last final] at held
  cases held

/-- Nodes that are followed as before are a chain as before. -/
theorem Chain.congr {ids : List NodeId} (chain : ws.Chain ids)
    (known : ∀ id ∈ ids, ∃ n, ws'.node? id = some n)
    (same : ∀ id ∈ ids, ws'.occupant? (.next id) = ws.occupant? (.next id)) : ws'.Chain ids where
  -- Whether a list is a chain is asked only of its members.
  known := known
  linked := chain.linked.imp_of_mem_imp fun id _ member _ follows => (same id member).trans follows
  ends last final := (same last (List.mem_of_getLast? final)).trans (chain.ends last final)

end Ends

/-- A new node that follows a node, and is followed by the one that did so before, comes into the
chain right behind that node. -/
theorem Chain.insert (linked : ws.Linked) {previous new : NodeId} {before after : List NodeId}
    (fresh : ws.node? new = none)
    (known : ∀ id, id = new ∨ (∃ n, ws.node? id = some n) → ∃ n, ws'.node? id = some n)
    (entered : ws'.occupant? (.next previous) = some new)
    (onward : ws'.occupant? (.next new) = ws.occupant? (.next previous))
    (kept : ∀ id, id ≠ new → id ≠ previous →
      ws'.occupant? (.next id) = ws.occupant? (.next id))
    (chain : ws.Chain (before ++ previous :: after)) :
    ws'.Chain (before ++ previous :: new :: after) := by
  have nodup := chain.nodup linked
  rw [List.nodup_append, List.nodup_cons] at nodup
  obtain ⟨_, ⟨behind, _⟩, apart⟩ := nodup
  have other : ∀ id ∈ before ++ previous :: after, id ≠ new := by
    rintro id member rfl
    obtain ⟨n, found⟩ := chain.known id member
    rw [fresh] at found
    cases found
  -- The other nodes of the chain are followed as before.
  have front : ∀ id ∈ before, ws'.occupant? (.next id) = ws.occupant? (.next id) :=
    fun id member => kept id (other id (by simp [member])) (apart id member previous (by simp))
  have back : ∀ id ∈ after, ws'.occupant? (.next id) = ws.occupant? (.next id) :=
    fun id member => kept id (other id (by simp [member])) fun same => behind (same ▸ member)
  obtain ⟨left, right, joined⟩ := List.isChain_append.mp chain.linked
  refine ⟨?_, List.isChain_append.mpr ⟨?_, List.isChain_cons_cons.mpr ⟨entered, ?_⟩, ?_⟩, ?_⟩
  · intro id member
    refine known id ?_
    simp only [List.mem_append, List.mem_cons] at member
    rcases member with member | rfl | rfl | member
    · exact .inr (chain.known id (by simp [member]))
    · exact .inr (chain.known id (by simp))
    · exact .inl rfl
    · exact .inr (chain.known id (by simp [member]))
  · exact left.imp_of_mem_imp fun id _ member _ follows => (front id member).trans follows
  · -- What followed the node follows the new one.
    cases after with
    | nil => exact .singleton new
    | cons follower rest =>
      obtain ⟨first, others⟩ := List.isChain_cons_cons.mp right
      exact List.isChain_cons_cons.mpr ⟨onward.trans first,
        others.imp_of_mem_imp fun id _ member _ follows => (back id member).trans follows⟩
  · intro id last next head
    rw [front id (List.mem_of_getLast? last)]
    exact joined id last next head
  · intro last final
    cases after with
    | nil =>
      have same : new = last := by simpa using final
      subst same
      exact onward.trans (chain.ends previous (by simp))
    | cons follower rest =>
      have final : last ∈ (follower :: rest).getLast? := by simpa using final
      rw [back last (List.mem_of_getLast? final)]
      exact chain.ends last (by simpa using final)

/-- When the node that a node follows is followed by what follows that node, and the others stay,
the chain goes on without the node. -/
theorem Chain.remove (linked : ws.Linked) {gone : NodeId} {before after : List NodeId}
    (known : ∀ id ∈ before ++ after, ∃ n, ws'.node? id = some n)
    (onward : ∀ id ∈ before ++ after, ws'.occupant? (.next id) =
      if ws.occupant? (.next id) = some gone then ws.occupant? (.next gone)
      else ws.occupant? (.next id))
    (chain : ws.Chain (before ++ gone :: after)) : ws'.Chain (before ++ after) := by
  -- The two parts stay chains; what is new is the step from the last one before to the first one
  -- after.
  have nodup := chain.nodup linked
  rw [List.nodup_append, List.nodup_cons] at nodup
  obtain ⟨_, ⟨behind, _⟩, apart⟩ := nodup
  obtain ⟨left, right, joined⟩ := List.isChain_append.mp chain.linked
  obtain ⟨follows, right⟩ := List.isChain_cons.mp right
  -- Where another node follows, it still does.
  have kept : ∀ {id next}, id ∈ before ++ after → next ≠ gone →
      ws.occupant? (.next id) = some next → ws'.occupant? (.next id) = some next := by
    intro id next member other held
    rw [onward id member, held, if_neg (by simpa using other)]
  refine ⟨known, List.isChain_append.mpr ⟨?_, ?_, ?_⟩, ?_⟩
  · exact left.imp_of_mem_imp fun id next inside next' held =>
      kept (List.mem_append_left _ inside) (apart next next' gone (by simp)) held
  · exact right.imp_of_mem_imp fun id next inside next' held =>
      kept (List.mem_append_right _ inside) (fun same => behind (same ▸ next')) held
  · -- The node that the removed one followed now has its follower.
    intro last final first head
    have member : last ∈ before ++ after := by simp [List.mem_of_getLast? final]
    rw [onward last member, if_pos (joined last final gone rfl)]
    exact follows first head
  · intro last final
    cases after with
    -- The removed node was the last, so nothing follows the one before it.
    | nil =>
      have final : last ∈ before.getLast? := by simpa using final
      have member : last ∈ before ++ [] := by simp [List.mem_of_getLast? final]
      rw [onward last member, if_pos (joined last final gone rfl)]
      exact chain.ends gone (by simp)
    -- The last node is still the last.
    | cons follower rest =>
      have final : last ∈ (follower :: rest).getLast? := by simpa using final
      have member : last ∈ before ++ follower :: rest := by simp [List.mem_of_getLast? final]
      rw [onward last member, chain.ends last (by simpa using final), if_neg (by simp)]

end Workspace

end QuickEntry
