import QuickEntry.Proofs.Graph.Subtree

/-! The order of a walk: no node comes twice, and every node comes after the one that holds it. -/

namespace QuickEntry

namespace Workspace

variable {ws : Workspace} {nodes : OrderedMap NodeId Node} {waiting : List NodeId}
  {id goal : NodeId} {n : Node}

/-- A walk ends at a node of the map. -/
theorem Reaches.goal_found (reaches : Reaches nodes goal id) : ∃ n, nodes.get? goal = some n := by
  -- A path ends at a node.
  induction reaches with
  | here found => exact ⟨_, found⟩
  | child _ _ _ ih => exact ih

/-- A walk visits nodes of the map only. -/
theorem get?_of_mem_visit (member : goal ∈ visit nodes waiting) :
    ∃ n, nodes.get? goal = some n := by
  -- What is visited was reached.
  obtain ⟨_, _, reaches⟩ := reaches_of_mem_visit member
  exact reaches.goal_found

/-- A walk visits no node twice, whatever the links say. -/
theorem nodup_visit (nodes : OrderedMap NodeId Node) (waiting : List NodeId) :
    (visit nodes waiting).Nodup := by
  -- A visited node is taken out of the map, and only nodes of the map are visited.
  induction nodes, waiting using visit.induct with
  | case1 nodes =>
    rw [visit]
    exact List.nodup_nil
  | case2 nodes first waiting absent ih =>
    rw [visit_of_absent absent]
    exact ih
  | case3 nodes first waiting n found ih =>
    rw [visit_of_get? found, List.nodup_cons]
    refine ⟨fun again => ?_, ih⟩
    obtain ⟨m, known⟩ := get?_of_mem_visit again
    rw [OrderedMap.get?_erase, if_pos rfl] at known
    cases known

/-- The nodes below a node are listed once each, whatever the links say. -/
theorem nodup_subtree (ws : Workspace) (id : NodeId) (withNext : Bool) :
    (ws.subtree id withNext).Nodup := by
  -- The top is taken out of the map before the visit goes on below it.
  unfold subtree
  split
  · exact List.nodup_nil
  · refine List.nodup_cons.mpr ⟨fun again => ?_, nodup_visit _ _⟩
    obtain ⟨m, known⟩ := get?_of_mem_visit again
    rw [OrderedMap.get?_erase, if_pos rfl] at known
    cases known

/-- A walk visits what a node holds after that node, if what waits at first is not held from within
the map. -/
theorem Linked.pairwise_visit (linked : ws.Linked)
    (part : ∀ {id n}, nodes.get? id = some n → ws.node? id = some n)
    (outside : ∀ id ∈ waiting, ∀ above, ws.holder? id = some above → nodes.get? above = none) :
    (visit nodes waiting).Pairwise fun earlier later => ws.holder? earlier ≠ some later := by
  -- What waits is held by nodes that are visited already, and so are out of the map.
  induction nodes, waiting using visit.induct with
  | case1 nodes =>
    rw [visit]
    exact .nil
  | case2 nodes first waiting absent ih =>
    rw [visit_of_absent absent]
    exact ih part fun id member => outside id (List.mem_cons_of_mem _ member)
  | case3 nodes first waiting n found ih =>
    rw [visit_of_get? found, List.pairwise_cons]
    refine ⟨fun later member held => ?_, ih ?_ ?_⟩
    · obtain ⟨m, known⟩ := get?_of_mem_visit member
      have gone := outside first List.mem_cons_self later held
      rw [OrderedMap.get?_erase, gone, ite_self] at known
      cases known
    · intro id m known
      rw [OrderedMap.get?_erase] at known
      split at known
      · cases known
      · exact part known
    · intro id member above held
      rw [OrderedMap.get?_erase]
      rcases List.mem_append.mp member with child | waits
      · -- A child is held by the node that was visited last.
        have own := linked.holder?_of_mem_children (part found) child
        rw [if_pos (Option.some.inj (held.symm.trans own))]
      · rw [outside id (List.mem_cons_of_mem _ waits) above held, ite_self]

/-- What hangs below a node with all that follows is listed from the top: every node comes after the
one that holds it. -/
theorem Linked.pairwise_subtree (linked : ws.Linked) (id : NodeId) :
    (ws.subtree id true).Pairwise fun earlier later => ws.holder? earlier ≠ some later := by
  -- The top comes first, and the visit below it lists holders before what they hold.
  cases found : ws.node? id with
  | none =>
    simp only [subtree, found]
    exact .nil
  | some n =>
    have listed : ws.subtree id true = id :: visit (ws.nodes.erase id) n.children := by
      simp only [subtree, found, if_true]
    rw [listed, List.pairwise_cons]
    refine ⟨fun later member held => ?_, linked.pairwise_visit ?_ ?_⟩
    · -- The holder of the top is not below the top.
      have below := (linked.mem_subtree_iff found).mp (listed ▸ List.mem_cons_of_mem _ member)
      exact (linked.rooted id).not_below held below
    · intro other m known
      rw [OrderedMap.get?_erase] at known
      split at known
      · cases known
      · exact known
    · intro child member above held
      have own := linked.holder?_of_mem_children found member
      rw [OrderedMap.get?_erase, if_pos (Option.some.inj (held.symm.trans own))]

end Workspace

end QuickEntry
