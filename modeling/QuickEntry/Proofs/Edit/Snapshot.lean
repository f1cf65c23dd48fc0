import Mathlib.Data.List.Forall2
import QuickEntry.Proofs.Edit.Alike

/-! The nodes of a graph in the order of their numbers, and that like graphs list like nodes. -/

namespace QuickEntry

variable {g : Grain}

/-- Sorting by a number leaves the numbers in ascending order. -/
theorem pairwise_sorted {α : Type} (number : α → Nat) (items : List α) :
    (items.mergeSort fun a b => number a ≤ number b).Pairwise fun a b => number a ≤ number b := by
  -- Any two numbers can be compared.
  have sorted : (items.mergeSort fun a b => number a ≤ number b).Pairwise
      fun a b => decide (number a ≤ number b) = true := by
    refine List.pairwise_mergeSort (fun a b c => ?_) (fun a b => ?_) items
    · simp only [decide_eq_true_eq]
      omega
    · simp only [Bool.or_eq_true, decide_eq_true_eq]
      omega
  exact sorted.imp fun up => of_decide_eq_true up

/-- Ascending lists with the same elements are the same if every element has its own number. -/
theorem eq_of_ascending {α : Type} (number : α → Nat) {items items' : List α}
    (own : ∀ a ∈ items, ∀ b ∈ items, number a = number b → a = b)
    (up : items.Pairwise fun a b => number a ≤ number b)
    (up' : items'.Pairwise fun a b => number a ≤ number b) (same : items.Perm items') :
    items = items' := by
  -- Two elements that are each up to the other have one number.
  refine List.Perm.eq_of_pairwise (fun a b inside inside' below above => ?_) up up' same
  exact own a inside b (same.symm.subset inside') (Nat.le_antisymm below above)

namespace Workspace

/-- The numbers in use, in ascending order. -/
def numbers (ws : Workspace) : List NodeId := ws.nodes.keys.mergeSort fun a b => a.number ≤ b.number

/-- The snapshot of a graph is what its numbers lead to in ascending order. -/
theorem Linked.snapshot_eq {ws : Workspace} (linked : ws.Linked) :
    ws.snapshot = ws.numbers.filterMap ws.node? := by
  -- Both list the nodes by their numbers, and every node has a number of its own.
  have members : (ws.numbers.filterMap ws.node?).Perm ws.nodes.values := by
    rw [OrderedMap.values_eq_filterMap]
    exact (List.mergeSort_perm _ _).filterMap _
  refine eq_of_ascending (fun n : Node => n.id.number) (fun n inside m inside' same => ?_)
    (pairwise_sorted _ _) ?_ ((List.mergeSort_perm _ _).trans members.symm)
  · obtain ⟨id, found⟩ := OrderedMap.mem_values_iff.mp ((List.mergeSort_perm _ _).subset inside)
    obtain ⟨id', found'⟩ := OrderedMap.mem_values_iff.mp ((List.mergeSort_perm _ _).subset inside')
    have one : id = id' := by
      rw [← linked.own found, ← linked.own found']
      exact congrArg NodeId.mk same
    subst one
    exact Option.some.inj (found.symm.trans found')
  · refine (pairwise_sorted NodeId.number _).filterMap ws.node? fun a b up n found m found' => ?_
    rw [linked.own found, linked.own found']
    exact up

/-- A node is in the snapshot of its graph. -/
theorem mem_snapshot {ws : Workspace} {id : NodeId} {n : Node} (found : ws.node? id = some n) :
    n ∈ ws.snapshot :=
  -- A snapshot sorts the nodes and drops none.
  (List.mergeSort_perm _ _).symm.subset (OrderedMap.mem_values_iff.mpr ⟨id, found⟩)

/-- What is in the snapshot of a graph is found under its number. -/
theorem Linked.node?_of_mem {ws : Workspace} (linked : ws.Linked) {n : Node}
    (member : n ∈ ws.snapshot) : ws.node? n.id = some n := by
  -- It is found under some number, which is its own.
  obtain ⟨id, found⟩ := OrderedMap.mem_values_iff.mp ((List.mergeSort_perm _ _).subset member)
  rw [linked.own found]
  exact found

namespace Alike

variable {ws ws' : Workspace}

/-- Like graphs use the same numbers. -/
theorem numbers_eq (alike : ws.Alike g ws') : ws.numbers = ws'.numbers := by
  -- A number is in use in both or in neither.
  have keys : ws.nodes.keys.Perm ws'.nodes.keys := OrderedMap.perm_keys_of_rel alike.nodes
  refine eq_of_ascending NodeId.number (fun a _ b _ same => congrArg NodeId.mk same)
    (pairwise_sorted _ _) (pairwise_sorted _ _) ?_
  exact ((List.mergeSort_perm _ _).trans keys).trans (List.mergeSort_perm _ _).symm

/-- Like graphs list like nodes. -/
theorem snapshot (alike : ws.Alike g ws') (linked : ws.Linked) (linked' : ws'.Linked) :
    List.Forall₂ (Node.Alike g) ws.snapshot ws'.snapshot := by
  -- The numbers are the same in order, and each leads to like nodes.
  rw [linked.snapshot_eq, linked'.snapshot_eq, alike.numbers_eq]
  have each : Relator.LiftFun Eq (Option.Rel (Node.Alike g)) ws.node? ws'.node? := by
    rintro id _ rfl
    exact alike.nodes id
  refine List.rel_filterMap each ?_
  rw [List.forall₂_eq_eq_eq]

/-- Like graphs list the same nodes if the order of fields counts. -/
theorem snapshot_eq (alike : ws.Alike g ws') (ordered : g.fieldOrder) (linked : ws.Linked)
    (linked' : ws'.Linked) : ws.snapshot = ws'.snapshot := by
  -- Nodes that are alike are equal.
  have nodes := (alike.snapshot linked linked').imp fun (a b : Node) same =>
    Node.Alike.eq same ordered
  rwa [List.forall₂_eq_eq_eq] at nodes

end Alike

end Workspace

end QuickEntry
