import Mathlib.Data.Set.Insert
import QuickEntry.Proofs.Custody

/-! What a session knows of the blocks that it has: their identities in the graph and outside it,
and conditions on them that every change keeps. -/

namespace QuickEntry

/-- What a node is for good: its number, its kind and its structural state. -/
structure Identity where
  id : NodeId
  kind : String
  mutation : Mutation

/-- What a node is for good. -/
def Node.identity (n : Node) : Identity := ⟨n.id, n.kind, n.mutation⟩

/-- The identities of some nodes. -/
def identities (nodes : List Node) : Set Identity := {i | ∃ n ∈ nodes, n.identity = i}

/-- Without nodes there are no identities. -/
@[simp] theorem identities_nil : identities [] = ∅ := by simp [identities]

/-- A single node has its own identity. -/
@[simp] theorem identities_singleton (n : Node) : identities [n] = {n.identity} := by
  simp [identities, eq_comm]

/-- Nodes together have the identities of both parts. -/
@[simp] theorem identities_append (nodes others : List Node) :
    identities (nodes ++ others) = identities nodes ∪ identities others := by
  -- A node is in one list or in the other.
  simp [identities, Set.ext_iff, or_and_right, exists_or]

/-- Fewer nodes have fewer identities. -/
theorem identities_subset {nodes others : List Node} (fewer : nodes ⊆ others) :
    identities nodes ⊆ identities others := by
  -- An identity is that of some node, which is among the others too.
  rintro _ ⟨n, member, rfl⟩
  exact ⟨n, fewer member, rfl⟩

/-- A condition on the identities in use and on the next number. Identities may be given up, numbers
may be passed over, and the next number may be given to any block. -/
structure Ledger (K : Set Identity → Nat → Prop) : Prop where
  weaken : ∀ {S T : Set Identity} {k l : Nat}, K S k → T ⊆ S → k ≤ l → K T l
  issue : ∀ {S : Set Identity} {k : Nat} (kind : String) (mutation : Mutation),
    K S k → K ({⟨⟨k⟩, kind, mutation⟩} ∪ S) (k + 1)

variable {K : Set Identity → Nat → Prop} {S T : Set Identity}

/-- A node may be inserted under a condition wherever some identities are known. -/
def Admits (K : Set Identity → Nat → Prop) (S : Set Identity) (n : Node) : Prop :=
  ∀ (T : Set Identity) (k : Nat), S ⊆ T → K T k → K ({n.identity} ∪ T) (max k (n.id.number + 1))

/-- A node may be inserted where more identities are known. -/
theorem Admits.mono {n : Node} (admits : Admits K S n) (more : S ⊆ T) : Admits K T n :=
  -- To be admitted is asked of all larger sets anyway.
  fun _ _ inside holds => admits _ _ (more.trans inside) holds

/-- A known node may be inserted. -/
theorem admits_of_known (ledger : Ledger K) {n : Node} (known : n.identity ∈ S) : Admits K S n :=
  -- What is known already adds nothing, so that the law for fewer identities is enough.
  fun _ _ inside holds => ledger.weaken holds (by grind) (Nat.le_max_left _ _)

namespace Workspace

variable {ws ws' : Workspace} {n m : Node}

/-- The identities of the nodes in a graph. -/
def identities (ws : Workspace) : Set Identity :=
  {i | ∃ id n, ws.node? id = some n ∧ n.identity = i}

/-- The nodes of a graph, with others that are known, meet a condition. -/
def Obeys (K : Set Identity → Nat → Prop) (S : Set Identity) (ws : Workspace) : Prop :=
  K (ws.identities ∪ S) ws.nextNumber

/-- A node in the graph has its identity there. -/
theorem identity_mem {id : NodeId} (found : ws.node? id = some n) :
    n.identity ∈ ws.identities :=
  -- The node itself is the one to point at.
  ⟨id, n, found, rfl⟩

/-- Changing nodes without their identities brings no new identities. -/
theorem identities_modify (ws : Workspace) (id : NodeId) {f : Node → Node}
    (same : ∀ n, (f n).identity = n.identity) : (ws.modify id f).identities ⊆ ws.identities := by
  -- Every node after the change is one from before it, changed or not.
  rintro _ ⟨other, m, found, rfl⟩
  rw [node?_modify] at found
  split at found
  · obtain ⟨n, there, rfl⟩ := Option.map_eq_some_iff.mp found
    rw [same n]
    exact identity_mem there
  · exact identity_mem found

/-- Making or cutting a link brings no new identities. -/
theorem identities_relink (ws : Workspace) (child : NodeId) (place : Link)
    (occupant : Option NodeId) (parent : Option Link) :
    (ws.relink child place occupant parent).identities ⊆ ws.identities := by
  -- Neither end of a link becomes another block.
  have filled : ∀ n : Node, (n.fill place occupant).identity = n.identity := by
    intro n
    cases place <;> rfl
  have placed : ∀ n : Node, ({ n with parent } : Node).identity = n.identity := fun _ => rfl
  exact (identities_modify _ child placed).trans (identities_modify ws place.holder filled)

/-- A graph in which no identity and no number is new meets the conditions that it met. -/
theorem Obeys.weaken (ledger : Ledger K) (obeys : ws.Obeys K S)
    (fewer : ws'.identities ∪ T ⊆ ws.identities ∪ S) (later : ws.nextNumber ≤ ws'.nextNumber) :
    ws'.Obeys K T :=
  -- A ledger asks for identities and the counter, and for nothing else of the graph.
  ledger.weaken obeys fewer later

/-- A condition that is met is met with fewer known identities. -/
theorem Obeys.mono (ledger : Ledger K) (obeys : ws.Obeys K S) (fewer : T ⊆ ws.identities ∪ S) :
    ws.Obeys K T :=
  -- The graph is the same, and only what is remembered beside it shrinks.
  obeys.weaken ledger (Set.union_subset Set.subset_union_left fewer) (Nat.le_refl _)

/-- A graph without new identities meets the conditions with the same known ones. -/
theorem Obeys.of_subset (ledger : Ledger K) (obeys : ws.Obeys K S)
    (fewer : ws'.identities ⊆ ws.identities) (later : ws.nextNumber ≤ ws'.nextNumber) :
    ws'.Obeys K S :=
  -- What is remembered is the same, and only the graph may lose identities.
  obeys.weaken ledger (Set.union_subset_union_left S fewer) later

/-- A made node is known afterwards. -/
theorem Obeys.make (ledger : Ledger K) (obeys : ws.Obeys K S) {kind : String}
    {mutation : Mutation} (made : ws.make kind mutation = .ok (n, ws')) :
    ws'.Obeys K ({n.identity} ∪ S) := by
  -- The node is not inserted yet, so that its identity has to be remembered beside the graph.
  obtain ⟨is, rfl⟩ := make_eq_ok made
  have identity : n.identity = ⟨⟨ws.nextNumber⟩, kind, mutation⟩ := by
    rw [Node.identity, is.id, is.kind, is.mutation]
  have issued := ledger.issue kind mutation obeys
  rw [← identity, Set.union_left_comm] at issued
  exact issued

/-- A node that may be inserted is inserted without harm. -/
theorem Obeys.insert (ledger : Ledger K) (obeys : ws.Obeys K S) (admits : Admits K S n)
    (inserted : ws.insert n = .ok ws') : ws'.Obeys K S := by
  -- Only the node brings an identity, and it is admitted beside all that is known.
  obtain ⟨_, _, rfl⟩ := insert_eq_ok_iff.mp inserted
  have fewer : (ws.added n).identities ⊆ {n.identity} ∪ ws.identities := by
    rintro _ ⟨id, m, found, rfl⟩
    rw [node?_added] at found
    split at found
    · cases found
      exact .inl rfl
    · exact .inr (identity_mem found)
  exact ledger.weaken (admits _ _ Set.subset_union_right obeys) (by grind) (Nat.le_refl _)

/-- A removed node may stay known. -/
theorem Obeys.remove (ledger : Ledger K) (obeys : ws.Obeys K S) {id : NodeId}
    (removed : ws.remove id = .ok (n, ws')) : ws'.Obeys K ({n.identity} ∪ S) := by
  -- The identity that leaves the graph is remembered from then on.
  obtain ⟨found, _, rfl⟩ := remove_eq_ok_iff.mp removed
  have fewer : (ws.without id).identities ⊆ ws.identities := by
    rintro _ ⟨other, m, found, rfl⟩
    rw [node?_without] at found
    split at found
    · cases found
    · exact identity_mem found
  have own := identity_mem found
  exact obeys.weaken ledger (by grind) (Nat.le_refl _)

/-- Building keeps every condition. -/
theorem buildInvariant_obeys (ledger : Ledger K) (S : Set Identity) :
    BuildInvariant (Obeys K S) where
  -- Making, inserting and removing move identities about; the other changes leave every node its
  -- own.
  make obeys made := (obeys.make ledger made).mono ledger (by grind)
  enter obeys made inserted :=
    ((obeys.make ledger made).insert ledger (admits_of_known ledger (by grind)) inserted).mono
      ledger (by grind)
  remove obeys removed := (obeys.remove ledger removed).mono ledger (by grind)
  setField obeys set := by
    obtain ⟨n, shape, found, _, rfl⟩ := of_setField set
    refine obeys.of_subset ledger ?_ (Nat.le_refl _)
    rintro _ ⟨other, m, found', rfl⟩
    rw [node?_replaced found] at found'
    split at found'
    · cases found'
      exact ⟨_, n, found, rfl⟩
    · exact identity_mem found'
  plug {ws _ child place} obeys plugged := by
    obtain ⟨_, rfl⟩ := plug_eq_ok_iff.mp plugged
    exact obeys.of_subset ledger (identities_relink ws child place _ _) (Nat.le_refl _)
  unplug {ws _ child _} obeys unplugged := by
    obtain ⟨_, rfl⟩ := unplug_eq_ok_iff.mp unplugged
    unfold freed
    split
    · exact obeys
    · exact obeys.of_subset ledger (identities_relink ws child _ none none) (Nat.le_refl _)

end Workspace

/-- Every condition on identities is kept for the nodes outside the graph as well. -/
theorem custody_obeys (ledger : Ledger K) (S : Set Identity) :
    Custody fun nodes ws => ws.Obeys K (identities nodes ∪ S) where
  -- What lies outside the graph counts as remembered, next to what is remembered anyway.
  forget obeys fewer :=
    have identities := identities_subset fewer
    obeys.mono ledger (by grind)
  make {nodes _ _ _ _ _} obeys made := by
    have known := obeys.make ledger made
    rwa [← identities_singleton, ← Set.union_assoc, ← identities_append] at known
  insert obeys member inserted :=
    obeys.insert ledger (admits_of_known ledger (.inl ⟨_, member, rfl⟩)) inserted
  remove {nodes _ _ _ _} obeys removed := by
    have known := obeys.remove ledger removed
    rwa [← identities_singleton, ← Set.union_assoc, ← identities_append] at known
  setField obeys set := (Workspace.buildInvariant_obeys ledger _).setField obeys set
  plug obeys plugged := (Workspace.buildInvariant_obeys ledger _).plug obeys plugged
  unplug obeys unplugged := (Workspace.buildInvariant_obeys ledger _).unplug obeys unplugged

namespace Document

/-- The nodes of a document, those in its history and others that are known meet a condition. -/
def Obeys (K : Set Identity → Nat → Prop) (S : Set Identity) (d : Document) : Prop :=
  d.InCustody fun nodes ws => ws.Obeys K (identities nodes ∪ S)

/-- A document without a history obeys if its graph does. -/
theorem obeys_of_no_history {c : Canvas} (obeys : c.workspace.Obeys K S) {depth : Nat} :
    (Document.mk c (.empty depth)).Obeys K S := by
  -- A history without steps keeps no nodes that would have to be remembered.
  have known : c.workspace.Obeys K (identities [] ∪ S) := by
    rwa [identities_nil, Set.empty_union]
  exact known

end Document

end QuickEntry
