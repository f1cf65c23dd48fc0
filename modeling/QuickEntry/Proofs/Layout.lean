import Mathlib.Data.List.Perm.Basic
import Mathlib.Tactic.Common
import QuickEntry.Block
import QuickEntry.Node

/-! Which nodes a nested description asks for: the number, the place and the block of each. -/

namespace QuickEntry

/-- A block of a description, with the number of its node and the place that the node takes. -/
structure Placed where
  id : NodeId
  place : Option Link
  block : Block

namespace Block

mutual

/-- What is below a block whose node has some number: the blocks in its inputs, one input after the
other, and then the block that follows, each with all that is below it. The nodes are numbered in
this order, a node before those below it; `join` says where a block stands in the list. -/
def parts (join : Placed → List Placed → List Placed) (number : Nat) : Block → List Placed
  | ⟨_, _, _, _, inputs, next⟩ =>
    let plugged := partsOfInputs join ⟨number⟩ (number + 1) inputs
    plugged ++ partsOfNext join ⟨number⟩ (number + 1 + plugged.length) next

/-- What is in some inputs of a node. -/
def partsOfInputs (join : Placed → List Placed → List Placed) (holder : NodeId) (number : Nat) :
    List (String × Block) → List Placed
  | [] => []
  | (name, block) :: rest =>
    let first := join ⟨⟨number⟩, some (.socket holder name), block⟩ (parts join number block)
    first ++ partsOfInputs join holder (number + first.length) rest

/-- What follows a node. -/
def partsOfNext (join : Placed → List Placed → List Placed) (holder : NodeId) (number : Nat) :
    Option Block → List Placed
  | none => []
  | some block => join ⟨⟨number⟩, some (.next holder), block⟩ (parts join number block)

end

/-- The nodes of a description in the order of their numbers, from a first one on. -/
def layout (number : Nat) (block : Block) : List Placed :=
  ⟨⟨number⟩, none, block⟩ :: block.parts List.cons number

/-- A block behind all that is below it. -/
def behind (e : Placed) (below : List Placed) : List Placed := below ++ [e]

/-- The nodes of a description in the order in which they are completed: a node after those below
it. -/
def completion (number : Nat) (block : Block) : List Placed :=
  behind ⟨⟨number⟩, none, block⟩ (block.parts behind number)

/-- A block behind others is one of them. -/
theorem perm_behind {e : Placed} {before below : List Placed} (same : before.Perm below) :
    (behind e before).Perm (e :: below) :=
  -- A node behind what is below it may change places with all of it.
  (List.perm_append_singleton e before).trans (same.cons e)

mutual

/-- What is below a block is completed in another order. -/
theorem perm_parts (number : Nat) :
    ∀ block : Block, (block.parts behind number).Perm (block.parts List.cons number)
  | ⟨_, _, _, _, inputs, next⟩ => by
    -- What follows is numbered by how much is in the inputs, not by its order.
    have plugged := perm_partsOfInputs ⟨number⟩ (number + 1) inputs
    rw [parts, parts, plugged.length_eq]
    exact plugged.append (perm_partsOfNext ⟨number⟩ _ next)

/-- What is in some inputs is completed in another order. -/
theorem perm_partsOfInputs (holder : NodeId) (number : Nat) : ∀ inputs : List (String × Block),
    (partsOfInputs behind holder number inputs).Perm (partsOfInputs List.cons holder number inputs)
  -- The lists differ in the order of each part alone; as these have the same lengths, the numbers
  -- of the later parts agree.
  | [] => by rw [partsOfInputs, partsOfInputs]
  | (name, block) :: rest => by
    have first := perm_behind (e := ⟨⟨number⟩, some (.socket holder name), block⟩)
      (perm_parts number block)
    rw [partsOfInputs, partsOfInputs, first.length_eq]
    exact first.append (perm_partsOfInputs holder _ rest)

/-- What follows is completed in another order. -/
theorem perm_partsOfNext (holder : NodeId) (number : Nat) : ∀ next : Option Block,
    (partsOfNext behind holder number next).Perm (partsOfNext List.cons holder number next)
  -- The recursion goes on with the block that follows.
  | none => by rw [partsOfNext, partsOfNext]
  | some block => by
    rw [partsOfNext, partsOfNext]
    exact perm_behind (perm_parts number block)

end

/-- The same nodes are completed as are numbered. -/
theorem perm_completion (number : Nat) (block : Block) :
    (block.completion number).Perm (block.layout number) :=
  -- Both are the block put to the same parts, behind them or before them.
  perm_behind (perm_parts number block)

/-- Among some nodes there is one for each input of a block and for the one that follows it, each in
its place. -/
structure Complete (nodes : List Placed) (e : Placed) : Prop where
  inputs : ∀ i ∈ e.block.inputs,
    ∃ child ∈ nodes, child.block = i.2 ∧ child.place = some (.socket e.id i.1)
  next : ∀ block, e.block.next = some block →
    ∃ child ∈ nodes, child.block = block ∧ child.place = some (.next e.id)

/-- Among more nodes are those that a block needs. -/
theorem Complete.mono {nodes more : List Placed} {e : Placed} (complete : Complete nodes e)
    (within : nodes ⊆ more) : Complete more e where
  -- A child that is among some nodes is among more.
  inputs i member := by
    obtain ⟨child, inside, found⟩ := complete.inputs i member
    exact ⟨child, within inside, found⟩
  next block follows := by
    obtain ⟨child, inside, found⟩ := complete.next block follows
    exact ⟨child, within inside, found⟩

mutual

/-- The nodes of a block and of what is below it are complete for each of them. -/
theorem complete_parts (number : Nat) (place : Option Link) : ∀ block : Block,
    ∀ e ∈ ⟨⟨number⟩, place, block⟩ :: block.parts List.cons number,
      Complete (⟨⟨number⟩, place, block⟩ :: block.parts List.cons number) e
  | ⟨kind, label, fields, extraState, inputs, next⟩ => by
    have plugged := complete_partsOfInputs ⟨number⟩ (number + 1) inputs
    have follows := complete_partsOfNext ⟨number⟩
      (number + 1 + (partsOfInputs List.cons ⟨number⟩ (number + 1) inputs).length) next
    intro e member
    rw [parts] at member ⊢
    -- The block itself has its nodes one level below, and the others have theirs in their own part.
    rcases List.mem_cons.mp member with rfl | below
    · refine ⟨fun i inside => ?_, fun block same => ?_⟩
      · obtain ⟨child, inside, found⟩ := plugged.1 i inside
        exact ⟨child, by simp [inside], found⟩
      · obtain ⟨child, inside, found⟩ := follows.1 block same
        exact ⟨child, by simp [inside], found⟩
    · rcases List.mem_append.mp below with inside | behind
      · exact (plugged.2 e inside).mono fun child within => by simp [within]
      · exact (follows.2 e behind).mono fun child within => by simp [within]

/-- The nodes in some inputs are there for each input, and complete for each of them. -/
theorem complete_partsOfInputs (holder : NodeId) (number : Nat) :
    ∀ inputs : List (String × Block),
    (∀ i ∈ inputs, ∃ child ∈ partsOfInputs List.cons holder number inputs,
      child.block = i.2 ∧ child.place = some (.socket holder i.1)) ∧
    ∀ e ∈ partsOfInputs List.cons holder number inputs,
      Complete (partsOfInputs List.cons holder number inputs) e
  -- A child is among the nodes of its own input, and what is complete among these is complete among
  -- all.
  | [] => by
    rw [partsOfInputs]
    exact ⟨List.forall_mem_nil _, List.forall_mem_nil _⟩
  | (name, block) :: rest => by
    have first := complete_parts number (some (.socket holder name)) block
    -- The numbers of the other inputs start behind those of the first.
    have others := complete_partsOfInputs holder (number + (⟨⟨number⟩, some (.socket holder name),
      block⟩ :: block.parts List.cons number : List Placed).length) rest
    rw [partsOfInputs]
    refine ⟨fun i member => ?_, fun e member => ?_⟩
    · rcases List.mem_cons.mp member with rfl | later
      · exact ⟨_, List.mem_append_left _ List.mem_cons_self, rfl, rfl⟩
      · obtain ⟨child, inside, found⟩ := others.1 i later
        exact ⟨child, List.mem_append_right _ inside, found⟩
    · rcases List.mem_append.mp member with here | later
      · exact (first e here).mono (List.subset_append_left _ _)
      · exact (others.2 e later).mono (List.subset_append_right _ _)

/-- The node that follows is there, and the nodes are complete for each of them. -/
theorem complete_partsOfNext (holder : NodeId) (number : Nat) : ∀ next : Option Block,
    (∀ block, next = some block → ∃ child ∈ partsOfNext List.cons holder number next,
      child.block = block ∧ child.place = some (.next holder)) ∧
    ∀ e ∈ partsOfNext List.cons holder number next,
      Complete (partsOfNext List.cons holder number next) e
  -- The block that follows is the first of the nodes that come from it.
  | none => by
    rw [partsOfNext]
    exact ⟨by simp, List.forall_mem_nil _⟩
  | some block => by
    rw [partsOfNext]
    refine ⟨fun other same => ?_, complete_parts number (some (.next holder)) block⟩
    cases same
    exact ⟨_, List.mem_cons_self, rfl, rfl⟩

end

/-- A layout has a node for every block: for each input of a block that has one, and for each block
that follows such a block. -/
theorem complete_layout (number : Nat) (block : Block) :
    ∀ e ∈ block.layout number, Complete (block.layout number) e :=
  -- A whole program is the case of a block that stands on its own.
  complete_parts number none block

end Block

end QuickEntry
