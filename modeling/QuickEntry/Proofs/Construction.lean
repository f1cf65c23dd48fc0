import Mathlib.Data.List.Induction
import QuickEntry.Proofs.Graph.Fresh
import QuickEntry.Proofs.Layout

/-! Building a nested description: the nodes that it asks for come into the graph, in their places,
and nothing else changes. -/

namespace QuickEntry

/-- The fields of the node of a block: the defaults of its kind, overridden by what the block
gives. -/
def Block.filled (block : Block) (kind : BlockKind) : OrderedMap String String :=
  block.fields.entries.foldl (fun fields e => fields.insert e.1 e.2.fieldText)
    (.ofList kind.defaultFields)

/-- The nodes that blocks have named after some nodes are completed. -/
def remembered (labels : OrderedMap String NodeId) (completed : List Placed) :
    OrderedMap String NodeId :=
  completed.foldl (fun labels e => e.block.label.elim labels fun name => labels.insert name e.id)
    labels

namespace Node

/-- A node is what a block in a place asks for: it has the kind of the block, its fields and its
structural state, and takes the place. -/
structure Realizes (n : Node) (e : Placed) : Prop where
  kind : n.kind = e.block.kind
  fields : ∃ kind, BlockKind.ofName? n.kind = some kind ∧ n.fields = e.block.filled kind
  mutation : Mutation.ofExtraState e.block.extraState = .ok n.mutation
  parent : n.parent = e.place

namespace Realizes

variable {n : Node} {e : Placed}

/-- What a node holds is no question of its own block. -/
theorem fill (realizes : n.Realizes e) (place : Link) (occupant : Option NodeId) :
    (n.fill place occupant).Realizes e := by
  -- Only sockets or the follower change.
  cases place with
  | socket parent name => exact ⟨realizes.kind, realizes.fields, realizes.mutation, realizes.parent⟩
  | next previous => exact ⟨realizes.kind, realizes.fields, realizes.mutation, realizes.parent⟩

/-- In another place a node is what its block asks for there. -/
theorem move (realizes : n.Realizes e) (parent : Option Link) :
    { n with parent }.Realizes { e with place := parent } :=
  -- The place is no part of what the block describes.
  ⟨realizes.kind, realizes.fields, realizes.mutation, rfl⟩

end Realizes

end Node

namespace Workspace

/-- Every node of a graph is still in another one, as it was and where it was in the order. -/
structure Preserves (start ws : Workspace) : Prop where
  keys : start.nodes.keys <+: ws.nodes.keys
  nodes : ∀ {id n}, start.node? id = some n → ws.node? id = some n
  components : ws.components = start.components
  database : ws.database = start.database

/-- A graph has come from another one by building some nodes. -/
structure Erected (start : Workspace) (plan : List Placed) (ws : Workspace) : Prop where
  wellFormed : ws.WellFormed
  keys : ws.nodes.keys = start.nodes.keys ++ plan.map (·.id)
  ids : plan.map (·.id) = (List.range' start.nextNumber plan.length).map NodeId.mk
  nextNumber : ws.nextNumber = start.nextNumber + plan.length
  old : ∀ {id}, id.number < start.nextNumber → ws.node? id = start.node? id
  new : ∀ e ∈ plan, ∃ n, ws.node? e.id = some n ∧ n.Realizes e
  components : ws.components = start.components
  database : ws.database = start.database

namespace Erected

variable {start ws : Workspace} {plan : List Placed}

/-- A well-formed graph has come from itself by building nothing. -/
theorem refl (wf : ws.WellFormed) : ws.Erected [] ws :=
  -- An empty plan adds nothing.
  ⟨wf, (List.append_nil _).symm, rfl, rfl, fun _ => rfl, List.forall_mem_nil _, rfl, rfl⟩

/-- Building nodes leaves the others as they are. -/
theorem preserves (erected : start.Erected plan ws) (wf : start.WellFormed) :
    start.Preserves ws where
  -- A node of before has a number below those of the plan.
  keys := ⟨_, erected.keys.symm⟩
  nodes found := (erected.old (wf.numbered found)).trans found
  components := erected.components
  database := erected.database

/-- The nodes that are built have numbers of their own. -/
theorem nodup (erected : start.Erected plan ws) : (plan.map (·.id)).Nodup := by
  -- The numbers of a plan are consecutive.
  have numbers : (List.range' start.nextNumber plan.length).Nodup := List.nodup_range'
  rw [erected.ids]
  exact numbers.map fun _ _ same => congrArg NodeId.number same

/-- The nodes that are built have later numbers than those before. -/
theorem le_number (erected : start.Erected plan ws) {e : Placed} (member : e ∈ plan) :
    start.nextNumber ≤ e.id.number := by
  -- All numbers of the plan are counted from the next one of the start.
  have listed := List.mem_map_of_mem (f := (·.id)) member
  rw [erected.ids] at listed
  obtain ⟨number, among, same⟩ := List.mem_map.mp listed
  rw [← same]
  exact (List.mem_range'_1.mp among).1

/-- A detached node that is inserted under the next number comes behind the others. -/
theorem added (erected : start.Erected plan ws) {n : Node} {block : Block}
    (next : n.id = ⟨ws.nextNumber⟩) (detached : n.isDetached = true)
    (realizes : n.Realizes ⟨n.id, none, block⟩) :
    start.Erected (plan ++ [⟨n.id, none, block⟩]) (ws.counted.added n) := by
  -- The number is that of no node, and so neither of an old one nor of one in the plan.
  have absent : ws.node? n.id = none := erected.wellFormed.node?_next next
  have number : n.id.number = start.nextNumber + plan.length := by
    rw [next, erected.nextNumber]
  refine ⟨?_, ?_, ?_, ?_, fun below => ?_, fun e member => ?_, erected.components,
    erected.database⟩
  · exact erected.wellFormed.added next detached
  · rw [erected.wellFormed.keys_added next, erected.keys]
    simp
  · rw [List.map_append, erected.ids, List.length_append, List.length_singleton,
      List.range'_1_concat, List.map_append, ← number]
    rfl
  · -- The number was counted before the node came in, which counts it once more.
    show max (ws.nextNumber + 1) (n.id.number + 1) = _
    rw [number, erected.nextNumber, List.length_append, List.length_singleton]
    omega
  · refine (Fresh.node?_added_of_ne fun same => ?_).trans (erected.old below)
    rw [same, number] at below
    omega
  · rcases List.mem_append.mp member with before | here
    · obtain ⟨m, found, known⟩ := erected.new e before
      refine ⟨m, (Fresh.node?_added_of_ne fun same => ?_).trans found, known⟩
      rw [← same, found] at absent
      cases absent
    · obtain rfl := List.mem_singleton.mp here
      exact ⟨n, Fresh.found n, realizes⟩

/-- A node that is built and plugged into a place of another one takes that place. -/
theorem plugged {front back : List Placed} {child : NodeId} {block : Block} {place : Link}
    (erected : start.Erected (front ++ ⟨child, none, block⟩ :: back) ws)
    (offered : ∃ e ∈ front, e.id = place.holder) {ws' : Workspace}
    (made : ws.plug child place = .ok ws') :
    start.Erected (front ++ ⟨child, some place, block⟩ :: back) ws' := by
  obtain ⟨⟨_, _, can⟩, rfl⟩ := plug_eq_ok_iff.mp made
  have nodes : ∀ id, (ws.relink child place (some child) (some place)).node? id = _ :=
    node?_relink can.apart (some child) (some place)
  -- The plan only says more about where the child is.
  have ids : (front ++ ⟨child, some place, block⟩ :: back).map (·.id) =
      (front ++ ⟨child, none, block⟩ :: back).map (·.id) := by simp
  refine ⟨can.wellFormed_join erected.wellFormed, ?_, ?_, ?_, fun below => ?_, fun e member => ?_,
    erected.components, erected.database⟩
  · rw [ids, ← erected.keys]
    simp [join_eq_relink, relink, modify]
  · rw [ids, erected.ids]
    simp
  · rw [join_eq_relink]
    simpa [relink, modify] using erected.nextNumber
  · -- Neither of the two nodes was there before.
    have new : start.nextNumber ≤ child.number :=
      erected.le_number (e := ⟨child, none, block⟩) (by simp)
    obtain ⟨above, earlier, holder⟩ := offered
    have above := holder ▸ erected.le_number (List.mem_append_left _ earlier)
    rw [join_eq_relink, nodes, if_neg, if_neg, erected.old below]
    · rintro rfl
      omega
    · rintro rfl
      omega
  · rw [join_eq_relink, nodes]
    by_cases same : e.id = child
    · -- No other entry of the plan has the number of the child.
      obtain ⟨m, found, known⟩ := erected.new ⟨child, none, block⟩ (by simp)
      have distinct := ids ▸ erected.nodup
      obtain rfl := List.inj_on_of_nodup_map distinct member (y := ⟨child, some place, block⟩)
        (by simp) same
      exact ⟨_, by rw [if_pos rfl, found]; rfl, known.move (some place)⟩
    · have before : e ∈ front ++ ⟨child, none, block⟩ :: back := by
        have other : e ≠ ⟨child, some place, block⟩ := fun equal => same (equal ▸ rfl)
        simp only [List.mem_append, List.mem_cons, other, false_or] at member ⊢
        exact member.imp_right .inr
      obtain ⟨m, found, known⟩ := erected.new e before
      rw [if_neg same, found]
      split
      · exact ⟨_, rfl, known.fill place (some child)⟩
      · exact ⟨m, rfl, known⟩

/-- A node was there before, or has been built. -/
theorem mem_or_of_node? (erected : start.Erected plan ws) {id : NodeId} {n : Node}
    (found : ws.node? id = some n) :
    (start.node? id).isSome = true ∨ ∃ e ∈ plan, e.id = id := by
  -- Its number is among the keys of the start or of the plan.
  have listed : id ∈ ws.nodes.keys :=
    (OrderedMap.mem_keys_iff _ _).mpr (OrderedMap.contains_iff.mpr ⟨n, found⟩)
  rw [erected.keys, List.mem_append, OrderedMap.mem_keys_iff, List.mem_map] at listed
  exact listed

/-- A place of a node that is built holds the node that is to take the place, and no other. -/
theorem occupant_iff (erected : start.Erected plan ws) (wf : start.WellFormed) {e : Placed}
    (member : e ∈ plan) {n : Node} (found : ws.node? e.id = some n) {place : Link}
    (holder : place.holder = e.id) {child : NodeId} :
    n.occupant place = some child ↔
      ∃ below ∈ plan, below.id = child ∧ below.place = some place := by
  -- What a place holds is what names it as its own.
  rw [← occupant?_of_node? (holder ▸ found), erected.wellFormed.paired]
  constructor
  · intro placed
    obtain ⟨m, known, parent⟩ := node?_of_placeOf? placed
    rcases erected.mem_or_of_node? known with before | ⟨below, inside, rfl⟩
    · -- A node from before was in no place of a node that was not there.
      obtain ⟨k, there⟩ := Option.isSome_iff_exists.mp before
      have same := (erected.old (wf.numbered there)).symm.trans known
      cases there.symm.trans same
      obtain ⟨_, above, _⟩ := wf.parent_occupant there parent
      have later := holder ▸ erected.le_number member
      have earlier := wf.numbered above
      omega
    · obtain ⟨k, there, realizes⟩ := erected.new below inside
      cases there.symm.trans known
      exact ⟨below, inside, rfl, realizes.parent.symm.trans parent⟩
  · rintro ⟨below, inside, rfl, place⟩
    obtain ⟨k, there, realizes⟩ := erected.new below inside
    rw [placeOf?_of_node? there, realizes.parent, place]

end Erected

end Workspace

namespace Assembly

variable {start : Workspace} {plan : List Placed} {labels : OrderedMap String NodeId}

/-- Setting the fields of a detached node of a known kind succeeds, and leaves a variant of the node
with these fields. -/
theorem on_setFields {id : NodeId} (entries : List (String × Json)) :
    ∀ {a : Assembly} {x : Node}, a.workspace.node? id = some x → x.isDetached = true →
      (∃ kind, BlockKind.ofName? x.kind = some kind) →
      ∃ y, (setFields id entries).on a =
          (.ok (), { a with workspace := a.workspace.replaced id y }) ∧ x.Variant y ∧
        y.fields = entries.foldl (fun fields e => fields.insert e.1 e.2.fieldText) x.fields := by
  -- By induction on the fields, on the node as the earlier ones have left it.
  induction entries with
  | nil =>
    intro a x found detached _
    refine ⟨x, ?_, .refl detached, rfl⟩
    rw [Workspace.replaced_self found]
    rfl
  | cons e rest ih =>
    obtain ⟨name, value⟩ := e
    rintro a x found detached ⟨kind, known⟩
    -- One field is set, and then the others on the node that this leaves.
    obtain ⟨y, made, first, fields, _⟩ :=
      Workspace.setField_of_isDetached found detached known name (some value.fieldText)
    have found' : (a.workspace.replaced id y).node? id = some y := by
      rw [Workspace.node?_replaced found, if_pos rfl]
    obtain ⟨z, others, second, filled⟩ :=
      ih (a := { a with workspace := a.workspace.replaced id y }) found' first.detached'
        ⟨kind, first.kind ▸ known⟩
    refine ⟨z, ?_, first.trans second, ?_⟩
    · have unfolded : setFields id ((name, value) :: rest) =
          (change (fun ws => ws.setField id name (some value.fieldText)) >>= fun _ => pure ()) >>=
            fun _ => setFields id rest := rfl
      rw [unfolded, Attempt.on_bind, Attempt.on_bind, on_change, made]
      simp only [Attempt.on_pure]
      rw [others, Workspace.replaced_replaced found]
    · rw [filled, fields]
      rfl

/-- A node of a known kind is made and inserted under the next number, and one of another kind is
refused. -/
theorem on_addNode {a : Assembly} (wf : a.workspace.WellFormed) (kind : String)
    (mutation : Mutation) :
    match BlockKind.ofName? kind with
    | none => ∃ e, (addNode kind mutation).on a = (.error e, a)
    | some _ => ∃ n, a.workspace.Made kind mutation n ∧ (addNode kind mutation).on a =
        (.ok n.id, { a with workspace := a.workspace.counted.added n }) := by
  -- A known kind always yields a node, and the next number is free for it.
  have unfolded : addNode kind mutation = change (fun ws => ws.make kind mutation) >>= fun node =>
      change (fun ws => (ws.insert node).map fun ws => ((), ws)) >>= fun _ => pure node.id := rfl
  rw [unfolded, Attempt.on_bind, on_change]
  cases known : BlockKind.ofName? kind with
  | none =>
    have refused : a.workspace.make kind mutation = .error (.unknownKind kind) := by
      rw [Workspace.make, known]
    exact ⟨_, by rw [refused]⟩
  | some _ =>
    obtain ⟨n, made, is⟩ := Workspace.make_of_known a.workspace known mutation
    have inserted : a.workspace.counted.insert n = .ok (a.workspace.counted.added n) :=
      Workspace.insert_eq_ok_iff.mpr ⟨wf.node?_next is.id, is.detached, rfl⟩
    refine ⟨n, is, ?_⟩
    simp only [made, Attempt.on_bind, on_change, inserted]
    rfl

/-- A graph under construction has come from another one by building some nodes, and blocks have
named some of the nodes. -/
structure Progress (start : Workspace) (plan : List Placed) (labels : OrderedMap String NodeId)
    (a : Assembly) : Prop where
  erected : start.Erected plan a.workspace
  labels : a.labels = labels

/-- A new node has come into the graph under construction, with the default fields of its kind. -/
def Begun (start : Workspace) (plan : List Placed) (labels : OrderedMap String NodeId)
    (kind : String) (mutation : Mutation) (id : NodeId) (a : Assembly) : Prop :=
  ∃ ws n, start.Erected plan ws ∧ ws.Made kind mutation n ∧ id = n.id ∧
    a = ⟨ws.counted.added n, labels⟩

/-- A node is inserted behind those that are built, or refused without any change. -/
theorem ensures_addNode (wf : start.WellFormed) (kind : String) (mutation : Mutation) :
    (addNode kind mutation).Ensures (Progress start plan labels)
      (Begun start plan labels kind mutation) (fun a => start.Preserves a.workspace) := by
  -- The plan grows only when the node has its fields.
  rintro a ⟨erected, rfl⟩
  have adds := on_addNode erected.wellFormed kind mutation
  cases known : BlockKind.ofName? kind with
  | none =>
    rw [known] at adds
    obtain ⟨e, refused⟩ := adds
    rw [refused]
    exact erected.preserves wf
  | some kind =>
    rw [known] at adds
    obtain ⟨n, made, added⟩ := adds
    rw [added]
    exact ⟨a.workspace, n, erected, made, rfl, rfl⟩

/-- A new node that gets the fields of its block is what the block asks for. -/
theorem ensures_setFields (block : Block) {mutation : Mutation}
    (read : Mutation.ofExtraState block.extraState = .ok mutation) (id : NodeId) :
    (setFields id block.fields.entries).Ensures
      (Begun start plan labels block.kind mutation id)
      (fun _ a => id = ⟨start.nextNumber + plan.length⟩ ∧
        Progress start (plan ++ [⟨id, none, block⟩]) labels a)
      (fun a => start.Preserves a.workspace) := by
  rintro _ ⟨ws, n, erected, made, rfl, rfl⟩
  obtain ⟨kind, known, defaults⟩ := made.known
  -- Nothing is connected to the node yet, so that no field is refused.
  obtain ⟨m, set, variant, filled⟩ := on_setFields (a := ⟨ws.counted.added n, labels⟩)
    block.fields.entries (Workspace.Fresh.found n) made.detached ⟨kind, known⟩
  rw [set]
  have realizes : m.Realizes ⟨m.id, none, block⟩ := by
    refine ⟨variant.kind.trans made.kind, ⟨kind, variant.kind ▸ known, ?_⟩, ?_,
      Node.parent_of_isDetached variant.detached'⟩
    · rw [filled, defaults, Block.filled]
    · rw [variant.mutation, made.mutation, read]
  refine ⟨by rw [made.id, erected.nextNumber], ?_, rfl⟩
  rw [Workspace.replaced_added variant.id, ← variant.id]
  exact erected.added (variant.id.trans made.id) variant.detached' realizes

/-- Completing nodes one after the other remembers the names of all of them. -/
theorem remembered_append (labels : OrderedMap String NodeId) (first rest : List Placed) :
    remembered labels (first ++ rest) = remembered (remembered labels first) rest :=
  -- Labels are remembered one after the other.
  List.foldl_append

/-- The places of nodes do not matter to the names of their blocks. -/
theorem remembered_behind (labels : OrderedMap String NodeId) (id : NodeId)
    (place place' : Option Link) (block : Block) (before : List Placed) :
    remembered labels (Block.behind ⟨id, place, block⟩ before) =
      remembered labels (Block.behind ⟨id, place', block⟩ before) := by
  -- Only the label of a block is remembered, not its place.
  rw [Block.behind, Block.behind, remembered_append, remembered_append]
  rfl

/-- A block that is built and plugged into a place of an earlier node has its nodes in the layout
with that place. -/
theorem ensures_plug (wf : start.WellFormed) {number : Nat} {block : Block} {place : Link}
    (offered : ∃ e ∈ plan, e.id = place.holder) :
    (plug ⟨number⟩ place).Ensures
      (Progress start (plan ++ block.layout number) (remembered labels (block.completion number)))
      (fun _ => Progress start
        (plan ++ ⟨⟨number⟩, some place, block⟩ :: block.parts List.cons number)
        (remembered labels
          (Block.behind ⟨⟨number⟩, some place, block⟩ (block.parts Block.behind number))))
      (fun a => start.Preserves a.workspace) := by
  -- The holder is part of the plan; plugging the child changes its place and completes it.
  rintro a ⟨erected, names⟩
  rw [plug, on_change]
  cases plugged : a.workspace.plug ⟨number⟩ place with
  | error e => exact erected.preserves wf
  | ok ws => exact ⟨erected.plugged offered plugged, names.trans (remembered_behind ..)⟩

/-- The name of a block is remembered when its node is completed. -/
theorem ensures_remember {refused : Assembly → Prop} (e : Placed) :
    (remember e.block.label e.id).Ensures (Progress start plan labels)
      (fun _ => Progress start plan (remembered labels [e])) refused := by
  -- Only the labels change.
  rintro a ⟨erected, rfl⟩
  exact ⟨erected, rfl⟩

mutual

/-- Building a block builds the nodes of its layout, and remembers the names of its blocks as they
are completed. -/
theorem ensures_append (wf : start.WellFormed) (plan : List Placed)
    (labels : OrderedMap String NodeId) : ∀ block : Block,
    (append block).Ensures (Progress start plan labels)
      (fun root a => root = ⟨start.nextNumber + plan.length⟩ ∧
        Progress start (plan ++ block.layout (start.nextNumber + plan.length))
          (remembered labels (block.completion (start.nextNumber + plan.length))) a)
      (fun a => start.Preserves a.workspace)
  | ⟨kind, label, fields, extraState, inputs, next⟩ => by
    let block : Block := ⟨kind, label, fields, extraState, inputs, next⟩
    let number := start.nextNumber + plan.length
    let self : Placed := ⟨⟨number⟩, none, block⟩
    let plugged := Block.partsOfInputs List.cons ⟨number⟩ (number + 1) inputs
    let completed := Block.partsOfInputs Block.behind ⟨number⟩ (number + 1) inputs
    have length : completed.length = plugged.length :=
      (Block.perm_partsOfInputs ⟨number⟩ (number + 1) inputs).length_eq
    -- The node comes first, then what is in its inputs, and then what follows it; each part finds
    -- the plan as long as the number that it starts with says.
    have inner := ensures_appendInputs wf (plan ++ [self]) labels ⟨number⟩
      ⟨self, by simp, rfl⟩ inputs
    have outer := ensures_appendNext wf (plan ++ [self] ++ plugged) (remembered labels completed)
      ⟨number⟩ ⟨self, by simp, rfl⟩ next
    rw [List.length_append, List.length_singleton, ← Nat.add_assoc] at inner
    rw [List.length_append, List.length_append, List.length_singleton, ← Nat.add_assoc,
      ← Nat.add_assoc] at outer
    -- Layout and completion, cut at the borders of these parts.
    have layout : plan ++ block.layout number = plan ++ [self] ++ plugged ++
        Block.partsOfNext List.cons ⟨number⟩ (number + 1 + plugged.length) next := by
      rw [Block.layout, Block.parts, List.append_assoc, List.append_assoc]
      rfl
    have completion : remembered labels (block.completion number) =
        remembered (remembered (remembered labels completed)
          (Block.partsOfNext Block.behind ⟨number⟩ (number + 1 + plugged.length) next)) [self] := by
      rw [Block.completion, Block.parts, Block.behind, remembered_append, remembered_append,
        ← length]
    rw [append]
    refine ((Attempt.ensures_ofExcept _).mono (fun _ => id) (fun _ _ => id)
      fun a (progress : Progress start plan labels a) => progress.erected.preserves wf).bind
        fun mutation => ?_
    rintro a ⟨read, progress⟩
    refine ((ensures_addNode wf kind mutation).bind fun id =>
      (ensures_setFields block read id).bind fun _ => ?_) a progress
    -- The node is there with its fields set, and the parts go on from it.
    rintro a ⟨rfl, progress⟩
    refine (inner.bind fun _ => outer.bind fun _ => (ensures_remember self).bind fun _ => ?_)
      a progress
    rw [layout, completion]
    exact fun a progress => ⟨rfl, progress⟩

/-- Building the blocks in some inputs builds the nodes of their layouts. -/
theorem ensures_appendInputs (wf : start.WellFormed) (plan : List Placed)
    (labels : OrderedMap String NodeId) (holder : NodeId) (offered : ∃ e ∈ plan, e.id = holder) :
    ∀ inputs : List (String × Block),
    (appendInputs holder inputs).Ensures (Progress start plan labels)
      (fun _ => Progress start
        (plan ++ Block.partsOfInputs List.cons holder (start.nextNumber + plan.length) inputs)
        (remembered labels
          (Block.partsOfInputs Block.behind holder (start.nextNumber + plan.length) inputs)))
      (fun a => start.Preserves a.workspace)
  -- Along the list of inputs, with the plan growing by one of them at each step.
  | [] => by
    rw [appendInputs, Block.partsOfInputs, Block.partsOfInputs, List.append_nil]
    exact fun a progress => progress
  | (name, block) :: rest => by
    rw [appendInputs, Block.partsOfInputs, Block.partsOfInputs]
    refine (ensures_append wf plan labels block).bind fun child => ?_
    rintro a ⟨rfl, progress⟩
    refine ((ensures_plug wf offered).bind fun _ => ?_) a progress
    -- The other inputs start from the plan with the nodes of this one.
    let number := start.nextNumber + plan.length
    let self : Placed := ⟨⟨number⟩, some (.socket holder name), block⟩
    let first := self :: block.parts List.cons number
    let completed := Block.behind self (block.parts Block.behind number)
    have length : completed.length = first.length :=
      (Block.perm_behind (Block.perm_parts number block)).length_eq
    have still : ∃ e ∈ plan ++ first, e.id = holder :=
      offered.imp fun e held => ⟨List.mem_append_left _ held.1, held.2⟩
    have others := ensures_appendInputs wf (plan ++ first) (remembered labels completed) holder
      still rest
    rw [List.length_append, ← Nat.add_assoc] at others
    rw [remembered_append, ← List.append_assoc, length]
    exact others

/-- Building the block that follows builds the nodes of its layout. -/
theorem ensures_appendNext (wf : start.WellFormed) (plan : List Placed)
    (labels : OrderedMap String NodeId) (holder : NodeId) (offered : ∃ e ∈ plan, e.id = holder) :
    ∀ next : Option Block,
    (appendNext holder next).Ensures (Progress start plan labels)
      (fun _ => Progress start
        (plan ++ Block.partsOfNext List.cons holder (start.nextNumber + plan.length) next)
        (remembered labels
          (Block.partsOfNext Block.behind holder (start.nextNumber + plan.length) next)))
      (fun a => start.Preserves a.workspace)
  -- The follower is built like any other block and then plugged behind.
  | none => by
    rw [appendNext, Block.partsOfNext, Block.partsOfNext, List.append_nil]
    exact fun a progress => progress
  | some block => by
    rw [appendNext, Block.partsOfNext, Block.partsOfNext]
    refine (ensures_append wf plan labels block).bind fun child => ?_
    rintro a ⟨rfl, progress⟩
    exact ensures_plug wf offered a progress

end

end Assembly

/-- A name leads to the node of the last block with it that is completed, or else where it led
before. -/
theorem get?_remembered (labels : OrderedMap String NodeId) (completed : List Placed)
    (name : String) :
    (remembered labels completed).get? name =
      ((completed.reverse.find? (·.block.label = some name)).map (·.id)).or (labels.get? name) := by
  -- The node that is completed last has its name for sure.
  induction completed using List.reverseRecOn with
  | nil => rfl
  | append_singleton before e ih =>
    have last : remembered labels (before ++ [e]) = e.block.label.elim (remembered labels before)
        fun name => (remembered labels before).insert name e.id :=
      List.foldl_concat ..
    rw [last, List.reverse_append, List.reverse_singleton, List.singleton_append, List.find?_cons]
    cases named : e.block.label with
    | none => simpa using ih
    | some other =>
      rw [Option.elim_some, OrderedMap.get?_insert, ih]
      by_cases same : name = other
      · simp [same]
      · simp [same, Ne.symm same]

namespace Workspace

/-- Building a description in a well-formed graph leaves every node as it is, and where it is in the
order, also if it fails half-way. If it succeeds, the new nodes are those of the layout of the
description, numbered one after the other behind the nodes before. Each has the kind of its block,
the fields of the block beside the defaults, and the structural state that the block brings along;
each is in its place, and nothing else is in a socket of a new node or follows one. A name leads to
the last block with it that is completed. -/
theorem append_builds {ws : Workspace} (wf : ws.WellFormed) (labels : OrderedMap String NodeId)
    (block : Block) :
    let result := ws.append labels block
    let layout := block.layout ws.nextNumber
    ws.Preserves result.2.workspace ∧ ∀ root, result.1 = .ok root →
      root = ⟨ws.nextNumber⟩ ∧ ws.Erected layout result.2.workspace ∧
      (∀ e ∈ layout, Block.Complete layout e ∧ ∃ n, result.2.workspace.node? e.id = some n ∧
        n.Realizes e ∧
        (∀ name child, (∃ s ∈ n.sockets, s.name = name ∧ s.target = some child) ↔
          ∃ below ∈ layout, below.id = child ∧ below.place = some (.socket e.id name)) ∧
        ∀ child, n.next = some child ↔
          ∃ below ∈ layout, below.id = child ∧ below.place = some (.next e.id)) ∧
      (block.completion ws.nextNumber).Perm layout ∧
      ∀ name, result.2.labels.get? name = (((block.completion ws.nextNumber).reverse.find?
        (·.block.label = some name)).map (·.id)).or (labels.get? name) := by
  -- The run of the builder follows the layout; each clause is read off the graph that it leaves.
  intro result layout
  have runs := Assembly.ensures_append wf [] labels block ⟨ws, labels⟩ ⟨.refl wf, rfl⟩
  rw [show (Assembly.append block).on ⟨ws, labels⟩ = result from rfl] at runs
  clear_value result
  obtain ⟨outcome, after⟩ := result
  cases outcome with
  | error e => exact ⟨runs, fun root made => nomatch made⟩
  | ok root =>
    obtain ⟨rfl, erected, names⟩ := runs
    rw [List.nil_append] at erected
    refine ⟨erected.preserves wf, fun root made => ?_⟩
    cases made
    refine ⟨rfl, erected, fun e member => ?_, block.perm_completion _, fun name => ?_⟩
    · -- Whoever is in a place of the node is planned for it.
      obtain ⟨n, found, realizes⟩ := erected.new e member
      have follows : (Link.next e.id).holder = e.id := rfl
      refine ⟨block.complete_layout _ e member, n, found, realizes, fun name child => ?_,
        fun child => erected.occupant_iff wf member found follows⟩
      rw [← (erected.wellFormed.first found).occupant_socket_iff]
      exact erected.occupant_iff wf member found rfl
    · rw [names, get?_remembered]
      rfl

/-- A test and the statement that follows it are built behind a number, in the order of their
blocks; of the two blocks with one name the outer one is completed last. -/
theorem append_builds_test :
    let bare (kind : String) : Block := ⟨kind, none, ∅, none, [], none⟩
    let condition : Block :=
      ⟨"logic_boolean", some "a", .ofList [("BOOL", .string "FALSE")], none, [], none⟩
    let block : Block :=
      ⟨"controls_if", some "a", ∅, none, [("IF0", condition)], some (bare "lexical_variable_set")⟩
    let ws := ((Workspace.empty ∅).append ∅ (bare "math_number")).2.workspace
    let result := ws.append ∅ block
    result.1 = .ok ⟨2⟩ ∧ result.2.workspace.node? ⟨1⟩ = ws.node? ⟨1⟩ ∧
      result.2.workspace.nodes.keys = [⟨1⟩, ⟨2⟩, ⟨3⟩, ⟨4⟩] ∧
      (∃ n, result.2.workspace.node? ⟨3⟩ = some n ∧ n.parent = some (.socket ⟨2⟩ "IF0") ∧
        n.fields = .ofList [("BOOL", "FALSE")]) ∧
      result.2.labels.get? "a" = some ⟨2⟩ := by
  -- A condition and a follower, built beside a number, where two blocks claim one label.
  intro bare condition block ws result
  have built : Workspace.Built ∅ ws := Workspace.Built.empty.append ∅ _
  have made : result.1 = .ok ⟨2⟩ := by decide +kernel
  have next : ws.nextNumber = 2 := by decide +kernel
  have keys : ws.nodes.keys = [⟨1⟩] := by decide +kernel
  have builds := append_builds built.wellFormed ∅ block
  rw [show ws.append ∅ block = result from rfl] at builds
  clear_value result ws
  obtain ⟨_, erected, nodes, _, names⟩ := builds.2 _ made
  rw [next] at erected nodes names
  have listed : ⟨⟨3⟩, some (.socket ⟨2⟩ "IF0"), condition⟩ ∈ block.layout 2 :=
    List.mem_cons_of_mem _ List.mem_cons_self
  obtain ⟨_, n, found, realizes, _⟩ := nodes _ listed
  have last : ((block.completion 2).reverse.find? (·.block.label = some "a")).map (·.id) =
      some ⟨2⟩ := by decide +kernel
  have before : (⟨1⟩ : NodeId).number < ws.nextNumber := by rw [next]; decide
  refine ⟨made, erected.old before, ?_, ⟨n, found, realizes.parent, ?_⟩, ?_⟩
  · rw [erected.keys, keys]
    rfl
  · obtain ⟨kind, known, fields⟩ := realizes.fields
    rw [realizes.kind] at known
    cases known
    exact fields
  · rw [names "a", last, Option.some_or]

end Workspace

end QuickEntry
