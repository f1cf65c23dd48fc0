import Mathlib.Order.Bounds.Basic
import QuickEntry.Proofs.Attachment
import QuickEntry.Proofs.Reachable

/-! How far a search for a place goes: an expression gets the nearest level that has a place and may
be reached, and a longer reach changes no place that is found. -/

namespace QuickEntry

/-- A socket is free for an output: it is one for expressions, empty, and accepts the output. -/
def Socket.FreeFor (s : Socket) (output : TypeCheck) : Prop :=
  s.kind = .value ∧ s.target = none ∧ s.check.accepts output = true

namespace Node

variable {n : Node} {output : TypeCheck} {slot : Socket}

/-- A socket is the first one of a node that is free for an output. -/
def FirstFree (n : Node) (output : TypeCheck) (slot : Socket) : Prop :=
  slot.FreeFor output ∧
    ∃ before after, n.sockets = before ++ slot :: after ∧ ∀ s ∈ before, ¬s.FreeFor output

/-- The search for a free socket finds the first one, by its name. -/
theorem freeValueSocket?_eq_some_iff {name : String} :
    n.freeValueSocket? output = some name ↔ ∃ slot, n.FirstFree output slot ∧ slot.name = name := by
  -- The search takes the first socket that passes the test, and the test says what free for a check
  -- means.
  have suits : ∀ s : Socket,
      (s.kind = .value && s.target.isNone && s.check.accepts output) = true ↔ s.FreeFor output := by
    intro s
    simp only [Socket.FreeFor, Bool.and_eq_true, decide_eq_true_eq, Option.isNone_iff_eq_none,
      and_assoc]
  simp only [freeValueSocket?, Option.map_eq_some_iff, List.find?_eq_some_iff_append, suits,
    Bool.not_eq_true', ← Bool.not_eq_true, FirstFree]

/-- The search for a free socket succeeds exactly if there is one. -/
theorem isSome_freeValueSocket?_iff :
    (n.freeValueSocket? output).isSome = true ↔ ∃ s ∈ n.sockets, s.FreeFor output := by
  -- A search succeeds if anything passes.
  simp [freeValueSocket?, Socket.FreeFor, and_assoc]

end Node

/-- The first value of a sequence is the one of the least number that has a value. -/
theorem findSome?_range_eq_some_iff {α : Type} {f : Nat → Option α} {bound : Nat} {a : α} :
    (List.range bound).findSome? f = some a ↔
      ∃ k, IsLeast {k | k < bound ∧ (f k).isSome = true} k ∧ f k = some a := by
  -- By induction on the bound: the least number with a value is among the first ones or, if they
  -- have none, it is the last.
  induction bound with
  | zero => simp [IsLeast]
  | succ bound ih =>
    rw [List.range_succ, List.findSome?_append, Option.or_eq_some_iff, ih,
      List.findSome?_eq_none_iff, List.findSome?_singleton]
    constructor
    · rintro (⟨k, ⟨⟨below, given⟩, least⟩, hit⟩ | ⟨missed, hit⟩)
      · refine ⟨k, ⟨⟨Nat.lt_succ_of_lt below, given⟩, fun j ⟨within, given⟩ => ?_⟩, hit⟩
        rcases Nat.lt_succ_iff_lt_or_eq.mp within with before | rfl
        · exact least ⟨before, given⟩
        · exact Nat.le_of_lt below
      · -- Only the last number has a value.
        refine ⟨bound, ⟨⟨Nat.lt_succ_self bound, by simp [hit]⟩, fun j ⟨_, given⟩ => ?_⟩, hit⟩
        refine Nat.le_of_not_lt fun before => ?_
        simp [missed j (List.mem_range.mpr before)] at given
    · rintro ⟨k, ⟨⟨within, given⟩, least⟩, hit⟩
      rcases Nat.lt_succ_iff_lt_or_eq.mp within with below | rfl
      · exact .inl ⟨k, ⟨⟨below, given⟩, fun j ⟨before, given⟩ =>
          least ⟨Nat.lt_succ_of_lt before, given⟩⟩, hit⟩
      · refine .inr ⟨fun j before => Option.not_isSome_iff_eq_none.mp fun given => ?_, hit⟩
        have before := List.mem_range.mp before
        exact Nat.not_lt.mpr (least ⟨Nat.lt_succ_of_lt before, given⟩) before

namespace Workspace

variable {ws : Workspace} {reach : Reach} {output : TypeCheck} {n : Node}

/-- The node so many levels above a node, if a search may go so far. -/
def reached? (ws : Workspace) (reach : Reach) (n : Node) : Nat → Option Node
  | 0 => some n
  | level + 1 => (ws.reached? reach n level).bind (ws.holderInReach? reach)

/-- The place that a search finds so many levels above a node. -/
def placeAt? (ws : Workspace) (reach : Reach) (output : TypeCheck) (n : Node) (level : Nat) :
    Option Link :=
  (ws.reached? reach n level).bind fun holder =>
    (holder.freeValueSocket? output).map (.socket holder.id)

/-- From the level above a node, all levels are one nearer. -/
theorem reached?_succ (level : Nat) :
    ws.reached? reach n (level + 1) =
      (ws.holderInReach? reach n).bind (ws.reached? reach · level) := by
  -- By induction on the level: a climb can be split behind its first step as well as before its
  -- last.
  induction level with
  | zero => simp [reached?]
  | succ level ih =>
    rw [reached?, ih, Option.bind_assoc]
    rfl

/-- The search above a node goes through the levels one by one. -/
theorem socketAbove?_eq (levels : Nat) :
    ∀ n, ws.socketAbove? reach output levels n =
      (List.range levels).findSome? fun level => ws.placeAt? reach output n (level + 1) := by
  -- What is above the holder is one level farther from the node.
  induction levels with
  | zero => exact fun n => rfl
  | succ levels ih =>
    intro n
    have onward : ∀ level, ws.placeAt? reach output n (level + 1) =
        (ws.holderInReach? reach n).bind (ws.placeAt? reach output · level) := by
      intro level
      rw [placeAt?, reached?_succ, Option.bind_assoc]
      rfl
    rw [socketAbove?, List.range_succ_eq_map, List.findSome?_cons, List.findSome?_map]
    simp only [Function.comp_def, onward]
    cases ws.holderInReach? reach n with
    | none => exact (List.findSome?_eq_none_iff.mpr fun _ _ => rfl).symm
    | some holder =>
      simp only [Option.bind_some, ih, placeAt?, reached?]
      cases holder.freeValueSocket? output <;> rfl

/-- The search for a place for an expression goes through the levels from the selected node on. -/
theorem placeForValue?_eq (ws : Workspace) (reach : Reach) (output : TypeCheck) (n : Node) :
    ws.placeForValue? reach output n =
      (List.range (min reach.levels reach.maxClimb + 1)).findSome? fun level =>
        (ws.placeAt? reach output n level).map fun place =>
          ⟨place, if level = 0 then .valueSocket else .inwardReattach⟩ := by
  -- The node itself is level zero of the climb.
  rw [placeForValue?, List.range_succ_eq_map, List.findSome?_cons, List.findSome?_map]
  have here : ws.placeAt? reach output n 0 =
      (n.freeValueSocket? output).map (.socket n.id) := rfl
  rw [here, socketAbove?_eq, List.map_findSome?]
  cases n.freeValueSocket? output <;> rfl

/-- The node in a socket of which a node sits; a node that follows another one sits in none. -/
def socketHolder? (ws : Workspace) (n : Node) : Option Node :=
  match n.parent with
  | some (.socket parent _) => ws.node? parent
  | _ => none

/-- The node so many sockets outside of a node: the node itself, the one in a socket of which it
sits, and so on. -/
def outward? (ws : Workspace) (n : Node) : Nat → Option Node
  | 0 => some n
  | level + 1 => (ws.outward? n level).bind ws.socketHolder?

end Workspace

/-- A reach permits the step from a node to the one that holds it in a socket: the outer node is an
expression, or any block may be entered, and the socket is one for expressions, or may be one for
statements. -/
def Reach.Permits (reach : Reach) (inner outer : Node) : Prop :=
  (outer.isValue = true ∨ reach.intoStatements = true) ∧
    ∃ s ∈ outer.sockets, s.target = some inner.id ∧
      (s.kind = .value ∨ reach.throughStatementSockets = true)

/-- A reach is within another one if it allows nothing that the other one forbids. -/
structure Reach.Within (a b : Reach) : Prop where
  levels : a.levels ≤ b.levels
  maxClimb : a.maxClimb ≤ b.maxClimb
  throughStatementSockets : a.throughStatementSockets = true → b.throughStatementSockets = true
  intoStatements : a.intoStatements = true → b.intoStatements = true

namespace Workspace

variable {ws : Workspace} {reach : Reach} {output : TypeCheck} {n : Node}

/-- So many levels above a node there is a place for an output in reach: the level is not too far
up, its node has a free socket, and every step up to it is permitted. -/
structure Offers (ws : Workspace) (reach : Reach) (output : TypeCheck) (n : Node) (level : Nat) :
    Prop where
  near : level ≤ min reach.levels reach.maxClimb
  free : ∃ holder, ws.outward? n level = some holder ∧ ∃ s ∈ holder.sockets, s.FreeFor output
  permitted : ∀ k < level, ∀ inner outer, ws.outward? n k = some inner →
    ws.outward? n (k + 1) = some outer → reach.Permits inner outer

/-- A socket that holds a node is the one that the node names. -/
theorem Linked.socket?_of_target (linked : ws.Linked) {parent child : NodeId} {holder : Node}
    (offered : ws.node? parent = some holder) {s : Socket} (member : s ∈ holder.sockets)
    (held : s.target = some child) :
    holder.socket? s.name = some s ∧ ws.placeOf? child = some (.socket parent s.name) := by
  -- The child names one socket as its place, and no other of its holder has that name.
  obtain ⟨n, found, placed⟩ :=
    (linked.socket_iff parent s.name child).mp ⟨holder, offered, s, member, rfl, held⟩
  exact ⟨(linked.first offered).find?_of_target member held _ (by simp) fun t suits => by
    simpa using suits, (placeOf?_of_node? found).trans placed⟩

/-- A search goes on from a node to the one in a socket of which it sits, if the reach permits
this. -/
theorem Linked.holderInReach?_eq_some_iff (linked : ws.Linked) (found : ws.node? n.id = some n)
    {outer : Node} :
    ws.holderInReach? reach n = some outer ↔
      ws.socketHolder? n = some outer ∧ reach.Permits n outer := by
  -- Only a socket leads further out, and the links say which socket of the holder it is.
  unfold holderInReach? socketHolder?
  cases placed : n.parent with
  | none => simp
  | some place =>
    cases place with
    | next previous => simp
    | socket parent name =>
      obtain ⟨holder, offered, occupied⟩ := linked.parent_occupant found placed
      obtain ⟨slot, search, held⟩ := Option.bind_eq_some_iff.mp occupied
      -- No other socket holds the node.
      have only : ∀ s ∈ holder.sockets, s.target = some n.id → s = slot := by
        intro s member target
        obtain ⟨search', named⟩ := linked.socket?_of_target offered member target
        rw [placeOf?_of_node? found, placed] at named
        cases named
        exact Option.some.inj (search'.symm.trans search)
      -- What the reach asks of some socket is asked of this one.
      have permits : reach.Permits n holder ↔ (holder.isValue = true ∨ reach.intoStatements = true) ∧
          (slot.kind = .value ∨ reach.throughStatementSockets = true) := by
        refine and_congr_right fun _ => ⟨?_, fun open' => ?_⟩
        · rintro ⟨s, member, target, open'⟩
          exact only s member target ▸ open'
        · exact ⟨slot, List.mem_of_find?_eq_some search, held, open'⟩
      have offered : ws.node? parent = some holder := offered
      simp only [offered, search, Option.bind_eq_bind, Option.bind_some, Option.some.injEq]
      constructor
      · intro reached
        split at reached
        · rename_i allowed
          cases reached
          exact ⟨rfl, permits.mpr (by simpa using allowed)⟩
        · cases reached
      · rintro ⟨rfl, permitted⟩
        rw [if_pos (by simpa using permits.mp permitted)]

/-- The nodes outside of a node that is there are there. -/
theorem Linked.node?_outward (linked : ws.Linked) (found : ws.node? n.id = some n) {level : Nat} :
    ∀ {outer}, ws.outward? n level = some outer → ws.node? outer.id = some outer := by
  -- By induction on the level; a socket leads to a node that is there.
  induction level with
  | zero => exact fun same => Option.some.inj same ▸ found
  | succ level ih =>
    intro outer out
    obtain ⟨inner, _, step⟩ := Option.bind_eq_some_iff.mp out
    unfold socketHolder? at step
    split at step
    · exact linked.own step ▸ step
    · cases step

/-- A search goes so many levels up if there are so many, and each step is permitted. -/
theorem Linked.reached?_eq_some_iff (linked : ws.Linked) (found : ws.node? n.id = some n)
    {level : Nat} {outer : Node} :
    ws.reached? reach n level = some outer ↔ ws.outward? n level = some outer ∧
      ∀ k < level, ∀ inner outer, ws.outward? n k = some inner →
        ws.outward? n (k + 1) = some outer → reach.Permits inner outer := by
  -- Each level adds the step that is the farthest out.
  induction level generalizing outer with
  | zero => simp [reached?, outward?]
  | succ level ih =>
    have step : ∀ {inner}, ws.outward? n level = some inner →
        (ws.holderInReach? reach inner = some outer ↔
          ws.socketHolder? inner = some outer ∧ reach.Permits inner outer) :=
      fun out => linked.holderInReach?_eq_some_iff (linked.node?_outward found out)
    simp only [reached?, outward?, Option.bind_eq_some_iff, ih]
    constructor
    · rintro ⟨inner, ⟨out, below⟩, reached⟩
      obtain ⟨held, permitted⟩ := (step out).mp reached
      refine ⟨⟨inner, out, held⟩, fun k within inner' outer' out' held' => ?_⟩
      -- A step is one of the earlier ones or the last.
      rcases Nat.lt_succ_iff_lt_or_eq.mp within with earlier | rfl
      · exact below k earlier inner' outer' out' held'
      · cases out.symm.trans out'
        obtain ⟨_, out', held'⟩ := held'
        cases out.symm.trans out'
        cases held.symm.trans held'
        exact permitted
    · rintro ⟨⟨inner, out, held⟩, permitted⟩
      refine ⟨inner, ⟨out, fun k within => permitted k (Nat.lt_succ_of_lt within)⟩,
        (step out).mpr ⟨held, ?_⟩⟩
      exact permitted level (Nat.lt_succ_self level) inner outer out ⟨inner, out, held⟩

/-- A search finds a place at the levels that offer one. -/
theorem Linked.offers_iff (linked : ws.Linked) (found : ws.node? n.id = some n) {level : Nat} :
    ws.Offers reach output n level ↔ level < min reach.levels reach.maxClimb + 1 ∧
      (ws.placeAt? reach output n level).isSome = true := by
  -- A level is searched if it is near enough and every step up to it is permitted.
  rw [Nat.lt_succ_iff, placeAt?, Option.isSome_bind, Option.any_eq_true]
  simp only [Option.isSome_map, Node.isSome_freeValueSocket?_iff,
    linked.reached?_eq_some_iff found]
  constructor
  · rintro ⟨near, ⟨holder, out, free⟩, permitted⟩
    exact ⟨near, holder, ⟨out, permitted⟩, free⟩
  · rintro ⟨near, holder, ⟨out, permitted⟩, free⟩
    exact ⟨near, ⟨holder, out, free⟩, permitted⟩

/-- At a level that offers one, a search finds the first free socket of the node. -/
theorem Linked.placeAt?_eq_some_iff (linked : ws.Linked) (found : ws.node? n.id = some n)
    {level : Nat} (offers : ws.Offers reach output n level) {place : Link} :
    ws.placeAt? reach output n level = some place ↔ ∃ holder slot,
      ws.outward? n level = some holder ∧ holder.FirstFree output slot ∧
      place = .socket holder.id slot.name := by
  -- Both sides name the same holder and its first free socket; the reach has been settled by the
  -- offer.
  simp only [placeAt?, Option.bind_eq_some_iff, Option.map_eq_some_iff,
    linked.reached?_eq_some_iff found, Node.freeValueSocket?_eq_some_iff]
  constructor
  · rintro ⟨holder, ⟨out, _⟩, _, ⟨slot, free, rfl⟩, rfl⟩
    exact ⟨holder, slot, out, free, rfl⟩
  · rintro ⟨holder, slot, out, free, rfl⟩
    exact ⟨holder, ⟨out, offers.permitted⟩, slot.name, ⟨slot, free, rfl⟩, rfl⟩

/-- In a well-formed graph a new expression gets the first free socket of the nearest node, from the
selected one outwards through the sockets in which it sits, that has one and is in reach; it gets no
place exactly if there is no such node. -/
theorem nearest_place {new : NodeId} {m : Node} (wf : ws.WellFormed)
    (found : ws.node? new = some m) (given : m.output = some output)
    (selected : ws.node? n.id = some n) (other : n.id ≠ new) (reach : Reach) :
    (∀ a, ws.placeFor? new (some n.id) reach = some a ↔ ∃ level holder slot,
      IsLeast {k | ws.Offers reach output n k} level ∧ ws.outward? n level = some holder ∧
      holder.FirstFree output slot ∧
      a = ⟨.socket holder.id slot.name, if level = 0 then .valueSocket else .inwardReattach⟩) ∧
    (ws.placeFor? new (some n.id) reach = none ↔ ∀ level, ¬ws.Offers reach output n level) := by
  -- The new node has an output, so the search is for a value socket, level by level.
  have linked := wf.toLinked
  have search : ws.placeFor? new (some n.id) reach = ws.placeForValue? reach output n := by
    simp [placeFor?, found, selected, given, other]
  rw [search, placeForValue?_eq]
  constructor
  · intro a
    simp only [findSome?_range_eq_some_iff, Option.isSome_map, ← linked.offers_iff selected,
      Option.map_eq_some_iff]
    refine exists_congr fun level => ?_
    constructor
    · rintro ⟨least, place, hit, rfl⟩
      obtain ⟨holder, slot, out, free, rfl⟩ :=
        (linked.placeAt?_eq_some_iff selected least.1).mp hit
      exact ⟨holder, slot, least, out, free, rfl⟩
    · rintro ⟨holder, slot, least, out, free, rfl⟩
      exact ⟨least, _, (linked.placeAt?_eq_some_iff selected least.1).mpr
        ⟨holder, slot, out, free, rfl⟩, rfl⟩
  · -- The search fails if it finds nothing on every level.
    simp only [List.findSome?_eq_none_iff, List.mem_range, Option.map_eq_none_iff,
      linked.offers_iff selected, not_and, Option.not_isSome_iff_eq_none]

/-- Seen from a number inside a function inside a sum, a new number goes into the sum if the reach is
two levels, and nowhere if it is one. -/
theorem nearest_place_outer :
    let block (kind : String) (inputs : List (String × Block)) : Block :=
      ⟨kind, none, ∅, none, inputs, none⟩
    let number := block "math_number" []
    let sum := block "math_add" [("NUM0", block "math_single" [("NUM", number)])]
    let first := ((Workspace.empty ∅).append ∅ sum).2.workspace
    let ws := (first.append ∅ number).2.workspace
    ∃ n, ws.node? ⟨3⟩ = some n ∧
      (∃ level holder slot, IsLeast {k | ws.Offers { levels := 2 } BlockKind.numberCheck n k} level ∧
        level ≠ 0 ∧ ws.outward? n level = some holder ∧ holder.id = ⟨1⟩ ∧
        holder.FirstFree BlockKind.numberCheck slot ∧ slot.name = "NUM1") ∧
      ∀ level, ¬ws.Offers {} BlockKind.numberCheck n level := by
  -- A sum holds a function of a number. From that number the free socket of the sum is two levels
  -- up, too far for the default reach.
  intro block number sum first ws
  have wf : ws.WellFormed := ((Workspace.Built.empty.append ∅ _).append ∅ _).wellFormed
  have there : (ws.node? ⟨3⟩).isSome = true := by decide +kernel
  obtain ⟨n, selected⟩ := Option.isSome_iff_exists.mp there
  have own : n.id = ⟨3⟩ := wf.own selected
  obtain ⟨m, found, given⟩ := Option.bind_eq_some_iff.mp
    (show (ws.node? ⟨4⟩).bind (·.output) = some BlockKind.numberCheck by decide +kernel)
  rw [← own] at selected
  have apart : n.id ≠ ⟨4⟩ := by simp [own]
  have far := (nearest_place wf found given selected apart { levels := 2 }).1
    ⟨.socket ⟨1⟩ "NUM1", .inwardReattach⟩
  have near := (nearest_place wf found given selected apart {}).2
  rw [own] at far near selected
  obtain ⟨level, holder, slot, least, out, free, same⟩ := far.mp (by decide +kernel)
  simp only [Attachment.mk.injEq, Link.socket.injEq] at same
  obtain ⟨⟨first, name⟩, rule⟩ := same
  refine ⟨n, selected, ⟨level, holder, slot, least, ?_, out, first.symm, free, name.symm⟩,
    near.mp (by decide +kernel)⟩
  rintro rfl
  simp at rule

section Within

variable {a b : Reach}

/-- A step that a search may take it may take with a longer reach. -/
theorem holderInReach?_within (within : a.Within b) {outer : Node}
    (reached : ws.holderInReach? a n = some outer) : ws.holderInReach? b n = some outer := by
  unfold holderInReach? at reached ⊢
  split at reached
  · obtain ⟨holder, there, reached⟩ := Option.bind_eq_some_iff.mp reached
    obtain ⟨slot, search, reached⟩ := Option.bind_eq_some_iff.mp reached
    split at reached
    · rename_i allowed
      -- Both conditions allow more with the longer reach.
      have allowed' : ((holder.isValue || b.intoStatements) &&
          (slot.kind = .value || b.throughStatementSockets)) = true := by
        simp only [Bool.and_eq_true, Bool.or_eq_true] at allowed ⊢
        exact ⟨allowed.1.imp_right within.intoStatements,
          allowed.2.imp_right within.throughStatementSockets⟩
      simp only [Option.bind_eq_bind, there, search, Option.bind_some, allowed', if_true]
      exact reached
    · cases reached
  · cases reached

/-- A level that a search may reach it may reach with a longer reach. -/
theorem reached?_within (within : a.Within b) {level : Nat} {outer : Node}
    (reached : ws.reached? a n level = some outer) : ws.reached? b n level = some outer := by
  -- By induction on the level; each step is permitted by the longer reach too.
  induction level generalizing outer with
  | zero => exact reached
  | succ level ih =>
    obtain ⟨inner, below, step⟩ := Option.bind_eq_some_iff.mp reached
    exact Option.bind_eq_some_iff.mpr ⟨inner, ih below, holderInReach?_within within step⟩

/-- Below a level that a search may reach it may reach every level. -/
theorem exists_reached? {level lower : Nat} {outer : Node}
    (reached : ws.reached? a n level = some outer) (below : lower ≤ level) :
    ∃ inner, ws.reached? a n lower = some inner := by
  -- A climb passes through every level below its last.
  induction below generalizing outer with
  | refl => exact ⟨outer, reached⟩
  | step _ ih =>
    obtain ⟨inner, below, _⟩ := Option.bind_eq_some_iff.mp reached
    exact ih below

/-- A place for an expression is found with a longer reach as well. -/
theorem placeForValue?_within (within : a.Within b) {found : Attachment}
    (search : ws.placeForValue? a output n = some found) :
    ws.placeForValue? b output n = some found := by
  -- The level found is in reach still, and no nearer one is gained: up to it both climbs see the
  -- same nodes.
  rw [placeForValue?_eq, findSome?_range_eq_some_iff] at search ⊢
  simp only [Option.isSome_map, Option.map_eq_some_iff] at search ⊢
  obtain ⟨level, ⟨⟨near, _⟩, least⟩, place, hit, same⟩ := search
  obtain ⟨holder, reached, free⟩ := Option.bind_eq_some_iff.mp hit
  have hit' : ws.placeAt? b output n level = some place :=
    Option.bind_eq_some_iff.mpr ⟨holder, reached?_within within reached, free⟩
  refine ⟨level, ⟨⟨?_, by rw [hit']; rfl⟩, fun lower ⟨_, given⟩ => ?_⟩, place, hit', same⟩
  · have levels := within.levels
    have maxClimb := within.maxClimb
    omega
  · -- What is nearer is seen with both reaches.
    refine Nat.le_of_not_lt fun nearer => ?_
    obtain ⟨inner, seen⟩ := exists_reached? reached (Nat.le_of_lt nearer)
    have alike : ws.placeAt? a output n lower = ws.placeAt? b output n lower := by
      rw [placeAt?, placeAt?, seen, reached?_within within seen]
    exact Nat.not_lt.mpr (least ⟨Nat.lt_trans nearer near, alike ▸ given⟩) nearer

/-- The enclosing statement is found with more levels as well. -/
theorem enclosingStatement?_of_le {levels more : Nat} (fewer : levels ≤ more) {id top : NodeId}
    (search : ws.enclosingStatement? levels id = some top) :
    ws.enclosingStatement? more id = some top := by
  -- Both searches go up by the same steps.
  induction more generalizing levels id with
  | zero =>
    cases fewer
    exact search
  | succ more ih =>
    obtain ⟨n, found, here | ⟨value, rest, place, rfl, placed, search⟩⟩ :=
      enclosingStatement?_eq_some_iff.mp search
    · exact enclosingStatement?_eq_some_iff.mpr ⟨n, found, .inl here⟩
    · exact enclosingStatement?_eq_some_iff.mpr ⟨n, found, .inr ⟨value, more, place, rfl, placed,
        ih (Nat.le_of_succ_le_succ fewer) search⟩⟩

/-- A place for a statement is found with a longer reach as well. -/
theorem placeForStatement?_within (within : a.Within b) {found : Attachment}
    (search : ws.placeForStatement? a n = some found) :
    ws.placeForStatement? b n = some found := by
  revert search
  unfold placeForStatement?
  -- Only the search for the enclosing statement has a reach.
  cases n.freeStatementSocket? with
  | some name => exact id
  | none =>
    simp only
    split
    · exact id
    · split
      · intro search
        obtain ⟨top, enclosing, search⟩ := Option.bind_eq_some_iff.mp search
        exact Option.bind_eq_some_iff.mpr
          ⟨top, enclosingStatement?_of_le within.maxClimb enclosing, search⟩
      · exact id

/-- A place that is found for a new node, an expression or a statement, is found with every longer
reach, and for the same reason. -/
theorem placeFor?_within (within : a.Within b) (ws : Workspace) (new : NodeId)
    (selected : Option NodeId) (found : Attachment)
    (search : ws.placeFor? new selected a = some found) :
    ws.placeFor? new selected b = some found := by
  -- Whether a value or a statement is placed depends on the new node only.
  simp only [placeFor?, Option.bind_eq_bind, Option.bind_eq_some_iff] at search ⊢
  obtain ⟨n, there, id, chosen, s, known, search⟩ := search
  refine ⟨n, there, id, chosen, s, known, ?_⟩
  revert search
  split
  · exact fun search => search
  · cases n.output with
    | some output => exact placeForValue?_within within
    | none =>
      simp only
      split
      · exact placeForStatement?_within within
      · exact fun search => search

/-- Seen from an expression inside another one inside a conditional, a new statement goes after the
conditional if the search may climb two levels, and it still does so when it may go anywhere. -/
theorem placeFor?_within_enclosing :
    let block (kind : String) (inputs : List (String × Block)) : Block :=
      ⟨kind, none, ∅, none, inputs, none⟩
    let test := block "logic_negate" [("BOOL", block "logic_boolean" [])]
    let first := ((Workspace.empty ∅).append ∅ (block "controls_if" [("IF0", test)])).2.workspace
    let ws := (first.append ∅ (block "controls_while" [])).2.workspace
    let short : Reach := { maxClimb := 2 }
    let long : Reach := ⟨64, true, true, 64⟩
    short.Within long ∧
      ws.placeFor? ⟨4⟩ (some ⟨3⟩) short = some ⟨.next ⟨1⟩, .afterEnclosing⟩ ∧
      ws.placeFor? ⟨4⟩ (some ⟨3⟩) long = some ⟨.next ⟨1⟩, .afterEnclosing⟩ := by
  -- A loop is to go behind the statement that encloses the selected value, two levels up.
  intro block test first ws short long
  have within : short.Within long := ⟨by decide, by decide, by decide, by decide⟩
  have search : ws.placeFor? ⟨4⟩ (some ⟨3⟩) short = some ⟨.next ⟨1⟩, .afterEnclosing⟩ := by
    decide +kernel
  exact ⟨within, search, placeFor?_within within ws _ _ _ search⟩

end Within

end Workspace

end QuickEntry
