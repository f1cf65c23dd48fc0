import QuickEntry.Proofs.Graph.Change

/-! The procedures that a graph declares, and how many arguments calls find there. -/

namespace QuickEntry

/-- The procedure that a node declares: its name, which may be missing, and its arguments. -/
def Node.declaration? (n : Node) : Option (Option String × List String) :=
  -- Other nodes may have a field of the same name.
  if BlockKind.procedureDefinitions.contains n.kind then some (n.field? "NAME", n.mutation.args)
  else none

/-- A node that asks a procedure for its arguments declares none. -/
theorem Node.declaration?_of_calls? {n : Node} {name : String} (calls : n.calls? = some name) :
    n.declaration? = none := by
  -- A call is of another kind than a definition.
  obtain ⟨kind, known, asks⟩ := Option.bind_eq_some_iff.mp calls
  have named : kind.name = n.kind := by
    have found := List.find?_some known
    simpa using found
  rw [declaration?, ← named]
  cases kind <;> first | rfl | cases asks

namespace Workspace

variable {ws ws' : Workspace}

/-- The declared procedures, in the order of the nodes. -/
def declared (ws : Workspace) : List (Option String × List String) :=
  ws.nodes.values.filterMap Node.declaration?

/-- The declared procedures are found under the numbers in their order. -/
theorem declared_eq (ws : Workspace) :
    ws.declared = ws.nodes.keys.filterMap fun id => (ws.node? id).bind Node.declaration? := by
  -- Each number leads to its node, and the node to what it declares.
  rw [declared, OrderedMap.values_eq_filterMap, List.filterMap_filterMap]
  rfl

/-- A procedure is declared exactly if a node declares it. -/
theorem mem_declared_iff {d : Option String × List String} :
    d ∈ ws.declared ↔ ∃ id, (ws.node? id).bind Node.declaration? = some d := by
  -- The nodes are what the numbers lead to.
  simp only [declared, List.mem_filterMap, OrderedMap.mem_values_iff, Option.bind_eq_some_iff]
  constructor
  · rintro ⟨n, ⟨id, found⟩, declares⟩
    exact ⟨id, n, found, declares⟩
  · rintro ⟨id, n, found, declares⟩
    exact ⟨n, ⟨id, found⟩, declares⟩

/-- A call finds the first declared procedure of its name. -/
theorem procedureArguments_eq (ws : Workspace) (name : String) :
    ws.surroundings.procedureArguments name =
      (ws.declared.find? fun d => d.1 = some name).map (·.2) := by
  -- The search among the nodes is the search among what they declare.
  simp only [surroundings, procedure?, declared]
  induction ws.nodes.values with
  | nil => rfl
  | cons n rest ih =>
    by_cases defines : BlockKind.procedureDefinitions.contains n.kind = true
    · have declares : n.declaration? = some (n.field? "NAME", n.mutation.args) := if_pos defines
      rw [List.filterMap_cons_some declares, List.find?_cons, List.find?_cons, defines,
        Bool.true_and]
      by_cases named : n.field? "NAME" = some name
      · simp [named]
      · simpa [named] using ih
    · have declares : n.declaration? = none := if_neg defines
      have other : BlockKind.procedureDefinitions.contains n.kind = false := by simpa using defines
      rw [List.filterMap_cons_none declares, List.find?_cons, other, Bool.false_and]
      exact ih

/-- The number of arguments that a call finds is that of the first declared procedure. -/
theorem arity_eq (ws : Workspace) (name : String) :
    ws.arity name =
      ((ws.declared.find? fun d => d.1 = some name).map (·.2.length)).getD 0 := by
  -- An undeclared procedure has no arguments.
  rw [arity, Surroundings.arity, procedureArguments_eq]
  cases ws.declared.find? fun d => d.1 = some name <;> rfl

/-- Graphs declare the same procedures if their nodes do so in the same order. -/
theorem declared_congr (keys : ws.nodes.keys = ws'.nodes.keys)
    (same : ∀ id, (ws.node? id).bind Node.declaration? = (ws'.node? id).bind Node.declaration?) :
    ws.declared = ws'.declared := by
  -- Each number leads to the same declaration.
  rw [declared_eq, declared_eq, keys]
  exact List.filterMap_congr fun id _ => same id

/-- A new node that declares nothing changes nothing about the declared procedures. -/
theorem declared_added {n : Node} (absent : ws.node? n.id = none)
    (silent : n.declaration? = none) : (ws.added n).declared = ws.declared := by
  -- The node comes last.
  have keys : (ws.added n).nodes.keys = ws.nodes.keys ++ [n.id] := by
    rw [added, OrderedMap.keys_insert, OrderedMap.contains_eq_false_iff.mpr absent]
    simp
  rw [declared_eq, declared_eq, keys, List.filterMap_append]
  have last : [n.id].filterMap (fun id => ((ws.added n).node? id).bind Node.declaration?) = [] := by
    rw [List.filterMap_cons_none]
    · rfl
    · rw [node?_added, if_pos rfl, Option.bind_some, silent]
  rw [last, List.append_nil]
  refine List.filterMap_congr fun id member => ?_
  have apart : id ≠ n.id := by
    rintro rfl
    exact OrderedMap.not_mem_keys absent member
  rw [node?_added, if_neg apart]

/-- A node that is replaced by one that declares the same changes nothing about the declared
procedures. -/
theorem declared_replaced {id : NodeId} {n m : Node} (found : ws.node? id = some n)
    (same : m.declaration? = n.declaration?) : (ws.replaced id m).declared = ws.declared := by
  -- The node keeps its place in the order.
  refine declared_congr (by simp [replaced, modify]) fun other => ?_
  rw [node?_replaced found]
  split
  · rename_i here
    rw [here, found, Option.bind_some, Option.bind_some, same]
  · rfl

/-- All procedures that are declared under a name have equally many arguments. -/
def AgreeOn (ws : Workspace) (name : String) : Prop :=
  ∀ a ∈ ws.declared, ∀ b ∈ ws.declared, a.1 = some name → b.1 = some name →
    a.2.length = b.2.length

/-- The only declaration of a graph agrees with itself. -/
theorem agreeOn_of_single {d : Option String × List String} (single : ws.declared = [d])
    (name : String) : ws.AgreeOn name := by
  -- Both declarations are the one that there is.
  intro a inside b inside' _ _
  rw [single] at inside inside'
  rw [List.mem_singleton.mp inside, List.mem_singleton.mp inside']

/-- If all declarations agree, the order of the nodes does not matter to a call. -/
theorem AgreeOn.arity_eq {name : String} (agree : ws.AgreeOn name)
    (members : ∀ d, d ∈ ws'.declared ↔ d ∈ ws.declared) : ws'.arity name = ws.arity name := by
  -- Both graphs have a declaration of the name, or neither has.
  rw [Workspace.arity_eq, Workspace.arity_eq]
  cases first : ws.declared.find? fun d => d.1 = some name with
  | none =>
    have missing : ws'.declared.find? (fun d => d.1 = some name) = none := by
      rw [List.find?_eq_none] at first ⊢
      exact fun d member => first d ((members d).mp member)
    rw [missing]
  | some d =>
    cases second : ws'.declared.find? fun d => d.1 = some name with
    | none =>
      rw [List.find?_eq_none] at second
      have missed := second d ((members d).mpr (List.mem_of_find?_eq_some first))
      exact absurd (List.find?_some first) missed
    | some e =>
      have equal := agree d (List.mem_of_find?_eq_some first) e
        ((members e).mp (List.mem_of_find?_eq_some second))
        (by simpa using List.find?_some first) (by simpa using List.find?_some second)
      rw [Option.map_some, Option.map_some, Option.getD_some, Option.getD_some, equal]

/-- Graphs that declare the same procedures agree on the same names. -/
theorem AgreeOn.congr {name : String} (agree : ws.AgreeOn name)
    (members : ∀ d, d ∈ ws'.declared ↔ d ∈ ws.declared) : ws'.AgreeOn name :=
  -- Only the set of definitions counts.
  fun a inside b inside' => agree a ((members a).mp inside) b ((members b).mp inside')

end Workspace

end QuickEntry
