import QuickEntry.Catalog
import QuickEntry.Proofs.Declarations
import QuickEntry.Proofs.Edit.Alike
import QuickEntry.Proofs.Graph.Shape
import QuickEntry.Proofs.Scope

/-! The listed declarations depend on the nodes and components that there are, but not on the order
in which they come, and every list of names ascends. -/

namespace QuickEntry

/-- Sorting gives one list for all orders of the same things if no two of them are tied. -/
theorem mergeSort_congr {α : Type} {le : α → α → Bool}
    (trans : ∀ a b c, le a b = true → le b c = true → le a c = true)
    (total : ∀ a b, (le a b || le b a) = true)
    (antisymm : ∀ a b, le a b = true → le b a = true → a = b) {xs ys : List α}
    (perm : xs.Perm ys) : xs.mergeSort le = ys.mergeSort le :=
  -- Both lists are sorted and a permutation of each other, and the order leaves no choice.
  List.Perm.eq_of_pairwise (fun a b _ _ => antisymm a b) (List.pairwise_mergeSort trans total xs)
    (List.pairwise_mergeSort trans total ys)
    (((List.mergeSort_perm xs le).trans perm).trans (List.mergeSort_perm ys le).symm)

section Texts

/-- The order of texts is transitive. -/
theorem text_le_trans (a b c : String) :
    decide (a ≤ b) = true → decide (b ≤ c) = true → decide (a ≤ c) = true := by
  -- The order of texts is decided.
  simpa using String.le_trans

/-- Of two texts one comes no later than the other. -/
theorem text_le_total (a b : String) : (decide (a ≤ b) || decide (b ≤ a)) = true := by
  -- The order of texts is decided.
  simpa using String.le_total a b

/-- Sorted texts do not depend on the order in which they are given. -/
theorem sortedTexts_congr {texts texts' : List String} (perm : texts.Perm texts') :
    sortedTexts texts = sortedTexts texts' := by
  -- Repetitions are dropped from the same sorted list.
  refine congrArg List.eraseReps (mergeSort_congr text_le_trans text_le_total ?_ perm)
  intro a b
  simpa using String.le_antisymm

/-- Sorted texts ascend strictly. -/
theorem pairwise_sortedTexts (texts : List String) :
    (sortedTexts texts).Pairwise fun a b => a < b := by
  -- Equal neighbours are dropped, so the order that is left is strict.
  have up := List.pairwise_mergeSort text_le_trans text_le_total texts
  simp only [decide_eq_true_eq] at up
  exact pairwise_eraseRepsBy id up

end Texts

/-- Sorted pairs of texts do not depend on the order in which they are given. -/
theorem mergeSort_pairs_congr {pairs pairs' : List (String × String)} (perm : pairs.Perm pairs') :
    (pairs.mergeSort fun a b => a.1 < b.1 || a.1 = b.1 && a.2 ≤ b.2) =
      pairs'.mergeSort fun a b => a.1 < b.1 || a.1 = b.1 && a.2 ≤ b.2 := by
  -- Pairs are ordered by their first text, then by their second, which is a linear order.
  refine mergeSort_congr ?_ ?_ ?_ perm
  · simp only [Bool.or_eq_true, Bool.and_eq_true, decide_eq_true_eq]
    grind
  · simp only [Bool.or_eq_true, Bool.and_eq_true, decide_eq_true_eq]
    grind
  · simp only [Bool.or_eq_true, Bool.and_eq_true, decide_eq_true_eq]
    grind

/-- Sorted procedures do not depend on the order in which they are given. -/
theorem Procedure.sorted_congr {procedures procedures' : List Procedure}
    (perm : procedures.Perm procedures') : procedures.mergeSort le = procedures'.mergeSort le := by
  -- The order of definitions tells any two of them apart.
  have transitive : ∀ a b c : Procedure, a.le b = true → b.le c = true → a.le c = true :=
    fun _ _ _ => le_trans
  exact mergeSort_congr transitive le_total (fun _ _ => le_antisymm) perm

namespace Node

variable {n m : Node}

/-- The name of the global that a node declares, if it gives it one. -/
def global? (n : Node) : Option String :=
  if n.kind = BlockKind.globalDeclaration.name then (n.field? "NAME").filter (!·.isEmpty) else none

/-- Every node is the same as itself. -/
theorem same_refl (n : Node) : n.same n = true := by
  -- A map answers every key as itself does.
  have fields : n.fields.Same n.fields := fun _ => rfl
  have settings : n.mutation.attributes.Same n.mutation.attributes := fun _ => rfl
  simp [same, Mutation.same, fields.same, settings.same]

/-- Nodes that are the same have the same values in their fields. -/
theorem field?_of_same (same : n.same m = true) (name : String) : n.field? name = m.field? name :=
  -- A field is asked by its name, whatever the order of the fields.
  (of_same same).1 name

/-- Nodes that are the same are of one kind. -/
theorem kind_of_same (same : n.same m = true) : n.kind = m.kind :=
  -- The kind is among the parts that agree as they stand.
  congrArg kind (of_same same).2.2.2 ▸ rfl

/-- Nodes that are the same take one place. -/
theorem parent_of_same (same : n.same m = true) : n.parent = m.parent :=
  -- The parent is among the parts that agree as they stand.
  congrArg parent (of_same same).2.2.2 ▸ rfl

/-- Nodes that are the same declare the same global. -/
theorem global?_of_same (same : n.same m = true) : n.global? = m.global? := by
  -- A global is read off the kind and one field.
  rw [global?, global?, kind_of_same same, field?_of_same same]

/-- Nodes that are the same declare the same procedure. -/
theorem procedure?_of_same (same : n.same m = true) : n.procedure? = m.procedure? := by
  -- A definition is read off the kind, one field and the arguments.
  rw [procedure?, procedure?, kind_of_same same, field?_of_same same, (of_same same).2.2.1]

end Node

namespace Workspace

variable {ws ws' : Workspace}

/-- Graphs with the same nodes under the same numbers, in whatever order the nodes, their fields and
their settings come. -/
def SameNodes (ws ws' : Workspace) : Prop :=
  ∀ id, Option.Rel (fun n m => n.same m = true) (ws.node? id) (ws'.node? id)

/-- The graph with its nodes and its components in the opposite orders. -/
def reverse (ws : Workspace) : Workspace :=
  { ws with
    nodes := .ofList ws.nodes.entries.reverse
    components := .ofList ws.components.entries.reverse }

/-- In the opposite order there are the same nodes. -/
theorem sameNodes_reverse (ws : Workspace) : ws.SameNodes ws.reverse := by
  -- Building a map from the reversed entries moves no entry to another key.
  intro id
  have same : ws.node? id = ws.reverse.node? id :=
    OrderedMap.same_ofList (List.reverse_perm _).symm id
  rw [← same]
  cases ws.node? id with
  | none => exact .none
  | some n => exact .some n.same_refl

/-- In the opposite order there are the same components. -/
theorem components_reverse (ws : Workspace) : ws.components.Same ws.reverse.components :=
  -- Building a map from the reversed entries moves no entry to another key.
  OrderedMap.same_ofList (List.reverse_perm _).symm

/-- In the opposite order there are the same component types. -/
theorem database_reverse (ws : Workspace) : ws.database.Same ws.reverse.database := fun _ => rfl

/-- Nodes that are the same declare the same names for what is inside them. -/
theorem declaredBy_of_same (database : ws.database.Same ws'.database) {n m : Node}
    (same : n.same m = true) : ws.declaredBy n = ws'.declaredBy m := by
  -- No kind looks at anything in which the nodes may differ.
  obtain ⟨fields, settings, args, _⟩ := Node.of_same same
  have field : n.field? = m.field? := funext fields
  have setting : n.mutation.attribute? = m.mutation.attribute? := funext settings
  have type : ws.database.get? = ws'.database.get? := funext database
  have count : BlockKind.localNameCount n.fields n.mutation =
      BlockKind.localNameCount m.fields m.mutation := by
    rw [BlockKind.localNameCount, BlockKind.localNameCount, args,
      BlockKind.numberedNames_congr fields]
  simp only [declaredBy, Node.kind_of_same same, field, setting, type, count, args]

/-- The declared globals are those of the nodes in their order. -/
theorem globalNames_eq (ws : Workspace) :
    ws.globalNames = ws.nodes.values.filterMap Node.global? := by
  -- The kind is tested twice, once in the filter and once for the name.
  rw [globalNames, List.filterMap_filter]
  simp only [decide_eq_true_eq]
  rfl

namespace SameNodes

/-- Graphs with the same nodes use the same numbers. -/
theorem perm_keys (same : ws.SameNodes ws') : ws.nodes.keys.Perm ws'.nodes.keys :=
  -- A key is present on one side exactly if it is on the other, and no key is repeated.
  OrderedMap.perm_keys_of_rel same

/-- What the nodes give one by one is the same, in some order. -/
theorem perm_filterMap {β : Type} (same : ws.SameNodes ws') {f : Node → Option β}
    (agree : ∀ {n m}, n.same m = true → f n = f m) :
    (ws.nodes.values.filterMap f).Perm (ws'.nodes.values.filterMap f) := by
  -- The nodes are what the numbers lead to.
  rw [OrderedMap.values_eq_filterMap, OrderedMap.values_eq_filterMap, List.filterMap_filterMap,
    List.filterMap_filterMap]
  have each : (fun id => (ws'.nodes.get? id).bind f) = fun id => (ws.nodes.get? id).bind f :=
    funext fun id => optionRel_bind (same id) fun same => (agree same).symm
  rw [each]
  exact same.perm_keys.filterMap _

/-- A way up through the same nodes takes the same names. -/
theorem namesInScope_eq (same : ws.SameNodes ws') (database : ws.database.Same ws'.database)
    (steps : Nat) (inScope : Bool) (id : NodeId) :
    ws.namesInScope steps inScope id = ws'.namesInScope steps inScope id := by
  -- A step looks up one number, and goes on from the same place in both graphs.
  induction steps generalizing inScope id with
  | zero => rfl
  | succ steps ih =>
    have related := same id
    rw [namesInScope, namesInScope]
    revert related
    generalize ws.node? id = found
    generalize ws'.node? id = found'
    intro related
    cases related with
    | none => rfl
    | some alike =>
      simp only [ih, Node.parent_of_same alike, declaredBy_of_same database alike]

/-- Each of the same nodes sees the same local names. -/
theorem localsAt_eq (same : ws.SameNodes ws') (database : ws.database.Same ws'.database)
    (id : NodeId) : ws.localsAt id = ws'.localsAt id := by
  -- The climb through the scopes is bounded by the number of nodes, which is the same.
  have sizes : ws.nodes.size = ws'.nodes.size := by
    simpa [OrderedMap.keys, OrderedMap.size] using same.perm_keys.length_eq
  rw [localsAt, localsAt, sizes, same.namesInScope_eq database]

end SameNodes

end Workspace

/-- A catalog depends on the component types that there are, but not on their order. -/
theorem Catalog.build_of_same {database database' : ComponentDatabase}
    (same : database.Same database') (d : Declarations) : build d database = build d database' := by
  -- Components are only ever asked by their name.
  have types : database.get? = database'.get? := funext same
  simp only [build, Declarations.templates, Declarations.offers, Declarations.componentTemplates,
    types]

namespace Declarations

open Workspace (SameNodes)

variable {ws ws' : Workspace}

/-- The procedures of the declarations ascend strictly by their names. -/
theorem pairwise_procedures (ws : Workspace) (selected : Option NodeId) :
    ((collect ws selected).procedures.map (·.name)).Pairwise fun a b => a < b := by
  -- Of each name one definition is kept, so the order of the names that are left is strict.
  rw [List.pairwise_map]
  refine pairwise_eraseRepsBy Procedure.name ?_
  exact (Procedure.pairwise_mergeSort _).imp Procedure.name_le

/-- Graphs with the same nodes and components make the same declarations for each selection, and so
the same catalogs, in whatever orders their nodes and components come. In the declarations the
globals, the local names and the names of the procedures ascend strictly. -/
theorem collect_of_same (nodes : ws.SameNodes ws') (components : ws.components.Same ws'.components)
    (database : ws.database.Same ws'.database) (selected : Option NodeId) :
    collect ws selected = collect ws' selected ∧
      (∀ types types' : ComponentDatabase, types.Same types' →
        Catalog.build (collect ws selected) types = Catalog.build (collect ws' selected) types') ∧
      (collect ws selected).globals.Pairwise (fun a b => a < b) ∧
      (collect ws selected).locals.Pairwise (fun a b => a < b) ∧
      ((collect ws selected).procedures.map (·.name)).Pairwise fun a b => a < b := by
  -- Each list comes from a sorted one, in which the order of the nodes is forgotten.
  have globals : sortedTexts ws.globalNames = sortedTexts ws'.globalNames := by
    rw [Workspace.globalNames_eq, Workspace.globalNames_eq]
    exact sortedTexts_congr (nodes.perm_filterMap Node.global?_of_same)
  have procedures : ws.procedureNodes.mergeSort Procedure.le =
      ws'.procedureNodes.mergeSort Procedure.le := by
    rw [Workspace.procedureNodes_eq, Workspace.procedureNodes_eq]
    exact Procedure.sorted_congr (nodes.perm_filterMap Node.procedure?_of_same)
  have locals : ws.localsAt = ws'.localsAt := funext (nodes.localsAt_eq database)
  have same : collect ws selected = collect ws' selected := by
    rw [collect, collect, globals, procedures, locals, mergeSort_pairs_congr components.perm_entries]
  refine ⟨same, fun types types' known => ?_, pairwise_sortedTexts _, pairwise_sortedTexts _,
    pairwise_procedures ws selected⟩
  rw [same]
  exact Catalog.build_of_same known _

/-- Of two definitions of one name the same one is listed, whichever was made first, and globals and
local names that are declared twice are listed once. -/
theorem collect_of_same_reverse :
    let item : Block := ⟨"controls_forEach", none, .ofList [("VAR", .string "a")], none, [], none⟩
    let taker : Block := ⟨"procedures_defnoreturn", none, .ofList [("NAME", .string "reset")],
      some "<mutation><arg name=\"a\"></arg></mutation>", [("STACK", item)], none⟩
    let giver : Block :=
      ⟨"procedures_defreturn", none, .ofList [("NAME", .string "reset")], none, [], none⟩
    let score : Block :=
      ⟨"global_declaration", none, .ofList [("NAME", .string "score")], none, [], none⟩
    let ws := [score, giver, taker, score].foldl (fun ws block => (ws.append ∅ block).2.workspace)
      (((Workspace.empty ∅).addComponent "Label1" "Label").addComponent "Button1" "Button")
    ws.procedureNodes = [⟨"reset", [], true⟩, ⟨"reset", ["a"], false⟩] ∧
      ws.reverse.procedureNodes = [⟨"reset", ["a"], false⟩, ⟨"reset", [], true⟩] ∧
      collect ws (some ⟨4⟩) = ⟨["score"], [⟨"reset", [], true⟩],
        [("Button1", "Button"), ("Label1", "Label")], ["a"]⟩ ∧
      collect ws.reverse (some ⟨4⟩) = collect ws (some ⟨4⟩) ∧
      Catalog.build (collect ws.reverse (some ⟨4⟩)) ∅ =
        Catalog.build (collect ws (some ⟨4⟩)) ∅ := by
  intro item taker giver score ws
  have globals : ws.globalNames = ["score", "score"] := by decide +kernel
  have procedures : ws.procedureNodes = [⟨"reset", [], true⟩, ⟨"reset", ["a"], false⟩] := by
    decide +kernel
  have backwards : ws.reverse.procedureNodes = [⟨"reset", ["a"], false⟩, ⟨"reset", [], true⟩] := by
    decide +kernel
  have components : ws.components.entries = [("Label1", "Label"), ("Button1", "Button")] := by
    decide +kernel
  have locals : ws.localsAt ⟨4⟩ = ["a", "a"] := by decide +kernel
  -- Nothing else about the graph counts.
  clear_value ws
  obtain ⟨same, catalogs, _⟩ := collect_of_same ws.sameNodes_reverse ws.components_reverse
    ws.database_reverse (some ⟨4⟩)
  have sorted : ([("Label1", "Label"), ("Button1", "Button")].mergeSort fun a b : String × String =>
      a.1 < b.1 || a.1 = b.1 && a.2 ≤ b.2) = [("Button1", "Button"), ("Label1", "Label")] := by
    rw [mergeSort_pairs_congr (.swap _ _ _)]
    exact List.mergeSort_of_pairwise (by decide)
  have listed : collect ws (some ⟨4⟩) = ⟨["score"], [⟨"reset", [], true⟩],
      [("Button1", "Button"), ("Label1", "Label")], ["a"]⟩ := by
    rw [collect, globals, procedures, components, sorted, Option.map_some, Option.getD_some, locals]
    simp [sortedTexts, List.mergeSort, Procedure.le, List.eraseReps, List.eraseRepsBy,
      List.eraseRepsBy.loop]
  exact ⟨procedures, backwards, listed, same.symm, (catalogs ∅ ∅ fun _ => rfl).symm⟩

end Declarations

end QuickEntry
