import Mathlib.Tactic.Common
import QuickEntry.Declarations

/-! Which of several procedures of one name is listed, and which one a call finds. -/

namespace QuickEntry

attribute [ext] Procedure

namespace Procedure

variable {a b c : Procedure}

/-- The order of procedures compares names, then arguments, then whether there is a value. -/
theorem le_iff : a.le b = true ↔ a.name < b.name ∨ a.name = b.name ∧
    (a.args < b.args ∨ a.args = b.args ∧ (a.returns = true → b.returns = true)) := by
  -- The order is computed from tests, here spelled as propositions.
  have implies : (!a.returns || b.returns) = true ↔ (a.returns = true → b.returns = true) := by
    cases a.returns <;> simp
  simp only [le, Bool.or_eq_true, Bool.and_eq_true, decide_eq_true_eq, implies]

/-- Every procedure comes no later than itself. -/
theorem le_refl (a : Procedure) : a.le a = true := le_iff.mpr (.inr ⟨rfl, .inr ⟨rfl, id⟩⟩)

/-- The order of procedures is transitive. -/
theorem le_trans (first : a.le b = true) (second : b.le c = true) : a.le c = true := by
  -- The order is lexicographic, with a definition without value before one with it.
  rw [le_iff] at first second ⊢
  grind

/-- Of two procedures one comes no later than the other. -/
theorem le_total (a b : Procedure) : (a.le b || b.le a) = true := by
  -- The order is lexicographic, with a definition without value before one with it.
  rw [Bool.or_eq_true, le_iff, le_iff]
  grind

/-- No two procedures are tied. -/
theorem le_antisymm (first : a.le b = true) (second : b.le a = true) : a = b := by
  -- Each part of the order is antisymmetric, the name first.
  rw [le_iff] at first second
  have name : a.name = b.name := by grind
  have args : a.args = b.args := by grind
  have returns : a.returns = b.returns := Bool.eq_iff_iff.mpr (by grind)
  exact Procedure.ext name args returns

/-- Sorting puts procedures in order. -/
theorem pairwise_mergeSort (procedures : List Procedure) :
    (procedures.mergeSort le).Pairwise fun a b => a.le b = true := by
  -- The order is total and transitive, which is what sorting needs.
  have transitive : ∀ a b c : Procedure, a.le b = true → b.le c = true → a.le c = true :=
    fun _ _ _ => le_trans
  exact List.pairwise_mergeSort transitive le_total procedures

/-- A procedure comes no later than another one only if its name does not. -/
theorem name_le (first : a.le b = true) : a.name ≤ b.name := by
  -- The name comes first in the order.
  rw [le_iff] at first
  grind

end Procedure

/-- Only the first of neighbours that are alike is kept. -/
theorem eraseRepsBy_cons {α : Type} (alike : α → α → Bool) (x : α) (xs : List α) :
    (x :: xs).eraseRepsBy alike = x :: (xs.dropWhile (alike x)).eraseRepsBy alike := by
  -- What is kept is gathered in reverse.
  have gathers : ∀ (xs : List α) (x : α) (kept : List α), List.eraseRepsBy.loop alike x xs kept =
      kept.reverse ++ x :: (xs.dropWhile (alike x)).eraseRepsBy alike := by
    intro xs
    induction xs with
    | nil => intro x kept; simp [List.eraseRepsBy.loop, List.eraseRepsBy]
    | cons y ys ih =>
      intro x kept
      rw [List.eraseRepsBy.loop]
      cases same : alike x y with
      | true => simp [ih, same]
      | false => simp [ih, same, List.eraseRepsBy]
  exact gathers xs x []

/-- Nothing is kept of neighbours that was not there. -/
theorem eraseRepsBy_subset {α : Type} (alike : α → α → Bool) (xs : List α) :
    xs.eraseRepsBy alike ⊆ xs := by
  -- Each step drops from what the one before has left.
  match xs with
  | [] => simp [List.eraseRepsBy]
  | x :: rest =>
    rw [eraseRepsBy_cons]
    refine List.cons_subset_cons x (List.Subset.trans (eraseRepsBy_subset alike _) ?_)
    exact (List.dropWhile_sublist _).subset
termination_by xs.length
decreasing_by exact Nat.lt_succ_of_le (List.dropWhile_sublist _).length_le

section Keys

variable {α : Type} (key : α → String)

/-- Behind the first of several things with ascending keys the others with its key come before all
other ones. -/
theorem dropWhile_eq_filter {first : α} {others : List α}
    (up : (first :: others).Pairwise fun a b => key a ≤ key b) :
    (others.dropWhile fun a => key first == key a) =
      others.filter fun a => key first ≠ key a := by
  -- In a sorted list those of one name stand together, so the first other one ends them.
  induction others with
  | nil => rfl
  | cons next rest ih =>
    obtain ⟨before, later⟩ := List.pairwise_cons.mp up
    obtain ⟨after, rest'⟩ := List.pairwise_cons.mp later
    by_cases same : key first = key next
    · rw [List.dropWhile_cons_of_pos (by simpa using same),
        List.filter_cons_of_neg (by simpa using same)]
      exact ih (List.pairwise_cons.mpr
        ⟨fun a member => before a (List.mem_cons_of_mem _ member), rest'⟩)
    · -- A later one with the key would have to come before.
      have apart : ∀ a ∈ rest, key first ≠ key a := fun a member named =>
        same (String.le_antisymm (before next List.mem_cons_self) (named ▸ after a member))
      rw [List.dropWhile_cons_of_neg (by simpa using same),
        List.filter_cons_of_pos (by simpa using same),
        List.filter_eq_self.mpr fun a member => by simpa using apart a member]

/-- With only the first of each key kept, ascending keys ascend strictly. -/
theorem pairwise_eraseRepsBy {items : List α} (up : items.Pairwise fun a b => key a ≤ key b) :
    (items.eraseRepsBy fun a b => key a == key b).Pairwise fun a b => key a < key b := by
  match items with
  | [] => exact .nil
  | first :: others =>
    obtain ⟨before, later⟩ := List.pairwise_cons.mp up
    rw [eraseRepsBy_cons, dropWhile_eq_filter key up, List.pairwise_cons]
    refine ⟨fun a member => ?_, pairwise_eraseRepsBy (later.filter _)⟩
    -- What is kept behind the first has another key, and comes after it.
    obtain ⟨inside, apart⟩ := List.mem_filter.mp (eraseRepsBy_subset _ _ member)
    have up := before a inside
    have apart : key first ≠ key a := by simpa using apart
    grind
termination_by items.length
decreasing_by exact Nat.lt_succ_of_le (List.length_filter_le _ _)

end Keys

namespace Procedure

/-- Of sorted procedures the first of each name is kept. -/
theorem mem_eraseRepsBy_iff {d : Procedure} {procedures : List Procedure}
    (sorted : procedures.Pairwise fun a b => a.le b = true) :
    d ∈ procedures.eraseRepsBy (fun a b => a.name == b.name) ↔
      d ∈ procedures ∧ ∀ p ∈ procedures, p.name = d.name → d.le p = true := by
  match procedures with
  | [] => simp [List.eraseRepsBy]
  | first :: others =>
    obtain ⟨before, later⟩ := List.pairwise_cons.mp sorted
    -- What is left without the name of the first is shorter, and sorted as well.
    have others' := mem_eraseRepsBy_iff (d := d) (later.filter fun p => first.name ≠ p.name)
    have remains : ∀ {p}, p ∈ (others.filter fun p => first.name ≠ p.name) ↔
        p ∈ others ∧ first.name ≠ p.name := by simp
    rw [eraseRepsBy_cons, dropWhile_eq_filter name (sorted.imp name_le), List.mem_cons, others',
      remains]
    constructor
    · rintro (rfl | ⟨⟨member, other⟩, least⟩)
      · exact ⟨List.mem_cons_self, fun p inside _ =>
          (List.mem_cons.mp inside).elim (fun same => same ▸ le_refl p) (before p)⟩
      · refine ⟨List.mem_cons_of_mem _ member, fun p inside same => ?_⟩
        rcases List.mem_cons.mp inside with rfl | behind
        · exact absurd same other
        · exact least p (remains.mpr ⟨behind, same ▸ other⟩) same
    · rintro ⟨member, least⟩
      by_cases same : first.name = d.name
      · -- Nothing of its name comes before the first.
        refine .inl ?_
        rcases List.mem_cons.mp member with same | behind
        · exact same
        · exact le_antisymm (least first List.mem_cons_self same) (before d behind)
      · have behind : d ∈ others :=
          (List.mem_cons.mp member).resolve_left fun first' => same (first' ▸ rfl)
        exact .inr ⟨⟨behind, same⟩, fun p inside =>
          least p (List.mem_cons_of_mem _ (remains.mp inside).1)⟩
termination_by procedures.length
decreasing_by exact Nat.lt_succ_of_le (List.length_filter_le _ _)

end Procedure

/-- The procedure that a node declares, if it gives it a name. -/
def Node.procedure? (n : Node) : Option Procedure :=
  -- A definition without a name declares nothing that could be called.
  if BlockKind.procedureDefinitions.contains n.kind then
    ((n.field? "NAME").filter (!·.isEmpty)).map fun name =>
      ⟨name, n.mutation.args, n.kind = BlockKind.proceduresDefReturn.name⟩
  else none

/-- What it takes for a node to declare a procedure. -/
theorem Node.procedure?_eq_some_iff {n : Node} {p : Procedure} :
    n.procedure? = some p ↔ BlockKind.procedureDefinitions.contains n.kind = true ∧
      n.field? "NAME" = some p.name ∧ p.name.isEmpty = false ∧ n.mutation.args = p.args ∧
        (n.kind = "procedures_defreturn" ↔ p.returns = true) := by
  -- A definition must be of one of two kinds and carry a name; the kind tells whether it returns a
  -- value.
  have kind : BlockKind.proceduresDefReturn.name = "procedures_defreturn" := rfl
  obtain ⟨name, args, returns⟩ := p
  unfold procedure?
  split
  · rename_i defines
    simp only [Option.map_eq_some_iff, Option.filter_eq_some_iff, Procedure.mk.injEq, defines, kind,
      true_and, Bool.not_eq_true']
    constructor
    · rintro ⟨_, ⟨given, some⟩, rfl, rfl, rfl⟩
      exact ⟨given, some, rfl, by simp⟩
    · rintro ⟨given, some, rfl, same⟩
      exact ⟨name, ⟨given, some⟩, rfl, rfl, by simp [same]⟩
  · rename_i other
    exact ⟨fun none => (nomatch none), fun parts => absurd parts.1 other⟩

namespace Workspace

variable {ws : Workspace} {d : Procedure} {selected : Option NodeId}

/-- The declared procedures are those of the nodes in their order. -/
theorem procedureNodes_eq (ws : Workspace) :
    ws.procedureNodes = ws.nodes.values.filterMap Node.procedure? := by
  -- The kind is tested twice, once in the filter and once for the definition.
  rw [procedureNodes, List.filterMap_filter]
  rfl

/-- A procedure is listed exactly if it is declared and no other one of its name comes before it in
the order of procedures. -/
theorem mem_procedures_iff :
    d ∈ (Declarations.collect ws selected).procedures ↔
      d ∈ ws.procedureNodes ∧ ∀ p ∈ ws.procedureNodes, p.name = d.name → d.le p = true := by
  -- Of each name the first in the sorted list is kept.
  have listed : (Declarations.collect ws selected).procedures =
    (ws.procedureNodes.mergeSort Procedure.le).eraseRepsBy fun a b => a.name == b.name := rfl
  rw [listed, Procedure.mem_eraseRepsBy_iff (Procedure.pairwise_mergeSort _)]
  simp only [List.mem_mergeSort]

/-- A listed procedure has a name. -/
theorem name_of_mem_procedures (listed : d ∈ (Declarations.collect ws selected).procedures) :
    d.name.isEmpty = false := by
  -- What is listed was declared by a node, and only under a name.
  have declared := (mem_procedures_iff.mp listed).1
  rw [procedureNodes_eq] at declared
  obtain ⟨n, _, own⟩ := List.mem_filterMap.mp declared
  exact (Node.procedure?_eq_some_iff.mp own).2.2.1

/-- A call of a listed procedure finds a definition of its name, and this is as listed exactly if no
definition of the name comes before it in the order of procedures. -/
theorem procedure?_of_mem_procedures
    (listed : d ∈ (Declarations.collect ws selected).procedures) :
    ∃ n p, ws.procedure? d.name = some n ∧ n.procedure? = some p ∧ p.name = d.name ∧
      (p = d ↔ ∀ q ∈ ws.procedureNodes, q.name = d.name → p.le q = true) := by
  -- Some node declares the listed definition, so the search by its name finds one, though perhaps
  -- another.
  obtain ⟨declared, least⟩ := mem_procedures_iff.mp listed
  have named := name_of_mem_procedures listed
  have declares : ∀ {n p}, n ∈ ws.nodes.values → n.procedure? = some p → p ∈ ws.procedureNodes :=
    fun member own => procedureNodes_eq ws ▸ List.mem_filterMap.mpr ⟨_, member, own⟩
  cases found : ws.procedure? d.name with
  | none =>
    -- The definition that is listed would be found.
    rw [procedureNodes_eq] at declared
    obtain ⟨n, member, own⟩ := List.mem_filterMap.mp declared
    obtain ⟨defines, given, _⟩ := Node.procedure?_eq_some_iff.mp own
    have missed := List.find?_eq_none.mp found n member
    rw [defines, given] at missed
    simp at missed
  | some n =>
    have suits := List.find?_some found
    simp only [Bool.and_eq_true, decide_eq_true_eq] at suits
    obtain ⟨p, own, same⟩ : ∃ p, n.procedure? = some p ∧ p.name = d.name :=
      ⟨⟨d.name, n.mutation.args, n.kind = BlockKind.proceduresDefReturn.name⟩,
        Node.procedure?_eq_some_iff.mpr ⟨suits.1, suits.2, named, rfl,
        decide_eq_true_iff.symm⟩, rfl⟩
    refine ⟨n, p, rfl, own, same, ?_⟩
    constructor
    · rintro rfl
      exact least
    · intro first
      have declared' := declares (List.mem_of_find?_eq_some found) own
      exact Procedure.le_antisymm (first d declared rfl) (least p declared' same)

end Workspace

end QuickEntry
