import Mathlib.Data.List.Nodup
import QuickEntry.Proofs.Graph.Node
import QuickEntry.Proofs.OrderedMap

/-! Shapes: their inputs have distinct names, and they depend on little around the block. -/

namespace QuickEntry

/-- Numbers with the same digits are the same. -/
theorem toString_nat_injective : Function.Injective (toString : Nat → String) := by
  -- The digits are read back.
  intro i j same
  have digits := congrArg String.toList same
  simp only [Nat.toString_eq_repr, Nat.toList_repr] at digits
  have read := congrArg (fun cs => Nat.ofDigitChars 10 cs 0) digits
  simpa using read

/-- A text is not one that starts with another letter. -/
theorem append_ne_of_head {start text : String} {a b : Char} {rest rest' : List Char}
    (left : start.toList = a :: rest) (right : text.toList = b :: rest') (apart : a ≠ b)
    (tail : String) : start ++ tail ≠ text := by
  -- The first letters are compared.
  intro same
  have heads := congrArg (fun s => s.toList.head?) same
  simp only [String.toList_append, left, right, List.cons_append, List.head?_cons,
    Option.some.injEq] at heads
  exact apart heads

namespace SocketSpec

/-- Numbered inputs are called by their numbers. -/
theorem map_name_numbered (name : String) (check : TypeCheck) (count : Nat) :
    (numbered name check count).map (·.name) =
      (List.range count).map fun i => name ++ toString i := by
  -- Each input carries the name that it was made with.
  simp [numbered, value, Function.comp_def]

/-- Numbered names are distinct. -/
theorem nodup_numbered_names (name : String) {numbers : List Nat} (distinct : numbers.Nodup) :
    (numbers.map fun i => name ++ toString i).Nodup := by
  -- The number can be read off a name.
  refine distinct.map fun i j same => ?_
  exact toString_nat_injective ((String.append_right_inj name).mp same)

/-- Numbered inputs have distinct names. -/
theorem nodup_numbered (name : String) (check : TypeCheck) (count : Nat) :
    ((numbered name check count).map (·.name)).Nodup := by
  -- The numbers count up from zero.
  rw [map_name_numbered]
  exact nodup_numbered_names name List.nodup_range

/-- Inputs that are called by the numbers of some entries have distinct names. -/
theorem nodup_numbered_entries {α : Type} (name : String) (entries : List α)
    {input : α × Nat → SocketSpec} (called : ∀ e, (input e).name = name ++ toString e.2) :
    ((entries.zipIdx.map input).map (·.name)).Nodup := by
  -- The entries are numbered in their order.
  have names : (entries.zipIdx.map input).map (·.name) =
      (entries.zipIdx.map Prod.snd).map fun i => name ++ toString i := by
    rw [List.map_map, List.map_map]
    exact List.map_congr_left fun e _ => called e
  rw [names, List.zipIdx_map_snd]
  exact nodup_numbered_names name List.nodup_range'

end SocketSpec

namespace Shape

/-- The inputs of a shape have distinct names. -/
def Distinct (shape : Shape) : Prop := (shape.sockets.map (·.name)).Nodup

/-- Inputs behind no others have distinct names if they have so by themselves. -/
theorem distinct_withSockets {shape : Shape} {sockets : List SocketSpec}
    (bare : shape.sockets = []) (distinct : (sockets.map (·.name)).Nodup) :
    (shape.withSockets sockets).Distinct := by
  -- There is nothing before the new inputs.
  simpa [Distinct, withSockets, bare] using distinct

/-- The connectors before and after a block come together, and never beside an output. -/
structure Balanced (shape : Shape) : Prop where
  together : shape.hasPrevious = shape.hasNext
  apart : shape.output.isSome = true → shape.hasNext = false

/-- The connectors of an expression are balanced. -/
theorem balanced_value (output : TypeCheck) : (value output).Balanced := ⟨rfl, fun _ => rfl⟩

/-- The connectors of a statement are balanced. -/
theorem balanced_statement : statement.Balanced := ⟨rfl, fun given => nomatch given⟩

/-- Further inputs leave the connectors balanced. -/
theorem Balanced.withSockets {shape : Shape} (balanced : shape.Balanced)
    (sockets : List SocketSpec) : (shape.withSockets sockets).Balanced :=
  -- Sockets are beside the connectors that balance.
  ⟨balanced.together, balanced.apart⟩

end Shape

namespace BlockKind

open SocketSpec (numbered nodup_numbered nodup_numbered_entries map_name_numbered)

/-- The inputs of a conditional have distinct names. -/
theorem nodup_branchSockets (mutation : Mutation) :
    ((branchSockets mutation).map (·.name)).Nodup := by
  -- Tests, bodies and the last body start with different letters.
  have branches : ∀ count : Nat, (((List.range count).flatMap fun i =>
      [SocketSpec.value ("IF" ++ toString i) booleanCheck,
        SocketSpec.statement ("DO" ++ toString i)]).map (·.name)).Nodup := by
    -- Within a branch the letters differ, between branches the numbers do.
    intro count
    rw [List.map_flatMap, List.nodup_flatMap]
    constructor
    · intro i _
      simp [SocketSpec.value, SocketSpec.statement]
    · refine (List.nodup_range (n := count)).imp fun {i j} different => ?_
      refine List.disjoint_left.mpr fun {name} here there => ?_
      simp only [SocketSpec.value, SocketSpec.statement, List.map_cons, List.map_nil,
        List.mem_cons, List.not_mem_nil, or_false] at here there
      rcases here with rfl | rfl <;> rcases there with same | same
      · exact different (toString_nat_injective ((String.append_right_inj _).mp same))
      · exact append_ne_of_head (a := 'I') (b := 'D') rfl
          (by rw [String.toList_append]; rfl) (by decide) _ same
      · exact append_ne_of_head (a := 'D') (b := 'I') rfl
          (by rw [String.toList_append]; rfl) (by decide) _ same
      · exact different (toString_nat_injective ((String.append_right_inj _).mp same))
  unfold branchSockets
  split
  · rw [List.map_append, List.nodup_append]
    refine ⟨branches _, by simp, ?_⟩
    -- The last body is the only one with its letter.
    intro name here other last same
    simp only [SocketSpec.statement, List.map_cons, List.map_nil, List.mem_singleton] at last
    subst last
    obtain ⟨spec, member, rfl⟩ := List.mem_map.mp here
    obtain ⟨i, _, inside⟩ := List.mem_flatMap.mp member
    simp only [List.mem_cons, List.not_mem_nil, or_false] at inside
    rcases inside with rfl | rfl
    · exact append_ne_of_head (a := 'I') (b := 'E') rfl rfl (by decide) _ same
    · exact append_ne_of_head (a := 'D') (b := 'E') rfl rfl (by decide) _ same
  · exact branches _

/-- An input behind numbered ones has a name of its own if that starts with another letter. -/
theorem nodup_numbered_append {start : String} {a b : Char} {rest rest' : List Char}
    (check : TypeCheck) (count : Nat) {last : SocketSpec} (left : start.toList = a :: rest)
    (right : last.name.toList = b :: rest') (apart : a ≠ b) :
    ((numbered start check count ++ [last]).map (·.name)).Nodup := by
  -- The numbered names are distinct, and the last name is none of them.
  rw [List.map_append, List.nodup_append]
  refine ⟨nodup_numbered start check count, by simp, ?_⟩
  intro name here other member same
  simp only [List.map_cons, List.map_nil, List.mem_singleton] at member
  subst member
  rw [map_name_numbered] at here
  obtain ⟨i, _, rfl⟩ := List.mem_map.mp here
  exact append_ne_of_head left right apart _ same

/-- An input before numbered ones has a name of its own if that starts with another letter. -/
theorem nodup_cons_numbered {start : String} {a b : Char} {rest rest' : List Char}
    (check : TypeCheck) (count : Nat) {first : SocketSpec} (left : start.toList = a :: rest)
    (right : first.name.toList = b :: rest') (apart : a ≠ b) :
    ((first :: numbered start check count).map (·.name)).Nodup := by
  -- The numbered names are distinct, and the first name is none of them.
  rw [List.map_cons, List.nodup_cons]
  refine ⟨fun here => ?_, nodup_numbered start check count⟩
  rw [map_name_numbered] at here
  obtain ⟨i, _, same⟩ := List.mem_map.mp here
  exact append_ne_of_head left right apart _ same

/-- The inputs of a call to a method have distinct names. -/
theorem distinct_methodShape (mutation : Mutation) (around : Surroundings) :
    (methodShape mutation around).Distinct := by
  -- The parameters are numbered in their order.
  unfold methodShape
  dsimp only
  split
  · exact List.nodup_nil
  · rename_i method _
    refine Shape.distinct_withSockets (by split <;> rfl) ?_
    exact nodup_numbered_entries "ARG" method.params fun _ => rfl

/-- The inputs of every block have distinct names. -/
theorem distinct_shape (kind : BlockKind) (fields : OrderedMap String String)
    (mutation : Mutation) (around : Surroundings) :
    (kind.shape fields mutation around).Distinct := by
  -- Most kinds list their inputs, and the others number them.
  cases kind with
  | mathAdd => exact Shape.distinct_withSockets rfl (nodup_numbered _ _ _)
  | mathMultiply => exact Shape.distinct_withSockets rfl (nodup_numbered _ _ _)
  | textJoin => exact Shape.distinct_withSockets rfl (nodup_numbered _ _ _)
  | listsCreateWith => exact Shape.distinct_withSockets rfl (nodup_numbered _ _ _)
  | listsAddItems =>
    exact Shape.distinct_withSockets rfl
      (nodup_cons_numbered (a := 'I') (b := 'L') _ _ rfl rfl (by decide))
  | controlsIf => exact Shape.distinct_withSockets rfl (nodup_branchSockets mutation)
  | localDeclarationStatement =>
    exact Shape.distinct_withSockets rfl
      (nodup_numbered_append (a := 'D') (b := 'S') _ _ rfl rfl (by decide))
  | localDeclarationExpression =>
    exact Shape.distinct_withSockets rfl
      (nodup_numbered_append (a := 'D') (b := 'R') _ _ rfl rfl (by decide))
  | proceduresCallNoReturn => exact Shape.distinct_withSockets rfl (nodup_numbered _ _ _)
  | proceduresCallReturn => exact Shape.distinct_withSockets rfl (nodup_numbered _ _ _)
  | componentMethod => exact distinct_methodShape mutation around
  -- A property that is written has the only socket, one that is read has none.
  | componentSetGet =>
    simp only [shape, propertyShape]
    split
    · exact Shape.distinct_withSockets rfl (List.nodup_singleton _)
    · exact List.nodup_nil
  | textSplit => exact Shape.distinct_withSockets rfl (by simp [SocketSpec.value])
  | _ => first | exact List.nodup_nil | exact Shape.distinct_withSockets rfl (by decide)

/-- The connectors of every block are balanced. -/
theorem balanced_shape (kind : BlockKind) (fields : OrderedMap String String)
    (mutation : Mutation) (around : Surroundings) :
    (kind.shape fields mutation around).Balanced := by
  -- Every shape is one of the three basic ones with further inputs.
  cases kind with
  | componentMethod =>
    simp only [shape, methodShape]
    split
    · exact Shape.balanced_statement
    · split
      · exact (Shape.balanced_value _).withSockets _
      · exact Shape.balanced_statement.withSockets _
  | componentSetGet =>
    simp only [shape, propertyShape]
    split
    · exact Shape.balanced_statement.withSockets _
    · exact Shape.balanced_value _
  | _ => first | exact ⟨rfl, fun _ => rfl⟩ | exact ⟨rfl, fun given => nomatch given⟩

/-- The procedure whose declaration decides how many inputs a block has: the one that a call names,
if the call lists no arguments itself. -/
def calls? (kind : BlockKind) (fields : OrderedMap String String) (mutation : Mutation) :
    Option String :=
  -- The structural state names the procedure before the field does.
  match kind with
  | proceduresCallNoReturn | proceduresCallReturn =>
    if mutation.args.isEmpty then mutation.attribute? "name" <|> fields.get? "PROCNAME" else none
  | _ => none

end BlockKind

/-- The number of arguments of a procedure, which is zero if it is not declared. -/
def Surroundings.arity (around : Surroundings) (name : String) : Nat :=
  ((around.procedureArguments name).getD []).length

namespace BlockKind

open SocketSpec (numbered)

/-- The numbering of local names depends on the fields but not on their order. -/
theorem numberedNames_congr {fields fields' : OrderedMap String String}
    (same : fields.Same fields') : numberedNames fields = numberedNames fields' := by
  -- The maps have equally many fields, and under each name both have one or none.
  have contained : ∀ name, fields.contains name = fields'.contains name := by
    intro name
    rw [OrderedMap.contains, OrderedMap.contains, same name]
  simp only [numberedNames, same.size_eq, contained]

/-- The inputs for arguments depend on no more than the number of arguments of the procedure that
decides them. -/
theorem argumentSockets_congr {kind : BlockKind} {fields fields' : OrderedMap String String}
    {mutation : Mutation} {around around' : Surroundings}
    (calls : kind.calls? fields mutation =
      if mutation.args.isEmpty then mutation.attribute? "name" <|> fields.get? "PROCNAME" else none)
    (same : fields.Same fields')
    (arity : ∀ name, kind.calls? fields mutation = some name →
      around.arity name = around'.arity name) :
    argumentSockets fields mutation around = argumentSockets fields' mutation around' := by
  -- A call with arguments of its own asks nobody.
  unfold argumentSockets
  rw [← same "PROCNAME"]
  by_cases empty : mutation.args.isEmpty = true
  · rw [if_pos empty] at calls
    simp only [empty, if_true]
    cases named : (mutation.attribute? "name" <|> fields.get? "PROCNAME") with
    | none => rfl
    | some name =>
      have equal := arity name (calls.trans named)
      simp only [Surroundings.arity] at equal
      simp only [Option.bind_some, equal]
  · simp [empty]

/-- A call that lists no arguments itself has an input for each argument of the procedure that it
finds. -/
theorem sockets_of_calls? {kind : BlockKind} {fields : OrderedMap String String}
    {mutation : Mutation} {name : String} (calls : kind.calls? fields mutation = some name)
    (around : Surroundings) :
    (kind.shape fields mutation around).sockets =
      SocketSpec.numbered "ARG" .any (around.arity name) := by
  -- A call that finds a name is one of two kinds without arguments of its own, and both take the
  -- sockets of the definition.
  have asks : (kind = proceduresCallNoReturn ∨ kind = proceduresCallReturn) ∧
      mutation.args.isEmpty = true ∧
      (mutation.attribute? "name" <|> fields.get? "PROCNAME") = some name := by
    unfold calls? at calls
    split at calls <;> grind
  obtain ⟨called, empty, names⟩ := asks
  have sockets : (kind.shape fields mutation around).sockets =
      argumentSockets fields mutation around := by
    rcases called with rfl | rfl <;> rfl
  rw [sockets, argumentSockets, if_pos empty, names]
  rfl

/-- A shape depends on the fields but not on their order, on the declared components, and on the
number of arguments of the procedure that decides it. -/
theorem shape_congr {kind : BlockKind} {fields fields' : OrderedMap String String}
    {mutation : Mutation} {around around' : Surroundings} (same : fields.Same fields')
    (types : around.componentType = around'.componentType)
    (arity : ∀ name, kind.calls? fields mutation = some name →
      around.arity name = around'.arity name) :
    kind.shape fields mutation around = kind.shape fields' mutation around' := by
  -- Few kinds look at their fields at all, and fewer at what is around them.
  cases kind with
  | textSplit => simp only [shape, same "OP"]
  | localDeclarationStatement =>
    simp only [shape, localSockets, localNameCount, numberedNames_congr same]
  | localDeclarationExpression =>
    simp only [shape, localSockets, localNameCount, numberedNames_congr same]
  | proceduresCallNoReturn => simp only [shape, argumentSockets_congr rfl same arity]
  | proceduresCallReturn => simp only [shape, argumentSockets_congr rfl same arity]
  | componentMethod => simp only [shape, methodShape, types]
  | componentSetGet => simp only [shape, propertyShape, types]
  | _ => rfl

end BlockKind

/-- The procedure whose declaration decides how many inputs a node has, if there is one. -/
def Node.calls? (n : Node) : Option String :=
  (BlockKind.ofName? n.kind).bind fun kind => kind.calls? n.fields n.mutation

namespace Workspace

/-- The number of arguments of the procedure of a name, as the graph declares it. -/
def arity (ws : Workspace) (name : String) : Nat := ws.surroundings.arity name

/-- Two nodes derive the same shape in two graphs if they differ in the order of fields only, and
the procedure that decides the shape has as many arguments in both graphs. -/
theorem shapeOf_congr {ws ws' : Workspace} {n n' : Node} (kind : n.kind = n'.kind)
    (mutation : n.mutation = n'.mutation) (fields : n.fields.Same n'.fields)
    (database : ws.database = ws'.database)
    (arity : ∀ name, n.calls? = some name → ws.arity name = ws'.arity name) :
    ws.shapeOf n = ws'.shapeOf n' := by
  -- Both look their kind up under the same name.
  unfold shapeOf
  rw [← kind, ← mutation]
  cases known : BlockKind.ofName? n.kind with
  | none => rfl
  | some k =>
    have types : ws.surroundings.componentType = ws'.surroundings.componentType := by
      simp only [surroundings, database]
    have decides : ∀ name, k.calls? n.fields n.mutation = some name →
        ws.surroundings.arity name = ws'.surroundings.arity name := by
      intro name calls
      exact arity name (by rw [Node.calls?, known, Option.bind_some, calls])
    exact congrArg Except.ok (BlockKind.shape_congr fields types decides)

/-- A node of a known kind derives the shape of that kind. -/
theorem shapeOf_of_known {ws : Workspace} {n : Node} {kind : BlockKind}
    (known : BlockKind.ofName? n.kind = some kind) :
    ws.shapeOf n = .ok (kind.shape n.fields n.mutation ws.surroundings) := by
  -- The search for the kind succeeds.
  rw [shapeOf, known]

/-- A derived shape has inputs of distinct names. -/
theorem distinct_of_shapeOf {ws : Workspace} {n : Node} {shape : Shape}
    (derived : ws.shapeOf n = .ok shape) : shape.Distinct := by
  -- Only known kinds derive a shape.
  unfold shapeOf at derived
  split at derived
  · cases derived
    exact BlockKind.distinct_shape _ _ _ _
  · cases derived

/-- The connectors of a derived shape are balanced. -/
theorem balanced_of_shapeOf {ws : Workspace} {n : Node} {shape : Shape}
    (derived : ws.shapeOf n = .ok shape) : shape.Balanced := by
  -- Only known kinds derive a shape.
  unfold shapeOf at derived
  split at derived
  · cases derived
    exact BlockKind.balanced_shape _ _ _ _
  · cases derived

end Workspace

end QuickEntry
