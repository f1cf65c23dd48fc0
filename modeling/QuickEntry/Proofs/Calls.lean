import QuickEntry.Proofs.Declarations
import QuickEntry.Proofs.Graph.Procedures
import QuickEntry.Proofs.Offer

/-! The calls that the catalog offers for the declared procedures, and the inputs that they get. -/

namespace QuickEntry

namespace Procedure

/-- The option that calls a procedure. -/
def call (p : Procedure) : BlockOption where
  kind := if p.returns then "procedures_callreturn" else "procedures_callnoreturn"
  displayText := "call " ++ p.name
  fields := some (.ofList [("PROCNAME", p.name)])
  extraState := some (Mutation.toMarkup ⟨.ofList [("name", p.name)], []⟩)

/-- The template that calls a procedure with a name offers this option. -/
theorem toOption_callTemplate {p : Procedure} (named : p.name.isEmpty = false) :
    (Declarations.callTemplate p).2.toOption p.call.displayText = .ok p.call := by
  -- The name is the only part that could be empty, and it is not.
  have text : p.call.displayText.isEmpty = false := by
    simp [call, String.isEmpty_eq_false_iff]
  have kind : p.call.kind.isEmpty = false := by
    unfold call
    cases p.returns <;> rfl
  have fields : (Declarations.callTemplate p).2.fieldValues = p.call.fields := by
    have given : (Declarations.callTemplate p).2.fieldValues =
      if "PROCNAME".isEmpty || p.name.isEmpty then none else p.call.fields := rfl
    rw [given, named]
    rfl
  have settings : (Declarations.callTemplate p).2.settings = .ofList [("name", p.name)] := rfl
  have kind' : (Declarations.callTemplate p).2.kind.filter (!·.isEmpty) = some p.call.kind :=
    Option.filter_eq_some_iff.mpr ⟨rfl, by rw [kind]; rfl⟩
  rw [Template.toOption, text, kind', fields, settings]
  rfl

end Procedure

namespace Declarations

variable {d : Declarations} {database : ComponentDatabase} {p : Procedure}

/-- The text of a call is that of no template before those of the procedures. -/
theorem ne_call_of_mem {offer : String × Template}
    (member : offer ∈ builtinTemplates ++ (d.globals.flatMap fun name =>
      variableTemplates ("global " ++ name)) ++ d.locals.flatMap variableTemplates)
    (name : String) : offer.1 ≠ "call " ++ name := by
  -- Variables start with another letter, and of the fixed texts none starts like a call.
  have ofVariable : ∀ variableName, ∀ offer ∈ variableTemplates variableName,
      offer.1 ≠ "call " ++ name := by
    intro variableName
    have text : ("call " ++ name).toList = 'c' :: ("all ".toList ++ name.toList) := by
      rw [String.toList_append]; rfl
    simp only [variableTemplates, List.forall_mem_cons]
    exact ⟨append_ne_of_head (a := 'g') rfl text (by decide) _,
      append_ne_of_head (a := 's') rfl text (by decide) _, List.forall_mem_nil _⟩
  simp only [List.mem_append, List.mem_flatMap] at member
  rcases member with (builtin | ⟨other, _, ofGlobal⟩) | ⟨other, _, ofLocal⟩
  · -- No other text begins like that of a call.
    have begins : ∀ offer ∈ builtinTemplates, offer.1.toList.take 5 ≠ "call ".toList := by
      decide +kernel
    intro same
    refine begins offer builtin ?_
    rw [same, String.toList_append]
    rfl
  · exact ofVariable _ offer ofGlobal
  · exact ofVariable _ offer ofLocal

/-- Of procedures of distinct names each is called under its own text. -/
theorem get?_call (distinct : ∀ q ∈ d.procedures, q.name = p.name → q = p)
    (listed : p ∈ d.procedures) :
    (d.templates database).get? p.call.displayText = some (callTemplate p).2 := by
  have first : (builtinTemplates ++ (d.globals.flatMap fun name =>
      variableTemplates ("global " ++ name)) ++ d.locals.flatMap variableTemplates ++
        d.procedures.map callTemplate).lookup p.call.displayText = some (callTemplate p).2 := by
    refine OrderedMap.lookup_of_mem (List.mem_append_right _ (List.mem_map.mpr
      ⟨p, listed, rfl⟩)) fun offer member same => ?_
    rcases List.mem_append.mp member with before | called
    · exact absurd same (ne_call_of_mem before p.name)
    · obtain ⟨q, inside, rfl⟩ := List.mem_map.mp called
      rw [distinct q inside ((String.append_right_inj _).mp same)]
  -- What components offer comes later.
  rw [templates, OrderedMap.get?_ofFirst, offers, List.lookup_append, first]
  rfl

end Declarations

namespace Workspace

variable {ws : Workspace} {d : Procedure} {selected : Option NodeId}

/-- No two listed procedures have one name. -/
theorem eq_of_mem_procedures {a b : Procedure}
    (left : a ∈ (Declarations.collect ws selected).procedures)
    (right : b ∈ (Declarations.collect ws selected).procedures) (same : a.name = b.name) :
    a = b := by
  -- Of each name only the least definition is listed.
  obtain ⟨declared, least⟩ := mem_procedures_iff.mp left
  obtain ⟨declared', least'⟩ := mem_procedures_iff.mp right
  exact Procedure.le_antisymm (least b declared' same.symm) (least' a declared same)

/-- Each listed procedure offers its call, and no other option has its text. -/
theorem mem_options_call_iff (database : ComponentDatabase)
    (listed : d ∈ (Declarations.collect ws selected).procedures) {o : BlockOption} :
    o ∈ (Catalog.build (Declarations.collect ws selected) database).options ∧
      o.displayText = "call " ++ d.name ↔ o = d.call := by
  -- The first offer of the text is the template of this definition, and it makes this one option.
  have found : ((Declarations.collect ws selected).templates database).get? d.call.displayText =
      some (Declarations.callTemplate d).2 := Declarations.get?_call
    (fun q inside same => eq_of_mem_procedures inside listed same) listed
  have offers := Procedure.toOption_callTemplate (name_of_mem_procedures listed)
  rw [Catalog.build, List.mem_toArray, mem_optionsOf_iff]
  constructor
  · rintro ⟨⟨t, found', offers'⟩, text⟩
    have text : o.displayText = d.call.displayText := text
    rw [text] at found' offers'
    cases found.symm.trans found'
    exact Except.ok.inj (offers'.symm.trans offers)
  · rintro rfl
    exact ⟨⟨_, found, offers⟩, rfl⟩

end Workspace

namespace Session

variable {s : Session} {d : Procedure} {selected : Option NodeId} {database : ComponentDatabase}

/-- In every session whose graph was built from descriptions of blocks, and for every node as the
selected one, a call of a listed procedure finds a definition of its name. That definition has the
listed arguments, and a value if listed with one, if and only if no definition of the name comes
before it in the order of procedures. One option of the catalog has the text of the call. If its
structural state is read back as it was written, it can be picked, and makes a call of the listed
kind with as many inputs, numbered from zero, as the found definition has arguments. -/
theorem offered_call_finds (built : Workspace.Built database s.workspace)
    (listed : d ∈ (Declarations.collect s.workspace selected).procedures) :
    ∃ n p, s.workspace.procedure? d.name = some n ∧ n.procedure? = some p ∧
      ((n.mutation.args = d.args ∧ (n.kind = "procedures_defreturn" ↔ d.returns = true)) ↔
        ∀ q ∈ s.workspace.procedureNodes, q.name = d.name → p.le q = true) ∧
      ∃ o, (∀ o', (o' ∈ (Catalog.build (.collect s.workspace selected) database).options ∧
          o'.displayText = "call " ++ d.name) ↔ o' = o) ∧
        (Mutation.ofExtraState o.extraState = .ok ⟨.ofList [("name", d.name)], []⟩ →
          ∃ inserted after call, (confirm o).on s = (.ok inserted, after) ∧
            after.workspace.node? inserted.node = some call ∧
            call.kind =
              (if d.returns then "procedures_callreturn" else "procedures_callnoreturn") ∧
            call.sockets.map Socket.spec =
              SocketSpec.numbered "ARG" .any n.mutation.args.length) := by
  -- The list keeps the least definition of a name and the call asks for the first one, so the two
  -- agree exactly if the first is the least.
  obtain ⟨n, p, found, own, named, first⟩ := Workspace.procedure?_of_mem_procedures listed
  obtain ⟨_, _, _, args, returns⟩ := Node.procedure?_eq_some_iff.mp own
  refine ⟨n, p, found, own, ?_, d.call,
    fun _ => Workspace.mem_options_call_iff database listed, fun read => ?_⟩
  · -- The name is the listed one in any case.
    rw [← first, args, returns, ← Bool.eq_iff_iff]
    exact ⟨fun ⟨args, returns⟩ => Procedure.ext named args returns, fun same => same ▸ ⟨rfl, rfl⟩⟩
  · have kind : ∃ kind, BlockKind.ofName? d.call.kind = some kind ∧
        kind.calls? (d.call.filled kind) ⟨.ofList [("name", d.name)], []⟩ = some d.name := by
      unfold Procedure.call
      cases d.returns with
      | false => exact ⟨.proceduresCallNoReturn, rfl, rfl⟩
      | true => exact ⟨.proceduresCallReturn, rfl, rfl⟩
    obtain ⟨kind, known, calls⟩ := kind
    obtain ⟨inserted, after, made⟩ := exists_confirm built.wellFormed built.distinct read
      (Option.isSome_iff_exists.mpr ⟨kind, known⟩)
    obtain ⟨call, present, same, shaped⟩ :=
      confirm_shapes built.wellFormed built.distinct made known read
    refine ⟨inserted, after, call, made, present, same, ?_⟩
    have sockets : call.sockets.map Socket.spec = _ := congrArg Shape.sockets shaped
    have asked : s.workspace.surroundings.procedureArguments d.name = some n.mutation.args :=
      congrArg (Option.map fun n : Node => n.mutation.args) found
    have arity : s.workspace.surroundings.arity d.name = n.mutation.args.length := by
      rw [Surroundings.arity, asked]
      rfl
    rw [sockets, BlockKind.sockets_of_calls? calls, arity]

/-- The call of a procedure with one argument that is declared once has one input. -/
theorem offered_call_finds_argument :
    let definition : Block := ⟨"procedures_defnoreturn", none, .ofList [("NAME", .string "foo")],
      some "<mutation><arg name=\"x\"></arg></mutation>", [], none⟩
    let ws := ((Workspace.empty ∅).append ∅ definition).2.workspace
    let s := start ws {}
    let d : Procedure := ⟨"foo", ["x"], false⟩
    d ∈ (Declarations.collect ws none).procedures ∧
      ∃ inserted after call, (confirm d.call).on s = (.ok inserted, after) ∧
        after.workspace.node? inserted.node = some call ∧ call.kind = "procedures_callnoreturn" ∧
        call.sockets.map Socket.spec = SocketSpec.numbered "ARG" .any 1 := by
  intro definition ws s d
  have built : Workspace.Built ∅ ws := Workspace.Built.empty.append ∅ definition
  have listed : d ∈ (Declarations.collect ws none).procedures := by decide +kernel
  have args : (ws.procedure? d.name).map (·.mutation.args) = some ["x"] := by
    decide +kernel
  have read : Mutation.ofExtraState d.call.extraState = .ok ⟨.ofList [("name", d.name)], []⟩ := by
    decide +kernel
  -- Nothing else about the graph counts.
  clear_value ws
  obtain ⟨n, p, found, _, _, o, offered, picks⟩ := offered_call_finds (s := s) built listed
  -- The option is the one that is written out here.
  have same : d.call = o :=
    (offered d.call).mp ((Workspace.mem_options_call_iff ∅ listed).mpr rfl)
  have own : n.mutation.args = ["x"] :=
    Option.some.inj ((congrArg (Option.map fun n : Node => n.mutation.args) found).symm.trans args)
  rw [← same, own] at picks
  exact ⟨listed, picks read⟩

-- Of two definitions of a name the first is found, although the second comes before it in the order
-- of procedures, so that the second is listed.
example :
    let definition (kind : String) (document : Option String) : Block :=
      ⟨kind, none, .ofList [("NAME", .string "foo")], document, [], none⟩
    let first := ((Workspace.empty ∅).append ∅ (definition "procedures_defreturn"
      (some "<mutation><arg name=\"x\"></arg></mutation>"))).2.workspace
    let ws := (first.append ∅ (definition "procedures_defnoreturn" none)).2.workspace
    ws.procedureNodes = [⟨"foo", ["x"], true⟩, ⟨"foo", [], false⟩] ∧
      Procedure.le ⟨"foo", ["x"], true⟩ ⟨"foo", [], false⟩ = false ∧
      (ws.procedure? "foo").map (·.mutation.args) = some ["x"] := by
  decide +kernel

end Session

end QuickEntry
