import QuickEntry.Proofs.Catalog
import QuickEntry.Proofs.Insertion
import QuickEntry.Proofs.Template

/-! Options that the catalog offers can be picked, and make the node that their template describes,
exactly if a document carries the settings of the template. -/

namespace QuickEntry

namespace Session

variable {s after : Session} {o : BlockOption} {inserted : Insertion}

/-- An option of a known kind with a readable structural state is not refused. -/
theorem exists_confirm (wf : s.workspace.WellFormed) (distinct : s.workspace.Distinct)
    {mutation : Mutation} (read : Mutation.ofExtraState o.extraState = .ok mutation)
    (known : (BlockKind.ofName? o.kind).isSome = true) :
    ∃ inserted after, (confirm o).on s = (.ok inserted, after) := by
  -- The state is read and the kind is known, which are the only ways to fail.
  obtain ⟨kind, known⟩ := Option.isSome_iff_exists.mp known
  have cases := on_confirm_cases ⟨True, True, True⟩ o wf distinct
  rw [read, known] at cases
  obtain ⟨_, _, _, _, _, _, _, _, made⟩ := cases
  exact ⟨_, _, made⟩

/-- The node of an option that is not refused is the one that was created for it, in its place. -/
theorem confirm_node (wf : s.workspace.WellFormed) (distinct : s.workspace.Distinct)
    (made : (confirm o).on s = (.ok inserted, after)) :
    ∃ mutation kind bare full sets n, Mutation.ofExtraState o.extraState = .ok mutation ∧
      BlockKind.ofName? o.kind = some kind ∧
      Draft.Created ⟨True, True, True⟩ o kind mutation s.workspace bare full sets ∧
      after.workspace.node? inserted.node = some n ∧
      n = { full with parent := n.parent, next := n.next } := by
  -- The confirmed node is the created one, with a place and a follower if it was attached.
  have cases := on_confirm_cases ⟨True, True, True⟩ o wf distinct
  rw [made] at cases
  split at cases
  · rename_i mutation kind read known
    obtain ⟨bare, full, sets, command, attachment, created, _, proposal, same⟩ := cases
    cases same
    have fresh := created.fresh
    -- A place makes no difference to what the node is.
    cases attachment with
    | none =>
      exact ⟨mutation, kind, bare, full, sets, full, read, known, created,
        Workspace.Fresh.found full, rfl⟩
    | some a =>
      obtain ⟨_, _, _, holder, enter⟩ := fresh.canEnter wf distinct proposal.symm
      exact ⟨mutation, kind, bare, full, sets, _, read, known, created,
        fresh.node?_grown_self wf enter, rfl⟩
  · obtain ⟨e, refused⟩ := cases
    cases refused

/-- The node of an option that is not refused is a new one, and is selected. -/
theorem confirm_selects (wf : s.workspace.WellFormed) (distinct : s.workspace.Distinct)
    (made : (confirm o).on s = (.ok inserted, after)) :
    s.workspace.node? inserted.node = none ∧
      after.document.canvas.selection = some inserted.node := by
  -- What is confirmed is selected, and its number was not given to any node before.
  have cases := on_confirm_cases ⟨True, True, True⟩ o wf distinct
  rw [made] at cases
  split at cases
  · obtain ⟨_, _, _, _, _, created, _, _, same⟩ := cases
    cases same
    exact ⟨created.fresh.absent wf, rfl⟩
  · obtain ⟨e, refused⟩ := cases
    cases refused

/-- The node of an option that is not refused has the kind, the field values and the structural
state of the option. -/
theorem confirm_creates (wf : s.workspace.WellFormed) (distinct : s.workspace.Distinct)
    (made : (confirm o).on s = (.ok inserted, after)) :
    ∃ mutation n, Mutation.ofExtraState o.extraState = .ok mutation ∧
      after.workspace.node? inserted.node = some n ∧ n.kind = o.kind ∧ n.mutation = mutation ∧
      ∀ e ∈ o.entries, n.field? e.1 = some e.2 := by
  -- The presets of the option are distinct fields, so the last value of each is the one that is
  -- given.
  obtain ⟨mutation, kind, bare, full, sets, n, read, _, created, present, same⟩ :=
    confirm_node wf distinct made
  have variant := created.retouched.variant
  rw [same] at present
  refine ⟨mutation, _, read, present, variant.kind.trans created.made.kind,
    variant.mutation.trans created.made.mutation, fun e member => ?_⟩
  have given : o.entries.lookup e.1 = some e.2 :=
    OrderedMap.get?_of_mem (m := ⟨o.entries, o.nodup_entries⟩) member
  have filled : full.field? e.1 = some e.2 := by
    rw [Node.field?, created.filled, o.get?_filled, given]
    rfl
  exact filled

/-- The node of an option that is not refused has the shape that its kind derives in the graph
before. -/
theorem confirm_shapes (wf : s.workspace.WellFormed) (distinct : s.workspace.Distinct)
    (made : (confirm o).on s = (.ok inserted, after)) {kind : BlockKind}
    (known : BlockKind.ofName? o.kind = some kind) {mutation : Mutation}
    (read : Mutation.ofExtraState o.extraState = .ok mutation) :
    ∃ n, after.workspace.node? inserted.node = some n ∧ n.kind = o.kind ∧
      n.connectors = kind.shape (o.filled kind) mutation s.workspace.surroundings := by
  obtain ⟨mutation', kind', bare, full, sets, n, read', known', created, present, same⟩ :=
    confirm_node wf distinct made
  cases read.symm.trans read'
  cases known.symm.trans known'
  have variant := created.retouched.variant
  have named : full.kind = o.kind := variant.kind.trans created.made.kind
  have state : full.mutation = mutation := variant.mutation.trans created.made.mutation
  -- A place makes no difference to the shape.
  have shaped : n.connectors = full.connectors := by rw [same]; rfl
  have derived := created.current (wf.node?_next rfl)
  rw [Workspace.Current, Workspace.shapeOf_of_known (named ▸ known), created.filled,
    state] at derived
  exact ⟨n, present, same ▸ named, shaped.trans (Except.ok.inj derived).symm⟩

/-- In every session whose graph was built from descriptions of blocks, each option of the present
catalog comes from a template under its display text. The option can be picked, and makes a node
with its kind, its field values and exactly the settings of the template, if and only if a document
carries each value of these settings. -/
theorem offered_option_makes_iff (database : ComponentDatabase) (settings : Settings)
    (actions : List Action) :
    let s := (start (.empty database) settings).after actions
    Workspace.Built database s.workspace → ∀ o ∈ s.presentCatalog.options,
      ∃ t, (s.declarations.templates database).get? o.displayText = some t ∧
        t.toOption o.displayText = .ok o ∧
        ((∃ inserted after n, (confirm o).on s = (.ok inserted, after) ∧
            after.workspace.node? inserted.node = some n ∧ n.kind = o.kind ∧
            (∀ e ∈ o.entries, n.field? e.1 = some e.2) ∧ n.mutation.attributes = t.settings) ↔
          ∀ value ∈ t.settings.values, Mutation.Carried value) := by
  -- The option comes from a template that can be offered, so only its settings may be lost on the
  -- way through the written state.
  intro s built o offered
  have current : s.presentCatalog = .build s.declarations database :=
    presentCatalog_after database settings actions
  rw [current] at offered
  obtain ⟨t, found, offers⟩ := mem_optionsOf_iff.mp (List.mem_toArray.mp offered)
  have sound := Declarations.sound_of_get? found
  refine ⟨t, found, offers, ?_⟩
  rw [← sound.settings_come_back_iff offers]
  constructor
  · rintro ⟨inserted, after, n, made, present, _, _, attributes⟩
    obtain ⟨mutation, m, read, present', _, same, _⟩ :=
      confirm_creates built.wellFormed built.distinct made
    cases present.symm.trans present'
    exact ⟨mutation, read, same ▸ attributes⟩
  · rintro ⟨mutation, read, attributes⟩
    have known : (BlockKind.ofName? o.kind).isSome = true := by
      have known := sound.known
      rwa [(Template.toOption_eq_ok offers).2.1] at known
    obtain ⟨inserted, after, made⟩ := exists_confirm built.wellFormed built.distinct read known
    obtain ⟨mutation', n, read', present, kind, same, fields⟩ :=
      confirm_creates built.wellFormed built.distinct made
    cases read.symm.trans read'
    exact ⟨inserted, after, n, made, present, kind, fields, same ▸ attributes⟩

/-- A declared procedure offers a call, which can be picked and says the name of the procedure. -/
theorem offered_option_makes_call :
    let definition : Block :=
      ⟨"procedures_defnoreturn", none, .ofList [("NAME", .string "foo")], none, [], none⟩
    let o : BlockOption := ⟨"procedures_callnoreturn", "call foo",
      some (.ofList [("PROCNAME", "foo")]), some "<mutation name=\"foo\"></mutation>"⟩
    let s := (start (.empty ∅) {}).after [.append ∅ definition]
    o ∈ s.presentCatalog.options ∧
      ∃ inserted after n, (confirm o).on s = (.ok inserted, after) ∧
        after.workspace.node? inserted.node = some n ∧
        n.mutation.attributes = .ofList [("name", "foo")] := by
  -- A procedure is defined, so a call of it is offered.
  intro definition o
  let t : Template :=
    ⟨some "procedures_callnoreturn", some ⟨some "PROCNAME", some "foo"⟩, .ofList [("name", "foo")]⟩
  dsimp only
  have built : Workspace.Built ∅ ((start (.empty ∅) {}).after [.append ∅ definition]).workspace :=
    Workspace.Built.empty.append ∅ definition
  have catalog := presentCatalog_after ∅ {} [.append ∅ definition]
  have makes := offered_option_makes_iff ∅ {} [.append ∅ definition] built
  have found : (((start (.empty ∅) {}).after [.append ∅ definition]).declarations.templates
      ∅).get? "call foo" = some t := by decide +kernel
  have offers : t.toOption "call foo" = .ok o := by decide +kernel
  -- Nothing else about the session counts.
  generalize (start (.empty ∅) {}).after [.append ∅ definition] = s at catalog makes found ⊢
  have offered : o ∈ s.presentCatalog.options := by
    rw [catalog]
    exact List.mem_toArray.mpr (mem_optionsOf_iff.mpr ⟨t, found, offers⟩)
  obtain ⟨t', found', _, makes⟩ := makes o offered
  cases found.symm.trans found'
  have carried : ∀ value ∈ t.settings.values, Mutation.Carried value := by
    have values : t.settings.values = ["foo"] := by decide +kernel
    have letters : "foo".toList.all (fun c => Markup.isLegal c && !Markup.isSpace c) = true := by
      decide +kernel
    rw [values, List.forall_mem_singleton]
    refine ⟨fun c member => ?_, fun c member space => ?_, by decide +kernel⟩
    · exact (Bool.and_eq_true_iff.mp (List.all_eq_true.mp letters c member)).1
    · have none := (Bool.and_eq_true_iff.mp (List.all_eq_true.mp letters c member)).2
      rw [space] at none
      cases none
  obtain ⟨inserted, after, n, made, present, _, _, attributes⟩ := makes.mpr carried
  exact ⟨offered, inserted, after, n, made, present, attributes⟩

end Session

end QuickEntry
