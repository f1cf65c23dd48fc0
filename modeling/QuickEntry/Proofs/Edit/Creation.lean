import QuickEntry.Proofs.Edit.Traced

/-! Creating the node of an option: when it succeeds, what it leaves, and that it stays on the
trail. -/

namespace QuickEntry

variable {g : Grain} {again : Prop}

namespace BlockOption

/-- The field values that an option sets, in their order. -/
def entries (o : BlockOption) : List (String × String) :=
  (o.fields.map (·.entries)).getD []

/-- The fields of a new node of a kind after an option has set its values. -/
def filled (o : BlockOption) (kind : BlockKind) : OrderedMap String String :=
  o.entries.foldl (fun fields entry => fields.put entry.1 (some entry.2))
    (.ofList kind.defaultFields)

/-- An option gives each of its fields one value. -/
theorem nodup_entries (o : BlockOption) : (o.entries.map Prod.fst).Nodup := by
  -- The fields are a map, in which no name comes twice.
  unfold entries
  cases o.fields with
  | none => exact List.nodup_nil
  | some fields => exact fields.keys_nodup

/-- A field has the value of the option, or else the default of the kind. -/
theorem get?_filled (o : BlockOption) (kind : BlockKind) (name : String) :
    (o.filled kind).get? name =
      (o.entries.lookup name).or ((OrderedMap.ofList kind.defaultFields).get? name) := by
  -- A preset overrides the default of its field.
  have filled := OrderedMap.get?_foldl_insert o.nodup_entries id (.ofList kind.defaultFields) name
  rw [Option.map_id] at filled
  exact filled

/-- The order of the values does not matter to what the fields are filled with. -/
theorem same_filled {o o' : BlockOption} (perm : o'.entries.Perm o.entries) (kind : BlockKind) :
    (o.filled kind).Same (o'.filled kind) := by
  -- A value is looked up by its name.
  intro name
  have given : o'.entries.lookup name = o.entries.lookup name :=
    OrderedMap.same_of_perm (a := ⟨_, o'.nodup_entries⟩) (b := ⟨_, o.nodup_entries⟩) perm name
  rw [get?_filled, get?_filled, given]

/-- The procedure whose declaration decides the inputs of the node that an option makes, if it sets
fields at all. -/
def calls? (o : BlockOption) : Option String :=
  -- Without field values the shape is derived only once, when the node is made.
  match BlockKind.ofName? o.kind, Mutation.ofExtraState o.extraState with
  | some kind, .ok mutation =>
    if o.entries.isEmpty then none else kind.calls? (o.filled kind) mutation
  | _, _ => none

end BlockOption

namespace Draft

/-- Setting the fields of a detached node of a known kind succeeds, and retouches the node until it
has these fields. -/
theorem on_setFields {id : NodeId} (entries : List (String × String)) :
    ∀ {d : Draft} {x : Node}, d.canvas.workspace.node? id = some x → x.isDetached = true →
      (∃ kind, BlockKind.ofName? x.kind = some kind) →
      ∃ sets y, (entries.forM fun (name, value) => setField id name (some value)).on d =
          (.ok (), ⟨{ d.canvas with workspace := d.canvas.workspace.replaced id y },
            sets.reverse ++ d.log⟩) ∧
        Retouched g d.canvas.workspace id x sets y ∧
        y.fields = entries.foldl (fun fields entry => fields.put entry.1 (some entry.2)) x.fields ∧
        (sets = [] ↔ entries = []) := by
  -- By induction on the values, each set on the node as the earlier ones have left it.
  induction entries with
  | nil =>
    intro d x found detached _
    refine ⟨[], x, ?_, .nil detached, rfl, by simp⟩
    rw [Workspace.replaced_self found]
    rfl
  | cons entry rest ih =>
    intro d x found detached known
    obtain ⟨name, value⟩ := entry
    obtain ⟨kind, listed⟩ := known
    -- One field is set, and then the others on the node that this leaves.
    have back : g.Fields ((x.fields.put name (some value)).put name (x.field? name)) x.fields := by
      rw [Node.field?, OrderedMap.put_put_of_get?]
      exact .refl _
    obtain ⟨y, made, first, fields⟩ :=
      Retouched.single found detached listed name (some value) back
    have found' : (d.canvas.workspace.replaced id y).node? id = some y := by
      rw [Workspace.node?_replaced found, if_pos rfl]
    obtain ⟨sets, z, others, second, filled, _⟩ :=
      ih (d := ⟨{ d.canvas with workspace := d.canvas.workspace.replaced id y },
        .setField id name (x.field? name) (some value) :: d.log⟩) found' first.variant.detached'
        ⟨kind, first.variant.kind ▸ listed⟩
    refine ⟨.setField id name (x.field? name) (some value) :: sets, z, ?_,
      first.append found second, ?_, by simp⟩
    · have unfolded : (((name, value) :: rest).forM fun (name, value) =>
          setField id name (some value)) = record (Canvas.setField id name (some value)) >>=
            fun _ => rest.forM fun (name, value) => setField id name (some value) := rfl
      rw [unfolded, Attempt.on_bind, on_record, Canvas.on_setField, made]
      simp only
      rw [others, Workspace.replaced_replaced found]
      simp
    · rw [filled, fields]
      rfl

/-- What the creation of an option's node goes through: a bare node is made and gets its fields. -/
structure Created (g : Grain) (o : BlockOption) (kind : BlockKind) (mutation : Mutation)
    (ws : Workspace) (bare full : Node) (sets : List Command) : Prop where
  made : ws.Made o.kind mutation bare
  retouched : Retouched g (ws.counted.added bare) full.id bare sets full
  filled : full.fields = o.filled kind
  empty : sets = [] ↔ o.entries = []

/-- Creating the node of an option succeeds exactly if its structural state can be read, its kind is
known, and no node has the next number. Otherwise no node changes; the number is used up if it is
the trouble. -/
theorem on_instantiate (g : Grain) (o : BlockOption) (d : Draft) :
    match Mutation.ofExtraState o.extraState, BlockKind.ofName? o.kind,
      d.canvas.workspace.node? ⟨d.canvas.workspace.nextNumber⟩ with
    | .error e, _, _ => (instantiate o).on d = (.error e, d)
    | .ok _, none, _ => (instantiate o).on d = (.error (.unknownKind o.kind), d)
    | .ok _, some _, some _ => (instantiate o).on d =
        (.error (.duplicateNode ⟨d.canvas.workspace.nextNumber⟩),
          ⟨{ d.canvas with workspace := d.canvas.workspace.counted }, d.log⟩)
    | .ok mutation, some kind, none => ∃ bare full sets,
      Created g o kind mutation d.canvas.workspace bare full sets ∧
      (instantiate o).on d = (.ok full.id,
        ⟨{ d.canvas with workspace := d.canvas.workspace.counted.added full },
          sets.reverse ++ .create bare :: d.log⟩) := by
  have unfolded : instantiate o = Attempt.ofExcept (Mutation.ofExtraState o.extraState) >>=
      fun mutation => make o.kind mutation >>= fun node => record (Canvas.create node) >>=
        fun _ => (o.entries.forM fun (name, value) => setField node.id name (some value)) >>=
          fun _ => pure node.id := rfl
  obtain ⟨⟨ws, selection⟩, log⟩ := d
  rw [unfolded, Attempt.on_bind, Attempt.on_ofExcept]
  cases Mutation.ofExtraState o.extraState with
  | error e => rfl
  | ok mutation =>
    simp only [Attempt.on_bind, on_make, on_record, Canvas.on_create]
    cases known : BlockKind.ofName? o.kind with
    | none =>
      have refused : ws.make o.kind mutation = .error (.unknownKind o.kind) := by
        rw [Workspace.make, known]
      simp only [refused]
    | some kind =>
      -- The node is made under the next number, whether it is free or not.
      obtain ⟨bare, made, is⟩ := ws.make_of_known known mutation
      cases taken : ws.node? ⟨ws.nextNumber⟩ with
      | some other =>
        have duplicate : ws.counted.contains bare.id = true := by
          rw [is.id]
          exact OrderedMap.contains_iff.mpr ⟨other, taken⟩
        have refused : ws.counted.insert bare = .error (.duplicateNode ⟨ws.nextNumber⟩) := by
          rw [Workspace.insert, if_pos duplicate, is.id]
        simp only [made, refused]
      | none =>
        have absent : ws.counted.node? bare.id = none := is.id ▸ taken
        have inserted : ws.counted.insert bare = .ok (ws.counted.added bare) :=
          Workspace.insert_eq_ok_iff.mpr ⟨absent, is.detached, rfl⟩
        -- Its fields are set one by one.
        have found : (ws.counted.added bare).node? bare.id = some bare := by
          rw [Workspace.node?_added, if_pos rfl]
        obtain ⟨sets, full, dressed, retouched, filled, empty⟩ :=
          on_setFields (g := g) o.entries (d := ⟨⟨ws.counted.added bare, selection⟩,
            .create bare :: log⟩) found is.detached ⟨kind, is.kind ▸ known⟩
        have own : full.id = bare.id := retouched.variant.id
        rw [Workspace.replaced_added own] at dressed
        refine ⟨bare, full, sets, ⟨is, own ▸ retouched, ?_, empty⟩, ?_⟩
        · obtain ⟨kind', known', defaults⟩ := is.known
          rw [is.kind, known] at known'
          cases known'
          rw [filled, defaults]
          rfl
        · simp only [made, inserted, dressed, own]
          rfl

/-- What the created node calls was known from the option. -/
theorem Created.calls?_eq {o : BlockOption} {kind : BlockKind} {mutation : Mutation}
    {ws : Workspace} {bare full : Node} {sets : List Command}
    (created : Created g o kind mutation ws bare full sets)
    (known : BlockKind.ofName? o.kind = some kind)
    (read : Mutation.ofExtraState o.extraState = .ok mutation) (some : sets ≠ []) :
    full.calls? = o.calls? := by
  -- Kind, structural state and fields are those of the option.
  have entries : o.entries.isEmpty = false := by
    rw [List.isEmpty_eq_false_iff]
    exact some ∘ created.empty.mpr
  have variant := created.retouched.variant
  simp only [Node.calls?, BlockOption.calls?, variant.kind, created.made.kind, known,
    variant.mutation, created.made.mutation, created.filled, read, entries, Option.bind_some,
    Bool.false_eq_true, if_false]

/-- A created node is remade from its bare form wherever the procedure that it calls is settled. -/
theorem Created.remade {o : BlockOption} {kind : BlockKind} {mutation : Mutation}
    {ws : Workspace} {bare full : Node} {sets : List Command}
    (created : Created g o kind mutation ws bare full sets)
    (absent : ws.counted.node? bare.id = none)
    (settles : ∀ {name}, sets ≠ [] → full.calls? = some name → ws.Settles g name) :
    ws.counted.Remade g bare full sets := by
  -- Setting the presets has derived the shape again; without any the node is as it was created.
  constructor
  · -- Without field values the node stays bare.
    intro none
    rw [created.retouched.unset none]
    exact .refl bare
  · intro some
    have current := created.retouched.set some
    rw [Workspace.Current,
      Workspace.shapeOf_added absent created.retouched.variant.kind.symm] at current
    exact ⟨current, fun calls => settles some calls⟩

/-- Creating the node of an option keeps a draft traced. If the commands are to be made again, the
procedure that the node calls has to be settled. -/
theorem traces_instantiate {start : Canvas} (o : BlockOption) :
    (instantiate o).Ensures
      (fun d => Traced g again start d ∧
        (again → ∀ {name}, o.calls? = some name → d.canvas.workspace.Settles g name))
      (fun _ => Traced g again start) (Traced g again start) := by
  -- A refusal comes before anything is recorded. Otherwise the creation and its field values are
  -- one turn of the log.
  intro d ⟨traced, settles⟩
  have outcome := on_instantiate g o d
  rw [traced.wf.node?_next rfl] at outcome
  have wf := (Workspace.invariant_wellFormed.instantiate o).on traced.wf
  cases read : Mutation.ofExtraState o.extraState with
  | error e =>
    rw [read] at outcome
    rw [outcome]
    exact traced
  | ok mutation =>
    cases known : BlockKind.ofName? o.kind with
    | none =>
      rw [read, known] at outcome
      rw [outcome]
      exact traced
    | some kind =>
      rw [read, known] at outcome
      obtain ⟨bare, full, sets, created, made⟩ := outcome
      rw [made] at wf ⊢
      -- The number that is used up does not show, and the node is born under it.
      have same : d.canvas.Alike g { d.canvas with workspace := d.canvas.workspace.counted } :=
        (Canvas.Alike.refl d.canvas).withWorkspace
          ⟨(Workspace.Alike.refl d.canvas.workspace).nodes, fun _ => rfl, rfl⟩
      have variant := created.retouched.variant
      have free : d.canvas.workspace.node? bare.id = none := traced.wf.node?_next created.made.id
      have absent : d.canvas.workspace.node? full.id = none := variant.id ▸ free
      have born : Turn g again _ (.create bare :: sets) _ :=
        .born (c := { d.canvas with workspace := d.canvas.workspace.counted }) absent variant
          (fun _ => ⟨kind, by rw [variant.kind, created.made.kind, known]⟩)
          created.retouched.refilled fun more => created.remade free fun some calls =>
            settles more ((created.calls?_eq known read some).symm.trans calls)
      have next := (traced.alike same (traced.wf.counted)).turn born wf
      simpa using next

end Draft

end QuickEntry
