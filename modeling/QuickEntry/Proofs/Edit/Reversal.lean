import QuickEntry.Proofs.Edit.Trail

/-! Reverting a trail leads back to where it started, and leaves a trail that leads on again. -/

namespace QuickEntry

variable {g : Grain} {again : Prop}

/-- What reverting a list of commands gives: a canvas like the one at the start of the trail, and a
trail to it, if the commands can be made again. -/
def Reverted (g : Grain) (again : Prop) (a : Canvas) (commands : List Command) (b b' : Canvas) :
    Prop :=
  -- The reverting starts from a canvas that is like the end of the trail.
  ∀ nesting, ∃ redos a', Reverts nesting commands.reverse b' redos a' ∧ a.Alike g a' ∧
    (again → Trail g again b redos a)

section Turns

variable {c b' : Canvas} {bare full : Node} {sets : List Command}

/-- A created node can be taken back, with its fields. -/
theorem reverted_born (absent : c.workspace.node? full.id = none) (variant : bare.Variant full)
    (known : sets ≠ [] → ∃ kind, BlockKind.ofName? full.kind = some kind)
    (filled : Refilled g full.id bare.fields sets full.fields)
    (remade : again → c.workspace.Remade g bare full sets)
    (alike : ({ c with workspace := c.workspace.added full } : Canvas).Alike g b') :
    Reverted g again c (.create bare :: sets) { c with workspace := c.workspace.added full }
      b' := by
  intro nesting
  -- The node is there, and loses its fields.
  have born : (c.workspace.added full).node? full.id = some full := by
    rw [Workspace.node?_added, if_pos rfl]
  obtain ⟨x, found, same⟩ := alike.workspace.node? born
  have loose := Node.Variant.of_alike same variant.detached'
  obtain ⟨redos, y, taken⟩ :=
    filled.revert nesting found loose.detached' (fun some => loose.kind ▸ known some) same.fields
  have variant' := taken.retouched.variant
  -- Bare as it is, it can be removed.
  have there : (b'.workspace.replaced full.id y).node? full.id = some y := by
    rw [Workspace.node?_replaced found, if_pos rfl]
  have removed : (b'.workspace.replaced full.id y).remove bare.id =
      .ok (y, b'.workspace.without full.id) := by
    rw [← variant.id]
    exact Workspace.remove_eq_ok_iff.mpr
      ⟨there, variant'.detached', (Workspace.without_replaced found y).symm⟩
  refine ⟨redos ++ [.delete y], { b' with workspace := b'.workspace.without full.id }, ?_, ?_, ?_⟩
  · rw [List.reverse_cons]
    exact taken.reverts.append (.cons (Canvas.on_revert_create removed) .nil)
  · have gone := (Workspace.alike_without_added absent).trans (alike.workspace.without full.id)
    exact ⟨gone, alike.selection⟩
  · intro more
    have start : Refilled g full.id full.fields [] x.fields := .alike same.fields
    refine .turn (.gone absent (variant'.symm.trans loose.symm)
      (fun some => known (some ∘ taken.empty.mpr)) (start.append taken.retouched.refilled) ?_)
    refine ⟨fun none => ?_, fun some => (remade more).set (some ∘ taken.empty.mpr)⟩
    rw [taken.retouched.unset none]
    exact same.symm

/-- A deleted node that is bare again and gets its fields back is what it was. -/
theorem Workspace.Remade.alike {ws ws' : Workspace} (remade : ws.Remade g bare full sets)
    (alike : ws.Alike g ws') (variant : bare.Variant full) (free : ws'.node? bare.id = none)
    {redos : List Command} {y : Node}
    (retouched : Retouched g (ws'.added bare) full.id bare redos y)
    (empty : redos = [] ↔ sets = []) (fields : g.Fields full.fields y.fields) :
    full.Alike g y := by
  -- Without presets both nodes are the bare one; otherwise both derive their shape from like
  -- fields.
  by_cases none : sets = []
  · rw [retouched.unset (empty.mpr none)]
    exact (remade.unset none).symm
  · -- The shape that it derives now is the one that it derived before.
    have variant' := retouched.variant
    have derived := retouched.set (none ∘ empty.mp)
    rw [Current, shapeOf_added free variant'.kind.symm,
      (remade.set none).shapeOf_eq alike (variant.kind.trans variant'.kind.symm)
        (variant.mutation.trans variant'.mutation.symm) fields.same] at derived
    exact (variant.symm.trans variant').alike fields (Except.ok.inj derived).symm

/-- A deleted node can be brought back, with its fields. -/
theorem reverted_gone (absent : c.workspace.node? full.id = none) (variant : bare.Variant full)
    (known : sets ≠ [] → ∃ kind, BlockKind.ofName? full.kind = some kind)
    (emptied : Refilled g full.id full.fields sets bare.fields)
    (remade : c.workspace.Remade g bare full sets) (alike : c.Alike g b') :
    Reverted g again { c with workspace := c.workspace.added full } (sets ++ [.delete bare]) c
      b' := by
  intro nesting
  -- The bare node is inserted again.
  have free : b'.workspace.node? bare.id = none := by
    rw [← variant.id]
    exact alike.workspace.node?_eq_none absent
  have inserted : b'.workspace.insert bare = .ok (b'.workspace.added bare) :=
    Workspace.insert_eq_ok_iff.mpr ⟨free, variant.detached, rfl⟩
  have found : (b'.workspace.added bare).node? full.id = some bare := by
    rw [Workspace.node?_added, if_pos variant.id]
  -- Then it gets its fields again.
  obtain ⟨redos, y, taken⟩ :=
    emptied.revert nesting (c := { b' with workspace := b'.workspace.added bare }) found
      variant.detached (fun some => variant.kind ▸ known some) (.refl _)
  have same : full.Alike g y :=
    remade.alike alike.workspace variant free taken.retouched taken.empty taken.fields
  have last : (b'.workspace.added bare).replaced full.id y = b'.workspace.added y := by
    rw [variant.id]
    exact Workspace.replaced_added taken.retouched.variant.id
  refine ⟨.create bare :: redos, { b' with workspace := b'.workspace.added y }, ?_, ?_, ?_⟩
  · have reverts := taken.reverts
    rw [last] at reverts
    rw [List.reverse_append]
    exact .cons (Canvas.on_revert_delete inserted) reverts
  · exact ⟨alike.workspace.added same, alike.selection⟩
  · intro _
    have last : Refilled g full.id y.fields [] full.fields := .alike taken.fields.symm
    have filled := taken.retouched.refilled.append last
    rw [List.append_nil] at filled
    exact .turn (.born absent variant (fun some => known (some ∘ taken.empty.mpr)) filled fun _ =>
      ⟨fun none => remade.unset (taken.empty.mp none),
        fun some => remade.set (some ∘ taken.empty.mpr)⟩)

/-- A moved node can be moved back. -/
theorem reverted_moved {ws : Workspace} {child : NodeId} {source target : Option Link}
    (linked : c.workspace.Linked) (made : c.workspace.Moved child source target ws)
    (alike : ({ c with workspace := ws } : Canvas).Alike g b') (wf : b'.workspace.WellFormed) :
    Reverted g again c [.move child source target] { c with workspace := ws } b' := by
  intro nesting
  -- The move back can be made in every graph that is like this one.
  obtain ⟨ws', moved, same⟩ := (made.back linked).congr alike.workspace
  refine ⟨[.move child target source], { b' with workspace := ws' }, ?_,
    ⟨same, alike.selection⟩, ?_⟩
  · exact .cons (Canvas.on_revert_move (wf.toLinked.on_move_eq_ok_iff.mpr moved)) .nil
  · intro _
    exact .turn (.moved (c := { c with workspace := ws }) (made.linked linked) (made.back linked))

/-- A selection can be taken back. -/
theorem reverted_selected {id : Option NodeId}
    (alike : ({ c with selection := id } : Canvas).Alike g b') :
    Reverted g again c [.select c.selection id] { c with selection := id } b' := by
  intro nesting
  -- Nothing is asked about the nodes.
  refine ⟨[.select id c.selection], { b' with selection := c.selection }, ?_,
    ⟨alike.workspace, fun _ => rfl⟩, ?_⟩
  · exact .cons (Canvas.on_revert_select c.selection id b') .nil
  · intro _
    exact .turn (.selected (c := { c with selection := id }))

section Changed

variable {id : NodeId} {n x : Node} {shape : Shape} {name : String} {value : Option String}

/-- A changed node that gets its old value and its old shape is what it was. -/
theorem Node.Alike.restored (same : ((n.withField name value).reshape shape).Alike g x)
    (back : g.Fields ((n.fields.put name value).put name (n.field? name)) n.fields)
    (names : n.connectors.Distinct) (distinct : shape.Distinct)
    (first : (n.withField name value).FirstOnly)
    (survives : (n.withField name value).Survives shape) :
    n.Alike g ((x.withField name (n.field? name)).reshape n.connectors) := by
  -- The old shape gives back the old connectors and links.
  have round : ((n.withField name value).reshape shape).reshape n.connectors =
      n.withField name value :=
    Node.reshape_back (n := n.withField name value) names distinct first survives
  refine ⟨back.symm.trans (same.fields.put name (n.field? name)), ?_⟩
  rw [same.rest]
  show { ((n.withField name value).reshape shape).reshape n.connectors with
    fields := x.fields.put name (n.field? name) } = _
  rw [round]
  rfl

/-- A changed node keeps its links in its old shape. -/
theorem Workspace.Linked.keepsLinks_back {ws ws' : Workspace} (linked : ws.Linked)
    (found : ws.node? id = some n)
    (alike : (ws.replaced id ((n.withField name value).reshape shape)).Alike g ws')
    (same : ((n.withField name value).reshape shape).Alike g x)
    (distinct : shape.Distinct) (survives : (n.withField name value).Survives shape)
    (old : Option String) : ws'.KeepsLinks id (x.withField name old) n.connectors := by
  -- Its links are those that it had in that shape, and no other node has changed.
  have first : (n.withField name value).FirstOnly := linked.first (n := n) found
  refine linked.keepsLinks found (fun other apart => ?_) ?_ (fun place => ?_) ?_
  · rw [alike.connectors_eq]
    show ((ws.replaced id _).node? other).map Node.connectors = _
    rw [Workspace.node?_replaced found, if_neg apart]
  · have again := Node.survives_back (n.withField name value) shape
    unfold Node.Survives at again ⊢
    show ∀ s ∈ x.sockets, _
    rw [same.sockets_eq]
    exact again
  · have occupied := same.occupant_eq place
    rw [Node.occupant_reshape first distinct survives] at occupied
    cases place <;> exact occupied
  · exact same.parent_eq

/-- A field can be set back to what it was, if the node had the shape that it derives. -/
theorem reverted_changed {ws : Workspace} {old : Option String} (once : ¬again)
    (linked : c.workspace.Linked) (found : c.workspace.node? id = some n)
    (steady : c.workspace.Steady g n)
    (back : g.Fields ((n.fields.put name value).put name (n.field? name)) n.fields)
    (made : c.workspace.setField id name value = .ok (old, ws))
    (alike : ({ c with workspace := ws } : Canvas).Alike g b') (wf : b'.workspace.WellFormed) :
    Reverted g again c [.setField id name old value] { c with workspace := ws } b' := by
  intro nesting
  obtain ⟨k, shape, there, derived, keeps, rfl, rfl⟩ :=
    (Workspace.setField_eq_ok_iff linked).mp made
  cases found.symm.trans there
  -- The node of the other graph is the changed one, up to the order of fields.
  have changed : (c.workspace.replaced id ((n.withField name value).reshape shape)).node? id =
      some ((n.withField name value).reshape shape) := by
    rw [Workspace.node?_replaced found, if_pos rfl]
  obtain ⟨x, found', same⟩ := alike.workspace.node? changed
  have distinct := Workspace.distinct_of_shapeOf derived
  have restored : n.Alike g ((x.withField name (n.field? name)).reshape n.connectors) :=
    same.restored back (Workspace.distinct_of_shapeOf steady.current) distinct
      (linked.first (n := n) found) keeps.survives
  -- It derives its old shape again, and keeps its links in it.
  have still := steady.replaced (m := (n.withField name value).reshape shape) found rfl
  have rederived : b'.workspace.shapeOf (x.withField name (n.field? name)) = .ok n.connectors :=
    still.shapeOf_eq alike.workspace restored.kind_eq.symm restored.mutation_eq.symm
      restored.fields.same
  have links := linked.keepsLinks_back found alike.workspace same distinct keeps.survives
    (n.field? name)
  have reset := (Workspace.setField_eq_ok_iff wf.toLinked).mpr
    ⟨x, n.connectors, found', rederived, links, rfl, rfl⟩
  refine ⟨[.setField id name value (n.field? name)], _,
    .cons (Canvas.on_revert_setField reset) .nil, ⟨?_, alike.selection⟩,
    fun more => absurd more once⟩
  have again := alike.workspace.replaced changed restored
  rwa [Workspace.replaced_replaced found, Workspace.replaced_self found] at again

end Changed

/-- Every step can be reverted. -/
theorem Turn.revert {c d : Canvas} {commands : List Command} (turn : Turn g again c commands d)
    (alike : d.Alike g b') (wf : b'.workspace.WellFormed) :
    Reverted g again c commands d b' := by
  -- Each kind of step has its own way back.
  cases turn with
  | born absent variant known filled remade =>
    exact reverted_born absent variant known filled remade alike
  | gone absent variant known emptied remade =>
    exact reverted_gone absent variant known emptied remade alike
  | moved linked made => exact reverted_moved linked made alike wf
  | selected => exact reverted_selected alike
  | changed once linked found steady back made =>
    exact reverted_changed once linked found steady back made alike wf

end Turns

/-- Every trail can be reverted, from each canvas that is like its end; this leads to a canvas like
its start, and by commands that lead back to its end if they can be made again. -/
theorem Trail.revert {a b b' : Canvas} {commands : List Command}
    (trail : Trail g again a commands b) (alike : b.Alike g b') (wf : b'.workspace.WellFormed) :
    Reverted g again a commands b b' := by
  induction trail generalizing b' with
  | alike same =>
    exact fun nesting => ⟨[], b', .nil, same.trans alike, fun _ => .alike same.symm⟩
  | turn made => exact made.revert alike wf
  | append first second ih ih' =>
    -- The later part is reverted first, and made again last.
    intro nesting
    obtain ⟨redos, middle, reverts, alike', trail⟩ := ih' alike wf nesting
    obtain ⟨redos', start, reverts', alike'', trail'⟩ := ih alike' (reverts.wellFormed wf) nesting
    refine ⟨redos ++ redos', start, ?_, alike'', fun more => (trail more).append (trail' more)⟩
    rw [List.reverse_append]
    exact reverts.append reverts'

/-- The commands of a trail can be reverted as a batch, from each canvas that is like its end. -/
theorem Trail.on_revert {a b b' : Canvas} {commands : List Command}
    (trail : Trail g again a commands b) (alike : b.Alike g b') (wf : b'.workspace.WellFormed) :
    ∃ redos a', (Canvas.revert (.batch commands)).on b' = (.ok (.batch redos), a') ∧
      a.Alike g a' ∧ a'.workspace.WellFormed ∧ (again → Trail g again b redos a) := by
  -- The members are reverted one after the other.
  obtain ⟨redos, a', reverts, alike', back⟩ := trail.revert alike wf (Command.deepest commands)
  exact ⟨redos, a', reverts.on_revert, alike', reverts.wellFormed wf, back⟩

end QuickEntry
