import QuickEntry.Proofs.Custody

/-! Connectors that follow the fields and the structural state of their block through whatever
happens to the graph, and through the history. -/

namespace QuickEntry

variable {database : ComponentDatabase} {n : Node}

/-- That nodes have derived shapes is kept for the nodes outside the graph as well. -/
theorem custody_derives (database : ComponentDatabase) :
    Custody fun nodes ws => ws.Derives database ∧ ∀ n ∈ nodes, n.Derived database where
  -- One field for each change: what the graph holds is derived, and so is each node that a command
  -- has taken out and may put back.
  forget holds fewer := ⟨holds.1, fun n member => holds.2 n (fewer member)⟩
  make holds made :=
    have ⟨derived, derives⟩ := holds.1.make made
    ⟨derives, List.forall_mem_cons.mpr ⟨derived, holds.2⟩⟩
  insert holds member inserted := ⟨holds.1.insert (holds.2 _ member) inserted, holds.2⟩
  remove holds removed :=
    have ⟨found, _⟩ := Workspace.remove_eq_ok_iff.mp removed
    ⟨(Workspace.buildInvariant_derives database).remove holds.1 removed,
      List.forall_mem_cons.mpr ⟨holds.1.node found, holds.2⟩⟩
  setField holds set := ⟨(Workspace.buildInvariant_derives database).setField holds.1 set, holds.2⟩
  plug holds plugged := ⟨(Workspace.buildInvariant_derives database).plug holds.1 plugged, holds.2⟩
  unplug holds unplugged :=
    ⟨(Workspace.buildInvariant_derives database).unplug holds.1 unplugged, holds.2⟩

/-- A node with a derived shape is of a known kind. -/
theorem Node.Derived.known (derived : n.Derived database) :
    ∃ kind, BlockKind.ofName? n.kind = some kind := by
  -- A shape is derived for known kinds only.
  obtain ⟨ws, _, current⟩ := derived
  rw [Workspace.Current, Workspace.shapeOf] at current
  split at current
  · rename_i kind known
    exact ⟨kind, known⟩
  · cases current

/-- A node calls nothing unless it is a call without arguments of its own. -/
theorem Node.calls?_eq_none {kind : BlockKind} (known : BlockKind.ofName? n.kind = some kind)
    (other : ¬((kind = .proceduresCallNoReturn ∨ kind = .proceduresCallReturn) ∧
      n.mutation.args = [])) : n.calls? = none := by
  -- Only the two kinds of calls look for a definition, and they do so when they list no arguments.
  have silent : kind.calls? n.fields n.mutation = none := by
    unfold BlockKind.calls?
    split
    · exact if_neg fun empty => other ⟨.inl rfl, List.isEmpty_iff.mp empty⟩
    · exact if_neg fun empty => other ⟨.inr rfl, List.isEmpty_iff.mp empty⟩
    · rfl
  rw [Node.calls?, known]
  exact silent

namespace Session

/-- A node may be brought along after some events: it was made in a graph with these component
types, or one of the events removed it. -/
def MayBring (database : ComponentDatabase) (s : Session) (before : List Event) (n : Node) : Prop :=
  (∃ (ws ws' : Workspace) (kind : String) (mutation : Mutation),
    ws.database = database ∧ ws.make kind mutation = .ok (n, ws')) ∨
  ∃ earlier id later ws', before = earlier ++ .act (.remove id) :: later ∧
    (s.through earlier).workspace.remove id = .ok (n, ws')

/-- Every node that is inserted in a run may be brought along at that moment. -/
def BringsOwn (database : ComponentDatabase) (s : Session) (events : List Event) : Prop :=
  ∀ before n after, events = before ++ .act (.insert n) :: after → s.MayBring database before n

/-- The nodes of the graph and those in the history have derived shapes. -/
def Derives (database : ComponentDatabase) (s : Session) : Prop :=
  s.document.InCustody fun nodes ws => ws.Derives database ∧ ∀ n ∈ nodes, n.Derived database

variable {s : Session}

/-- The beginning of a run that brings nothing else along brings nothing else along. -/
theorem BringsOwn.beginning {before after : List Event}
    (brings : s.BringsOwn database (before ++ after)) : s.BringsOwn database before :=
  -- What comes before in the beginning comes before in the whole.
  fun earlier n later same => brings earlier n (later ++ after) (by simp [same])

/-- A session in which nodes have derived shapes does not lose this in an event, if a node that is
inserted has one. -/
theorem Derives.event (derives : s.Derives database) (event : Event)
    (derived : ∀ n, event = .act (.insert n) → n.Derived database) :
    (event.attempt.on s).2.Derives database := by
  -- The graph is emptied, learns of a component or takes in a node; all else is done by its
  -- commands.
  refine (event.keeps_custody (custody_derives database) ?_ ?_ ?_).on derives
  · exact fun holds => ⟨⟨holds.1.types, fun found => nomatch found⟩, holds.2⟩
  · exact fun name type holds => ⟨⟨holds.1.types, holds.1.node⟩, holds.2⟩
  · exact fun n same nodes ws ws' holds inserted =>
      ⟨holds.1.insert (derived n same) inserted, holds.2⟩

/-- In a run that brings nothing else along, nodes have derived shapes at every moment. -/
theorem Derives.through (derives : s.Derives database) (events : List Event)
    (brings : s.BringsOwn database events) : (s.through events).Derives database := by
  -- A node that comes back had a derived shape when it was removed, which is earlier in the run.
  induction length : events.length using Nat.strongRecOn generalizing events with
  | ind _ ih =>
    subst length
    rcases List.eq_nil_or_concat events with rfl | ⟨before, event, rfl⟩
    · exact derives
    · rw [List.concat_eq_append] at brings ih ⊢
      have earlier : (s.through before).Derives database :=
        ih before.length (by simp) before brings.beginning rfl
      have step : s.through (before ++ [event]) = (event.attempt.on (s.through before)).2 :=
        List.foldl_append
      rw [step]
      refine earlier.event event ?_
      rintro n rfl
      rcases brings before n [] rfl with ⟨ws, ws', kind, mutation, same, made⟩ |
        ⟨first, id, later, ws', rfl, removed⟩
      · exact ⟨ws, same, (Workspace.make_eq_ok made).1.shaped⟩
      · have short : first.length < (first ++ Event.act (.remove id) :: later ++
            [Event.act (.insert n)]).length := by
          simp only [List.length_append, List.length_cons]
          omega
        rw [List.append_assoc] at brings
        have present := ih first.length short first brings.beginning rfl
        exact present.1.node (Workspace.remove_eq_ok_iff.mp removed).1

/-- After any events, from a session without nodes, each of them made or refused, if nodes are
inserted only as they were made or removed: every node is of a known kind, and its sockets have
distinct names. Unless it is a procedure call without arguments of its own, it has exactly the
output, the connectors before and after, and the sockets that its kind derives from its present
fields and its structural state. -/
theorem connectors_follow_shape_through (database : ComponentDatabase) (settings : Settings)
    (events : List Event)
    (brings : (start (.empty database) settings).BringsOwn database events) :
    let s := (start (.empty database) settings).through events
    ∀ id n, s.workspace.node? id = some n → ∃ kind, BlockKind.ofName? n.kind = some kind ∧
      (n.sockets.map (·.name)).Nodup ∧
      (¬((kind = .proceduresCallNoReturn ∨ kind = .proceduresCallReturn) ∧ n.mutation.args = []) →
        let shape := kind.shape n.fields n.mutation s.workspace.surroundings
        n.output = shape.output ∧ n.hasPrevious = shape.hasPrevious ∧ n.hasNext = shape.hasNext ∧
          n.sockets.map Socket.spec = shape.sockets) := by
  -- The invariant is that every node was derived in some graph with these components. What it was
  -- derived from then is what it is derived from now, a call without arguments apart.
  intro s id n found
  have starts : (start (.empty database) settings).Derives database :=
    ⟨⟨rfl, fun found => nomatch found⟩, fun _ member => nomatch member⟩
  have derives : s.workspace.Derives database := (starts.through events brings).1
  have derived := derives.node found
  obtain ⟨kind, known⟩ := derived.known
  refine ⟨kind, known, ?_, fun other => ?_⟩
  · have distinct : n.connectors.Distinct := derived.connectors Workspace.distinct_of_shapeOf
    rwa [Shape.Distinct, Node.connectors, List.map_map] at distinct
  · have current : s.workspace.Current n :=
      (derives.types.symm ▸ derived).current (Node.calls?_eq_none known other)
    rw [Workspace.Current, Workspace.shapeOf_of_known known] at current
    have same : kind.shape n.fields n.mutation s.workspace.surroundings = n.connectors :=
      Except.ok.inj current
    rw [same]
    exact ⟨rfl, rfl, rfl, rfl⟩

/-- A local declaration that is inserted as it was made gets an input for its second name, which it
still has after it was removed and put back, and after a third name was set and undone. -/
theorem connectors_follow_shape_through_declaration :
    let blank : Node := ⟨⟨1⟩, "local_declaration_expression", .ofList [("VAR0", "name")], .empty,
      some .any, false, false, none,
      [⟨"DECL0", .value, .any, none⟩, ⟨"RETURN", .value, .any, none⟩], none⟩
    let named : Node := { blank with
      fields := .ofList [("VAR0", "name"), ("VAR1", "other")]
      sockets := [⟨"DECL0", .value, .any, none⟩, ⟨"DECL1", .value, .any, none⟩,
        ⟨"RETURN", .value, .any, none⟩] }
    let events : List Event := [.act (.insert blank),
      .act (.setField ⟨1⟩ "VAR1" (some "other")), .act (.remove ⟨1⟩), .act (.insert named),
      .keep [.setField ⟨1⟩ "VAR2" (some "third")], .act .undo]
    let s := (start (.empty ∅) {}).through events
    s.workspace.node? ⟨1⟩ = some named ∧ (named.sockets.map (·.name)).Nodup ∧
      named.sockets.map Socket.spec = (BlockKind.localDeclarationExpression.shape named.fields
        named.mutation s.workspace.surroundings).sockets := by
  intro blank named events
  have follow := connectors_follow_shape_through ∅ {} events ?_
  · have found : ((start (.empty ∅) {}).through events).workspace.node? ⟨1⟩ = some named := by
      decide +kernel
    obtain ⟨kind, known, distinct, derives⟩ := follow ⟨1⟩ named found
    cases known
    exact ⟨found, distinct, (derives (by decide)).2.2.2⟩
  · intro before n after same
    -- The first event and the fourth one insert a node.
    change [_, _, _, _, _, _] = before ++ _ at same
    rcases before with _ | ⟨a, _ | ⟨b, _ | ⟨c, _ | ⟨d, _ | ⟨e, _ | ⟨f, _ | ⟨g, rest⟩⟩⟩⟩⟩⟩⟩ <;>
      cases same
    · exact .inl ⟨.empty ∅, _, "local_declaration_expression", .empty, rfl, rfl⟩
    · refine .inr ⟨[_, _], ⟨1⟩, [], _, rfl, Workspace.remove_eq_ok_iff.mpr ⟨?_, rfl, rfl⟩⟩
      decide +kernel

end Session

end QuickEntry
