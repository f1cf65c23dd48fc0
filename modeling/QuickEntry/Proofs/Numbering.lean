import QuickEntry.Proofs.Turn

/-! Numbers are given out once: over whole runs a made node has a number that no node had before,
and a number never comes to mean another block. -/

namespace QuickEntry

namespace Workspace

/-- The next number does not go back under any single change. -/
theorem invariant_nextNumber (next : Nat) : Invariant fun ws => next ≤ ws.nextNumber where
  -- Creating counts up, inserting counts at least past the inserted number, and nothing else
  -- touches the counter.
  make holds made := by
    obtain ⟨_, rfl⟩ := make_eq_ok made
    exact Nat.le_succ_of_le holds
  insert holds inserted := by
    obtain ⟨_, _, rfl⟩ := insert_eq_ok_iff.mp inserted
    exact Nat.le_trans holds (Nat.le_max_left _ _)
  remove holds removed := by
    obtain ⟨_, _, rfl⟩ := remove_eq_ok_iff.mp removed
    exact holds
  setField holds set := by
    obtain ⟨_, _, _, _, rfl⟩ := of_setField set
    exact holds
  plug holds plugged := by
    obtain ⟨_, rfl⟩ := plug_eq_ok_iff.mp plugged
    exact holds
  unplug holds unplugged := by
    obtain ⟨_, rfl⟩ := unplug_eq_ok_iff.mp unplugged
    unfold freed
    split <;> exact holds

end Workspace

namespace Session

variable {s : Session}

section Ledger

variable {K : Set Identity → Nat → Prop} {S : Set Identity}

/-- A turn keeps every condition under which what it inserts may be inserted. -/
theorem Turn.keeps_obeys (ledger : Ledger K) (turn : Turn)
    (admits : ∀ n counts, turn = .act (.insert n) counts → Admits K S n) :
    turn.attempt.Keeps fun s => s.document.Obeys K S := by
  -- Only an insertion brings an identity from outside, and that one is admitted.
  have custody := custody_obeys ledger S
  cases turn with
  | act action counts =>
    refine Action.keeps_custody_of_counts custody (fun _ _ => id) counts ?_
    intro n same nodes ws ws' obeys inserted
    subst same
    exact obeys.insert ledger ((admits n counts rfl).mono Set.subset_union_right) inserted
  | takeBack selection operations =>
    exact keeps_custody_onWorkspace fun _ => Attempt.keeps_modify fun ws obeys =>
      holds_custody_rollback custody obeys selection operations

/-- A step that is made behind the back of the session shows in the graph alone. -/
theorem document_of_step {α : Type} (step : Workspace → Except EditError (α × Workspace))
    {value : α} {ws' : Workspace} (made : step s.workspace = .ok (value, ws')) :
    ((onWorkspace (.ofStep step) >>= fun _ => pure () : Attempt Session Unit).on s).2.document =
      { s.document with canvas := { s.document.canvas with workspace := ws' } } := by
  -- The step touches the graph only.
  rw [Attempt.on_ignored]
  have shows : ((onWorkspace (.ofStep step)).on s).2.document = { s.document with canvas :=
      { s.document.canvas with workspace := ((Attempt.ofStep step).on s.workspace).2 } } := rfl
  rw [shows, Attempt.on_ofStep, made]

/-- What a turn hands out is known after it. -/
theorem Turn.obeys_handed (ledger : Ledger K) {turn : Turn}
    (admits : ∀ n counts, turn = .act (.insert n) counts → Admits K S n)
    (obeys : s.document.Obeys K S) :
    (turn.attempt.on s).2.document.Obeys K (identities (turn.handed s) ∪ S) := by
  -- Two turns hand out a node: creating one, whose number is new, and removing one, which was
  -- known. Most turns hand out nothing, and so do those that are refused.
  have silent : (turn.attempt.on s).2.document.Obeys K (identities [] ∪ S) := by
    rw [identities_nil, Set.empty_union]
    exact (turn.keeps_obeys ledger admits).on obeys
  have hands : ∀ {ws' : Workspace} {n : Node}, ws'.Obeys K ({n.identity} ∪
        (identities (Command.allNodes s.document.history.undoable ++
          Command.allNodes s.document.history.redoable) ∪ S)) →
      Document.Obeys K (identities [n] ∪ S)
        { s.document with canvas := { s.document.canvas with workspace := ws' } } := by
    intro ws' n known
    rw [← identities_singleton, Set.union_left_comm] at known
    exact known
  cases turn with
  | takeBack selection operations => exact silent
  | act action counts =>
    cases action with
    | make kind mutation =>
      rw [handed]
      split
      · rename_i n ws' made
        exact (document_of_step (Workspace.make · kind mutation) made).symm ▸
          hands (obeys.make ledger made)
      · exact silent
    | remove id =>
      rw [handed]
      split
      · rename_i n ws' removed
        exact (document_of_step (Workspace.remove · id) removed).symm ▸
          hands (obeys.remove ledger removed)
      · exact silent
    | _ => exact silent

/-- A run keeps every condition under which what it inserts may be inserted. -/
theorem obeys_turned (ledger : Ledger K) (turns : List Turn)
    (admits : ∀ n counts, .act (.insert n) counts ∈ turns → Admits K S n)
    (obeys : s.document.Obeys K S) : (s.turned turns).document.Obeys K S := by
  -- By induction over the turns.
  induction turns generalizing s with
  | nil => exact obeys
  | cons turn rest ih =>
    have keeps := turn.keeps_obeys ledger fun n counts same =>
      admits n counts (same ▸ List.mem_cons_self)
    exact ih (fun n counts member => admits n counts (List.mem_cons_of_mem _ member))
      (keeps.on obeys)

/-- A run in which nodes are inserted as they were handed out keeps every condition, and what it
hands out is known after it. -/
theorem obeys_turned_handed (ledger : Ledger K) (after : List Turn) :
    ∀ before : List Turn, s.InsertsHanded (before ++ after) →
      (s.turned before).document.Obeys K (identities (s.handed before) ∪ S) →
      (s.turned (before ++ after)).document.Obeys K
        (identities (s.handed (before ++ after)) ∪ S) := by
  -- By induction over the turns that are left. What was handed out up to now is admitted for an
  -- insertion, and each turn adds what it hands out.
  induction after with
  | nil =>
    intro before _ obeys
    rwa [List.append_nil]
  | cons turn rest ih =>
    intro before inserts obeys
    have admits : ∀ n counts, turn = .act (.insert n) counts →
        Admits K (identities (s.handed before) ∪ S) n := fun n counts same =>
      admits_of_known ledger (.inl ⟨n, inserts before n counts rest (same ▸ rfl), rfl⟩)
    have next := Turn.obeys_handed ledger admits obeys
    have handed : identities (s.handed (before ++ [turn])) =
        identities (s.handed before) ∪ identities (turn.handed (s.turned before)) := by
      rw [handed_append, identities_append, Session.handed, Session.handed, List.append_nil]
    have step : (s.turned (before ++ [turn])).document.Obeys K
        (identities (s.handed (before ++ [turn])) ∪ S) := by
      rw [turned_append, handed, Set.union_assoc, Set.union_left_comm]
      exact next
    rw [List.append_cons] at inserts ⊢
    exact ih (before ++ [turn]) inserts step

end Ledger

/-- All identities are below the next number. -/
def Below (S : Set Identity) (next : Nat) : Prop := ∀ i ∈ S, i.id.number < next

/-- New numbers keep identities below the next one. -/
theorem ledger_below : Ledger Below where
  -- A new number is the counter itself, which then moves on.
  weaken below fewer later i member := Nat.lt_of_lt_of_le (below i (fewer member)) later
  issue kind mutation below i member := by
    rcases member with rfl | old
    · exact Nat.lt_succ_self _
    · exact Nat.lt_succ_of_lt (below i old)

/-- A number is given out, but no identity has it. -/
def Avoids (id : NodeId) (S : Set Identity) (next : Nat) : Prop :=
  id.number < next ∧ ∀ i ∈ S, i.id ≠ id

/-- A number that is given out is not given out again. -/
theorem ledger_avoids (id : NodeId) : Ledger (Avoids id) where
  -- The counter is past the number that is avoided, so no new number equals it.
  weaken avoids fewer later :=
    ⟨Nat.lt_of_lt_of_le avoids.1 later, fun i member => avoids.2 i (fewer member)⟩
  issue kind mutation avoids := by
    refine ⟨Nat.lt_succ_of_lt avoids.1, fun i member => ?_⟩
    rcases member with rfl | old
    · rintro rfl
      exact Nat.lt_irrefl _ avoids.1
    · exact avoids.2 i old

/-- Identities below the next number, of which no two have one number. -/
structure Consistent (S : Set Identity) (next : Nat) : Prop where
  below : Below S next
  unique : ∀ i ∈ S, ∀ j ∈ S, i.id = j.id → i = j

/-- New numbers keep identities consistent. -/
theorem ledger_consistent : Ledger Consistent where
  weaken consistent fewer later := ⟨ledger_below.weaken consistent.below fewer later,
    fun i left j right => consistent.unique i (fewer left) j (fewer right)⟩
  issue := by
    intro S next kind mutation consistent
    refine ⟨ledger_below.issue kind mutation consistent.below, ?_⟩
    -- The new number is above those of the others.
    have apart : ∀ i ∈ S, i.id ≠ ⟨next⟩ := fun i member same =>
      Nat.ne_of_lt (consistent.below i member) (congrArg NodeId.number same)
    rintro i (rfl | left) j (rfl | right) same
    · rfl
    · exact absurd same.symm (apart j right)
    · exact absurd same (apart i left)
    · exact consistent.unique i left j right same

/-- Every node may be inserted if all that is asked is that identities are below the next number. -/
theorem admits_below (S : Set Identity) (n : Node) : Admits Below S n := by
  -- The counter moves past the inserted number.
  intro T next _ below i member
  rcases member with rfl | old
  · exact Nat.lt_of_lt_of_le (Nat.lt_succ_self _) (Nat.le_max_right _ _)
  · exact Nat.lt_of_lt_of_le (below i old) (Nat.le_max_left _ _)

/-- A node of another number may be inserted if a number is to be avoided. -/
theorem admits_avoids {id : NodeId} {n : Node} (other : n.id ≠ id) (S : Set Identity) :
    Admits (Avoids id) S n := by
  -- The inserted number is another one.
  intro T next _ avoids
  refine ⟨Nat.lt_of_lt_of_le avoids.1 (Nat.le_max_left _ _), fun i member => ?_⟩
  rcases member with rfl | old
  · exact other
  · exact avoids.2 i old

/-- A session without nodes and without a history meets every condition that asks nothing. -/
theorem obeys_start {K : Set Identity → Nat → Prop} (database : ComponentDatabase)
    (settings : Settings) (holds : K ∅ 1) :
    (start (.empty database) settings).document.Obeys K ∅ := by
  -- The empty graph holds no identity.
  refine Document.obeys_of_no_history ?_
  have none : (Workspace.empty database).identities = ∅ := by
    refine Set.eq_empty_iff_forall_notMem.mpr fun i ⟨id, n, found, _⟩ => ?_
    cases found
  rw [Workspace.Obeys, none, Set.empty_union]
  exact holds

variable {database : ComponentDatabase} {settings : Settings} {turns : List Turn}

/-- After any turns the graph is well-formed. -/
theorem wellFormed_turned (database : ComponentDatabase) (settings : Settings)
    (turns : List Turn) :
    ((start (.empty database) settings).turned turns).workspace.WellFormed :=
  -- Every turn keeps the graph well-formed, from the empty one on.
  keeps_turned (Turn.keeps Workspace.invariant_wellFormed fun name type wf =>
    wf.addComponent name type) turns _ (Workspace.wellFormed_of_no_nodes rfl)

/-- A number that is given in a turn is below the next one after it. -/
theorem Turn.lt_of_gives (wf : s.workspace.WellFormed) (below : s.document.Obeys Below ∅)
    {turn : Turn} {id : NodeId} (gives : turn.Gives s id) :
    id.number < (turn.attempt.on s).2.workspace.nextNumber := by
  -- A number is given in three ways: to a node handed out, to a node of the graph afterwards, or to
  -- one of a draft that was given up since.
  rcases gives with ⟨n, member, rfl⟩ | ⟨ws, member, inside⟩
  · have known := turn.obeys_handed ledger_below (fun n _ _ => admits_below ∅ n) below
    have inside : n.identity ∈ identities (turn.handed s) := ⟨n, member, rfl⟩
    exact known n.identity (by grind)
  · obtain ⟨n, found⟩ := Option.isSome_iff_exists.mp inside
    rcases List.mem_cons.mp member with rfl | draft
    · have wf' := (turn.keeps Workspace.invariant_wellFormed fun name type wf =>
        wf.addComponent name type).on wf
      exact wf'.numbered found
    · have wf' := turn.holds_drafts Workspace.invariant_wellFormed.toBuildInvariant wf ws draft
      exact Nat.lt_of_lt_of_le (wf'.numbered found) (Turn.holds_of_mem_drafts
        (Workspace.invariant_nextNumber ws.nextNumber) draft (Nat.le_refl _))

/-- A made node has a number that is not given in any turn before. -/
theorem not_gives_of_make {kind : String} {mutation : Mutation} {n : Node} {ws' : Workspace}
    {before after : List Turn} {turn : Turn}
    (made : ((start (.empty database) settings).turned (before ++ turn :: after)).workspace.make
      kind mutation = .ok (n, ws')) :
    ¬turn.Gives ((start (.empty database) settings).turned before) n.id := by
  intro gives
  have below := obeys_turned ledger_below before (fun m _ _ => admits_below ∅ m)
    (obeys_start database settings fun _ none => nomatch none)
  have smaller := Turn.lt_of_gives (wellFormed_turned database settings before) below gives
  rw [turned_append] at made
  generalize (start (.empty database) settings).turned before = s at made smaller
  -- The next number does not go back after the turn.
  have later : (turn.attempt.on s).2.workspace.nextNumber ≤
      (s.turned (turn :: after)).workspace.nextNumber :=
    keeps_turned (Turn.keeps (Workspace.invariant_nextNumber _) fun _ _ holds => holds) after _
      (Nat.le_refl _)
  rw [(Workspace.make_eq_ok made).1.id] at smaller
  exact absurd smaller (Nat.not_lt.mpr later)

/-- A made node can be inserted after any turns in which no node of its number is inserted. -/
theorem insert_of_make {kind : String} {mutation : Mutation} {n : Node} {ws' : Workspace}
    (made : ((start (.empty database) settings).turned turns).workspace.make kind mutation =
      .ok (n, ws')) {later : List Turn}
    (other : ∀ m counts, .act (.insert m) counts ∈ later → m.id ≠ n.id) :
    ∃ ws'', ((start (.empty database) settings).turned
      (turns ++ .act (.make kind mutation) rfl :: later)).workspace.insert n = .ok ws'' := by
  -- The number that was made is avoided by all later turns, so its node can still be inserted after
  -- them.
  have wf := wellFormed_turned database settings (turns ++ .act (.make kind mutation) rfl :: later)
  have below := obeys_turned ledger_below turns (fun m _ _ => admits_below ∅ m)
    (obeys_start database settings fun _ none => nomatch none)
  rw [turned_append] at wf ⊢
  generalize (start (.empty database) settings).turned turns = s at made wf below ⊢
  obtain ⟨is, rfl⟩ := Workspace.make_eq_ok made
  -- All that is known has a smaller number, both before the node is made and after it.
  have counted : ((Turn.act (.make kind mutation) rfl).attempt.on s).2.document =
      { s.document with canvas := { s.document.canvas with workspace := s.workspace.counted } } :=
    document_of_step (Workspace.make · kind mutation) made
  have avoids : ((Turn.act (.make kind mutation) rfl).attempt.on s).2.document.Obeys
      (Avoids n.id) ∅ := by
    rw [counted]
    refine ⟨is.id ▸ Nat.lt_succ_self _, fun i member same => ?_⟩
    have smaller := below i member
    rw [same, is.id] at smaller
    exact Nat.lt_irrefl _ smaller
  have kept := obeys_turned (ledger_avoids n.id) later (fun m counts member =>
    admits_avoids (other m counts member) ∅) avoids
  refine ⟨_, Workspace.insert_eq_ok_iff.mpr ⟨?_, is.detached, rfl⟩⟩
  cases found : (s.turned (.act (.make kind mutation) rfl :: later)).workspace.node? n.id with
  | none => rfl
  | some m => exact absurd (wf.own found) (kept.2 _ (.inl (Workspace.identity_mem found)))

/-- The beginning of a run that inserts nodes as they were handed out does so as well. -/
theorem InsertsHanded.beginning {before after : List Turn}
    (inserts : s.InsertsHanded (before ++ after)) : s.InsertsHanded before := by
  -- What comes before in the beginning comes before in the whole.
  intro earlier n counts later same
  exact inserts earlier n counts (later ++ after) (by rw [same, List.append_assoc]; rfl)

/-- In a run in which nodes are inserted as they were handed out, a number means one block. -/
theorem same_block_of_turned {before middle : List Turn}
    (inserts : (start (.empty database) settings).InsertsHanded (before ++ middle)) {id : NodeId}
    {a b : Node}
    (early : ((start (.empty database) settings).turned before).workspace.node? id = some a)
    (late : ((start (.empty database) settings).turned (before ++ middle)).workspace.node? id =
      some b) : b.kind = a.kind ∧ b.mutation = a.mutation := by
  have own := (wellFormed_turned database settings before).own early
  have own' := (wellFormed_turned database settings (before ++ middle)).own late
  have consistent := obeys_start (K := Consistent) database settings
    ⟨fun _ none => (nomatch none), fun _ none => (nomatch none)⟩
  generalize start (.empty database) settings = s at inserts early late consistent
  have first := obeys_turned_handed ledger_consistent before [] inserts.beginning
    (by rw [Session.handed, identities_nil, Set.empty_union]; exact consistent)
  rw [List.nil_append] at first
  -- The first block stays known from then on.
  have known : (s.turned before).document.Obeys Consistent
      (identities (s.handed before) ∪ {a.identity}) := by
    have inside : a.identity ∈ (s.turned before).document.canvas.workspace.identities :=
      Workspace.identity_mem early
    exact Workspace.Obeys.mono ledger_consistent first (by grind)
  have last := obeys_turned_handed ledger_consistent middle before inserts known
  have same : b.identity = a.identity :=
    last.unique _ (.inl (Workspace.identity_mem late)) _ (by grind) (own'.trans own.symm)
  exact ⟨congrArg Identity.kind same, congrArg Identity.mutation same⟩

/-- After a run in which nodes are inserted as they were handed out, a reference of a script means
one block. -/
theorem same_block_of_scripted
    (inserts : (start (.empty database) settings).InsertsHanded turns)
    {labels : OrderedMap String NodeId} {reference : String} {earlier later : List Step}
    {a b : Node}
    (early : (((start (.empty database) settings).turned turns).scripted labels earlier).meant?
      labels reference = some a)
    (late : (((start (.empty database) settings).turned turns).scripted labels
      (earlier ++ later)).meant? labels reference = some b) :
    b.kind = a.kind ∧ b.mutation = a.mutation := by
  -- The steps of a script are turns too, so this is the statement on turns, with both labels
  -- resolved.
  obtain ⟨before, after, none, same, same'⟩ := exists_turned_scripted_append labels earlier later
    ((start (.empty database) settings).turned turns)
  have inserts' := inserts.append none
  rw [same, ← turned_append] at early
  rw [same', ← turned_append, ← List.append_assoc] at late
  rw [← List.append_assoc] at inserts'
  obtain ⟨id, means, early⟩ := exists_node?_of_meant? early
  obtain ⟨id', means', late⟩ := exists_node?_of_meant? late
  cases means.symm.trans means'
  exact same_block_of_turned inserts' early late

/-- Over every run of a session that starts without nodes and is never emptied, with each turn made
or refused: a node that is made has a number that was not given before, neither to a node that was
made, inserted or removed, nor to one of a graph that was undone or taken back. The node can be
inserted later on, as long as no other node of its number is. If all nodes that are inserted are
inserted as they were handed out before, a number that is found at two moments means a node of one
kind and one structural state, and so does a name in a script that follows. -/
theorem numbers_given_out_once (database : ComponentDatabase) (settings : Settings)
    (turns : List Turn) :
    let first := start (.empty database) settings
    (∀ kind mutation n ws', (first.turned turns).workspace.make kind mutation = .ok (n, ws') →
      (∀ before turn after, turns = before ++ turn :: after →
        ¬turn.Gives (first.turned before) n.id) ∧
      ∀ later : List Turn, (∀ m counts, .act (.insert m) counts ∈ later → m.id ≠ n.id) →
        ∃ ws'', (first.turned (turns ++ .act (.make kind mutation) rfl :: later)).workspace.insert
          n = .ok ws'') ∧
    (first.InsertsHanded turns →
      (∀ before middle after, turns = before ++ middle ++ after → ∀ id a b,
        (first.turned before).workspace.node? id = some a →
          (first.turned (before ++ middle)).workspace.node? id = some b →
            b.kind = a.kind ∧ b.mutation = a.mutation) ∧
      ∀ labels reference earlier later a b,
        ((first.turned turns).scripted labels earlier).meant? labels reference = some a →
          ((first.turned turns).scripted labels (earlier ++ later)).meant? labels reference =
            some b → b.kind = a.kind ∧ b.mutation = a.mutation) := by
  -- Each clause is a lemma on the point of the run that it is about; the rest of the run does not
  -- matter to it.
  intro first
  refine ⟨fun kind mutation n ws' made => ⟨?_, fun later other => insert_of_make made other⟩,
    fun inserts => ⟨?_, fun _ _ _ _ _ _ => same_block_of_scripted inserts⟩⟩
  · rintro before turn after rfl
    exact not_gives_of_make made
  · rintro before middle after rfl id a b early late
    exact same_block_of_turned inserts.beginning early late

/-- A number that was made, inserted and removed is not given again, and neither is one whose node
was taken back. -/
theorem numbers_given_out_once_removed :
    let number : Node := ⟨⟨1⟩, "math_number", .ofList [("NUM", "0")], .empty,
      some (.oneOf ["Number"]), false, false, none, [], none⟩
    let turns : List Turn := [.act (.make "math_number" .empty) rfl, .act (.insert number) rfl,
      .takeBack none [.instantiate ⟨"logic_boolean", "true", none, none⟩], .act (.remove ⟨1⟩) rfl]
    let first := start (.empty ∅) {}
    ∃ n ws' ws'', (first.turned turns).workspace.make "math_number" .empty = .ok (n, ws') ∧
      n.id = ⟨3⟩ ∧ (∀ before turn after, turns = before ++ turn :: after →
        ¬turn.Gives (first.turned before) n.id) ∧
      (first.turned (turns ++ [.act (.make "math_number" .empty) rfl])).workspace.insert n =
        .ok ws'' ∧
      ∀ id a b, (first.turned (turns.take 2)).workspace.node? id = some a →
        (first.turned (turns.take 3)).workspace.node? id = some b → b.kind = a.kind := by
  intro number turns first
  obtain ⟨makes, blocks⟩ := numbers_given_out_once ∅ {} turns
  have handed : number ∈ first.handed [.act (.make "math_number" .empty) rfl] := by
    have made : first.handed [.act (.make "math_number" .empty) rfl] = [number] := by
      decide +kernel
    exact made ▸ List.mem_singleton_self number
  have inserts : first.InsertsHanded turns := by
    -- The only insertion is the second turn.
    intro before n counts after same
    change [_, _, _, _] = before ++ _ at same
    rcases before with _ | ⟨t, _ | ⟨u, _ | ⟨v, _ | ⟨w, _ | ⟨x, rest⟩⟩⟩⟩⟩ <;> cases same
    exact handed
  have next : (first.turned turns).workspace.nextNumber = 3 := by decide +kernel
  obtain ⟨n, made, is⟩ := Workspace.make_of_known (first.turned turns).workspace
    (show BlockKind.ofName? "math_number" = some .mathNumber from rfl) .empty
  obtain ⟨fresh, inserted⟩ := makes _ _ n _ made
  obtain ⟨ws'', inserted⟩ := inserted [] fun _ _ member => nomatch member
  refine ⟨n, _, ws'', made, is.id.trans (congrArg NodeId.mk next), fresh, inserted, ?_⟩
  intro id a b early late
  exact ((blocks inserts).1 (turns.take 2) ((turns.drop 2).take 1) (turns.drop 3) rfl id a b early
    late).1

end Session

end QuickEntry
