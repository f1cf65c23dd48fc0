import Mathlib.Data.List.Infix
import QuickEntry.Proofs.Catalog
import QuickEntry.Proofs.Identity

/-! Runs of a session in which numbers go on: what every turn keeps, the graphs that come up in a
turn, and the steps of scripts. -/

namespace QuickEntry

namespace Session

/-- What may happen in a session while numbers go on. -/
inductive Turn where
  | act (action : Action) (counts : action.counts = true)
  /-- Operations are made on the graph, with a selection of their own, and taken back. -/
  | takeBack (selection : Option NodeId) (operations : List Draft.Operation)

/-- Let happen what happens in a turn. -/
def Turn.attempt : Turn → Attempt Session Unit
  | act action _ => action.attempt
  | takeBack selection operations => onWorkspace <| modify fun ws =>
    ((Draft.start ⟨ws, selection⟩).after operations).rollback.workspace

/-- A session after some turns, each of which may be refused. -/
def turned (s : Session) (turns : List Turn) : Session :=
  turns.foldl (fun s turn => (turn.attempt.on s).2) s

/-- The nodes that a turn hands out: one that is made, or one that is removed. -/
def Turn.handed (s : Session) : Turn → List Node
  | act (.make kind mutation) _ =>
    match s.workspace.make kind mutation with
    | .ok (n, _) => [n]
    | .error _ => []
  | act (.remove id) _ =>
    match s.workspace.remove id with
    | .ok (n, _) => [n]
    | .error _ => []
  | _ => []

/-- The graph with an option picked, before its edits are kept or taken back. -/
def picked (s : Session) (o : BlockOption) : Workspace :=
  ((insertion o s.selected? s.settings.reach).on (.start s.document.canvas)).2.canvas.workspace

/-- The graphs in a turn that are kept or taken back later in it. -/
def Turn.drafts (s : Session) : Turn → List Workspace
  | act (.confirm o) _ => [s.picked o]
  | act (.enter query) _ => (s.best? query).toList.map s.picked
  | takeBack selection operations => operations.inits.map fun made =>
    ((Draft.start ⟨s.workspace, selection⟩).after made).canvas.workspace
  | _ => []

/-- A number is given in a turn to a node that is handed out, or to one of a graph in the turn or
after it. -/
def Turn.Gives (s : Session) (turn : Turn) (id : NodeId) : Prop :=
  (∃ n ∈ turn.handed s, n.id = id) ∨
    ∃ ws ∈ (turn.attempt.on s).2.workspace :: turn.drafts s, ws.contains id = true

/-- The nodes that a run hands out. -/
def handed (s : Session) : List Turn → List Node
  | [] => []
  | turn :: rest => turn.handed s ++ (turn.attempt.on s).2.handed rest

/-- Nodes are inserted as they were handed out before. -/
def InsertsHanded (s : Session) (turns : List Turn) : Prop :=
  ∀ before n counts after, turns = before ++ .act (.insert n) counts :: after → n ∈ s.handed before

variable {s : Session} {P : Workspace → Prop}

/-- Runs may be cut in two. -/
theorem turned_append (s : Session) (before after : List Turn) :
    s.turned (before ++ after) = (s.turned before).turned after :=
  -- Turns are folded over the session one after the other.
  List.foldl_append

/-- A run hands out what its parts hand out. -/
theorem handed_append (before after : List Turn) :
    ∀ s : Session, s.handed (before ++ after) =
      s.handed before ++ (s.turned before).handed after := by
  -- What is handed in later depends on the session after the turns before, so that the session is
  -- generalized.
  induction before with
  | nil => exact fun s => rfl
  | cons turn rest ih =>
    intro s
    rw [List.cons_append, handed, handed, ih, List.append_assoc]
    rfl

/-- Every turn keeps an invariant of the graph that the declaration of components keeps as well. -/
theorem Turn.keeps (inv : Workspace.Invariant P)
    (declares : ∀ {ws} name type, P ws → P (ws.addComponent name type)) (turn : Turn) :
    turn.attempt.Keeps fun s => P s.workspace := by
  -- What is taken back leaves nothing behind but the graph from before, which has the property
  -- already.
  cases turn with
  | act action counts => exact Action.keeps_of_counts inv declares counts
  | takeBack selection operations =>
    exact keeps_onWorkspace (Attempt.keeps_modify fun ws =>
      Draft.holds_rollback inv operations ⟨ws, selection⟩)

/-- Picking an option keeps in its graph what building keeps. -/
theorem holds_picked (inv : Workspace.BuildInvariant P) (holds : P s.workspace) (o : BlockOption) :
    P (s.picked o) :=
  -- Picking an option is what confirming it does before anything is kept.
  (inv.insertion o s.selected? s.settings.reach).on holds

/-- What holds of the graph with an option picked, before its edits are kept or taken back, holds
after it. -/
theorem holds_confirm (inv : Workspace.Invariant P) {o : BlockOption} (holds : P (s.picked o)) :
    P ((confirm o).on s).2.workspace := by
  -- The graph after confirming is the one that was picked, or the one from before if the option is
  -- refused and taken back.
  have transacted : P ((Document.transact (insertion o s.selected? s.settings.reach)).on
      s.document).2.canvas.workspace := inv.transacted holds
  rw [on_confirm]
  revert transacted
  cases (Document.transact (insertion o s.selected? s.settings.reach)).on s.document with
  | mk outcome next => cases outcome <;> exact id

/-- Every graph in a turn has what building keeps. -/
theorem Turn.holds_drafts (inv : Workspace.BuildInvariant P) (holds : P s.workspace) (turn : Turn) :
    ∀ ws ∈ turn.drafts s, P ws := by
  -- Drafts come from operations that are taken back and from options that are confirmed; no other
  -- action has any.
  intro ws member
  cases turn with
  | takeBack selection operations =>
    obtain ⟨made, _, rfl⟩ := List.mem_map.mp member
    exact Draft.keeps_after (Draft.Operation.keeps inv) made (.start ⟨s.workspace, selection⟩) holds
  | act action counts =>
    cases action with
    -- An option that is confirmed or entered has one draft.
    | confirm o =>
      rw [List.mem_singleton.mp member]
      exact holds_picked inv holds o
    | enter query =>
      obtain ⟨best, _, rfl⟩ := List.mem_map.mp member
      exact holds_picked inv holds best
    | _ => cases member

/-- What holds of a graph in a turn holds after it. -/
theorem Turn.holds_of_mem_drafts (inv : Workspace.Invariant P) {turn : Turn} {ws : Workspace}
    (member : ws ∈ turn.drafts s) (holds : P ws) : P (turn.attempt.on s).2.workspace := by
  cases turn with
  | takeBack selection operations =>
    obtain ⟨made, beginning, rfl⟩ := List.mem_map.mp member
    obtain ⟨rest, rfl⟩ := (List.mem_inits _ _).mp beginning
    have drafted := Draft.keeps_after (Draft.Operation.keeps inv.toBuildInvariant) rest _ holds
    rw [← Draft.after_append] at drafted
    exact (inv.revert _).on drafted
  | act action counts =>
    cases action with
    | confirm o =>
      rw [List.mem_singleton.mp member] at holds
      have unfolded : (Action.confirm o).attempt = Session.confirm o >>= fun _ => pure () := rfl
      rw [attempt, unfolded, Attempt.on_ignored]
      exact holds_confirm inv holds
    | enter query =>
      obtain ⟨best, first, rfl⟩ := List.mem_map.mp member
      rw [attempt, Action.on_enter, Option.mem_toList.mp first]
      -- Neither the catalog nor the text in the query box matters to what is picked.
      exact holds_confirm inv holds
    | _ => cases member

/-- What every turn keeps holds after any turns. -/
theorem keeps_turned {Q : Session → Prop} (keeps : ∀ turn : Turn, turn.attempt.Keeps Q)
    (turns : List Turn) : ∀ s : Session, Q s → Q (s.turned turns) := by
  -- The property is handed on from each turn to the next.
  induction turns with
  | nil => exact fun s holds => holds
  | cons turn rest ih => exact fun s holds => ih _ ((keeps turn).on holds)

/-- No nodes are brought along in a run. -/
def InsertsNone (turns : List Turn) : Prop := ∀ n counts, .act (.insert n) counts ∉ turns

/-- Nothing is inserted in an empty run. -/
theorem InsertsNone.nil : InsertsNone [] :=
  -- There is no turn that could insert a node by hand.
  fun _ _ member => nomatch member

/-- Nothing is inserted in two runs one after the other if nothing is in each of them. -/
theorem InsertsNone.append {turns more : List Turn} (none : InsertsNone turns)
    (none' : InsertsNone more) : InsertsNone (turns ++ more) :=
  -- A turn of both parts together is one of the first or one of the second.
  fun n counts member => (List.mem_append.mp member).elim (none n counts) (none' n counts)

/-- Nothing comes in when nothing is inserted later on. -/
theorem InsertsHanded.append {turns more : List Turn} (inserts : s.InsertsHanded turns)
    (none : InsertsNone more) : s.InsertsHanded (turns ++ more) := by
  intro before n counts after same
  -- The insertion stands in the first part, since the second has none.
  rcases List.append_eq_append_iff.mp same with ⟨between, rfl, rest⟩ | ⟨between, rfl, rest⟩
  · exact absurd (rest ▸ List.mem_append_right between List.mem_cons_self) (none n counts)
  · cases between with
    | nil =>
      obtain rfl : .act (.insert n) counts :: after = more := rest
      exact absurd List.mem_cons_self (none n counts)
    | cons turn between =>
      obtain ⟨rfl, _⟩ := List.cons.inj rest
      exact inserts before n counts between rfl

section Script

variable {labels : OrderedMap String NodeId}

/-- A session after some steps of a script, which the first refusal ends. -/
def scripted (labels : OrderedMap String NodeId) (steps : List Step) (s : Session) : Session :=
  ((steps.filterMapM (Step.perform labels)).on s).2

/-- A script goes on after a step if the step is not refused. -/
theorem scripted_cons (step : Step) (rest : List Step) (s : Session) :
    s.scripted labels (step :: rest) =
      match (Step.perform labels step).on s with
      | (.ok _, next) => next.scripted labels rest
      | (.error _, next) => next := by
  -- A script collects reports besides; they do not matter to the session.
  rw [scripted, List.filterMapM_cons, Attempt.on_bind]
  cases (Step.perform labels step).on s with
  | mk outcome next =>
    cases outcome with
    | error e => rfl
    | ok reported =>
      cases reported with
      | none => rfl
      | some report => exact Attempt.on_bind_pure _ (report :: ·) next

/-- A plain action is a turn in which no nodes are brought along. -/
theorem exists_turned_plain {action : Action} (plain : action.isPlain = true) (s : Session) :
    ∃ turns, InsertsNone turns ∧ (action.attempt.on s).2 = s.turned turns := by
  -- An action that is no clearing and no reset is a turn on its own.
  have counts : action.counts = true := by
    cases action with
    | clear | reset => cases plain
    | _ => rfl
  refine ⟨[.act action counts], fun n counts' member => ?_, rfl⟩
  cases List.mem_singleton.mp member
  cases plain

/-- A step of a script with a reference is a turn, or nothing happens in it. -/
theorem exists_turned_refer (reference : String) (action : NodeId → Action)
    (plain : ∀ id, (action id).isPlain = true) (s : Session) :
    ∃ turns, InsertsNone turns ∧ ((do
      (Step.known? labels reference (← get)).forM fun id => (action id).attempt
      return none : Attempt Session (Option QueryReport)).on s).2 = s.turned turns := by
  -- A reference that is not known makes the step do nothing at all, which is no turn.
  rw [Attempt.on_bind, Attempt.on_get]
  dsimp only
  cases Step.known? labels reference s with
  | none => exact ⟨[], .nil, rfl⟩
  | some id =>
    obtain ⟨turns, none, same⟩ := exists_turned_plain (plain id) s
    exact ⟨turns, none, (Attempt.on_bind_pure _ _ s).trans same⟩

/-- A step of a script is a turn, or nothing happens in it. -/
theorem exists_turned_perform (labels : OrderedMap String NodeId) (step : Step) (s : Session) :
    ∃ turns, InsertsNone turns ∧ ((Step.perform labels step).on s).2 = s.turned turns := by
  -- Every step of a script is one action, or none if its label means nothing. Another value of an
  -- action makes no difference to the session.
  have plain : ∀ action : Action, action.isPlain = true →
      ((Step.perform labels step).on s).2 = (action.attempt.on s).2 →
      ∃ turns, InsertsNone turns ∧ ((Step.perform labels step).on s).2 = s.turned turns :=
    fun _ plain same => same ▸ exists_turned_plain plain s
  cases step with
  | select reference =>
    cases reference with
    | none => exact plain (.select none) rfl (Attempt.on_bind_pure _ _ s)
    | some reference =>
      exact exists_turned_refer reference (fun id => .select (some id)) (fun _ => rfl) s
  | query text => exact plain (.type text) rfl rfl
  | type text =>
    refine plain (.enter text) rfl ?_
    have performed : Step.perform labels (.type text) = Session.type text >>= fun options =>
        confirmBest options >>= fun inserted =>
          pure (some ⟨text, options.map (·.displayText), inserted⟩) := rfl
    have entered : (Action.enter text).attempt = (Session.type text >>= confirmBest) >>= fun _ =>
      pure () := rfl
    rw [performed, entered, Attempt.on_ignored, Attempt.on_bind, Attempt.on_bind, on_type]
    exact Attempt.on_bind_pure (confirmBest _) _ _
  | escape => exact plain .escape rfl rfl
  | undo =>
    exact plain .undo rfl
      ((Attempt.on_bind_pure _ _ s).trans (Attempt.on_ignored Session.undo s).symm)
  | redo =>
    exact plain .redo rfl
      ((Attempt.on_bind_pure _ _ s).trans (Attempt.on_ignored Session.redo s).symm)
  | delete reference => exact exists_turned_refer reference .delete (fun _ => rfl) s

/-- The steps of a script are turns in which no nodes are brought along. -/
theorem exists_turned_scripted (labels : OrderedMap String NodeId) (steps : List Step) :
    ∀ s : Session, ∃ turns, InsertsNone turns ∧ s.scripted labels steps = s.turned turns := by
  -- Each step is some turns, and so is what follows it, up to the step that is refused.
  induction steps with
  | nil => exact fun s => ⟨[], .nil, rfl⟩
  | cons step rest ih =>
    intro s
    obtain ⟨turns, none, performed⟩ := exists_turned_perform labels step s
    rw [scripted_cons]
    revert performed
    cases (Step.perform labels step).on s with
    | mk outcome next =>
      rintro rfl
      cases outcome with
      | error e => exact ⟨turns, none, rfl⟩
      | ok reported =>
        obtain ⟨more, none', same⟩ := ih (s.turned turns)
        exact ⟨turns ++ more, none.append none', by rw [turned_append]; exact same⟩

/-- A script ends in its first part, or goes on after it. -/
theorem scripted_append (labels : OrderedMap String NodeId) (earlier later : List Step) :
    ∀ s : Session, s.scripted labels (earlier ++ later) = s.scripted labels earlier ∨
      s.scripted labels (earlier ++ later) = (s.scripted labels earlier).scripted labels later := by
  -- A refusal among the earlier steps ends the script before it comes to the later ones.
  induction earlier with
  | nil => exact fun s => .inr rfl
  | cons step rest ih =>
    intro s
    rw [List.cons_append, scripted_cons, scripted_cons]
    cases (Step.perform labels step).on s with
    | mk outcome next =>
      cases outcome with
      | error e => exact .inl rfl
      | ok reported => exact ih next

/-- The steps of a script that come later are turns after those that come earlier. -/
theorem exists_turned_scripted_append (labels : OrderedMap String NodeId)
    (earlier later : List Step) (s : Session) :
    ∃ turns more, InsertsNone (turns ++ more) ∧ s.scripted labels earlier = s.turned turns ∧
      s.scripted labels (earlier ++ later) = s.turned (turns ++ more) := by
  -- The later steps either never come, or start from where the earlier ones ended.
  obtain ⟨turns, none, same⟩ := exists_turned_scripted labels earlier s
  rcases scripted_append labels earlier later s with ends | goes
  · exact ⟨turns, [], by rwa [List.append_nil], same, by rw [List.append_nil, ends, same]⟩
  · obtain ⟨more, none', same'⟩ := exists_turned_scripted labels later (s.turned turns)
    exact ⟨turns, more, none.append none', same, by rw [goes, same, same', turned_append]⟩

/-- The block that a reference of a script means. -/
def meant? (labels : OrderedMap String NodeId) (reference : String) (s : Session) : Option Node :=
  (Step.known? labels reference s).bind s.workspace.node?

/-- A reference means a block by its number, which the session has no say in. -/
theorem exists_node?_of_meant? {reference : String} {n : Node}
    (meant : s.meant? labels reference = some n) :
    ∃ id, NodeId.ofReference? labels reference = some id ∧ s.workspace.node? id = some n := by
  -- A reference means a node only as long as the node is there.
  obtain ⟨id, known, found⟩ := Option.bind_eq_some_iff.mp meant
  exact ⟨id, (Option.filter_eq_some_iff.mp known).1, found⟩

end Script

end Session

end QuickEntry
