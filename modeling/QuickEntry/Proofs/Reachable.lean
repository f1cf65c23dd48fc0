import QuickEntry.Proofs.Invariant
import QuickEntry.Scenario.Run

/-! Everything that can be done to a session and its graph, in any order, and the graphs that this
leads to. -/

namespace QuickEntry

/-- Building a block leaves what is built, also if it fails half-way. -/
theorem Workspace.on_appendNamed (labels : OrderedMap String NodeId) (block : Block)
    (ws : Workspace) :
    (appendNamed labels block).on ws =
      ((ws.append labels block).1.map fun _ => (ws.append labels block).2.labels,
        (ws.append labels block).2.workspace) :=
  -- Both run the same builder.
  rfl

namespace Session

/-- Something done to a session, or to the graph behind its back. -/
inductive Action where
  /-- A node is made, which uses a number up. -/
  | make (kind : String) (mutation : Mutation)
  | insert (node : Node)
  | remove (id : NodeId)
  | setField (id : NodeId) (name : String) (value : Option String)
  | plug (child : NodeId) (place : Link)
  | unplug (child : NodeId)
  | append (labels : OrderedMap String NodeId) (block : Block)
  | component (name type : String)
  | clear
  | select (id : Option NodeId)
  | type (query : String)
  | enter (query : String)
  | escape
  | confirm (o : BlockOption)
  | delete (id : NodeId)
  | undo
  | redo
  | reset
  /-- Another session starts with the same graph. -/
  | restart (settings : Settings)

/-- Do something to a session, whatever value comes of it. -/
def Action.attempt : Action → Attempt Session Unit
  -- Changes of the graph alone leave no trace in the history.
  | make kind mutation => do let _ ← onWorkspace (.ofStep (Workspace.make · kind mutation))
  | insert node => onWorkspace (.ofUpdate (Workspace.insert · node))
  | remove id => do let _ ← onWorkspace (.ofStep (Workspace.remove · id))
  | setField id name value => do
    let _ ← onWorkspace (.ofStep (Workspace.setField · id name value))
  | plug child place => onWorkspace (.ofUpdate (Workspace.plug · child place))
  | unplug child => do let _ ← onWorkspace (.ofStep (Workspace.unplug · child))
  | append labels block => do let _ ← onWorkspace (Workspace.appendNamed labels block)
  | component name kind => onWorkspace (modify (Workspace.addComponent · name kind))
  | clear => onWorkspace (modify Workspace.clear)
  | select id => Session.select id
  | type query => do let _ ← Session.type query
  | enter query => do let _ ← Session.enter query
  | escape => Session.escape
  | confirm o => do let _ ← Session.confirm o
  | delete id => Session.delete id
  | undo => do let _ ← Session.undo
  | redo => do let _ ← Session.redo
  | reset => modify Session.reset
  | restart settings => modify fun s => .start s.workspace settings

/-- A session after some actions, each of which may be refused. -/
def after (s : Session) (actions : List Action) : Session :=
  -- A refusal does not keep the next action from being made.
  actions.foldl (fun s action => (action.attempt.on s).2) s

/-- Whether an action neither brings a node along nor empties the graph. -/
def Action.isPlain : Action → Bool
  | insert _ | clear | reset => false
  | _ => true

/-- Whether numbers go on after an action where they were before it. -/
def Action.counts : Action → Bool
  | clear | reset => false
  | _ => true

end Session

/-- A property of documents that is kept by everything that users do to them, apart from bringing
nodes along and emptying the graph. -/
structure Document.Invariant (Q : Document → Prop) : Prop where
  /-- The graph changes as it does when blocks are built. -/
  graph : ∀ {α : Type} {attempt : Attempt Workspace α},
    (∀ {P : Workspace → Prop}, Workspace.BuildInvariant P → attempt.Keeps P) →
      (onCanvas (Canvas.onWorkspace attempt)).Keeps Q
  declare : ∀ name type,
    (onCanvas (Canvas.onWorkspace (modify (Workspace.addComponent · name type)))).Keeps Q
  select : ∀ {d : Document} (id : Option NodeId),
    Q d → Q { d with canvas := { d.canvas with selection := id } }
  confirm : ∀ o selected reach, (transact (Session.insertion o selected reach)).Keeps Q
  delete : ∀ id, (transact (Draft.deleteSubtree id)).Keeps Q
  undo : Document.undo.Keeps Q
  redo : Document.redo.Keeps Q
  restart : ∀ {d : Document} (depth : Nat),
    Q d → Q ⟨⟨d.canvas.workspace, none⟩, .empty depth⟩

namespace Session

section Document

variable {Q : Document → Prop}

/-- A change of the document alone keeps in a session what it keeps of the document. -/
theorem keeps_onDocument {α : Type} {attempt : Attempt Document α} (keeps : attempt.Keeps Q) :
    (onDocument attempt).Keeps fun s => Q s.document :=
  -- The document is a part of the session.
  keeps.within fun _ _ => rfl

/-- Leaving the query box does not reach the document. -/
theorem keeps_escape : escape.Keeps fun s => Q s.document :=
  -- Only the search is closed.
  Attempt.keeps_modify fun _ holds => holds

/-- Bringing the catalog up to date does not reach the document. -/
theorem keeps_refresh : refresh.Keeps fun s => Q s.document :=
  -- Only the remembered catalog is renewed.
  Attempt.keeps_get.bind fun s =>
    (Attempt.keeps_modify fun _ holds => holds).bind fun _ => Attempt.keeps_pure s.presentCatalog

/-- Looking for options does not reach the document. -/
theorem keeps_type (query : String) : (Session.type query).Keeps fun s => Q s.document := by
  -- Only the catalog and the text in the query box change.
  refine keeps_refresh.bind fun catalog => ?_
  refine Attempt.Keeps.bind ?_ fun _ => Attempt.keeps_get.bind fun s => Attempt.keeps_pure _
  exact Attempt.keeps_modify fun _ holds => holds

/-- Plain actions keep every property that documents keep under what users do to them. -/
theorem Action.keeps_of_plain (inv : Document.Invariant Q) {action : Action}
    (plain : action.isPlain = true) : action.attempt.Keeps fun s => Q s.document := by
  -- One case per action. Those on the graph alone rest on its single steps, the others on what the
  -- document promises for insertion, deletion, undo and redo.
  have ignored : ∀ {α : Type} {attempt : Attempt Session α},
      attempt.Keeps (fun s => Q s.document) →
      (attempt >>= fun _ => pure ()).Keeps fun s => Q s.document :=
    fun keeps => keeps.bind fun _ => Attempt.keeps_pure ()
  have graphs : ∀ {α : Type} {attempt : Attempt Workspace α},
      (∀ {P : Workspace → Prop}, Workspace.BuildInvariant P → attempt.Keeps P) →
      (onWorkspace attempt).Keeps fun s => Q s.document :=
    fun keeps => keeps_onDocument (inv.graph keeps)
  have picks : ∀ o, (Session.confirm o).Keeps fun s => Q s.document :=
    fun o => Attempt.keeps_get.bind fun s => (keeps_onDocument (inv.confirm o _ _)).bind
      fun inserted => keeps_escape.bind fun _ => Attempt.keeps_pure inserted
  cases action with
  | insert | clear | reset => cases plain
  | make kind mutation =>
    exact ignored (graphs fun single => Attempt.keeps_ofStep fun _ _ _ => single.make)
  | remove id =>
    exact ignored (graphs fun single => Attempt.keeps_ofStep fun _ _ _ => single.remove)
  | setField id name value =>
    exact ignored (graphs fun single => Attempt.keeps_ofStep fun _ _ _ => single.setField)
  | plug child place => exact graphs fun single => Attempt.keeps_ofUpdate fun _ _ => single.plug
  | unplug child =>
    exact ignored (graphs fun single => Attempt.keeps_ofStep fun _ _ _ => single.unplug)
  | append labels block =>
    refine ignored (graphs fun single => Attempt.keeps_of_on fun ws holds => ?_)
    rw [Workspace.on_appendNamed]
    exact single.append holds labels block
  | component name type => exact keeps_onDocument (inv.declare name type)
  | select id =>
    refine Attempt.keeps_ofUpdate fun s next holds selected => ?_
    split at selected
    · cases selected
    · cases selected
      exact inv.select id holds
  | type query => exact ignored (keeps_type query)
  | enter query =>
    refine ignored ((keeps_type query).bind fun options => ?_)
    cases options with
    | nil => exact keeps_escape.bind fun _ => Attempt.keeps_pure none
    | cons best rest => exact (picks best).bind fun inserted => Attempt.keeps_pure (some inserted)
  | escape => exact keeps_escape
  | confirm o => exact ignored (picks o)
  | delete id => exact keeps_onDocument (inv.delete id)
  | undo => exact ignored (keeps_onDocument inv.undo)
  | redo => exact ignored (keeps_onDocument inv.redo)
  | restart settings => exact Attempt.keeps_modify fun _ holds => inv.restart _ holds

end Document

section Graph

variable {P : Workspace → Prop}

/-- A change of the graph behind the back of the session keeps what it keeps of the graph. -/
theorem keeps_onWorkspace {α : Type} {attempt : Attempt Workspace α} (keeps : attempt.Keeps P) :
    (onWorkspace attempt).Keeps fun s => P s.workspace :=
  -- The graph is a part of the canvas, and that of the document.
  keeps_onDocument (Workspace.Invariant.onCanvas (Canvas.keeps_onWorkspace keeps))

/-- An invariant of the graph is kept in documents. -/
theorem document_invariant (inv : Workspace.Invariant P)
    (declares : ∀ {ws} name type, P ws → P (ws.addComponent name type)) :
    Document.Invariant fun d => P d.canvas.workspace where
  -- An edit is a transaction over steps that keep the property, and undo and redo consist of the
  -- same steps.
  graph keeps :=
    Workspace.Invariant.onCanvas (Canvas.keeps_onWorkspace (keeps inv.toBuildInvariant))
  declare name type := Workspace.Invariant.onCanvas
    (Canvas.keeps_onWorkspace (Attempt.keeps_modify fun _ holds => declares name type holds))
  select _ holds := holds
  confirm o selected reach := inv.transact (inv.insertion o selected reach)
  delete id := inv.transact (inv.deleteSubtree id)
  undo := inv.undo
  redo := inv.redo
  restart _ holds := holds

/-- Every action after which numbers go on keeps an invariant of the graph that the declaration of
components keeps as well. -/
theorem Action.keeps_of_counts (inv : Workspace.Invariant P)
    (declares : ∀ {ws} name type, P ws → P (ws.addComponent name type)) {action : Action}
    (counts : action.counts = true) : action.attempt.Keeps fun s => P s.workspace := by
  -- An insertion from outside keeps it by assumption; clearing and resetting do not count.
  cases action with
  | insert node => exact keeps_onWorkspace (Attempt.keeps_ofUpdate fun _ _ => inv.insert)
  | clear | reset => cases counts
  | _ => exact keeps_of_plain (document_invariant inv declares) rfl

/-- Every action keeps an invariant of the graph that the removal of all nodes and the declaration
of components keep as well. -/
theorem Action.keeps (inv : Workspace.Invariant P) (clears : ∀ {ws}, P ws → P ws.clear)
    (declares : ∀ {ws} name type, P ws → P (ws.addComponent name type)) (action : Action) :
    action.attempt.Keeps fun s => P s.workspace := by
  -- The two actions that empty the graph are all that is missing.
  cases action with
  | clear => exact keeps_onWorkspace (Attempt.keeps_modify fun _ holds => clears holds)
  | reset => exact Attempt.keeps_modify fun _ holds => clears holds
  | _ => exact keeps_of_counts inv declares rfl

end Graph

/-- What every action keeps holds after any actions. -/
theorem keeps_after {Q : Session → Prop} (keeps : ∀ action : Action, action.attempt.Keeps Q)
    (actions : List Action) : ∀ s : Session, Q s → Q (s.after actions) := by
  -- The actions are made one after the other.
  induction actions with
  | nil => exact fun s holds => holds
  | cons action rest ih => exact fun s holds => ih _ ((keeps action).on holds)

/-- What every action keeps of the graph holds after any actions. -/
theorem holds_after {P : Workspace → Prop}
    (keeps : ∀ action : Action, action.attempt.Keeps fun s => P s.workspace)
    (actions : List Action) (s : Session) (holds : P s.workspace) : P (s.after actions).workspace :=
  -- By induction over the run.
  keeps_after keeps actions s holds

end Session

namespace Workspace

/-- Declaring a component leaves a graph well-formed. -/
theorem WellFormed.addComponent {ws : Workspace} (wf : ws.WellFormed) (name type : String) :
    (ws.addComponent name type).WellFormed :=
  -- No node is touched.
  ⟨wf.toLinked.of_links (fun _ => rfl) (fun _ => rfl) wf.own wf.first wf.admitted, wf.numbered⟩

/-- A graph that is built from descriptions of blocks, of which each may fail half-way. -/
inductive Built (database : ComponentDatabase) : Workspace → Prop
  /-- At first there are no nodes. -/
  | empty : Built database (.empty database)
  /-- A block is built, or what of it can be built. -/
  | append {ws : Workspace} (built : Built database ws) (labels : OrderedMap String NodeId)
      (block : Block) : Built database (ws.append labels block).2.workspace
  /-- A component is declared. -/
  | component {ws : Workspace} (built : Built database ws) (name type : String) :
      Built database (ws.addComponent name type)

/-- What is built is well-formed. -/
theorem Built.wellFormed {database : ComponentDatabase} {ws : Workspace}
    (built : Built database ws) : ws.WellFormed := by
  -- Building goes by changes that keep the graph so.
  induction built with
  | empty => exact wellFormed_of_no_nodes rfl
  | append _ labels block ih => exact invariant_wellFormed.append ih labels block
  | component _ name type ih => exact ih.addComponent name type

/-- After any actions, from a session without nodes, the graph is well-formed. -/
theorem wellFormed_after (database : ComponentDatabase) (settings : Settings)
    (actions : List Session.Action) :
    ((Session.start (empty database) settings).after actions).workspace.WellFormed :=
  -- The empty graph is well-formed, and every action keeps it so.
  Session.holds_after
    (fun action => action.keeps invariant_wellFormed (fun _ => wellFormed_of_no_nodes rfl)
      fun name type wf => wf.addComponent name type)
    actions _ (wellFormed_of_no_nodes rfl)

/-- After any actions, from a session without nodes, each of them made or refused: every node is
stored under its own number, which is below the next one; a socket, or the place after a node, holds
a node exactly when that node is there and names the place as its own, and of several sockets with
one name only the first holds anything; following the parent links ends; and what a place holds has
the connectors that the place asks for. -/
theorem graph_sound_after (database : ComponentDatabase) (settings : Settings)
    (actions : List Session.Action) :
    let ws := ((Session.start (empty database) settings).after actions).workspace
    (∀ id n, ws.node? id = some n → n.id = id ∧ id.number < ws.nextNumber) ∧
    (∀ parent name child,
      (∃ n, ws.node? parent = some n ∧ ∃ s ∈ n.sockets, s.name = name ∧ s.target = some child) ↔
        ∃ m, ws.node? child = some m ∧ m.parent = some (.socket parent name)) ∧
    (∀ id n, ws.node? id = some n →
      n.sockets.Pairwise fun s t => s.name = t.name → t.target = none) ∧
    (∀ previous child,
      (∃ n, ws.node? previous = some n ∧ n.next = some child) ↔
        ∃ m, ws.node? child = some m ∧ m.parent = some (.next previous)) ∧
    (∀ id, ws.Rooted id) ∧
    (∀ parent n s child m, ws.node? parent = some n → s ∈ n.sockets → s.target = some child →
      ws.node? child = some m →
      match s.kind with
      | .value => ∃ output, m.output = some output ∧ s.check.accepts output = true
      | .statement => m.hasPrevious = true) ∧
    (∀ previous n child m, ws.node? previous = some n → n.next = some child →
      ws.node? child = some m → n.hasNext = true ∧ m.hasPrevious = true) := by
  -- All parts are read off a well-formed graph.
  intro ws
  have wf : ws.WellFormed := wellFormed_after database settings actions
  refine ⟨fun id n found => ⟨wf.own found, wf.numbered found⟩, wf.toLinked.socket_iff,
    fun id n found => wf.first found, wf.toLinked.next_iff, wf.rooted, ?_, ?_⟩
  · intro parent n s child m offered member held found
    have free := wf.toLinked.obstacle_eq_none offered member held found
    cases kind : s.kind with
    | value => exact (Socket.obstacle_value kind).mp free
    | statement => exact (Socket.obstacle_statement kind).mp free
  · intro previous n child m offered next found
    exact wf.toLinked.connectors_next offered next found

end Workspace

end QuickEntry
