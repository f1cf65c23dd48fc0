import QuickEntry.Proofs.Depth
import QuickEntry.Proofs.Reachable
import QuickEntry.Proofs.UndoRedo

/-! Over whole runs of a session, undoing and redoing walk along a linear history of snapshots. -/

namespace QuickEntry

/-- A linear history of snapshots with a place in it. -/
structure Timeline where
  /-- The snapshots before the present one, newest first. -/
  past : List (List Node)
  now : List Node
  /-- The snapshots that were undone, the next one first. -/
  future : List (List Node)

namespace Timeline

/-- The history that starts with a snapshot. -/
def start (snapshot : List Node) : Timeline := ⟨[], snapshot, []⟩

/-- Go on to a new snapshot: what was undone is dropped, and so is what lies too far back. -/
def edit (depth : Nat) (snapshot : List Node) (t : Timeline) : Timeline :=
  ⟨(t.now :: t.past).take depth, snapshot, []⟩

/-- Go back by one snapshot, if there is one. -/
def undo (t : Timeline) : Timeline :=
  match t.past with
  | [] => t
  | before :: past => ⟨past, before, t.now :: t.future⟩

/-- Go forth by one snapshot, if there is one. -/
def redo (t : Timeline) : Timeline :=
  match t.future with
  | [] => t
  | next :: future => ⟨t.now :: t.past, next, future⟩

/-- The snapshots of some canvases. -/
def ofCanvases (past : List Canvas) (now : Canvas) (future : List Canvas) : Timeline :=
  ⟨past.map (·.workspace.snapshot), now.workspace.snapshot, future.map (·.workspace.snapshot)⟩

end Timeline

namespace Session

/-- What a user does in a session. -/
inductive Gesture where
  | select (id : Option NodeId)
  | type (query : String)
  | escape
  | edit (edit : Edit)
  | undo
  | redo

namespace Gesture

/-- Do what a user does, whatever value comes of it. -/
def attempt : Gesture → Attempt Session Unit
  | select id => Session.select id
  | type query => do let _ ← Session.type query
  | escape => Session.escape
  | edit e => e.attempt
  | undo => do let _ ← Session.undo
  | redo => do let _ ← Session.redo

/-- Follow in the reference history what a user does in a session: only edits that are made, undoing
and redoing show in it. -/
def track (depth : Nat) (s : Session) (t : Timeline) : Gesture → Timeline
  | edit e =>
    match e.attempt.on s with
    | (.ok _, next) => t.edit depth next.workspace.snapshot
    | (.error _, _) => t
  | undo => t.undo
  | redo => t.redo
  | _ => t

/-- If an option that sets fields calls a procedure, all declarations of that procedure have equally
many arguments; this is asked only if the order of nodes is loose. -/
def Unambiguous (loose : Prop) (ws : Workspace) : Gesture → Prop
  | edit (.confirm o) => loose → ∀ name, o.calls? = some name → ws.AgreeOn name
  | _ => True

end Gesture

/-- A session and its reference history after a run. -/
def watch (depth : Nat) (s : Session) (t : Timeline) : List Gesture → Session × Timeline
  | [] => (s, t)
  | gesture :: rest => watch depth (gesture.attempt.on s).2 (gesture.track depth s t) rest

/-- What a run leads to that starts with a graph and a history without edits. -/
def run (ws : Workspace) (settings : Settings) (gestures : List Gesture) : Session × Timeline :=
  watch settings.historyDepth (.start ws settings) (.start ws.snapshot) gestures

/-- No call that is entered during a run meets declarations that differ, if the order of nodes is
loose. -/
def Unambiguous (loose : Prop) (s : Session) : List Gesture → Prop
  | [] => True
  | gesture :: rest =>
    gesture.Unambiguous loose s.workspace ∧ Unambiguous loose (gesture.attempt.on s).2 rest

/-- The grain of a run: selections by hand are forgotten, and so is the order of nodes if it is
loose. -/
def Gesture.grain (loose : Prop) : Grain := ⟨¬loose, True, False⟩

/-- A session keeps to a reference history: its document remembers canvases with the snapshots, and
its own history is within its depth. -/
structure Tracks (loose : Prop) (depth : Nat) (s : Session) (t : Timeline) : Prop where
  remembers : ∃ past now future, s.document.Remembers (Gesture.grain loose) True past now future ∧
    (∀ c ∈ past ++ now :: future, c.workspace.WellFormed) ∧ t = .ofCanvases past now future
  depth : s.document.history.depth = depth
  bounded : s.document.history.Bounded

namespace Tracks

variable {loose : Prop} {depth : Nat} {s next : Session} {t : Timeline}

/-- A session shows the present snapshot of its reference history. -/
theorem snapshot_eq (tracks : Tracks loose depth s t) : s.workspace.snapshot = t.now := by
  -- The present canvas is like the one that is remembered.
  obtain ⟨past, now, future, remembers, sound, rfl⟩ := tracks.remembers
  have wf : now.workspace.WellFormed := sound now (by simp)
  exact (remembers.canvas.workspace.snapshot_eq trivial wf.toLinked remembers.wf.toLinked).symm

/-- What is no step leaves a session where it is. -/
theorem stay (tracks : Tracks loose depth s t)
    (stayed : Document.Unstepped (Gesture.grain loose) s.document next.document) :
    Tracks loose depth next t := by
  -- The same canvases are remembered.
  obtain ⟨past, now, future, remembers, sound, same⟩ := tracks.remembers
  obtain ⟨remembers', deep⟩ := remembers.stay stayed
  have bounded : next.document.history.Bounded := by
    rw [stayed.history]
    exact tracks.bounded
  exact ⟨⟨past, now, future, remembers', sound, same⟩, deep.trans tracks.depth, bounded⟩

/-- A step leads to a new snapshot. -/
theorem step (tracks : Tracks loose depth s t)
    (stepped : Document.Stepped (Gesture.grain loose) True s.document next.document) :
    Tracks loose depth next (t.edit depth next.workspace.snapshot) := by
  -- The canvas after the step is remembered as the newest one.
  obtain ⟨past, now, future, remembers, sound, rfl⟩ := tracks.remembers
  obtain ⟨remembers', deep⟩ := remembers.step stepped
  -- Within the depth, the room for what comes before it is the depth.
  rw [Nat.max_eq_right tracks.bounded.undoable_le] at remembers'
  rw [tracks.depth] at remembers' deep
  have bounded : next.document.history.Bounded := by
    obtain ⟨commands, _, _, pushed⟩ := stepped.step
    rw [pushed]
    exact tracks.bounded.serve (.push _)
  refine ⟨⟨_, _, _, remembers', fun c member => ?_, ?_⟩, deep, bounded⟩
  · rcases List.mem_append.mp member with before | present
    · refine sound c ?_
      rcases List.mem_cons.mp (List.mem_of_mem_take before) with rfl | earlier
      · simp
      · simp [earlier]
    · rw [List.mem_singleton.mp present]
      exact stepped.wf
  · simp only [Timeline.edit, Timeline.ofCanvases, List.map_take, List.map_cons, List.map_nil]
    rfl

/-- Undoing succeeds exactly if there is a snapshot before the present one, and goes there. -/
theorem undo (tracks : Tracks loose depth s t) :
    (Session.undo.on s).1 = .ok (!t.past.isEmpty) ∧
      Tracks loose depth (Session.undo.on s).2 t.undo := by
  obtain ⟨past, now, future, remembers, sound, rfl⟩ := tracks.remembers
  have bounded := tracks.bounded.serve (.undo s.document.canvas)
  rw [History.serve] at bounded
  rw [on_undo]
  cases past with
  | nil =>
    rw [remembers.on_undo_nil]
    exact ⟨rfl, ⟨⟨_, _, _, remembers, sound, rfl⟩, tracks.depth, tracks.bounded⟩⟩
  | cons before past =>
    -- The canvases move on by one place.
    obtain ⟨next, undid, remembers', deep⟩ := remembers.on_undo
    rw [undid] at bounded ⊢
    refine ⟨rfl, ⟨⟨_, _, _, remembers', fun c member => sound c ?_, rfl⟩, deep.trans tracks.depth,
      bounded⟩⟩
    simp only [List.mem_append, List.mem_cons] at member ⊢
    tauto

/-- Redoing succeeds exactly if there is a snapshot after the present one, and goes there. -/
theorem redo (tracks : Tracks loose depth s t) :
    (Session.redo.on s).1 = .ok (!t.future.isEmpty) ∧
      Tracks loose depth (Session.redo.on s).2 t.redo := by
  obtain ⟨past, now, future, remembers, sound, rfl⟩ := tracks.remembers
  have bounded := tracks.bounded.serve (.redo s.document.canvas)
  rw [History.serve] at bounded
  rw [on_redo]
  cases future with
  | nil =>
    rw [remembers.on_redo_nil]
    exact ⟨rfl, ⟨⟨_, _, _, remembers, sound, rfl⟩, tracks.depth, tracks.bounded⟩⟩
  | cons other future =>
    -- The canvases move on by one place.
    obtain ⟨next, redid, remembers', deep⟩ := remembers.on_redo
    rw [redid] at bounded ⊢
    refine ⟨rfl, ⟨⟨_, _, _, remembers', fun c member => sound c ?_, rfl⟩, deep.trans tracks.depth,
      bounded⟩⟩
    simp only [List.mem_append, List.mem_cons] at member ⊢
    tauto

/-- The graph of a session that keeps to a reference history is well-formed. -/
theorem wellFormed (tracks : Tracks loose depth s t) : s.workspace.WellFormed := by
  -- Its document remembers so.
  obtain ⟨_, _, _, remembers, _, _⟩ := tracks.remembers
  exact remembers.wf

/-- An edit leads to a new snapshot if it is made, and nowhere if it is refused. -/
theorem edit (tracks : Tracks loose depth s t) {e : Edit}
    (unambiguous : (Gesture.edit e).Unambiguous loose s.workspace)
    (loosens : ∀ id, e = .delete id → loose) :
    Tracks loose depth (e.attempt.on s).2 ((Gesture.edit e).track depth s t) := by
  -- The edit suits the grain, since nodes keep their order or declarations agree.
  have suits : e.Suits (Gesture.grain loose) s.workspace := by
    cases e with
    | confirm o =>
      intro name calls
      by_cases free : loose
      · exact .inr (unambiguous free name calls)
      · exact .inl free
    | delete id => exact fun ordered => ordered (loosens id rfl)
  have outcome := Edit.on_attempt True tracks.wellFormed suits
  rw [Gesture.track]
  revert outcome
  cases e.attempt.on s with
  | mk outcome next =>
    cases outcome with
    | ok _ => exact tracks.step
    | error _ => exact tracks.stay

/-- Every gesture keeps a session to its reference history. -/
theorem gesture (tracks : Tracks loose depth s t) {gesture : Gesture}
    (unambiguous : gesture.Unambiguous loose s.workspace)
    (loosens : ∀ id, gesture = .edit (.delete id) → loose) :
    Tracks loose depth (gesture.attempt.on s).2 (gesture.track depth s t) := by
  -- Selections, queries and the query box do not touch the graph.
  have wf := tracks.wellFormed
  cases gesture with
  | select id =>
    refine tracks.stay ?_
    rw [Gesture.attempt, Session.select, Attempt.on_ofUpdate]
    split
    · rename_i next selected
      split at selected
      · cases selected
      · cases selected
        exact ⟨⟨.refl _, False.elim⟩, rfl, wf⟩
    · exact ⟨.refl _, rfl, wf⟩
  | type query => exact tracks.stay ⟨.refl _, rfl, wf⟩
  | escape => exact tracks.stay ⟨.refl _, rfl, wf⟩
  | edit e => exact tracks.edit unambiguous fun id same => loosens id (congrArg Gesture.edit same)
  | undo =>
    rw [Gesture.attempt, Attempt.on_ignored]
    exact tracks.undo.2
  | redo =>
    rw [Gesture.attempt, Attempt.on_ignored]
    exact tracks.redo.2

/-- Every run keeps a session to its reference history, if the order of nodes is loose wherever
something is deleted. -/
theorem watch (gestures : List Gesture) :
    ∀ {s : Session} {t : Timeline}, Tracks loose depth s t → s.Unambiguous loose gestures →
      (∀ id, .edit (.delete id) ∈ gestures → loose) →
      Tracks loose depth (s.watch depth t gestures).1 (s.watch depth t gestures).2 := by
  -- The gestures are made one after the other.
  induction gestures with
  | nil => exact fun tracks _ _ => tracks
  | cons gesture rest ih =>
    intro s t tracks unambiguous loosens
    have first := tracks.gesture unambiguous.1 fun id same => loosens id (by simp [same])
    exact ih first unambiguous.2 fun id member => loosens id (by simp [member])

/-- A new session keeps to the history that starts with its graph. -/
theorem start {ws : Workspace} (wf : ws.WellFormed) (settings : Settings) :
    Tracks loose settings.historyDepth (.start ws settings) (.start ws.snapshot) := by
  -- There is nothing to undo or to redo.
  refine ⟨⟨[], ⟨ws, none⟩, [], ?_, ?_, rfl⟩, rfl, Nat.zero_le _⟩
  · exact ⟨.refl _, wf, .rest fun _ => rfl, .rest fun _ => rfl⟩
  · intro c member
    rw [List.mem_singleton.mp member]
    exact wf

end Tracks

/-- In every session that starts with a graph built from blocks, after every run, the graph shows
the present snapshot of the reference history, and undoing and redoing do not fail: they lead on
exactly if the reference history has a snapshot to go to. Runs in which something is deleted must
enter no call whose procedure is declared with different numbers of arguments at that time. -/
theorem history_linear {database : ComponentDatabase} {ws : Workspace}
    (built : Workspace.Built database ws) (settings : Settings) {gestures : List Gesture}
    (unambiguous : (Session.start ws settings).Unambiguous
      (∃ id, .edit (.delete id) ∈ gestures) gestures) :
    let last := run ws settings gestures
    last.1.workspace.snapshot = last.2.now ∧ (undo.on last.1).1 = .ok (!last.2.past.isEmpty) ∧
      (redo.on last.1).1 = .ok (!last.2.future.isEmpty) := by
  -- The run keeps to the reference history from the start.
  have tracks := Tracks.watch gestures (Tracks.start built.wellFormed settings) unambiguous
    fun id member => ⟨id, member⟩
  exact ⟨tracks.snapshot_eq, tracks.undo.1, tracks.redo.1⟩

/-- A call that is entered beside a declaration can be undone and redone after the declaration was
deleted and brought back. -/
theorem history_linear_beside_declaration :
    let declaration : Block :=
      ⟨"procedures_defnoreturn", none, .ofList [("NAME", .string "foo")], none, [], none⟩
    let call : BlockOption :=
      ⟨"procedures_callnoreturn", "call foo", some (.ofList [("PROCNAME", "foo")]), none⟩
    let last := run ((Workspace.empty ∅).append ∅ declaration).2.workspace {}
      [.edit (.confirm call), .edit (.delete ⟨1⟩), .undo, .undo, .redo]
    last.1.workspace.snapshot = last.2.now ∧ (undo.on last.1).1 = .ok (!last.2.past.isEmpty) ∧
      (redo.on last.1).1 = .ok (!last.2.future.isEmpty) := by
  -- The graph has one definition only, so no other can take its place.
  intro declaration call
  refine history_linear (Workspace.Built.empty.append ∅ declaration) {} ?_
  refine ⟨fun _ name _ => ?_, trivial, trivial, trivial, trivial, trivial⟩
  exact Workspace.agreeOn_of_single (d := (some "foo", [])) (by rfl) name

/- A call that is entered beside two declarations gets its argument from the first of them. Once
that one was deleted and brought back it comes last, and the call that is made again has no
argument. -/
example :
    let declaration (extraState : Option String) : Block :=
      ⟨"procedures_defnoreturn", none, .ofList [("NAME", .string "foo")], extraState, [], none⟩
    let call : BlockOption :=
      ⟨"procedures_callnoreturn", "call foo", some (.ofList [("PROCNAME", "foo")]), none⟩
    let first := declaration (some "<mutation><arg name=\"x\"/></mutation>")
    let second := declaration none
    let ws := (((Workspace.empty ∅).append ∅ first).2.workspace.append ∅ second).2.workspace
    let sockets (s : Session) := (s.workspace.node? ⟨3⟩).map (·.sockets.length)
    sockets (run ws {} [.edit (.confirm call)]).1 = some 1 ∧
      sockets (run ws {} [.edit (.confirm call), .edit (.delete ⟨1⟩), .undo, .undo, .redo]).1 =
        some 0 := by
  decide +kernel

end Session

end QuickEntry
