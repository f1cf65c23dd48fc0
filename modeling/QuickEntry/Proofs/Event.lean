import QuickEntry.Proofs.Catalog
import QuickEntry.Proofs.Rollback

/-! Runs of a session in which anything may happen to its graph, and what the catalog offers at
every moment of them. -/

namespace QuickEntry

namespace Session

/-- What may happen in a session. -/
inductive Event where
  | act (action : Action)
  /-- The catalog is asked for. -/
  | look
  /-- Operations are made on the graph, as one step of the history. -/
  | keep (operations : List Draft.Operation)
  /-- Operations are made on the graph, with a selection of their own, and taken back. -/
  | takeBack (selection : Option NodeId) (operations : List Draft.Operation)

/-- Let happen what happens in an event, whatever value comes of it. -/
def Event.attempt : Event → Attempt Session Unit
  | act action => action.attempt
  | look => do let _ ← refresh
  | keep operations => onDocument <| modify fun d =>
    let draft := (Draft.start d.canvas).after operations
    ⟨draft.canvas, d.history.push draft.command⟩
  | takeBack selection operations => onWorkspace <| modify fun ws =>
    ((Draft.start ⟨ws, selection⟩).after operations).rollback.workspace

/-- A session after some events, each of which may be refused. -/
def through (s : Session) (events : List Event) : Session :=
  events.foldl (fun s event => (event.attempt.on s).2) s

/-- What each of some events keeps holds after them. -/
theorem keeps_through {Q : Session → Prop} (events : List Event)
    (keeps : ∀ event ∈ events, event.attempt.Keeps Q) :
    ∀ s : Session, Q s → Q (s.through events) := by
  -- The events happen one after the other.
  induction events with
  | nil => exact fun s holds => holds
  | cons event rest ih =>
    intro s holds
    have first := (keeps event List.mem_cons_self).on holds
    exact ih (fun later member => keeps later (List.mem_cons_of_mem _ member)) _ first

/-- Every event keeps what every change of a graph keeps. -/
theorem Event.keeps {P : Workspace → Prop} (inv : Workspace.Invariant P)
    (clears : ∀ {ws}, P ws → P ws.clear)
    (declares : ∀ {ws} name type, P ws → P (ws.addComponent name type)) (event : Event) :
    event.attempt.Keeps fun s => P s.workspace := by
  -- Every event is made of the changes that a session makes, or of operations that are kept or
  -- taken back.
  cases event with
  | act action => exact action.keeps inv clears declares
  | look =>
    -- Asking for the catalog leaves the graph as it is.
    have asks : refresh.Keeps fun s => P s.workspace :=
      keeps_refresh (Q := fun d => P d.canvas.workspace)
    exact asks.bind fun _ => Attempt.keeps_pure ()
  | keep operations =>
    refine keeps_onDocument (Q := fun d => P d.canvas.workspace)
      (Attempt.keeps_modify fun d holds => ?_)
    exact Draft.keeps_after (Draft.Operation.keeps inv.toBuildInvariant) operations
      (.start d.canvas) holds
  | takeBack selection operations =>
    exact keeps_onWorkspace (Attempt.keeps_modify fun ws =>
      Draft.holds_rollback inv operations ⟨ws, selection⟩)

/-- An event leaves the kept catalog alone, brings it up to date, or drops it. -/
theorem Event.catalog_cases (event : Event) (s : Session) :
    (event.attempt.on s).2.catalog = s.catalog ∨
      (event.attempt.on s).2.catalog = some s.presentCatalog ∨
      (event.attempt.on s).2.catalog = none := by
  -- Only an action and asking for the catalog have to do with the catalog that is kept.
  cases event with
  | act action => exact action.catalog_cases s
  | look => exact .inr (.inl rfl)
  | keep | takeBack => exact .inl rfl

/-- Every event leaves the catalog sound. -/
theorem Event.keeps_catalog (database : ComponentDatabase) (event : Event) :
    event.attempt.Keeps (CatalogSound database) :=
  -- No event changes the database, and each leaves one of the three possible catalogs.
  Attempt.keeps_of_on fun s sound => sound.of_cases
    ((event.keeps (Workspace.invariant_database database) id fun _ _ => id).on sound.1)
    (event.catalog_cases s)

/-- A session that started with any graph, after any events, each of them made or refused: the
catalog that it gives is the one that is built for the present graph, selection and component
database, and a query is answered with the options of that catalog. -/
theorem catalog_fresh_through (ws : Workspace) (settings : Settings) (events : List Event) :
    let s := (start ws settings).through events
    let fresh := Catalog.build (.collect s.workspace s.selected?) s.workspace.database
    s.workspace.database = ws.database ∧ (refresh.on s).1 = .ok fresh ∧
      ∀ query, ((Session.type query).on s).1 =
        .ok (matchingOptions fresh.options.toList query s.settings.maxMatches) := by
  -- A catalog that is sound after the events is as if built from what the session shows then.
  intro s fresh
  have sound : s.CatalogSound ws.database := keeps_through events
    (fun event _ => event.keeps_catalog ws.database) _ (catalogSound_start ws settings)
  have present : s.presentCatalog = fresh := by
    rw [sound.present, ← sound.1]
    rfl
  refine ⟨sound.1, ?_, fun query => ?_⟩
  · have given : (refresh.on s).1 = .ok s.presentCatalog := rfl
    rw [given, present]
  · rw [on_type, present]

end Session

end QuickEntry
