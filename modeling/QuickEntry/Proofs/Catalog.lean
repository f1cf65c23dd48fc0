import QuickEntry.Proofs.Edit.Step
import QuickEntry.Proofs.Reachable

/-! The catalog that a session keeps: after any actions it is still the one for the declarations
that it was built for, so that the present catalog is always that of the present declarations. -/

namespace QuickEntry

/-- No change of a graph changes the component database. -/
theorem Workspace.invariant_database (database : ComponentDatabase) :
    Invariant fun ws => ws.database = database where
  -- Each change rebuilds the graph from its nodes and its counter alone.
  make same made := by
    obtain ⟨_, rfl⟩ := make_eq_ok made
    exact same
  insert same inserted := by
    obtain ⟨_, _, rfl⟩ := insert_eq_ok_iff.mp inserted
    exact same
  remove same removed := by
    obtain ⟨_, _, rfl⟩ := remove_eq_ok_iff.mp removed
    exact same
  setField same set := by
    obtain ⟨_, _, _, _, rfl⟩ := of_setField set
    exact same
  plug same plugged := by
    obtain ⟨_, rfl⟩ := plug_eq_ok_iff.mp plugged
    exact same
  unplug same unplugged := by
    obtain ⟨_, rfl⟩ := unplug_eq_ok_iff.mp unplugged
    unfold freed
    split <;> exact same

namespace Session

/-- Picking an option leaves the kept catalog alone. -/
theorem catalog_confirm (o : BlockOption) (s : Session) :
    ((confirm o).on s).2.catalog = s.catalog := by
  -- Confirming works on the document, whatever comes of it.
  rw [on_confirm]
  cases (Document.transact (insertion o s.selected? s.settings.reach)).on s.document with
  | mk outcome next => cases outcome <;> rfl

/-- Typing a query brings the catalog up to date and changes nothing but the text in the query box
besides. -/
theorem on_type (query : String) (s : Session) :
    (Session.type query).on s =
      (.ok (matchingOptions s.presentCatalog.options.toList query s.settings.maxMatches),
        { s with catalog := some s.presentCatalog, query }) :=
  -- The catalog is looked up before the query is stored, and both are stored together.
  rfl

/-- The option that is picked when a query is entered. -/
def best? (s : Session) (query : String) : Option BlockOption :=
  (matchingOptions s.presentCatalog.options.toList query s.settings.maxMatches).head?

/-- Entering a query is typing it and picking its best option, or leaving the query box. -/
theorem on_enter (query : String) (s : Session) :
    (Session.enter query).on s =
      match s.best? query with
      | some best =>
        (do return some (← Session.confirm best) : Attempt Session (Option Insertion)).on
          { s with catalog := some s.presentCatalog, query }
      | none => (.ok none, { s with catalog := some s.presentCatalog, query := "" }) := by
  -- Entering is typing and then confirming the first of the matches, if there is one.
  have unfolded : Session.enter query = Session.type query >>= confirmBest := rfl
  rw [unfolded, Attempt.on_bind, on_type, best?]
  cases matchingOptions s.presentCatalog.options.toList query s.settings.maxMatches <;> rfl

/-- As an action, entering a query is picking its best option, or leaving the query box. -/
theorem Action.on_enter (query : String) (s : Session) :
    ((enter query).attempt.on s).2 =
      match s.best? query with
      | some best =>
        ((Session.confirm best).on { s with catalog := some s.presentCatalog, query }).2
      | none => { s with catalog := some s.presentCatalog, query := "" } := by
  -- The action only forgets what was inserted.
  have unfolded : (enter query).attempt = Session.enter query >>= fun _ => pure () := rfl
  rw [unfolded, Attempt.on_ignored, Session.on_enter]
  cases s.best? query with
  | none => rfl
  | some best =>
    simp only [Attempt.on_bind]
    cases (Session.confirm best).on { s with catalog := some s.presentCatalog, query } with
    | mk outcome next => cases outcome <;> rfl

/-- An action leaves the kept catalog alone, brings it up to date, or drops it. -/
theorem Action.catalog_cases (action : Action) (s : Session) :
    (action.attempt.on s).2.catalog = s.catalog ∨
      (action.attempt.on s).2.catalog = some s.presentCatalog ∨
      (action.attempt.on s).2.catalog = none := by
  -- Changes of the document do not reach the catalog, whatever value they give.
  have documents : ∀ {α : Type} (attempt : Attempt Document α),
      ((onDocument attempt >>= fun _ => pure () : Attempt Session Unit).on s).2.catalog =
        s.catalog := by
    intro α attempt
    rw [Attempt.on_ignored, on_onDocument]
  have picks : ∀ o, ((Session.confirm o >>= fun _ => pure () :
      Attempt Session Unit).on s).2.catalog = s.catalog := by
    intro o
    rw [Attempt.on_ignored, catalog_confirm]
  -- Typing renews what is remembered, resetting and restarting forget it, and nothing else touches
  -- it.
  cases action with
  | make | remove | setField | unplug | append | undo | redo => exact .inl (documents _)
  | insert | plug | component | clear | delete | escape => exact .inl rfl
  | select id =>
    have unfolded : (select id).attempt = Session.select id := rfl
    rw [unfolded, Session.select, Attempt.on_ofUpdate]
    cases id.filter fun id => !s.workspace.contains id <;> exact .inl rfl
  | confirm o => exact .inl (picks o)
  | type query => exact .inr (.inl rfl)
  | enter query =>
    refine .inr (.inl ?_)
    rw [on_enter]
    cases s.best? query with
    | none => rfl
    | some best => exact catalog_confirm best _
  | reset | restart => exact .inr (.inr rfl)

/-- The present catalog of a session that keeps a sound one is that of the present declarations. -/
theorem presentCatalog_eq {s : Session}
    (kept : ∀ c ∈ s.catalog, c = .build c.declarations s.workspace.database) :
    s.presentCatalog = .build s.declarations s.workspace.database := by
  -- A catalog that was kept counts only as long as the declarations are those it was built from;
  -- any other is built anew.
  unfold presentCatalog
  cases current : s.catalog.filter (·.declarations = s.declarations) with
  | none => rfl
  | some c =>
    obtain ⟨present, same⟩ := Option.filter_eq_some_iff.mp current
    have built := kept c present
    rw [of_decide_eq_true same] at built
    exact built

/-- The component database is fixed, and the catalog that is kept, if there is one, is that of the
declarations that it was built for. -/
def CatalogSound (database : ComponentDatabase) (s : Session) : Prop :=
  s.workspace.database = database ∧ ∀ c ∈ s.catalog, c = .build c.declarations database

/-- A sound session presents the catalog of the present declarations. -/
theorem CatalogSound.present {database : ComponentDatabase} {s : Session}
    (sound : s.CatalogSound database) : s.presentCatalog = .build s.declarations database := by
  -- The database never changes in a session, so that the kept catalog and a new one are built from
  -- the same one.
  obtain ⟨rfl, kept⟩ := sound
  exact presentCatalog_eq kept

/-- A session stays sound if its catalog is left alone, brought up to date or dropped. -/
theorem CatalogSound.of_cases {database : ComponentDatabase} {s after : Session}
    (sound : s.CatalogSound database) (same : after.workspace.database = database)
    (cases : after.catalog = s.catalog ∨ after.catalog = some s.presentCatalog ∨
      after.catalog = none) : after.CatalogSound database := by
  -- Of the three possible catalogs the kept one is sound by assumption, the present one is as if
  -- built anew, and without any there is nothing to show.
  refine ⟨same, ?_⟩
  rcases cases with kept | current | none
  · rw [kept]
    exact sound.2
  · rw [current, sound.present]
    rintro _ ⟨⟩
    rfl
  · rw [none]
    exact fun _ member => nomatch member

/-- A session starts with a sound catalog, which is none. -/
theorem catalogSound_start (ws : Workspace) (settings : Settings) :
    (start ws settings).CatalogSound ws.database :=
  -- There is no catalog before the first query.
  ⟨rfl, fun _ member => nomatch member⟩

/-- Every action leaves the catalog sound. -/
theorem Action.keeps_catalog (database : ComponentDatabase) (action : Action) :
    action.attempt.Keeps (CatalogSound database) :=
  -- No action changes the database, and each leaves one of the three possible catalogs.
  Attempt.keeps_of_on fun s sound => sound.of_cases
    ((action.keeps (Workspace.invariant_database database) id fun _ _ => id).on sound.1)
    (action.catalog_cases s)

/-- After any actions the present catalog is that of the present declarations. -/
theorem presentCatalog_after (database : ComponentDatabase) (settings : Settings)
    (actions : List Action) :
    let s := (start (.empty database) settings).after actions
    s.presentCatalog = .build s.declarations database :=
  -- Soundness holds at the start and is kept by every action.
  (keeps_after (Action.keeps_catalog database) actions _
    (catalogSound_start (.empty database) settings)).present

end Session

end QuickEntry
