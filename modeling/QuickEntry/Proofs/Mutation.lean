import QuickEntry.Mutation
import QuickEntry.Proofs.Markup.Element
import QuickEntry.Proofs.OrderedMap

/-! Structural states as documents: which settings can be read back from how they are written. -/

namespace QuickEntry

open QuickEntry.Text

namespace Mutation

variable {m : Mutation}

/-- The settings as they go into a tag. -/
def written (settings : OrderedMap String String) : Markup.Pairs :=
  settings.entries.map fun e => (e.1.toList, e.2.toList)

/-- The arguments as they go into tags of their own. -/
def writtenArguments (args : List String) : List Markup.Pairs :=
  args.map fun name => [("name".toList, name.toList)]

/-- All settings are called by plain names. -/
def Plain (settings : OrderedMap String String) : Prop :=
  ∀ name ∈ settings.keys, Markup.isPlainName name.toList = true

/-- The root element of the document of a structural state. -/
def rootElement (m : Mutation) : Markup.Element :=
  ⟨"mutation".toList, Markup.plainAttributes (written m.attributes),
    (writtenArguments m.args).map fun entries =>
      ⟨"arg".toList, Markup.plainAttributes entries, []⟩⟩

/-- A setting is written as an attribute of a tag. -/
theorem writeAttribute_eq (name value : String) :
    writeAttribute name value = Markup.attributeText [(name.toList, value.toList)] := by
  -- Both write a blank, the name, an equals sign and the escaped value in quotes.
  have mark : "=\"".toList = ['=', '"'] := by simp
  rw [writeAttribute, mark]
  simp only [Markup.attributeText, List.flatMap_cons, List.flatMap_nil, List.append_nil,
    List.cons_append, List.append_assoc, List.nil_append]

/-- The settings are written one after the other. -/
theorem flatMap_settings (settings : OrderedMap String String) :
    (settings.entries.flatMap fun e => writeAttribute e.1 e.2) =
      Markup.attributeText (written settings) := by
  -- The settings are written one by one, in their order.
  rw [written, Markup.attributeText, List.flatMap_map]
  simp only [writeAttribute_eq, Markup.attributeText]
  simp only [List.flatMap_cons, List.flatMap_nil, List.append_nil]

/-- The arguments are written one after the other. -/
theorem flatMap_arguments (args : List String) :
    (args.flatMap fun name =>
      "<arg".toList ++ writeAttribute "name" name ++ "></arg>".toList) =
        Markup.leafText "arg".toList (writtenArguments args) := by
  -- Each argument is an element without content, whose one attribute is its name.
  have opening : "<arg".toList = '<' :: "arg".toList := by simp
  have closing : "></arg>".toList = '>' :: '<' :: '/' :: ("arg".toList ++ ['>']) := by simp
  simp only [writeAttribute_eq, writtenArguments, Markup.leafText, List.flatMap_map, opening,
    closing, List.cons_append, List.append_assoc]

/-- The document is one element, with the settings in its tag and the arguments inside. -/
theorem toList_toMarkup (m : Mutation) :
    (toMarkup m).toList =
      '<' :: ("mutation".toList ++ (Markup.attributeText (written m.attributes) ++
        '>' :: (Markup.leafText "arg".toList (writtenArguments m.args) ++
          '<' :: '/' :: ("mutation".toList ++ ['>'])))) := by
  -- The tags are split into their marks and names, as the reader of elements meets them.
  have unfolded : toMarkup m = String.ofList ("<mutation".toList ++
      (m.attributes.entries.flatMap fun e => writeAttribute e.1 e.2) ++
        '>' :: (m.args.flatMap fun name =>
          "<arg".toList ++ writeAttribute "name" name ++ "></arg>".toList) ++
            "</mutation>".toList) := rfl
  have opening : "<mutation".toList = '<' :: "mutation".toList := by simp
  have closing : "</mutation>".toList = '<' :: '/' :: ("mutation".toList ++ ['>']) := by simp
  rw [unfolded, flatMap_settings, flatMap_arguments, opening, closing, String.toList_ofList]
  simp only [List.cons_append, List.append_assoc]

/-- Settings of plain names can be read back. -/
theorem readable_written {settings : OrderedMap String String} (plain : Plain settings) :
    (written settings).Readable := by
  -- The names are plain by assumption and distinct because a map has no key twice.
  constructor
  · intro e member
    obtain ⟨entry, among, rfl⟩ := List.mem_map.mp member
    exact plain entry.1 (List.mem_map_of_mem among)
  · have names : (written settings).map Prod.fst = settings.keys.map String.toList := by
      simp [written, OrderedMap.keys, Function.comp_def]
    rw [names]
    exact settings.keys_nodup.map fun _ _ => String.toList_inj.mp

/-- Arguments can be read back. -/
theorem readable_writtenArguments (args : List String) :
    ∀ entries ∈ writtenArguments args, entries.Readable := by
  -- The one attribute of an argument has a fixed, plain name.
  intro entries member
  obtain ⟨name, _, rfl⟩ := List.mem_map.mp member
  have own : Markup.isPlainName "name".toList = true := by decide
  exact ⟨fun e among => List.mem_singleton.mp among ▸ own, List.nodup_singleton _⟩

/-- The document of a structural state is read back as its root element, if no value in it has an
illegal character. -/
theorem ofMarkup_toMarkup (plain : Plain m.attributes) :
    ofMarkup (toMarkup m) =
      if Markup.areLegal (written m.attributes) &&
          (writtenArguments m.args).all Markup.areLegal then
        ofElement (rootElement m)
      else .error .markup := by
  -- The angle bracket in front keeps the document from being blank.
  have unblank : (toMarkup m).toList.all isBlank = false := by
    rw [toList_toMarkup]
    rfl
  have called : Markup.isPlainName "mutation".toList = true := by decide
  have inner : Markup.isPlainName "arg".toList = true := by decide
  have read := Markup.ofDocument?_written called (readable_written plain) inner
    (readable_writtenArguments m.args)
  rw [ofMarkup, unblank, toList_toMarkup, read, if_neg Bool.false_ne_true]
  cases Markup.areLegal (written m.attributes) &&
    (writtenArguments m.args).all Markup.areLegal <;> rfl

/-- An attribute is accepted unless its value is too large a number in digits. -/
theorem checkArity_eq_ok_iff {name value : List Char} :
    checkArity name value = .ok () ↔
      (isDigits (trim value) = true → digitsValue (trim value) ≤ maxArity) := by
  -- The check refuses a number above the limit and lets everything else pass.
  have unfolded : checkArity name value =
      if isDigits (trim value) && digitsValue (trim value) > maxArity then
        .error (.tooMany (String.ofList name) (String.ofList (trim value)))
      else .ok () := rfl
  rw [unfolded]
  split
  case isTrue large =>
    rw [Bool.and_eq_true, decide_eq_true_eq] at large
    exact ⟨fun passed => (nomatch passed), fun modest => absurd (modest large.1) (by omega)⟩
  case isFalse modest =>
    rw [Bool.and_eq_true, decide_eq_true_eq] at modest
    exact ⟨fun _ digits => Nat.le_of_not_gt fun large => modest ⟨digits, large⟩, fun _ => rfl⟩

/-- Checks of all entries pass if each of them does. -/
theorem forM_eq_ok_iff {α ε : Type} {check : α → Except ε Unit} {xs : List α} :
    xs.forM check = .ok () ↔ ∀ x ∈ xs, check x = .ok () := by
  -- The loop ends at the first check that fails.
  induction xs with
  | nil => exact ⟨fun _ _ member => (nomatch member), fun _ => rfl⟩
  | cons x xs ih =>
    rw [List.forall_mem_cons]
    refine Iff.trans ?_ (and_congr_right fun _ => ih)
    show (check x >>= fun _ => xs.forM check) = .ok () ↔ _
    cases check x with
    | error e => exact ⟨fun failed => (nomatch failed), fun passed => (nomatch passed.1)⟩
    | ok _ => exact ⟨fun passed => ⟨rfl, passed⟩, fun passed => passed.2⟩

/-- The root element of the document of a structural state describes that state with blanked values,
unless one of its settings is too large a number. -/
theorem ofElement_rootElement (m : Mutation) :
    ofElement (rootElement m) =
      (readAttributes (Markup.plainAttributes (written m.attributes))).map fun attributes =>
        ⟨attributes, m.args.map fun name => String.ofList (Markup.blanked name.toList)⟩ := by
  -- The elements below the root are the arguments, and each of them has a name, so that none is
  -- dropped.
  have arguments : (rootElement m).children.mapM readArgument =
      .ok (m.args.map fun name => some (String.ofList (Markup.blanked name.toList))) := by
    simp only [rootElement, writtenArguments, List.map_map]
    induction m.args with
    | nil => rfl
    | cons name rest ih =>
      rw [List.map_cons, List.mapM_cons, ih]
      rfl
  have unfolded : ofElement (rootElement m) =
      readAttributes (Markup.plainAttributes (written m.attributes)) >>= fun attributes =>
        (rootElement m).children.mapM readArgument >>= fun arguments =>
          pure ⟨attributes, arguments.reduceOption⟩ := rfl
  rw [unfolded, arguments]
  -- The arguments always read back, so the attributes decide whether the whole does.
  cases readAttributes (Markup.plainAttributes (written m.attributes)) with
  | error e => rfl
  | ok attributes =>
    show Except.ok (Mutation.mk attributes (List.filterMap id (List.map _ _))) = Except.ok _
    simp [List.filterMap_map]

/-- Attributes are read as settings if none of them is too large a number. -/
theorem readAttributes_eq_ok_iff {attributes : List Markup.Attribute}
    {settings : OrderedMap String String} :
    readAttributes attributes = .ok settings ↔
      (∀ a ∈ attributes, checkArity a.name a.value = .ok ()) ∧
        .ofList (attributes.map fun a => (String.ofList a.name, String.ofList a.value)) =
          settings := by
  -- All checks come before the map is built, and the map itself cannot fail.
  have unfolded : readAttributes attributes =
      (attributes.forM fun a => checkArity a.name a.value) >>= fun _ =>
        pure (.ofList (attributes.map fun a => (String.ofList a.name, String.ofList a.value))) :=
    rfl
  rw [unfolded, ← forM_eq_ok_iff]
  cases attributes.forM fun a => checkArity a.name a.value with
  | error e => exact ⟨fun failed => (nomatch failed), fun passed => (nomatch passed.1)⟩
  | ok _ => exact ⟨fun same => ⟨rfl, Except.ok.inj same⟩, fun same => congrArg Except.ok same.2⟩

/-- A value that a document carries: without illegal characters, without white space other than
blanks, and no larger number in digits than a block may have parts. -/
structure Carried (value : String) : Prop where
  legal : ∀ c ∈ value.toList, Markup.isLegal c = true
  blank : ∀ c ∈ value.toList, Markup.isSpace c = true → c = ' '
  modest : isDigits (trim value.toList) = true → digitsValue (trim value.toList) ≤ maxArity

variable {settings : OrderedMap String String}

/-- Settings have no illegal characters if none of their values has any. -/
theorem areLegal_written :
    Markup.areLegal (written settings) = true ↔
      ∀ e ∈ settings.entries, ∀ c ∈ e.2.toList, Markup.isLegal c = true := by
  -- Only values are written with characters that may be illegal.
  simp [Markup.areLegal, written]

/-- Settings are read back as they are if each of their values is, and only then. -/
theorem ofList_blanked_eq_iff :
    .ofList (settings.entries.map fun e => (e.1, String.ofList (Markup.blanked e.2.toList))) =
        settings ↔
      ∀ e ∈ settings.entries, ∀ c ∈ e.2.toList, Markup.isSpace c = true → c = ' ' := by
  -- The names survive, so the map read back has its entries in the same order and differs from the
  -- written one only in blanked values.
  have keys : (settings.entries.map fun e =>
      (e.1, String.ofList (Markup.blanked e.2.toList))).map Prod.fst = settings.keys := by
    simp [OrderedMap.keys, Function.comp_def]
  have distinct : ((settings.entries.map fun e =>
      (e.1, String.ofList (Markup.blanked e.2.toList))).map Prod.fst).Nodup := by
    rw [keys]
    exact settings.keys_nodup
  -- No name occurs twice, so no entry overwrites another.
  have entries := OrderedMap.entries_ofList distinct
  constructor
  · intro same e member
    have mapped : settings.entries.map (fun e =>
        (e.1, String.ofList (Markup.blanked e.2.toList))) = settings.entries.map id := by
      rw [List.map_id, ← entries, same]
    have value : String.ofList (Markup.blanked e.2.toList) = e.2 :=
      congrArg Prod.snd (List.map_inj_left.mp mapped e member)
    have characters := congrArg String.toList value
    rw [String.toList_ofList] at characters
    exact (Markup.blanked_eq_self_iff _).mp characters
  · intro blank
    refine OrderedMap.ext (entries.trans ?_)
    refine (List.map_congr_left fun e member => ?_).trans (List.map_id _)
    rw [(Markup.blanked_eq_self_iff _).mpr (blank e member), String.ofList_toList]
    rfl

/-- The settings come back from the document of a structural state without arguments if it carries
each of their values, and only then. -/
theorem comes_back_iff (plain : Plain settings) :
    (∃ m, ofMarkup (toMarkup ⟨settings, []⟩) = .ok m ∧ m.attributes = settings) ↔
      ∀ value ∈ settings.values, Carried value := by
  have read := ofMarkup_toMarkup (m := ⟨settings, []⟩) plain
  have carried : (∀ value ∈ settings.values, Carried value) ↔
      ∀ e ∈ settings.entries, Carried e.2 := List.forall_mem_map
  rw [carried]
  cases legal : Markup.areLegal (written settings) with
  | false =>
    -- An illegal character spoils the whole document.
    rw [legal] at read
    constructor
    · rintro ⟨m, readable, _⟩
      rw [read] at readable
      cases readable
    · intro each
      rw [areLegal_written.mpr fun e member => (each e member).legal] at legal
      cases legal
  | true =>
    have back : (∃ m, ofMarkup (toMarkup ⟨settings, []⟩) = .ok m ∧ m.attributes = settings) ↔
        readAttributes (Markup.plainAttributes (written settings)) = .ok settings := by
      have whole : (true && (writtenArguments []).all Markup.areLegal) = true := rfl
      rw [legal, if_pos whole, ofElement_rootElement] at read
      rw [read]
      cases readAttributes (Markup.plainAttributes (written settings)) with
      | error e => exact ⟨fun ⟨_, readable, _⟩ => (nomatch readable), fun same => (nomatch same)⟩
      | ok attributes =>
        constructor
        · rintro ⟨_, ⟨⟩, same⟩
          exact congrArg Except.ok same
        · rintro ⟨⟩
          exact ⟨_, rfl, rfl⟩
    have attributes : (Markup.plainAttributes (written settings)).map
        (fun a => (String.ofList a.name, String.ofList a.value)) =
          settings.entries.map fun e => (e.1, String.ofList (Markup.blanked e.2.toList)) := by
      simp [Markup.plainAttributes, written]
    rw [back, readAttributes_eq_ok_iff, attributes, ofList_blanked_eq_iff]
    have legal' := areLegal_written.mp legal
    -- The values are checked as they are read, which is as they were written.
    constructor
    · rintro ⟨checks, blank⟩ e member
      refine ⟨legal' e member, blank e member, ?_⟩
      have own : (⟨none, e.1.toList, Markup.blanked e.2.toList⟩ : Markup.Attribute) ∈
          Markup.plainAttributes (written settings) := by
        simp only [Markup.plainAttributes, written, List.map_map]
        exact List.mem_map_of_mem member
      have check := checks _ own
      rw [(Markup.blanked_eq_self_iff _).mpr (blank e member)] at check
      exact checkArity_eq_ok_iff.mp check
    · intro each
      refine ⟨fun a member => ?_, fun e among => (each e among).blank⟩
      simp only [Markup.plainAttributes, written, List.map_map] at member
      obtain ⟨e, among, rfl⟩ := List.mem_map.mp member
      refine checkArity_eq_ok_iff.mpr ?_
      dsimp only [Function.comp_apply]
      rw [(Markup.blanked_eq_self_iff _).mpr (each e among).blank]
      exact (each e among).modest

end Mutation

end QuickEntry
