import QuickEntry.Catalog
import QuickEntry.Proofs.Mutation
import QuickEntry.Workspace.Append

/-! Templates of the catalog: they name known kinds and plain settings, and an option carries the
settings of its template if a document does. -/

namespace QuickEntry

namespace Template

variable {t : Template} {kind : String}

/-- A template of a known kind whose settings are called by plain names. -/
structure Sound (t : Template) : Prop where
  known : (t.kind.bind BlockKind.ofName?).isSome = true
  settings : Mutation.Plain t.settings

/-- A template that names a known kind and nothing else is sound. -/
theorem sound_plain (known : (BlockKind.ofName? kind).isSome = true) : (plain kind).Sound :=
  -- No setting is named.
  ⟨known, fun _ member => nomatch member⟩

/-- A template that presets a field of a known kind is sound. -/
theorem sound_presetting (known : (BlockKind.ofName? kind).isSome = true) (field value : String) :
    (presetting kind field value).Sound :=
  -- A preset field is no setting.
  ⟨known, fun _ member => nomatch member⟩

/-- A template stays sound with one more setting of a plain name. -/
theorem Sound.withSetting (sound : t.Sound) {name : String}
    (plain : Markup.isPlainName name.toList = true) (value : String) :
    (t.withSetting name value).Sound := by
  -- The setting is one of the old ones or the new one.
  refine ⟨sound.known, fun other member => ?_⟩
  rw [Template.withSetting, OrderedMap.keys_insert] at member
  split at member
  · exact sound.settings other member
  · rcases List.mem_append.mp member with old | new
    · exact sound.settings other old
    · rw [List.mem_singleton.mp new]
      exact plain

/-- What the option of a template takes from it. -/
theorem toOption_eq_ok {text : String} {o : BlockOption} (offers : t.toOption text = .ok o) :
    o.displayText = text ∧ t.kind = some o.kind ∧ o.fields = t.fieldValues ∧
      o.extraState =
        if t.settings.isEmpty then none else some (Mutation.toMarkup ⟨t.settings, []⟩) := by
  -- Two things are refused, an empty text and a missing kind; what is left is copied.
  unfold toOption at offers
  split at offers
  · cases offers
  · split at offers
    · cases offers
    · rename_i given
      cases offers
      exact ⟨rfl, Option.eq_some_of_filter_eq_some given, rfl, rfl⟩

/-- A table offers what a template makes, and nothing for one that makes nothing. -/
theorem toOption_toOption_iff {text : String} {o : BlockOption} :
    (t.toOption text).toOption = some o ↔ t.toOption text = .ok o := by
  cases t.toOption text <;> simp [Except.toOption]

/-- The settings of a sound template come back from its option if a document carries each of their
values, and only then. -/
theorem Sound.settings_come_back_iff (sound : t.Sound) {text : String} {o : BlockOption}
    (offers : t.toOption text = .ok o) :
    (∃ m, Mutation.ofExtraState o.extraState = .ok m ∧ m.attributes = t.settings) ↔
      ∀ value ∈ t.settings.values, Mutation.Carried value := by
  obtain ⟨_, _, _, extraState⟩ := toOption_eq_ok offers
  rw [extraState]
  cases bare : t.settings.isEmpty with
  | true =>
    -- Without settings there is no document.
    have none : t.settings = ∅ := OrderedMap.ext (List.isEmpty_iff.mp bare)
    rw [none]
    exact ⟨fun _ _ member => (nomatch member), fun _ => ⟨.empty, rfl, rfl⟩⟩
  | false =>
    rw [← Mutation.comes_back_iff sound.settings]
    simp only [Bool.false_eq_true, if_false, Mutation.ofExtraState]
    cases Mutation.ofMarkup (Mutation.toMarkup ⟨t.settings, []⟩) with
    | error e => exact ⟨fun ⟨_, read, _⟩ => (nomatch read), fun ⟨_, read, _⟩ => (nomatch read)⟩
    | ok m => simp [Except.mapError]

end Template

namespace Declarations

open Template

/-- Templates that depend on no declaration are sound. -/
theorem sound_builtinTemplates : ∀ offer ∈ builtinTemplates, offer.2.Sound := by
  -- A table of fixed offers, of which each is tested.
  have checked : ∀ offer ∈ builtinTemplates,
      (offer.2.kind.bind BlockKind.ofName?).isSome = true ∧
        ∀ name ∈ offer.2.settings.keys, Markup.isPlainName name.toList = true := by
    decide +kernel
  exact fun offer member => ⟨(checked offer member).1, (checked offer member).2⟩

/-- The templates of a variable are sound. -/
theorem sound_variableTemplates (name : String) :
    ∀ offer ∈ variableTemplates name, offer.2.Sound := by
  -- A getter and a setter, whose kinds are known.
  simp only [variableTemplates, List.forall_mem_cons]
  exact ⟨sound_presetting (by decide) _ _, sound_presetting (by decide) _ _,
    fun _ member => nomatch member⟩

/-- The template that calls a procedure is sound. -/
theorem sound_callTemplate (p : Procedure) : (callTemplate p).2.Sound := by
  -- The kind depends on whether the definition returns a value, and both are known.
  have known : (BlockKind.ofName? (if p.returns then "procedures_callreturn"
      else "procedures_callnoreturn")).isSome = true := by
    split <;> decide
  exact (sound_presetting known _ _).withSetting (by decide) _

/-- The templates of a property are sound if what they start from is. -/
theorem sound_propertyTemplates {base : String → Template}
    (sound : (base "component_set_get").Sound) (name : String) (p : ComponentProperty) :
    ∀ offer ∈ propertyTemplates base name p, offer.2.Sound := by
  -- Reading and writing differ in one setting only.
  have access : ∀ mode : String, (((base "component_set_get").withSetting "property_name"
      p.name).withSetting "set_or_get" mode).Sound := fun mode =>
    (sound.withSetting (by decide) _).withSetting (by decide) _
  intro offer member
  rcases List.mem_append.mp member with reads | writes
  · split at reads
    · rw [List.mem_singleton.mp reads]
      exact access "get"
    · cases reads
  · split at writes
    · rw [List.mem_singleton.mp writes]
      exact access "set"
    · cases writes

/-- The templates of a component are sound. -/
theorem sound_componentTemplates (database : ComponentDatabase) (name type : String) :
    ∀ offer ∈ componentTemplates database name type, offer.2.Sound := by
  -- They all start from the type and the name of the component.
  have base : ∀ kind : String, (BlockKind.ofName? kind).isSome = true →
      (((plain kind).withSetting "component_type" type).withSetting
        "instance_name" name).Sound := fun kind known =>
    ((sound_plain known).withSetting (by decide) type).withSetting (by decide) name
  intro offer member
  rcases List.mem_append.mp member with part | whole
  · split at part
    · cases part
    · rcases List.mem_append.mp part with part | part
      · rcases List.mem_append.mp part with event | method
        · obtain ⟨e, _, rfl⟩ := List.mem_map.mp event
          exact (base "component_event" (by decide)).withSetting (by decide) _
        · obtain ⟨m, _, rfl⟩ := List.mem_map.mp method
          exact (base "component_method" (by decide)).withSetting (by decide) _
      · obtain ⟨p, _, property⟩ := List.mem_flatMap.mp part
        exact sound_propertyTemplates (base "component_set_get" (by decide)) name p offer property
  · rw [List.mem_singleton.mp whole]
    exact base "component_component_block" (by decide)

/-- All templates that declarations bring are sound. -/
theorem sound_offers (d : Declarations) (database : ComponentDatabase) :
    ∀ offer ∈ d.offers database, offer.2.Sound := by
  -- One case for each source of offers.
  intro offer member
  simp only [offers, List.mem_append, List.mem_flatMap, List.mem_map] at member
  rcases member with (((builtin | ⟨name, _, ofGlobal⟩) | ⟨name, _, ofLocal⟩) | ⟨p, _, rfl⟩) |
    ⟨⟨name, type⟩, _, ofComponent⟩
  · exact sound_builtinTemplates offer builtin
  · exact sound_variableTemplates _ offer ofGlobal
  · exact sound_variableTemplates _ offer ofLocal
  · exact sound_callTemplate p
  · exact sound_componentTemplates database name type offer ofComponent

/-- The template of a display text is sound. -/
theorem sound_of_get? {d : Declarations} {database : ComponentDatabase} {text : String}
    {t : Template} (found : (d.templates database).get? text = some t) : t.Sound := by
  -- What is looked up is the first offer of its text.
  rw [templates, OrderedMap.get?_ofFirst] at found
  exact sound_offers d database _ (OrderedMap.mem_of_lookup found)

end Declarations

/-- The options of a table are those that the templates offer under their own texts. -/
theorem mem_optionsOf_iff {templates : OrderedMap String Template} {o : BlockOption} :
    o ∈ optionsOf templates ↔
      ∃ t, templates.get? o.displayText = some t ∧ t.toOption o.displayText = .ok o := by
  -- An option carries the text that it was offered under, so the text leads back to its template.
  have ordered : o ∈ optionsOf templates ↔
      ∃ e ∈ templates.entries, (e.2.toOption e.1).toOption = some o := by
    rw [optionsOf, List.mem_mergeSort, List.mem_filterMap]
  rw [ordered]
  constructor
  · rintro ⟨⟨text, t⟩, member, given⟩
    rw [Template.toOption_toOption_iff] at given
    obtain ⟨rfl, _⟩ := Template.toOption_eq_ok given
    exact ⟨t, OrderedMap.get?_of_mem member, given⟩
  · rintro ⟨t, found, given⟩
    exact ⟨(o.displayText, t), OrderedMap.mem_of_lookup found,
      Template.toOption_toOption_iff.mpr given⟩

/-- The options of a table come in the order of their display texts, each text once. -/
theorem sorted_optionsOf (templates : OrderedMap String Template) :
    (optionsOf templates).Pairwise fun a b => a.displayText < b.displayText := by
  let options := templates.entries.filterMap fun e => (e.2.toOption e.1).toOption
  have apart : options.Pairwise fun a b => a.displayText ≠ b.displayText := by
    refine List.pairwise_filterMap.mpr ((List.pairwise_map.mp templates.keys_nodup).imp ?_)
    -- An option has the text under which its template stands in the table.
    have named : ∀ (e : String × Template) (o : BlockOption),
        (e.2.toOption e.1).toOption = some o → o.displayText = e.1 := fun e o offers =>
      (Template.toOption_eq_ok (Template.toOption_toOption_iff.mp offers)).1
    intro e e' other o offers o' offers'
    rw [named e o offers, named e' o' offers']
    exact other
  have up : (optionsOf templates).Pairwise fun a b =>
      decide (a.displayText ≤ b.displayText) = true :=
    List.pairwise_mergeSort (by simpa using fun a b c => String.le_trans)
      (by simpa using fun a b => String.le_total _ _) options
  have distinct : (optionsOf templates).Pairwise fun a b => a.displayText ≠ b.displayText :=
    ((List.mergeSort_perm options _).pairwise_iff fun other => Ne.symm other).mpr apart
  refine (up.and distinct).imp ?_
  rintro a b ⟨before, other⟩
  by_contra late
  exact other (String.le_antisymm (of_decide_eq_true before) (String.not_lt.mp late))

end QuickEntry
