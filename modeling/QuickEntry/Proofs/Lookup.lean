import QuickEntry.Proofs.Template
import QuickEntry.Proofs.Text.Bytes

/-! Looking up a display text in a catalog: the search through the sorted options finds what the
first declaration that offers the text makes of it. -/

namespace QuickEntry

namespace Catalog

variable {options : Array BlockOption} {text : String} {first last : Nat} {o : BlockOption}

/-- A search ends at an option with the text, however the options are ordered. -/
theorem of_search (found : search options text first last = some o) :
    o ∈ options ∧ o.displayText = text := by
  -- By induction on the halving: an option is returned only where its text has been met.
  fun_induction search options text first last with
  | case1 => cases found
  | case2 first last room middle o' there same =>
    cases found
    exact ⟨Array.mem_iff_getElem?.mpr ⟨middle, there⟩, same⟩
  | case3 first last room middle o' there other before ih => exact ih found
  | case4 first last room middle o' there other behind ih => exact ih found
  | case5 => cases found

/-- Sorted options stand in the order of their texts. -/
theorem displayText_lt_iff
    (sorted : options.toList.Pairwise fun a b => a.displayText < b.displayText) {i j : Nat}
    {a b : BlockOption} (left : options[i]? = some a) (right : options[j]? = some b) :
    a.displayText < b.displayText ↔ i < j := by
  -- What stands behind cannot come before, and what stands in one place is the same.
  have ascends : ∀ {i j : Nat} {a b : BlockOption}, i < j → options[i]? = some a →
      options[j]? = some b → a.displayText < b.displayText := by
    intro i j a b before left right
    obtain ⟨inside, rfl⟩ := Array.getElem?_eq_some_iff.mp left
    obtain ⟨inside', rfl⟩ := Array.getElem?_eq_some_iff.mp right
    exact List.pairwise_iff_getElem.mp sorted i j inside inside' before
  constructor
  · intro less
    by_contra late
    rcases Nat.lt_or_eq_of_le (Nat.not_lt.mp late) with behind | same
    · exact String.lt_asymm less (ascends behind right left)
    · rw [same, left, Option.some.injEq] at right
      exact String.lt_irrefl _ (right ▸ less)
  · intro before
    exact ascends before left right

/-- A search through sorted options finds the option with the text if its place is in the range. -/
theorem search_of_place (sorted : options.toList.Pairwise fun a b => a.displayText < b.displayText)
    {place : Nat} (there : options[place]? = some o) (named : o.displayText = text)
    (above : first ≤ place) (below : place < last) (fits : last ≤ options.size) :
    search options text first last = some o := by
  -- The place stays in the half that is searched on, so that the range never becomes empty.
  fun_induction search options text first last with
  -- The middle is always inside of the list.
  | case1 first last room middle missing =>
    have outside : options.size ≤ middle := Array.getElem?_eq_none_iff.mp missing
    omega
  | case2 first last room middle met present same =>
    have alike : met.displayText = o.displayText := same.trans named.symm
    have notBefore : ¬middle < place := fun early =>
      String.lt_irrefl _ (alike ▸ (displayText_lt_iff sorted present there).mpr early)
    have notBehind : ¬place < middle := fun late =>
      String.lt_irrefl _ (alike ▸ (displayText_lt_iff sorted there present).mpr late)
    -- No two options have the text, so this is the place.
    have equal : middle = place := by omega
    rw [equal, there] at present
    exact present.symm
  | case3 first last room middle met present other before ih =>
    have order : middle < place := (displayText_lt_iff sorted present there).mp (named ▸ before)
    exact ih order below fits
  | case4 first last room middle met present other behind ih =>
    have notBefore : ¬middle < place := fun early =>
      behind (named ▸ (displayText_lt_iff sorted present there).mpr early)
    have apart : place ≠ middle := by
      intro same
      rw [← same, there, Option.some.injEq] at present
      exact other (present ▸ named)
    exact ih above (by omega) (by omega)
  | case5 first last empty => omega

/-- Looking up a text in sorted options finds the option that has it. -/
theorem get?_eq_some_iff {c : Catalog}
    (sorted : c.options.toList.Pairwise fun a b => a.displayText < b.displayText) :
    c.get? text = some o ↔ o ∈ c.options ∧ o.displayText = text := by
  -- Whatever place the option has, the search starts around it.
  constructor
  · intro found
    exact of_search found
  · intro listed
    obtain ⟨place, there⟩ := Array.mem_iff_getElem?.mp listed.1
    have inside : place < c.options.size := (Array.getElem?_eq_some_iff.mp there).1
    exact search_of_place sorted there listed.2 (Nat.zero_le place) inside (Nat.le_refl _)

/-- The options of a catalog come in the order of their texts, each text once. -/
theorem sorted_build (d : Declarations) (database : ComponentDatabase) :
    (build d database).options.toList.Pairwise fun a b => a.displayText < b.displayText :=
  -- The options are sorted when the catalog is built.
  sorted_optionsOf (d.templates database)

/-- Looking up a text in a catalog finds the option that the template of the text makes. -/
theorem get?_build_eq_some_iff {d : Declarations} {database : ComponentDatabase} :
    (build d database).get? text = some o ↔
      ∃ t, (d.templates database).get? text = some t ∧ t.toOption text = .ok o := by
  -- An option comes from the template of its own text.
  rw [get?_eq_some_iff (sorted_build d database), build, List.mem_toArray, mem_optionsOf_iff]
  constructor
  · rintro ⟨made, rfl⟩
    exact made
  · rintro ⟨t, found, made⟩
    obtain ⟨rfl, _⟩ := Template.toOption_eq_ok made
    exact ⟨⟨t, found, made⟩, rfl⟩

end Catalog

namespace Declarations

variable {d : Declarations} {database : ComponentDatabase}

/-- The template that the first to offer a text gives it: the fixed templates come first, and after
them globals, local names, procedures and components, each in the order of their list. -/
def firstOffer? (d : Declarations) (database : ComponentDatabase) (text : String) :
    Option Template :=
  builtinTemplates.lookup text <|>
  d.globals.findSome? (fun name => (variableTemplates ("global " ++ name)).lookup text) <|>
  d.locals.findSome? (fun name => (variableTemplates name).lookup text) <|>
  d.procedures.findSome? (fun p => [callTemplate p].lookup text) <|>
  d.components.findSome? fun c => (componentTemplates database c.1 c.2).lookup text

/-- The template of a text is that of the first to offer it. -/
theorem get?_templates (text : String) :
    (d.templates database).get? text = d.firstOffer? database text := by
  -- The offers are one list, of which the table keeps the first with each text.
  have calls : d.procedures.map callTemplate = d.procedures.flatMap fun p => [callTemplate p] :=
    List.map_eq_flatMap
  rw [templates, OrderedMap.get?_ofFirst, offers, calls]
  simp only [List.lookup_append, OrderedMap.lookup_flatMap, Option.or_assoc, firstOffer?,
    Option.orElse_eq_orElse, Option.orElse_eq_or]

end Declarations

namespace Catalog

/-- A catalog, whatever it was built for, lists its options in the order of the bytes of their
texts, each text once. Looking up a text gives what the template of the text makes, if there is such
a template and it makes an option, and nothing otherwise. The template is that of the first to offer
the text. -/
theorem get?_follows_templates (d : Declarations) (database : ComponentDatabase) :
    ((build d database).options.toList.Pairwise fun a b =>
      Text.bytes a.displayText < Text.bytes b.displayText) ∧
    ∀ text, (build d database).get? text =
        ((d.templates database).get? text).bind (fun t => (t.toOption text).toOption) ∧
      (d.templates database).get? text = d.firstOffer? database text := by
  constructor
  · exact (sorted_build d database).imp fun before => Text.bytes_lt_iff.mpr before
  · intro text
    -- Both sides find the same options.
    refine ⟨Option.ext fun o => ?_, Declarations.get?_templates text⟩
    rw [get?_build_eq_some_iff, Option.bind_eq_some_iff]
    simp only [Template.toOption_toOption_iff]

-- A component called like a fixed text is not found under its name, and one called like nothing
-- else is.
example :
    let d : Declarations := ⟨[], [], [("if", "Button"), ("ok", "Button")], []⟩
    (d.firstOffer? ∅ "if").bind (·.kind) = some "controls_if" ∧
      (d.firstOffer? ∅ "ok").bind (·.kind) = some "component_component_block" := by
  decide +kernel

end Catalog

end QuickEntry
