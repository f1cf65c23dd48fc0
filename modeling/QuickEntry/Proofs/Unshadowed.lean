import QuickEntry.Proofs.Calls
import QuickEntry.Proofs.Lookup

/-! Declared variables and procedures are offered under their own texts, whatever else is declared
and however it is called. -/

namespace QuickEntry

namespace BlockOption

/-- The option that reads a variable. -/
def reading (variableName : String) : BlockOption where
  kind := "lexical_variable_get"
  displayText := "get " ++ variableName
  fields := some (.ofList [("VAR", variableName)])
  extraState := none

/-- The option that writes a variable. -/
def writing (variableName : String) : BlockOption where
  kind := "lexical_variable_set"
  displayText := "set " ++ variableName
  fields := some (.ofList [("VAR", variableName)])
  extraState := none

end BlockOption

/-- A template that presets a field makes the option with this field value. -/
theorem Template.toOption_presetting {kind field value text : String} (typed : text ≠ "")
    (known : kind ≠ "") (named : field ≠ "") (given : value ≠ "") :
    (presetting kind field value).toOption text =
      .ok ⟨kind, text, some (.ofList [(field, value)]), none⟩ := by
  -- Nothing is empty here, so nothing is refused and the preset is written.
  simp only [ne_eq, ← String.isEmpty_iff, Bool.not_eq_true] at typed known named given
  have fields : (presetting kind field value).fieldValues = some (.ofList [(field, value)]) := by
    have unfolded : (presetting kind field value).fieldValues =
      if field.isEmpty || value.isEmpty then none else some (.ofList [(field, value)]) := rfl
    rw [unfolded, named, given]
    rfl
  have kinds : (presetting kind field value).kind.filter (!·.isEmpty) = some kind :=
    Option.filter_eq_some_iff.mpr ⟨rfl, by rw [known]; rfl⟩
  rw [toOption, typed, kinds, fields]
  rfl

namespace Declarations

open Template (presetting)

/-- The texts of the declared variables with their templates. -/
def variableOffers (d : Declarations) : List (String × Template) :=
  (d.globals.flatMap fun name => variableTemplates ("global " ++ name)) ++
    d.locals.flatMap variableTemplates

variable {d : Declarations} {database : ComponentDatabase} {v w : String}
  {offer other : String × Template}

/-- A template of a variable makes the option that reads it or the one that writes it. -/
theorem toOption_variableTemplates (named : v ≠ "") :
    (presetting "lexical_variable_get" "VAR" v).toOption ("get " ++ v) = .ok (.reading v) ∧
    (presetting "lexical_variable_set" "VAR" v).toOption ("set " ++ v) = .ok (.writing v) := by
  -- The texts have a prefix, so only the name could be missing.
  have reads : "get " ++ v ≠ "" := by simp
  have writes : "set " ++ v ≠ "" := by simp
  exact ⟨Template.toOption_presetting reads (by decide) (by decide) named,
    Template.toOption_presetting writes (by decide) (by decide) named⟩

/-- No fixed text is that of a variable. -/
theorem ne_of_builtin (fixed : offer ∈ builtinTemplates) (own : other ∈ variableTemplates v) :
    offer.1 ≠ other.1 := by
  -- No fixed text begins with one of the two verbs.
  have begins : ∀ offer ∈ builtinTemplates,
      offer.1.toList.take 4 ≠ "get ".toList ∧ offer.1.toList.take 4 ≠ "set ".toList := by
    decide +kernel
  obtain ⟨reads, writes⟩ := begins offer fixed
  simp only [variableTemplates, List.mem_cons, List.not_mem_nil, or_false] at own
  -- The text of the variable shows its verb, whatever the name is.
  rcases own with rfl | rfl
  · intro same
    apply reads
    rw [same, String.toList_append]
    rfl
  · intro same
    apply writes
    rw [same, String.toList_append]
    rfl

/-- Templates of variables with the same text are the same. -/
theorem eq_of_variableTemplates (left : offer ∈ variableTemplates v)
    (right : other ∈ variableTemplates w) (same : offer.1 = other.1) : offer = other := by
  -- The first letter tells the verbs apart, and behind one verb only the same name gives the same
  -- text.
  have apart : ∀ v w : String, "get " ++ v ≠ "set " ++ w := fun v w =>
    append_ne_of_head (a := 'g') (b := 's') rfl (by rw [String.toList_append]; rfl) (by decide) v
  simp only [variableTemplates, List.mem_cons, List.not_mem_nil, or_false] at left right
  rcases left with rfl | rfl <;> rcases right with rfl | rfl
  · rw [(String.append_right_inj _).mp same]
  · exact absurd same (apart v w)
  · exact absurd same.symm (apart w v)
  · rw [(String.append_right_inj _).mp same]

/-- What is offered for the declared variables is offered for one of them. -/
theorem exists_of_mem_variableOffers (listed : offer ∈ d.variableOffers) :
    ∃ v, offer ∈ variableTemplates v := by
  -- Both kinds of variables are offered in the same way.
  simp only [variableOffers, List.mem_append, List.mem_flatMap] at listed
  rcases listed with ⟨name, _, own⟩ | ⟨name, _, own⟩
  · exact ⟨_, own⟩
  · exact ⟨_, own⟩

/-- A declared variable is read and written under its own texts. -/
theorem get?_variable (listed : offer ∈ d.variableOffers) :
    (d.templates database).get? offer.1 = some offer.2 := by
  obtain ⟨v, own⟩ := exists_of_mem_variableOffers listed
  -- Nothing that comes earlier, and no other variable, has the text with another template.
  have first : (builtinTemplates ++ d.variableOffers).lookup offer.1 = some offer.2 := by
    refine OrderedMap.lookup_of_mem (List.mem_append_right _ listed) fun other member same => ?_
    rcases List.mem_append.mp member with fixed | declared
    · exact absurd same (ne_of_builtin fixed own)
    · obtain ⟨w, its⟩ := exists_of_mem_variableOffers declared
      rw [eq_of_variableTemplates its own same]
  -- What procedures and components offer comes later.
  have split : d.offers database = (builtinTemplates ++ d.variableOffers) ++
      (d.procedures.map callTemplate ++
        d.components.flatMap fun c => componentTemplates database c.1 c.2) := by
    simp only [offers, variableOffers, List.append_assoc]
  rw [templates, OrderedMap.get?_ofFirst, split, List.lookup_append, first]
  rfl

end Declarations

namespace Catalog

/-- A catalog lists an option and finds it under its text. -/
def Offers (c : Catalog) (o : BlockOption) : Prop := o ∈ c.options ∧ c.get? o.displayText = some o

variable {d : Declarations} {database : ComponentDatabase} {o : BlockOption} {t : Template}

/-- A catalog offers what the template of a text makes. -/
theorem offers_of_template (found : (d.templates database).get? o.displayText = some t)
    (made : t.toOption o.displayText = .ok o) : (build d database).Offers o := by
  -- A lookup by text gives the first of that text, which is what being offered asks for.
  have looked : (build d database).get? o.displayText = some o :=
    get?_build_eq_some_iff.mpr ⟨t, found, made⟩
  exact ⟨((get?_eq_some_iff (sorted_build d database)).mp looked).1, looked⟩

/-- A catalog offers to read and to write every variable that is declared by a name. -/
theorem offers_variable {v : String} (named : v ≠ "")
    (listed : ∀ offer ∈ Declarations.variableTemplates v, offer ∈ d.variableOffers) :
    (build d database).Offers (.reading v) ∧ (build d database).Offers (.writing v) := by
  -- No other kind of offer is spelled like a getter or a setter.
  obtain ⟨reads, writes⟩ := Declarations.toOption_variableTemplates named
  constructor
  · exact offers_of_template (Declarations.get?_variable (listed _ List.mem_cons_self)) reads
  · have last := listed _ (List.mem_cons_of_mem _ List.mem_cons_self)
    exact offers_of_template (Declarations.get?_variable last) writes

/-- Whatever else is declared, and whatever components there are, a catalog offers to read and to
write every declared global and every local name, and to call every declared procedure, if local
names and names of procedures are not empty and no two procedures have one name. -/
theorem offers_declared (d : Declarations) (database : ComponentDatabase)
    (locals : ∀ name ∈ d.locals, name ≠ "") (procedures : ∀ p ∈ d.procedures, p.name ≠ "")
    (distinct : (d.procedures.map (·.name)).Nodup) :
    (∀ name ∈ d.globals, (build d database).Offers (.reading ("global " ++ name)) ∧
      (build d database).Offers (.writing ("global " ++ name))) ∧
    (∀ name ∈ d.locals, (build d database).Offers (.reading name) ∧
      (build d database).Offers (.writing name)) ∧
    ∀ p ∈ d.procedures, (build d database).Offers p.call := by
  -- Variables come before all that could be spelled alike, and a call is told apart by the name of
  -- its definition.
  refine ⟨fun name listed => ?_, fun name listed => ?_, fun p listed => ?_⟩
  · -- The name of a global has its prefix, so that it may be empty itself.
    refine offers_variable (by simp) fun offer own => ?_
    exact List.mem_append_left _ (List.mem_flatMap.mpr ⟨name, listed, own⟩)
  · refine offers_variable (locals name listed) fun offer own => ?_
    exact List.mem_append_right _ (List.mem_flatMap.mpr ⟨name, listed, own⟩)
  · -- A call is the only one of its text, since no other procedure has the name.
    have only : ∀ q ∈ d.procedures, q.name = p.name → q = p := fun q inside same =>
      List.inj_on_of_nodup_map distinct inside listed same
    have named : p.name.isEmpty = false :=
      Bool.not_eq_true _ ▸ String.isEmpty_iff.not.mpr (procedures p listed)
    exact offers_of_template (Declarations.get?_call only listed)
      (Procedure.toOption_callTemplate named)

/-- A local name that begins like a global, one that ends like the text of a property, and a
procedure that is called like the method of a component are all offered. -/
theorem offers_declared_alike :
    let button : ComponentType :=
      ⟨"Button", [], [⟨"Click", [], none⟩], [⟨"Text", "text", true, true⟩]⟩
    let database : ComponentDatabase := .ofTypes [button]
    let p : Procedure := ⟨"Button1.Click", [], true⟩
    let d : Declarations :=
      ⟨["x"], [p], [("Button1", "Button")], ["global x", "Button1.Text to"]⟩
    (build d database).Offers (.reading "global x") ∧
      (build d database).Offers (.writing "Button1.Text to") ∧
      (build d database).Offers p.call := by
  -- A local variable and a procedure are named so that their options look like those of a
  -- component.
  intro button database p d
  obtain ⟨_, locals, procedures⟩ :=
    offers_declared d database (by decide) (by decide) (by decide)
  exact ⟨(locals "global x" (by decide)).1, (locals "Button1.Text to" (by decide)).2,
    procedures p (by decide)⟩

end Catalog

end QuickEntry
