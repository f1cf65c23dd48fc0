import QuickEntry.Proofs.Literal
import QuickEntry.Proofs.Matching
import QuickEntry.Proofs.Offer
import QuickEntry.Proofs.Text.Blank

/-! Entering a literal makes the block that holds it, with exactly the value that was typed. -/

namespace QuickEntry

namespace Literal

variable {cs : List Char} {t : String} {l : Literal}

/-- The characters with which numbers are spelled. -/
def numerals : List Char := "0123456789.+-".toList

/-- A digit is one of the characters of numbers. -/
theorem numeral_of_isDigit {c : Char} (digit : c.isDigit = true) : c ∈ numerals :=
  -- The digits come first among the characters of numbers.
  List.mem_append_left ['.', '+', '-'] (mem_digits_iff.mpr digit)

/-- An unsigned number is spelled with the characters of numbers. -/
theorem numerals_of_unsigned (number : cs ∈ unsigned.matches') : ∀ c ∈ cs, c ∈ numerals := by
  -- Without a point all are digits, with one it stands between digits.
  have digits : ∀ {cs}, Text.isDigits cs = true → ∀ c ∈ cs, c ∈ numerals := by
    intro cs several c member
    simp only [Text.isDigits, Bool.and_eq_true, List.all_eq_true] at several
    exact numeral_of_isDigit (several.2 c member)
  intro c member
  rcases mem_unsigned.mp number with several | ⟨whole, fraction, front, several, rfl⟩
  · exact digits several c member
  · rcases List.mem_append.mp member with before | behind
    · exact numeral_of_isDigit (front c before)
    · rcases List.mem_cons.mp behind with rfl | behind
      · decide
      · exact digits several c behind

/-- A number is spelled with the characters of numbers. -/
theorem numerals_of_decimal (number : cs ∈ decimal.matches') : ∀ c ∈ cs, c ∈ numerals := by
  -- The sign is a character of numbers too.
  intro c member
  rcases mem_decimal.mp number with plain | ⟨rest, plain, rfl | rfl⟩
  · exact numerals_of_unsigned plain c member
  all_goals
    rcases List.mem_cons.mp member with rfl | later
    · decide
    · exact numerals_of_unsigned plain c later

/-- A number is spelled with some character. -/
theorem nil_not_mem_decimal : [] ∉ decimal.matches' := by
  -- The recognizer of numbers refuses the empty text.
  intro number
  have stored := decimal?_eq_some_iff.mpr ⟨number, rfl⟩
  cases stored

/-- No white space stands at the ends of a literal, which is not empty. -/
theorem trim_of_reads (reads : ofText? t = some l) :
    Text.trim t.toList = t.toList ∧ t.toList ≠ [] := by
  -- Neither a text in quotation marks nor a number has white space at its ends.
  cases l with
  | text content =>
    -- The first and the last character are quotes.
    have quotes : t.toList = '"' :: (content.toList ++ ['"']) := by
      rw [ofText?_eq_text_iff.mp reads, String.toList_append, String.toList_append]
      rfl
    have quote : Text.isBlank '"' = false := by decide
    rw [quotes]
    refine ⟨Text.trim_eq_self ?_ ?_, List.cons_ne_nil _ _⟩
    · rintro _ ⟨⟩
      exact quote
    · rw [← List.cons_append, List.getLast?_concat]
      rintro _ ⟨⟩
      exact quote
  | number stored =>
    have number := (ofText?_eq_number_iff.mp reads).1
    -- None of the characters of numbers is white space.
    have solid : numerals.all (fun c => !Text.isBlank c) = true := by decide
    have blank : ∀ c ∈ t.toList, Text.isBlank c = false := by
      intro c member
      simpa using List.all_eq_true.mp solid c (numerals_of_decimal number c member)
    refine ⟨Text.trim_eq_self (fun c first => ?_) (fun c last => ?_), ?_⟩
    · exact blank c (List.mem_of_mem_head? first)
    · exact blank c (List.mem_of_mem_getLast? last)
    · intro empty
      exact nil_not_mem_decimal (empty ▸ number)

/-- The value of a number is not empty. -/
theorem value_ne_empty_of_number {stored : String} (reads : ofText? t = some (.number stored)) :
    stored ≠ "" := by
  -- What is stored is itself a number.
  rintro rfl
  exact nil_not_mem_decimal (ofText?_eq_number_iff.mp (ofText?_stored reads)).1

/-- A node that is made for a literal has the value of the literal in its field, and no other field;
a value that is missing from the option, since it is empty, is that of a new node. -/
theorem filled_option (reads : ofText? t = some l) :
    ∃ kind, BlockKind.ofName? l.kind = some kind ∧
      (l.option t).filled kind = .ofList [(l.fieldName, l.value)] := by
  -- A number is never empty, so it is written into its field. An empty text leaves the field at its
  -- default, which is empty as well.
  cases l with
  | number stored =>
    refine ⟨.mathNumber, rfl, ?_⟩
    have given : stored.isEmpty = false := by
      simpa [String.isEmpty_iff] using value_ne_empty_of_number reads
    rw [BlockOption.filled, BlockOption.entries, option, value, given]
    exact OrderedMap.ext rfl
  | text content =>
    refine ⟨.text, rfl, ?_⟩
    cases given : content.isEmpty with
    | true =>
      rw [BlockOption.filled, BlockOption.entries, option, value, given,
        String.isEmpty_iff.mp given]
      rfl
    | false =>
      rw [BlockOption.filled, BlockOption.entries, option, value, given]
      exact OrderedMap.ext rfl

end Literal

/-- The literal that a query spells is the best option for it, whatever else answers it. -/
theorem head?_matchingOptions_literal {options : List BlockOption} {query : String} {limit : Nat}
    {o : BlockOption} (present : Text.trim query.toList ≠ [])
    (spells : spelledLiteral? options query = some o) (room : 1 ≤ limit) :
    (matchingOptions options query limit).head? = some o := by
  -- The literal is put before all rows, and the limit leaves room for one.
  obtain ⟨more, rfl⟩ := Nat.exists_eq_add_of_le' room
  rw [matchingOptions, matchingRows_eq present, spells, Option.toList_some, List.singleton_append,
    List.map_cons, List.take_succ_cons,
    List.filterMap_cons_some (optionFor?_literal present spells), List.head?_cons]

namespace Session

variable {s : Session} {t : String} {l : Literal}

/-- The best option for a literal that no option of the catalog has as its text is its own. -/
theorem best?_literal (reads : Literal.ofText? t = some l) (limit : 1 ≤ s.settings.maxMatches)
    (absent : ∀ o ∈ s.presentCatalog.options, o.displayText ≠ t) :
    s.best? t = some (l.option t) := by
  -- No option spells the text, so the literal is offered, and it is offered first.
  obtain ⟨trimmed, present⟩ := Literal.trim_of_reads reads
  have spelled : String.ofList (Text.trim t.toList) = t := by rw [trimmed, String.ofList_toList]
  refine head?_matchingOptions_literal (trimmed.symm ▸ present) ?_ limit
  rw [spelledLiteral?, spelled, reads, if_neg]
  · rfl
  · rintro ⟨o, member, same⟩
    exact absent o (Array.mem_toList_iff.mp member) same

/-- In a session with a well-formed graph in which the sockets of each node have distinct names, and
with room for an option, a literal that no option of the catalog has as its text makes a new node
when it is entered: one of the kind of the literal, with its value in its field, and no other field.
This node is selected then. -/
theorem enter_makes_literal (wf : s.workspace.WellFormed) (distinct : s.workspace.Distinct)
    (limit : 1 ≤ s.settings.maxMatches) (reads : Literal.ofText? t = some l)
    (absent : ∀ o ∈ s.presentCatalog.options, o.displayText ≠ t) :
    ∃ inserted after n, (enter t).on s = (.ok (some inserted), after) ∧
      s.workspace.node? inserted.node = none ∧
      after.workspace.node? inserted.node = some n ∧ n.kind = l.kind ∧
      n.fields = .ofList [(l.fieldName, l.value)] ∧ n.field? l.fieldName = some l.value ∧
      after.selected? = some inserted.node := by
  -- The literal is the best option, so entering the text confirms it, and a literal's kind and
  -- field are always accepted. The option is picked in the session after the query was typed.
  let typed : Session := { s with catalog := some s.presentCatalog, query := t }
  obtain ⟨kind, known, filled⟩ := Literal.filled_option reads
  have read : Mutation.ofExtraState (l.option t).extraState = .ok .empty := rfl
  have listed : BlockKind.ofName? (l.option t).kind = some kind := known
  obtain ⟨inserted, after, made⟩ :=
    exists_confirm (s := typed) wf distinct read (Option.isSome_iff_exists.mpr ⟨kind, listed⟩)
  obtain ⟨new, selected⟩ := confirm_selects (s := typed) wf distinct made
  obtain ⟨_, kind', _, full, _, n, _, known', created, present, same⟩ :=
    confirm_node (s := typed) wf distinct made
  cases listed.symm.trans known'
  have fields : n.fields = .ofList [(l.fieldName, l.value)] := by
    rw [same]
    exact created.filled.trans filled
  refine ⟨inserted, after, n, ?_, new, present, ?_, fields, ?_, ?_⟩
  · rw [on_enter, best?_literal reads limit absent]
    simp only [Attempt.on_bind]
    rw [show (confirm (l.option t)).on typed = _ from made]
    rfl
  · rw [same]
    exact created.retouched.variant.kind.trans created.made.kind
  · rw [Node.field?, fields]
    exact (OrderedMap.get?_insert ∅ l.fieldName l.fieldName l.value).trans (if_pos rfl)
  · exact Option.filter_eq_some_iff.mpr
      ⟨selected, OrderedMap.contains_iff.mpr ⟨n, present⟩⟩

/-- A pair of quotes that is entered in an empty session makes an empty text, and selects it. -/
theorem enter_makes_literal_empty :
    let s := start (.empty ∅) {}
    ∃ inserted after n, (enter "\"\"").on s = (.ok (some inserted), after) ∧
      after.workspace.node? inserted.node = some n ∧ n.kind = "text" ∧
      n.fields = .ofList [("TEXT", "")] ∧ after.selected? = some inserted.node := by
  -- Two quotation marks with nothing between them, typed into an empty graph.
  intro s
  have built : Workspace.Built ∅ s.workspace := .empty
  have catalog : s.presentCatalog = .build s.declarations ∅ := presentCatalog_after ∅ {} []
  have missing : (s.declarations.templates ∅).get? "\"\"" = none := by decide +kernel
  have absent : ∀ o ∈ s.presentCatalog.options, o.displayText ≠ "\"\"" := by
    intro o offered same
    rw [catalog] at offered
    obtain ⟨t, found, _⟩ := mem_optionsOf_iff.mp (List.mem_toArray.mp offered)
    rw [same, missing] at found
    cases found
  obtain ⟨inserted, after, n, made, _, present, kind, fields, _, selected⟩ :=
    enter_makes_literal (s := s) (t := "\"\"") built.wellFormed built.distinct (by decide)
      (l := .text "") (by decide) absent
  exact ⟨inserted, after, n, made, present, kind, fields, selected⟩

end Session

end QuickEntry
