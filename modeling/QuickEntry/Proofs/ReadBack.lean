import Mathlib.Data.List.DropRight
import QuickEntry.Proofs.Mutation

/-! Whole structural states as documents: every state of plain names and legal characters can be
read back, and comes back as it was unless it holds white space other than blanks. -/

namespace QuickEntry

open QuickEntry.Text

namespace Markup

/-- White space of markup is white space of a text. -/
theorem isBlank_of_isSpace {c : Char} (space : isSpace c = true) : isBlank c = true := by
  -- There are four of them.
  simp only [isSpace, Bool.or_eq_true, decide_eq_true_eq] at space
  rcases space with ((rfl | rfl) | rfl) | rfl <;> decide

/-- A character is read back as white space of a text exactly if it is such white space. -/
theorem isBlank_blanked (c : Char) : isBlank (if isSpace c then ' ' else c) = isBlank c := by
  -- A blank in place of white space is white space too.
  split
  · rename_i space
    rw [isBlank_of_isSpace space]
    rfl
  · rfl

/-- A text without its white space at the end, one character at a time. -/
theorem rdropWhile_cons {α : Type} (drops : α → Bool) (x : α) (xs : List α) :
    (x :: xs).rdropWhile drops =
      if xs.rdropWhile drops = [] then if drops x then [] else [x]
      else x :: xs.rdropWhile drops := by
  -- Whether the first character goes depends on whether anything behind it stays.
  have split : (xs.reverse ++ [x]).dropWhile drops =
      if (xs.reverse.dropWhile drops).isEmpty then [x].dropWhile drops
      else xs.reverse.dropWhile drops ++ [x] := List.dropWhile_append
  rw [List.rdropWhile, List.rdropWhile, List.reverse_cons, split]
  cases xs.reverse.dropWhile drops with
  | nil => by_cases drop : drops x = true <;> simp [drop]
  | cons y ys => simp

/-- Reading a value back and leaving out its white space in front can be exchanged. -/
theorem dropWhile_blanked (cs : List Char) :
    (blanked cs).dropWhile isBlank = blanked (cs.dropWhile isBlank) := by
  induction cs with
  | nil => rfl
  | cons c rest ih =>
    rw [blanked]
    split
    case isTrue returned =>
      -- The carriage return is left out either way.
      have carriage : isBlank c = true := isBlank_of_isSpace (by simp_all [isSpace])
      rw [List.dropWhile_cons_of_pos carriage, ih]
    case isFalse kept =>
      rw [List.dropWhile_cons, List.dropWhile_cons, isBlank_blanked]
      split
      · exact ih
      · rw [blanked, if_neg kept]

/-- A text that does not end at once without its white space starts as it did. -/
theorem head?_rdropWhile {α : Type} {drops : α → Bool} {xs : List α}
    (some : xs.rdropWhile drops ≠ []) : (xs.rdropWhile drops).head? = xs.head? := by
  -- What is left starts where the list does.
  cases xs with
  | nil => rfl
  | cons x xs =>
    rw [rdropWhile_cons] at some ⊢
    split_ifs at some ⊢ <;> simp_all

/-- No value is read back as nothing but the empty one. -/
theorem blanked_eq_nil_iff {cs : List Char} : blanked cs = [] ↔ cs = [] := by
  induction cs with
  | nil => exact Iff.rfl
  | cons c rest ih =>
    rw [blanked]
    split
    case isTrue returned =>
      -- A carriage return is lost before a line feed only.
      have follows : rest ≠ [] := by
        rintro rfl
        simp at returned
      simpa [ih] using follows
    case isFalse => simp

/-- Reading a value back and leaving out its white space at the end can be exchanged. -/
theorem rdropWhile_blanked (cs : List Char) :
    (blanked cs).rdropWhile isBlank = blanked (cs.rdropWhile isBlank) := by
  -- By induction on the text: a character goes exactly if all behind it goes and it is white space,
  -- before blanking and after.
  induction cs with
  | nil => rfl
  | cons c rest ih =>
    rw [rdropWhile_cons isBlank c rest]
    by_cases empty : rest.rdropWhile isBlank = []
    · -- Everything behind the character goes, so that it stands at the end.
      rw [if_pos empty, blanked]
      have gone : (blanked rest).rdropWhile isBlank = [] := by rw [ih, empty, blanked]
      split
      case isTrue returned =>
        have carriage : isBlank c = true := isBlank_of_isSpace (by simp_all [isSpace])
        rw [gone, if_pos carriage, blanked]
      case isFalse =>
        rw [rdropWhile_cons, if_pos gone, isBlank_blanked]
        split <;> simp [blanked]
    · -- The character stays before what is left, which starts as before.
      have stays : (blanked rest).rdropWhile isBlank ≠ [] := by
        rw [ih]
        exact blanked_eq_nil_iff.not.mpr empty
      rw [if_neg empty, blanked, blanked, head?_rdropWhile empty]
      split
      · exact ih
      · rw [rdropWhile_cons, if_neg stays, ih]

/-- Reading a value back and trimming it can be exchanged. -/
theorem trim_blanked (cs : List Char) : trim (blanked cs) = blanked (trim cs) := by
  -- Trimming drops in front and behind, and both commute with blanking.
  have trimmed : ∀ cs, trim cs = (cs.dropWhile isBlank).rdropWhile isBlank := fun _ => rfl
  rw [trimmed, trimmed, dropWhile_blanked, rdropWhile_blanked]

/-- A value that is read back without white space was written without any. -/
theorem blanked_of_narrow {cs : List Char} (narrow : ∀ c ∈ blanked cs, isSpace c = false) :
    blanked cs = cs := by
  induction cs with
  | nil => rfl
  | cons c rest ih =>
    rw [blanked] at narrow ⊢
    split at narrow
    case isTrue returned =>
      -- The line feed behind the carriage return would be read back as a blank.
      obtain ⟨_, feed⟩ : c = '\r' ∧ rest.head? = some '\n' := by simpa using returned
      have member : '\n' ∈ blanked rest := by
        rw [ih narrow]
        exact List.mem_of_head? feed
      exact absurd (narrow _ member) (by decide)
    case isFalse kept =>
      obtain ⟨own, others⟩ := List.forall_mem_cons.mp narrow
      have plain : isSpace c = false := by
        by_contra space
        rw [if_pos (Bool.of_not_eq_false space)] at own
        exact absurd own (by decide)
      rw [if_neg kept, plain, if_neg Bool.false_ne_true, ih others]

/-- Digits that a value is read back as, but for white space around them, are those that were
written. -/
theorem trim_blanked_of_isDigits {cs : List Char} (digits : isDigits (trim (blanked cs)) = true) :
    trim (blanked cs) = trim cs := by
  rw [trim_blanked] at digits ⊢
  refine blanked_of_narrow fun c member => ?_
  have digit : c.isDigit = true := by
    simp only [isDigits, Bool.and_eq_true, List.all_eq_true] at digits
    exact digits.2 c member
  -- None of the four characters of white space is a digit.
  by_contra space
  have space : isSpace c = true := Bool.of_not_eq_false space
  simp only [isSpace, Bool.or_eq_true, decide_eq_true_eq] at space
  rcases space with ((rfl | rfl) | rfl) | rfl <;> exact absurd digit (by decide)

end Markup

namespace Mutation

variable {m : Mutation}

/-- The state with the values that are read back from its document. -/
def blanked (m : Mutation) : Mutation where
  attributes :=
    .ofList (m.attributes.entries.map fun e => (e.1, String.ofList (Markup.blanked e.2.toList)))
  args := m.args.map fun name => String.ofList (Markup.blanked name.toList)

/-- A text is read back as it is if it has no white space other than blanks, and only then. -/
theorem ofList_blanked_eq_self_iff (text : String) :
    String.ofList (Markup.blanked text.toList) = text ↔
      ∀ c ∈ text.toList, Markup.isSpace c = true → c = ' ' := by
  -- The same equation, read on the characters.
  rw [← Markup.blanked_eq_self_iff, ← String.toList_inj, String.toList_ofList]

/-- Arguments are read back as they are if each of them is, and only then. -/
theorem map_blanked_eq_iff {args : List String} :
    (args.map fun name => String.ofList (Markup.blanked name.toList)) = args ↔
      ∀ name ∈ args, ∀ c ∈ name.toList, Markup.isSpace c = true → c = ' ' := by
  -- The lists agree if they agree at each place.
  have each : (args.map fun name => String.ofList (Markup.blanked name.toList)) = args.map id ↔ _ :=
    List.map_inj_left
  rw [List.map_id] at each
  exact each.trans (forall₂_congr fun name _ => ofList_blanked_eq_self_iff name)

/-- A state comes back from its document as it was exactly if none of its values and arguments has
white space other than blanks. -/
theorem blanked_eq_self_iff :
    m.blanked = m ↔ ∀ text ∈ m.attributes.values ++ m.args, ∀ c ∈ text.toList,
      Markup.isSpace c = true → c = ' ' := by
  -- A state is blanked in its settings and in its arguments, which are compared separately.
  have values : (∀ text ∈ m.attributes.values, ∀ c ∈ text.toList,
      Markup.isSpace c = true → c = ' ') ↔ _ := List.forall_mem_map
  rw [List.forall_mem_append, values, ← ofList_blanked_eq_iff, ← map_blanked_eq_iff]
  constructor
  · intro same
    exact ⟨congrArg attributes same, congrArg args same⟩
  · rintro ⟨settings, arguments⟩
    exact congrArg₂ Mutation.mk settings arguments

/-- White space other than blanks is a tab, a line feed or a carriage return. -/
theorem isSpace_iff (c : Char) :
    (Markup.isSpace c = true → c = ' ') ↔ c ≠ '\t' ∧ c ≠ '\n' ∧ c ≠ '\r' := by
  -- Of the four characters of white space one is the blank itself.
  constructor
  · intro blank
    refine ⟨?_, ?_, ?_⟩ <;>
      · rintro rfl
        exact absurd (blank rfl) (by decide)
  · rintro ⟨tab, feed, carriage⟩ space
    simpa [Markup.isSpace, tab, feed, carriage] using space

/-- The document of a state of plain names, legal characters, and no too large numbers in digits
alone can be read back: what comes back has a blank for each tab, line feed and carriage return,
with nothing for a carriage return before a line feed, and so it is the state itself exactly if no
value and no argument has any of these three. -/
theorem reads_back_iff (plain : Plain m.attributes)
    (legal : ∀ text ∈ m.attributes.values ++ m.args, ∀ c ∈ text.toList, Markup.isLegal c = true)
    (modest : ∀ value ∈ m.attributes.values,
      isDigits (trim value.toList) = true → digitsValue (trim value.toList) ≤ maxArity) :
    ofMarkup (toMarkup m) = .ok m.blanked ∧
      (ofMarkup (toMarkup m) = .ok m ↔ ∀ text ∈ m.attributes.values ++ m.args, ∀ c ∈ text.toList,
        c ≠ '\t' ∧ c ≠ '\n' ∧ c ≠ '\r') := by
  -- The state reads back blanked, always; whether that is the state itself is a question of its
  -- texts alone.
  obtain ⟨values, arguments⟩ := List.forall_mem_append.mp legal
  have legal' : Markup.areLegal (written m.attributes) = true :=
    areLegal_written.mpr fun e member => values e.2 (List.mem_map_of_mem member)
  have inside : (writtenArguments m.args).all Markup.areLegal = true := by
    simpa [writtenArguments, Markup.areLegal] using arguments
  have settings : (Markup.plainAttributes (written m.attributes)).map
      (fun a => (String.ofList a.name, String.ofList a.value)) =
        m.attributes.entries.map fun e => (e.1, String.ofList (Markup.blanked e.2.toList)) := by
    simp [Markup.plainAttributes, written]
  -- A value that is read back as a number was written as this number.
  have checks : ∀ a ∈ Markup.plainAttributes (written m.attributes),
      checkArity a.name a.value = .ok () := by
    intro a member
    simp only [Markup.plainAttributes, written, List.map_map] at member
    obtain ⟨e, among, rfl⟩ := List.mem_map.mp member
    refine checkArity_eq_ok_iff.mpr ?_
    dsimp only [Function.comp_apply]
    intro digits
    have same := Markup.trim_blanked_of_isDigits digits
    rw [same] at digits ⊢
    exact modest e.2 (List.mem_map_of_mem among) digits
  have back : ofMarkup (toMarkup m) = .ok m.blanked := by
    rw [ofMarkup_toMarkup plain, legal', inside, ofElement_rootElement,
      readAttributes_eq_ok_iff.mpr ⟨checks, rfl⟩, settings]
    rfl
  refine ⟨back, ?_⟩
  rw [back, Except.ok.injEq, blanked_eq_self_iff]
  simp only [isSpace_iff]

/-- A tab in a value comes back as a blank. -/
theorem reads_back_tab :
    let state (value : String) : Mutation := ⟨.ofList [("name", value)], ["x"]⟩
    ofMarkup (toMarkup (state "a\tb")) = .ok (state "a b") ∧
      ofMarkup (toMarkup (state "a\tb")) ≠ .ok (state "a\tb") := by
  -- A value with a tab in it is legal, written as it stands and read with a blank.
  intro state
  have plain : ∀ name ∈ (state "a\tb").attributes.keys, Markup.isPlainName name.toList = true := by
    decide +kernel
  have texts : (state "a\tb").attributes.values ++ (state "a\tb").args = ["a\tb", "x"] := by
    decide +kernel
  have legal : ["a\tb", "x"].all (fun text => text.toList.all Markup.isLegal) = true := by
    decide +kernel
  have reads := reads_back_iff (m := state "a\tb") plain (fun text member c inside =>
    List.all_eq_true.mp (List.all_eq_true.mp legal text (texts ▸ member)) c inside)
    (by decide +kernel)
  refine ⟨reads.1.trans (by decide +kernel), fun same => ?_⟩
  exact (reads.2.mp same "a\tb" (by decide +kernel) '\t' (by decide +kernel)).1 rfl

end Mutation

end QuickEntry
