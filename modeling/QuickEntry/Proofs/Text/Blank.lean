import Mathlib.Data.List.DropRight
import QuickEntry.Text.Blank

/-! What is left of a text without the white space at its ends, and between the characters at which
it is split. -/

namespace QuickEntry.Text

variable {cs : List Char}

/-- Trimming leaves out the white space in front and then that at the end. -/
theorem trim_eq (cs : List Char) : trim cs = (cs.dropWhile isBlank).rdropWhile isBlank := rfl

/-- Something is left of a text that is not blank. -/
theorem trim_ne_nil_iff : trim cs ≠ [] ↔ ∃ c ∈ cs, isBlank c = false := by
  have blank : trim cs = [] ↔ ∀ c ∈ cs, isBlank c = true := by
    rw [trim_eq, List.rdropWhile_eq_nil_iff]
    constructor
    · intro rest
      -- What is left in front would not start with white space.
      have gone := List.dropWhile_eq_nil_iff.mpr rest
      rw [List.dropWhile_idempotent] at gone
      exact List.dropWhile_eq_nil_iff.mp gone
    · intro all c member
      exact all c ((List.dropWhile_suffix isBlank).subset member)
  simp only [ne_eq, blank, not_forall, exists_prop, Bool.not_eq_true]

/-- What is no white space is not trimmed. -/
theorem mem_trim {c : Char} (member : c ∈ cs) (visible : isBlank c = false) : c ∈ trim cs := by
  -- Only white space is dropped, from the front and then from the other end.
  have stays : ∀ ds : List Char, c ∈ ds → c ∈ ds.dropWhile isBlank := by
    intro ds inside
    rw [← List.takeWhile_append_dropWhile (p := isBlank) (l := ds)] at inside
    rcases List.mem_append.mp inside with dropped | kept
    · rw [List.mem_takeWhile_imp dropped] at visible
      cases visible
    · exact kept
  exact List.mem_reverse.mpr (stays _ (List.mem_reverse.mpr (stays _ member)))

section First

variable (first : ∀ c ∈ cs.head?, isBlank c = false)
include first

/-- A text that does not start with white space is trimmed at its end only. -/
theorem trim_of_first : trim cs = cs.rdropWhile isBlank := by
  -- There is nothing to drop in front.
  cases cs with
  | nil => rfl
  | cons c rest => rw [trim_eq, List.dropWhile_cons_of_neg (by simp [first c rfl])]

/-- Trimming leaves a text alone that has no white space at its ends. -/
theorem trim_eq_self (last : ∀ c ∈ cs.getLast?, isBlank c = false) : trim cs = cs := by
  -- There is nothing to drop at either end.
  rw [trim_of_first first, List.rdropWhile_eq_self_iff]
  intro present
  simp [last _ (List.getLast?_eq_some_getLast present)]

/-- Trimming takes only white space from the end of a text that does not start with any. -/
theorem exists_blanks : ∃ blanks, trim cs ++ blanks = cs ∧ ∀ c ∈ blanks, isBlank c = true := by
  -- What is dropped at the end is all white space.
  refine ⟨cs.rtakeWhile isBlank, ?_, fun c member => ?_⟩
  · rw [trim_of_first first, List.rdropWhile, List.rtakeWhile, ← List.reverse_append,
      List.takeWhile_append_dropWhile, List.reverse_reverse]
  · exact List.mem_takeWhile_imp (List.mem_reverse.mp member)

end First

section Split

variable {separates : Char → Bool}

/-- Splitting a text leaves at least one piece. -/
theorem splitOn_ne_nil (cs : List Char) : splitOn separates cs ≠ [] := by
  -- Even an empty text is split into one piece.
  cases cs with
  | nil => exact List.cons_ne_nil _ _
  | cons c rest =>
    rw [splitOn]
    split
    · exact List.cons_ne_nil _ _
    · split <;> exact List.cons_ne_nil _ _

/-- The pieces of a text are together the characters that separate nothing. -/
theorem flatten_splitOn (cs : List Char) :
    (splitOn separates cs).flatten = cs.filter fun c => !separates c := by
  -- A character joins the first piece of the rest, or leaves an empty piece before it.
  induction cs with
  | nil => rfl
  | cons c rest ih =>
    rw [splitOn, List.filter_cons]
    cases parts : splitOn separates rest with
    | nil => exact absurd parts (splitOn_ne_nil rest)
    | cons piece others =>
      rw [parts, List.flatten_cons] at ih
      cases separates c <;> simp [ih]

/-- A text has pieces if it has a character that separates nothing. -/
theorem pieces_ne_nil {c : Char} (member : c ∈ cs) (joins : separates c = false) :
    pieces separates cs ≠ [] := by
  -- The character is in one of the parts, which is then no empty one.
  intro none
  have inside : c ∈ (splitOn separates cs).flatten := by
    rw [flatten_splitOn]
    exact List.mem_filter.mpr ⟨member, by simp [joins]⟩
  obtain ⟨piece, listed, own⟩ := List.mem_flatten.mp inside
  have empty := List.filter_eq_nil_iff.mp none piece listed
  cases piece with
  | nil => cases own
  | cons d rest => exact empty rfl

end Split

end QuickEntry.Text
