import Mathlib.Computability.RegularExpressions
import Mathlib.Data.List.TakeWhile
import Mathlib.Tactic.IntervalCases
import QuickEntry.Literal
import QuickEntry.Text.Digits

/-! Which texts are literals: a quoted text, or a decimal number in the sense of a grammar. -/

namespace QuickEntry.Literal

open RegularExpression (matches'_mul matches'_add matches'_epsilon matches'_char matches'_star)
open Text (isDigits)

/-- One of several characters. -/
def oneOf (cs : List Char) : RegularExpression Char := (cs.map .char).sum

/-- An ASCII digit. -/
def digit : RegularExpression Char := oneOf "0123456789".toList

/-- One or more digits. -/
def digits : RegularExpression Char := digit * digit.star

/-- Digits, with or without digits behind a point, or nothing but digits behind a point. -/
def unsigned : RegularExpression Char :=
  digits * (1 + .char '.' * digits) + .char '.' * digits

/-- A decimal number with at most one sign: `[+-]?([0-9]+(\.[0-9]+)?|\.[0-9]+)`. -/
def decimal : RegularExpression Char := (1 + oneOf ['+', '-']) * unsigned

/-- A text without a plus sign in front. -/
def withoutPlus : List Char → List Char
  | '+' :: rest => rest
  | cs => cs

variable {cs : List Char}

/-- One of several characters is a text of one character. -/
theorem mem_oneOf {choice : List Char} :
    cs ∈ (oneOf choice).matches' ↔ ∃ c ∈ choice, cs = [c] := by
  -- A choice is a sum of single characters, one for each step of the fold.
  induction choice with
  | nil => simp [oneOf, Language.notMem_zero]
  | cons c rest ih =>
    rw [List.exists_mem_cons_iff, ← ih]
    exact Language.mem_add _ _ _

/-- The ASCII digits are the ten characters from zero to nine. -/
theorem mem_digits_iff {c : Char} : c ∈ "0123456789".toList ↔ c.isDigit = true := by
  -- The ten digits are digits by evaluation. Conversely a digit has one of ten codes.
  constructor
  · exact fun listed => List.all_eq_true.mp (by decide : "0123456789".toList.all _ = true) c listed
  · intro digit
    simp only [Char.isDigit, Bool.and_eq_true, decide_eq_true_eq] at digit
    obtain ⟨low, high⟩ : 48 ≤ c.toNat ∧ c.toNat ≤ 57 := digit
    rw [← Char.ofNat_toNat c]
    interval_cases c.toNat <;> decide

/-- A digit is a text of one digit. -/
theorem mem_digit : cs ∈ digit.matches' ↔ ∃ c, c.isDigit = true ∧ cs = [c] := by
  -- A digit is a choice among the ten characters.
  rw [digit, mem_oneOf]
  simp only [mem_digits_iff]

/-- Any number of digits are a text of digits alone. -/
theorem mem_star_digit : cs ∈ digit.star.matches' ↔ ∀ c ∈ cs, c.isDigit = true := by
  rw [matches'_star, Language.mem_kstar]
  constructor
  · rintro ⟨pieces, rfl, single⟩ c member
    obtain ⟨piece, among, inside⟩ := List.mem_flatten.mp member
    obtain ⟨d, digit, rfl⟩ := mem_digit.mp (single piece among)
    rwa [List.mem_singleton.mp inside]
  · intro all
    -- The pieces are the characters, one by one.
    refine ⟨cs.map ([·]), ?_, List.forall_mem_map.mpr ?_⟩
    · rw [← List.flatMap_def, List.flatMap_singleton']
    · exact fun c member => mem_digit.mpr ⟨c, all c member, rfl⟩

/-- Digits are a text of at least one character, all of them digits. -/
theorem mem_digits : cs ∈ digits.matches' ↔ isDigits cs = true := by
  -- One digit and then any number of them: the test asks for the first by refusing the empty text.
  rw [digits, matches'_mul, Language.mem_mul]
  cases cs with
  | nil =>
    refine ⟨?_, fun impossible => (nomatch impossible)⟩
    rintro ⟨first, single, rest, _, empty⟩
    obtain ⟨d, _, rfl⟩ := mem_digit.mp single
    cases empty
  | cons c rest =>
    have spelled : isDigits (c :: rest) = true ↔
        c.isDigit = true ∧ ∀ d ∈ rest, d.isDigit = true := by
      simp [isDigits]
    rw [spelled]
    constructor
    · rintro ⟨first, single, others, several, whole⟩
      obtain ⟨d, digit, rfl⟩ := mem_digit.mp single
      cases whole
      exact ⟨digit, mem_star_digit.mp several⟩
    · rintro ⟨digit, several⟩
      exact ⟨[c], mem_digit.mpr ⟨c, digit, rfl⟩, rest, mem_star_digit.mpr several, rfl⟩

/-- Digits behind a point are a point and then digits. -/
theorem mem_fraction : cs ∈ (RegularExpression.char '.' * digits).matches' ↔
    ∃ fraction, isDigits fraction = true ∧ cs = '.' :: fraction := by
  -- A point, and digits behind it.
  rw [matches'_mul, Language.mem_mul]
  constructor
  · rintro ⟨point, rfl, fraction, several, rfl⟩
    exact ⟨fraction, mem_digits.mp several, rfl⟩
  · rintro ⟨fraction, several, rfl⟩
    exact ⟨['.'], rfl, fraction, mem_digits.mpr several, rfl⟩

/-- An unsigned number is one or more digits, or digits around a point with some behind it. -/
theorem mem_unsigned : cs ∈ unsigned.matches' ↔ isDigits cs = true ∨
    ∃ whole fraction, (∀ c ∈ whole, c.isDigit = true) ∧ isDigits fraction = true ∧
      cs = whole ++ '.' :: fraction := by
  -- The grammar has two branches, with and without digits in front; the statement has one with a
  -- point and one without.
  rw [unsigned, matches'_add, Language.mem_add, mem_fraction, matches'_mul, Language.mem_mul]
  constructor
  · rintro (⟨whole, front, rest, behind, rfl⟩ | ⟨fraction, several, rfl⟩)
    · rw [mem_digits] at front
      rcases behind with rfl | point
      · rw [List.append_nil]
        exact .inl front
      · obtain ⟨fraction, several, rfl⟩ := mem_fraction.mp point
        refine .inr ⟨whole, fraction, ?_, several, rfl⟩
        simp only [isDigits, Bool.and_eq_true, List.all_eq_true] at front
        exact front.2
    · exact .inr ⟨[], fraction, by simp, several, rfl⟩
  · -- The second branch of the grammar is the one with nothing in front of the point.
    rintro (several | ⟨whole, fraction, front, several, rfl⟩)
    · exact .inl ⟨cs, mem_digits.mpr several, [], .inl rfl, List.append_nil cs⟩
    · cases whole with
      | nil => exact .inr ⟨fraction, several, rfl⟩
      | cons c rest =>
        have number : isDigits (c :: rest) = true := by simpa [isDigits] using front
        exact .inl ⟨_, mem_digits.mpr number, _, .inr (mem_fraction.mpr ⟨_, several, rfl⟩), rfl⟩

/-- The digits in front of a text and what comes behind them tell whether it is an unsigned
number. -/
theorem isUnsignedDecimal_iff : isUnsignedDecimal cs = true ↔ cs ∈ unsigned.matches' := by
  rw [mem_unsigned]
  constructor
  · intro spelled
    -- What stands behind the digits in front is nothing, a point or something else.
    have split := List.takeWhile_append_dropWhile (p := Char.isDigit) (l := cs)
    rw [isUnsignedDecimal] at spelled
    split at spelled
    case h_1 nothing =>
      have all := List.all_eq_true.mpr (List.dropWhile_eq_nil_iff.mp nothing)
      exact .inl (by rw [isDigits, spelled, all, Bool.and_self])
    case h_2 fraction point =>
      rw [point] at split
      exact .inr ⟨_, fraction, fun _ => List.mem_takeWhile_imp, spelled, split.symm⟩
    case h_3 => cases spelled
  · rintro (several | ⟨whole, fraction, front, several, rfl⟩)
    · simp only [isDigits, Bool.and_eq_true, List.all_eq_true] at several
      rw [isUnsignedDecimal, List.dropWhile_eq_nil_iff.mpr several.2]
      exact several.1
    · -- A point is no digit, so that the digits in front end there.
      rw [isUnsignedDecimal, List.dropWhile_append_of_pos front]
      exact several

/-- A number has no sign, a plus sign or a minus sign before an unsigned one. -/
theorem mem_decimal : cs ∈ decimal.matches' ↔ cs ∈ unsigned.matches' ∨
    ∃ rest ∈ unsigned.matches', cs = '+' :: rest ∨ cs = '-' :: rest := by
  -- The sign is one of two characters or absent.
  rw [decimal, matches'_mul, Language.mem_mul]
  constructor
  · rintro ⟨sign, rfl | signed, rest, number, rfl⟩
    · exact .inl number
    · obtain ⟨c, choice, rfl⟩ := mem_oneOf.mp signed
      simp only [List.mem_cons, List.not_mem_nil, or_false] at choice
      rcases choice with rfl | rfl
      · exact .inr ⟨rest, number, .inl rfl⟩
      · exact .inr ⟨rest, number, .inr rfl⟩
  · rintro (number | ⟨rest, number, rfl | rfl⟩)
    · exact ⟨[], .inl rfl, cs, number, rfl⟩
    · exact ⟨['+'], .inr (mem_oneOf.mpr ⟨'+', by simp, rfl⟩), rest, number, rfl⟩
    · exact ⟨['-'], .inr (mem_oneOf.mpr ⟨'-', by simp, rfl⟩), rest, number, rfl⟩

/-- The texts of the grammar are numbers, which are stored without a plus sign. -/
theorem decimal?_eq_some_iff {stored : List Char} :
    decimal? cs = some stored ↔ cs ∈ decimal.matches' ∧ withoutPlus cs = stored := by
  -- An unsigned number starts with no sign.
  have plus : ∀ rest, isUnsignedDecimal ('+' :: rest) = false := fun _ => rfl
  have minus : ∀ rest, isUnsignedDecimal ('-' :: rest) = false := fun _ => rfl
  rw [mem_decimal]
  simp only [← isUnsignedDecimal_iff]
  fun_cases decimal? cs <;> simp_all [withoutPlus]

/-- A text between double quotes starts and ends with one, which are two. -/
theorem quoted?_eq_some_iff {content : List Char} :
    quoted? cs = some content ↔ cs = '"' :: (content ++ ['"']) := by
  -- The first mark is matched, the second is the last character of what follows.
  fun_cases quoted? cs
  case case1 rest last =>
    have split := List.dropLast_append_getLast? '"' last
    simp only [Option.some.injEq, List.cons.injEq, true_and]
    constructor
    · rintro rfl
      exact split.symm
    · rintro rfl
      exact List.dropLast_concat
  case case2 rest last =>
    refine ⟨fun impossible => (nomatch impossible), fun whole => ?_⟩
    rw [List.cons.injEq] at whole
    exact absurd (whole.2 ▸ List.getLast?_concat) last
  case case3 other =>
    refine ⟨fun impossible => (nomatch impossible), fun whole => ?_⟩
    exact absurd whole (other _)

/-- A quoted text is no number. -/
theorem quoted_not_mem_decimal {rest : List Char} : '"' :: rest ∉ decimal.matches' := by
  -- The recognizer of numbers refuses a text that starts with a mark.
  intro number
  have stored := decimal?_eq_some_iff.mpr ⟨number, rfl⟩
  cases stored

/-- An unsigned number has no plus sign to leave out. -/
theorem withoutPlus_of_unsigned (number : cs ∈ unsigned.matches') : withoutPlus cs = cs := by
  -- An unsigned number starts with no sign.
  rw [← isUnsignedDecimal_iff] at number
  fun_cases withoutPlus cs
  · cases number
  · rfl

/-- A number without its plus sign is a number that has none. -/
theorem withoutPlus_mem_decimal (number : cs ∈ decimal.matches') :
    withoutPlus cs ∈ decimal.matches' ∧ withoutPlus (withoutPlus cs) = withoutPlus cs := by
  -- Only a plus sign is dropped, and what is left then starts with none.
  rcases mem_decimal.mp number with plain | ⟨rest, plain, rfl | rfl⟩
  · rw [withoutPlus_of_unsigned plain]
    exact ⟨number, withoutPlus_of_unsigned plain⟩
  · exact ⟨mem_decimal.mpr (.inl plain), withoutPlus_of_unsigned plain⟩
  · exact ⟨number, rfl⟩

section Texts

variable {t content stored : String}

/-- Quotes around a text are found around its characters. -/
theorem quoted?_toList_iff :
    quoted? t.toList = some content.toList ↔ t = "\"" ++ content ++ "\"" := by
  -- The same equation, read on strings and on their characters.
  rw [quoted?_eq_some_iff, ← String.toList_inj, String.toList_append, String.toList_append]
  rfl

/-- The texts between two double quotes are read as quoted ones. -/
theorem ofText?_eq_text_iff :
    ofText? t = some (.text content) ↔ t = "\"" ++ content ++ "\"" := by
  -- Quotation marks are looked for first.
  rw [← quoted?_toList_iff, ofText?]
  cases quoted? t.toList with
  | none => simp
  | some cs =>
    simp only [Option.some.injEq, text.injEq, ← String.toList_inj, String.toList_ofList]

/-- The texts of the grammar are read as numbers, without a plus sign. -/
theorem ofText?_eq_number_iff : ofText? t = some (.number stored) ↔
    t.toList ∈ decimal.matches' ∧ stored = String.ofList (withoutPlus t.toList) := by
  -- A text in quotation marks is no number, so the order of the two tests does not matter.
  rw [ofText?]
  cases quotes : quoted? t.toList with
  | none =>
    simp only [Option.map_eq_some_iff, decimal?_eq_some_iff, number.injEq]
    constructor
    · rintro ⟨_, ⟨member, rfl⟩, rfl⟩
      exact ⟨member, rfl⟩
    · rintro ⟨member, rfl⟩
      exact ⟨_, ⟨member, rfl⟩, rfl⟩
  | some cs =>
    have apart : t.toList ∉ decimal.matches' := by
      rw [quoted?_eq_some_iff.mp quotes]
      exact quoted_not_mem_decimal
    simp [apart]

/-- A stored number is read as itself. -/
theorem ofText?_stored (reads : ofText? t = some (.number stored)) :
    ofText? stored = some (.number stored) := by
  -- What is stored is a number without a plus sign, which is stored as it stands.
  obtain ⟨number, rfl⟩ := ofText?_eq_number_iff.mp reads
  rw [ofText?_eq_number_iff, String.toList_ofList]
  obtain ⟨again, same⟩ := withoutPlus_mem_decimal number
  exact ⟨again, by rw [same]⟩

end Texts

/-- A text is read as a quoted one exactly if it is some content between two double quotes, and as
a number exactly if it has the form of one, which is then stored without a plus sign; it is nothing
else, and a number is read from what is stored as it is. -/
theorem reads_grammar (t : String) :
    (∀ content, ofText? t = some (.text content) ↔ t = "\"" ++ content ++ "\"") ∧
      (∀ stored, ofText? t = some (.number stored) ↔
        t.toList ∈ decimal.matches' ∧ stored = String.ofList (withoutPlus t.toList)) ∧
      (ofText? t = none ↔ (¬∃ content, t = "\"" ++ content ++ "\"") ∧
        t.toList ∉ decimal.matches') ∧
      ∀ stored, ofText? t = some (.number stored) → ofText? stored = some (.number stored) := by
  refine ⟨fun _ => ofText?_eq_text_iff, fun _ => ofText?_eq_number_iff, ?_, fun _ => ofText?_stored⟩
  -- A text that is read is read as one or the other.
  have number : t.toList ∈ decimal.matches' ↔ ∃ stored, ofText? t = some (.number stored) := by
    simp [ofText?_eq_number_iff]
  simp only [number, ← ofText?_eq_text_iff]
  cases ofText? t with
  | none => simp
  | some l => cases l <;> simp

end QuickEntry.Literal
