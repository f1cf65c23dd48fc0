import Mathlib.Data.List.Basic
import QuickEntry.Markup.Characters

/-! Values as they are written inside quotes, and what they are read back as. -/

namespace QuickEntry.Markup

/-- What a written value is read back as: each white space is a blank, and a carriage return before
a line feed is nothing. -/
def blanked : List Char → List Char
  | [] => []
  | c :: rest =>
    if c = '\r' && rest.head? = some '\n' then blanked rest
    else (if isSpace c then ' ' else c) :: blanked rest

/-- Values without white space other than blanks are read back as they are, and only these. -/
theorem blanked_eq_self_iff (cs : List Char) :
    blanked cs = cs ↔ ∀ c ∈ cs, isSpace c = true → c = ' ' := by
  -- By induction on the text. Blanking keeps its length unless a line break of two characters
  -- becomes one blank.
  have short : ∀ cs : List Char, (blanked cs).length ≤ cs.length := by
    intro cs
    induction cs with
    | nil => exact Nat.le_refl _
    | cons c rest ih =>
      rw [blanked]
      split <;> simp only [List.length_cons] <;> omega
  induction cs with
  | nil => simp [blanked]
  | cons c rest ih =>
    rw [List.forall_mem_cons, blanked]
    refine Iff.trans ?_ (and_congr_right fun _ => ih)
    split
    case isTrue returned =>
      -- The carriage return is lost, which shortens the value.
      have carriage : c = '\r' := by simp_all
      constructor
      · intro same
        have length := congrArg List.length same
        have bound := short rest
        simp only [List.length_cons] at length
        omega
      · rintro ⟨blank, _⟩
        subst carriage
        exact absurd (blank rfl) (by decide)
    case isFalse =>
      rw [List.cons.injEq]
      refine and_congr_left fun _ => ?_
      split
      case isTrue space => exact ⟨fun same _ => same.symm, fun blank => (blank space).symm⟩
      case isFalse none => exact ⟨fun _ space => absurd space none, fun _ => rfl⟩

/-- A lower-case letter is a legal character and no mark. -/
theorem apart_of_isLower {c : Char} (lower : c.isLower = true) :
    isLegal c = true ∧ c ≠ ';' ∧ c ≠ '"' ∧ c ≠ '<' := by
  -- The letters have codes between those that are illegal and are none of the marks.
  refine ⟨?_, ?_, ?_, ?_⟩
  · change (decide ('a'.val ≤ c.val) && decide (c.val ≤ 'z'.val)) = true at lower
    simp only [Bool.and_eq_true, decide_eq_true_eq, UInt32.le_iff_toNat_le] at lower
    have first : 'a'.val.toNat = 97 := rfl
    have last : 'z'.val.toNat = 122 := rfl
    have number : c.toNat = c.val.toNat := rfl
    rw [isLegal, if_neg (by omega)]
    simp only [ne_eq, Bool.and_eq_true, decide_eq_true_eq]
    omega
  all_goals
    rintro rfl
    cases lower

/-- A character is written as it is, or by a reference of lower-case letters to it. -/
theorem escapeChar_cases (c : Char) :
    (escapeChar c = [c] ∧ c ≠ '&' ∧ c ≠ '"' ∧ c ≠ '<') ∨
    ∃ name, escapeChar c = '&' :: name ++ [';'] ∧ referenced? name = some c ∧
      name.all Char.isLower = true ∧ isLegal c = true ∧ isSpace c = false := by
  -- Five characters have a name, all others stand for themselves.
  unfold escapeChar
  split
  · exact .inr ⟨['l', 't'], by decide⟩
  · exact .inr ⟨['g', 't'], by decide⟩
  · exact .inr ⟨['a', 'm', 'p'], by decide⟩
  · exact .inr ⟨['a', 'p', 'o', 's'], by decide⟩
  · exact .inr ⟨['q', 'u', 'o', 't'], by decide⟩
  · exact .inl ⟨rfl, by assumption, by assumption, by assumption⟩

/-- A value is written with a line feed in front exactly if it has one there. -/
theorem head?_escape_eq_some_iff (cs : List Char) :
    (escape cs).head? = some '\n' ↔ cs.head? = some '\n' := by
  cases cs with
  | nil => rfl
  | cons c rest =>
    rw [escape, List.flatMap_cons]
    rcases escapeChar_cases c with ⟨plain, _⟩ | ⟨name, written, _, _, _, space⟩
    · rw [plain]
      rfl
    · rw [written]
      -- A line feed is never referred to.
      constructor
      · intro first
        cases first
      · rintro ⟨⟩
        cases space

/-- A reference is read up to its semicolon. -/
theorem unescapeFrom_reference (name rest : List Char) (ends : ∀ d ∈ name, d ≠ ';') :
    ∀ reversed : List Char, unescapeFrom (some reversed) (name ++ ';' :: rest) =
      (referenced? (reversed.reverse ++ name)).bind fun meant =>
        (unescapeFrom none rest).map (meant :: ·) := by
  -- By induction on the name, which is collected in reverse up to the semicolon.
  induction name with
  | nil =>
    intro reversed
    rw [List.nil_append, List.append_nil, unescapeFrom, if_pos rfl]
    cases referenced? reversed.reverse <;> cases unescapeFrom none rest <;> rfl
  | cons d name ih =>
    intro reversed
    rw [List.cons_append, unescapeFrom, if_neg (ends d List.mem_cons_self),
      ih (fun e member => ends e (List.mem_cons_of_mem _ member))]
    simp

/-- Every value can be read back from how it is written. -/
theorem unescape_escape (cs : List Char) : unescape (escape cs) = some (blanked cs) := by
  -- By induction on the text. A plain character reads as itself, a named one through its reference.
  rw [unescape]
  induction cs with
  | nil => rfl
  | cons c rest ih =>
    have written : escape (c :: rest) = escapeChar c ++ escape rest := List.flatMap_cons
    rw [written, blanked]
    rcases escapeChar_cases c with ⟨plain, ampersand, _⟩ | ⟨name, plain, meant, lower, _, space⟩
    · rw [plain, List.singleton_append, unescapeFrom, if_neg ampersand, ih]
      simp only [head?_escape_eq_some_iff]
      split <;> rfl
    · -- The character that a reference stands for is never white space.
      have carriage : c ≠ '\r' := by
        rintro rfl
        cases space
      have ends : ∀ d ∈ name, d ≠ ';' := fun d member =>
        (apart_of_isLower (List.all_eq_true.mp lower d member)).2.1
      rw [plain, List.cons_append, List.cons_append, List.append_assoc, List.singleton_append,
        unescapeFrom, if_pos rfl, unescapeFrom_reference _ _ ends, List.reverse_nil,
        List.nil_append, meant, ih]
      simp [carriage, space]

/-- A value is written with neither quotes nor angle brackets. -/
theorem not_mark_of_mem_escape {cs : List Char} :
    ∀ d ∈ escape cs, d ≠ '"' ∧ d ≠ '<' := by
  -- Marks are written by their names, which are spelled in letters between an ampersand and a
  -- semicolon.
  intro d member
  obtain ⟨c, _, among⟩ := List.mem_flatMap.mp member
  rcases escapeChar_cases c with ⟨plain, _, quote, bracket⟩ | ⟨name, plain, _, lower, _⟩
  · rw [plain, List.mem_singleton] at among
    subst among
    exact ⟨quote, bracket⟩
  · rw [plain, List.cons_append, List.mem_cons, List.mem_append, List.mem_singleton] at among
    rcases among with rfl | inside | rfl
    · decide
    · exact (apart_of_isLower (List.all_eq_true.mp lower d inside)).2.2
    · decide

/-- Writing a value neither brings illegal characters nor hides any. -/
theorem all_isLegal_escape (cs : List Char) : (escape cs).all isLegal = cs.all isLegal := by
  -- A character that has a name is legal, and so are the letters of the name.
  have single : ∀ c, (escapeChar c).all isLegal = isLegal c := by
    intro c
    rcases escapeChar_cases c with ⟨plain, _⟩ | ⟨name, plain, _, lower, legal, _⟩
    · simp [plain]
    · have inside : name.all isLegal = true :=
        List.all_eq_true.mpr fun d member =>
          (apart_of_isLower (List.all_eq_true.mp lower d member)).1
      rw [plain, List.cons_append, List.all_cons, List.all_append, inside, legal]
      decide
  rw [escape, List.all_flatMap]
  simp only [single]

end QuickEntry.Markup
