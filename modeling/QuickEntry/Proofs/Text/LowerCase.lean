import QuickEntry.Proofs.Text.Blank
import QuickEntry.Text.LowerCase

/-! When the start of a text is still its start in lower case: only a capital sigma looks at what
follows it. What is no white space stays visible. -/

namespace QuickEntry.Text

variable {before front rest cs : List Char} {c : Char}

/-- A character that is passed over when a sigma looks for the letters beside it. -/
def isIgnorable (c : Char) : Bool := caseIgnorableRanges.holds c.toNat

section Cased

/-- A character that is passed over does not count. -/
theorem nextCased_cons_of_ignorable (mark : isIgnorable c = true) :
    nextCased (c :: cs) = nextCased cs := by
  -- The marks in front are passed over.
  have dropped : (c :: cs).dropWhile (fun d => caseIgnorableRanges.holds d.toNat) =
      cs.dropWhile fun d => caseIgnorableRanges.holds d.toNat := List.dropWhile_cons_of_pos mark
  rw [nextCased, dropped, nextCased]

/-- The first character that is not passed over decides. -/
theorem nextCased_cons_of_counts (counts : isIgnorable c = false) :
    nextCased (c :: cs) = casedRanges.holds c.toNat := by
  -- The first character that counts decides.
  have stays : (c :: cs).dropWhile (fun d => caseIgnorableRanges.holds d.toNat) = c :: cs :=
    List.dropWhile_cons_of_neg (Bool.eq_false_iff.mp counts)
  rw [nextCased, stays]

/-- What follows a text counts only if all of the text is passed over. -/
theorem nextCased_append (front rest : List Char) : nextCased (front ++ rest) =
    if front.all isIgnorable then nextCased rest else nextCased front := by
  -- By induction on the front: the first character of it that counts decides, and with none the
  -- rest does.
  induction front with
  | nil => rfl
  | cons c front ih =>
    rw [List.cons_append, List.all_cons]
    cases counts : isIgnorable c with
    | true => rw [nextCased_cons_of_ignorable counts, nextCased_cons_of_ignorable counts, ih,
        Bool.true_and]
    | false => rw [nextCased_cons_of_counts counts, nextCased_cons_of_counts counts,
        Bool.false_and, if_neg Bool.false_ne_true]

/-- A text that is passed over has no case. -/
theorem nextCased_of_ignorable (marks : cs.all isIgnorable = true) : nextCased cs = false := by
  -- Nothing follows the marks.
  have nothing := nextCased_append cs []
  rwa [List.append_nil, if_pos marks] at nothing

/-- Ranges that lie apart share no code point. -/
theorem holds_eq_false_of_apart (left right : Ranges) {code : Nat}
    (apart : (left.all fun r => right.all fun s => r.2 < s.1 || s.2 < r.1) = true)
    (inside : left.holds code = true) : right.holds code = false := by
  -- A code in a range on the left is outside of each one on the right.
  obtain ⟨r, member, bounds⟩ := List.any_eq_true.mp inside
  rw [Ranges.holds, List.any_eq_false]
  intro s member'
  have apart := List.all_eq_true.mp (List.all_eq_true.mp apart r member) s member'
  simp only [Bool.or_eq_true, Bool.and_eq_true, decide_eq_true_eq] at apart bounds ⊢
  omega

/-- White space is not passed over. -/
theorem isIgnorable_of_isBlank (blank : isBlank c = true) : isIgnorable c = false :=
  -- The two tables have no range in common.
  holds_eq_false_of_apart blankRanges _ (by decide +kernel) blank

/-- White space has no case. -/
theorem nextCased_of_isBlank (blank : isBlank c = true) : nextCased (c :: rest) = false := by
  -- White space counts and has no case.
  rw [nextCased_cons_of_counts (isIgnorable_of_isBlank blank)]
  exact holds_eq_false_of_apart blankRanges _ (by decide +kernel) blank

end Cased

/-- A text is cut behind a capital sigma, and the marks on it, that ends a word of the first part
and has a letter of the second behind it: the first part alone gives the sigma its final form. -/
def CutsSigma (before front rest : List Char) : Prop :=
  ∃ word marks, front = word ++ 'Σ' :: marks ∧ marks.all isIgnorable = true ∧
    nextCased (word.reverse ++ before) = true ∧ nextCased rest = true

/-- Behind the first character, a text is cut as without it in front. -/
theorem cutsSigma_cons_iff : CutsSigma before (c :: front) rest ↔
    (c = 'Σ' ∧ front.all isIgnorable = true ∧ nextCased before = true ∧ nextCased rest = true) ∨
      CutsSigma (c :: before) front rest := by
  -- The sigma is the first character or comes later, with the first one among those before it.
  constructor
  · rintro ⟨word, marks, split, ignorable, ends, goesOn⟩
    cases word with
    | nil =>
      obtain ⟨rfl, rfl⟩ := List.cons.inj split
      exact .inl ⟨rfl, ignorable, ends, goesOn⟩
    | cons d word =>
      obtain ⟨rfl, rfl⟩ := List.cons.inj split
      refine .inr ⟨word, marks, rfl, ignorable, ?_, goesOn⟩
      rwa [List.reverse_cons, List.append_assoc, List.singleton_append] at ends
  · rintro (⟨rfl, ignorable, ends, goesOn⟩ | ⟨word, marks, rfl, ignorable, ends, goesOn⟩)
    · exact ⟨[], front, rfl, ignorable, ends, goesOn⟩
    · refine ⟨c :: word, marks, rfl, ignorable, ?_, goesOn⟩
      rwa [List.reverse_cons, List.append_assoc, List.singleton_append]

/-- Lower case of a character between those before it, nearest first, and those behind it. -/
def smallBetween (before : List Char) (c : Char) (rest : List Char) : List Char :=
  if c = 'Σ' then [if nextCased before && !nextCased rest then 'ς' else 'σ'] else lowerChar c

/-- Lower case goes on character by character. -/
theorem lowerAfter_cons : lowerAfter before (c :: rest) =
    smallBetween before c rest ++ lowerAfter (c :: before) rest := rfl

/-- A character has as many small ones wherever it stands. -/
theorem length_smallBetween (cs rest : List Char) :
    (smallBetween before c cs).length = (smallBetween before c rest).length := by
  -- Both forms of the small sigma are one character.
  rw [smallBetween, smallBetween]
  split <;> rfl

/-- More characters behind it change only a sigma that they keep from ending its word. -/
theorem smallBetween_append_eq_iff :
    smallBetween before c front = smallBetween before c (front ++ rest) ↔
      ¬(c = 'Σ' ∧ front.all isIgnorable = true ∧ nextCased before = true ∧
        nextCased rest = true) := by
  have apart : 'ς' ≠ 'σ' := by decide
  -- The rest is seen only past a front of marks, and only from a sigma.
  rw [smallBetween, smallBetween, nextCased_append]
  by_cases sigma : c = 'Σ'
  · by_cases marks : front.all isIgnorable = true
    · rw [if_pos sigma, if_pos sigma, if_pos marks, nextCased_of_ignorable marks]
      cases nextCased before <;> cases nextCased rest <;> simp [sigma, marks, apart]
    · simp [sigma, marks]
  · simp [sigma]

/-- A start of a text stays its start in lower case unless the cut keeps a letter from a sigma. -/
theorem lowerAfter_prefix_iff :
    lowerAfter before front <+: lowerAfter before (front ++ rest) ↔
      ¬CutsSigma before front rest := by
  induction front generalizing before with
  | nil =>
    refine iff_of_true List.nil_prefix ?_
    rintro ⟨word, marks, split, _⟩
    cases word <;> cases split
  | cons c front ih =>
    rw [List.cons_append, lowerAfter_cons, lowerAfter_cons, cutsSigma_cons_iff, not_or, ← ih,
      ← smallBetween_append_eq_iff]
    -- What follows cannot change how many characters one becomes, so that the parts compare.
    constructor
    · rintro ⟨more, whole⟩
      rw [List.append_assoc] at whole
      obtain ⟨same, others⟩ := List.append_inj whole (length_smallBetween _ _)
      exact ⟨same, more, others⟩
    · rintro ⟨same, others⟩
      rw [same]
      exact (List.prefix_append_right_inj _).mpr others

/-- White space at the cut may go with either part: a sigma before it ends its word. -/
theorem cutsSigma_append_iff {blanks : List Char} (blank : ∀ c ∈ blanks, isBlank c = true) :
    CutsSigma before (front ++ blanks) rest ↔ CutsSigma before front (blanks ++ rest) := by
  cases blanks using List.reverseRecOn with
  | nil => rw [List.append_nil, List.nil_append]
  | append_singleton blanks last =>
    have white := blank last (by simp)
    -- No sigma is cut on either side of white space.
    refine iff_of_false ?_ ?_
    · rintro ⟨word, marks, split, ignorable, _⟩
      -- Behind the sigma there is only what is passed over.
      have ends : ('Σ' :: marks).getLast? = some last := by
        have whole := congrArg List.getLast? split
        rw [← List.append_assoc, List.getLast?_concat, List.getLast?_append] at whole
        simpa using whole.symm
      rcases List.mem_cons.mp (List.mem_of_getLast? ends) with rfl | mark
      · exact absurd white (by decide)
      · have passed := List.all_eq_true.mp ignorable last mark
        rw [isIgnorable_of_isBlank white] at passed
        cases passed
    · rintro ⟨_, _, _, _, _, goesOn⟩
      cases blanks with
      | nil =>
        rw [List.nil_append, List.singleton_append, nextCased_of_isBlank white] at goesOn
        cases goesOn
      | cons b blanks =>
        rw [List.cons_append, List.cons_append, nextCased_of_isBlank (blank b (by simp))] at goesOn
        cases goesOn

/-- A start of a text that does not start with white space stays its start when it is trimmed and
both are in lower case, unless the cut keeps a letter from a sigma. -/
theorem lower_trim_prefix_iff (first : ∀ c ∈ front.head?, isBlank c = false) :
    lower (trim front) <+: lower (front ++ rest) ↔ ¬CutsSigma [] front rest := by
  -- The white space that is trimmed off the start is counted with the rest instead.
  obtain ⟨blanks, split, blank⟩ := exists_blanks first
  have cut : CutsSigma [] front rest ↔ CutsSigma [] (trim front) (blanks ++ rest) := by
    rw [← cutsSigma_append_iff blank, split]
  rw [cut, ← lowerAfter_prefix_iff, ← List.append_assoc, split]
  rfl

section Uncased

variable (counts : isIgnorable c = false) (uncased : casedRanges.holds c.toNat = false)
include counts uncased

/-- A character without case before a text does not count for its lower case. -/
theorem lowerAfter_concat (before : List Char) :
    lowerAfter (before ++ [c]) cs = lowerAfter before cs := by
  -- By induction on the text. What is uncased and counts ends the search backwards for a cased
  -- letter, as the beginning does.
  induction cs generalizing before with
  | nil => rfl
  | cons d rest ih =>
    have same : nextCased (before ++ [c]) = nextCased before := by
      rw [nextCased_append, nextCased_cons_of_counts counts, uncased]
      split
      · rename_i marks
        exact (nextCased_of_ignorable marks).symm
      · rfl
    rw [lowerAfter_cons, lowerAfter_cons, ← List.cons_append, ih, smallBetween, same, smallBetween]

/-- A character without case is put in lower case on its own. -/
theorem lower_cons_of_uncased : lower (c :: cs) = smallBetween [] c cs ++ lower cs :=
  -- Nothing in front of the rest is cased, which is as if there were nothing.
  congrArg (smallBetween [] c cs ++ ·) (lowerAfter_concat counts uncased [])

end Uncased

/-- Small letters beyond ASCII are no white space. -/
theorem holds_smallCode {code : Nat} (visible : blankRanges.holds code = false) :
    blankRanges.holds (smallCode code) = false := by
  -- A code of no run is its own small letter.
  unfold smallCode
  split
  · -- The small letters of each run lie apart from all white space.
    rename_i run found
    have apart : ((capitalRuns.map fun r => (r.small, r.small + (r.last - r.first))).all fun r =>
        blankRanges.all fun s => r.2 < s.1 || s.2 < r.1) = true := by decide +kernel
    have listed := List.mem_map_of_mem (f := fun r => (r.small, r.small + (r.last - r.first)))
      (List.mem_of_find?_eq_some found)
    refine holds_eq_false_of_apart _ _ apart (List.any_eq_true.mpr ⟨_, listed, ?_⟩)
    have bounds := List.find?_some found
    simp only [Bool.and_eq_true, decide_eq_true_eq] at bounds ⊢
    omega
  · exact visible

/-- Of a character that is no white space something can be seen in lower case. -/
theorem exists_visible_lowerChar (visible : isBlank c = false) :
    ∃ d ∈ lowerChar c, isBlank d = false := by
  -- One case for each way to find the small letters: ASCII, the dotted capital I, and the table.
  unfold lowerChar
  split
  · -- The characters of ASCII are few enough to be gone through.
    rename_i ascii
    have kept : ∀ n < 128, isBlank (Char.ofNat n).toLower = isBlank (Char.ofNat n) := by
      decide +kernel
    have same := kept c.toNat ascii
    rw [Char.ofNat_toNat] at same
    exact ⟨_, List.mem_singleton_self _, same.trans visible⟩
  · split
    · exact ⟨'i', by simp, by decide⟩
    · -- A number that is none of a character stands for the one with number zero.
      refine ⟨_, List.mem_singleton_self _, ?_⟩
      by_cases valid : (smallCode c.toNat).isValidChar
      · rw [show Char.ofNat (smallCode c.toNat) = _ from dif_pos valid]
        exact holds_smallCode visible
      · rw [show Char.ofNat (smallCode c.toNat) = _ from dif_neg valid]
        decide

/-- Of a text that is not blank something can be seen in lower case. -/
theorem exists_visible_lower (present : ∃ c ∈ cs, isBlank c = false) :
    ∃ c ∈ lower cs, isBlank c = false := by
  -- The small form of a character is in the result, whatever stands before and behind it.
  have within : ∀ before, ∃ c ∈ lowerAfter before cs, isBlank c = false := by
    induction cs with
    | nil => simp at present
    | cons c rest ih =>
      intro before
      simp only [lowerAfter_cons, List.mem_append]
      obtain ⟨d, member, visible⟩ := present
      rcases List.mem_cons.mp member with rfl | later
      · have small : ∃ e ∈ smallBetween before d rest, isBlank e = false := by
          rw [smallBetween]
          split
          · exact ⟨_, List.mem_singleton_self _, by split <;> decide⟩
          · exact exists_visible_lowerChar visible
        obtain ⟨e, inside, visible⟩ := small
        exact ⟨e, .inl inside, visible⟩
      · obtain ⟨e, inside, visible⟩ := ih ⟨d, later, visible⟩ (c :: before)
        exact ⟨e, .inr inside, visible⟩
  exact within []

end QuickEntry.Text
