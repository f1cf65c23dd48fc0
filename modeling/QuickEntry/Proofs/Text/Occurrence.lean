import QuickEntry.Text.Occurrence

/-! What a scan from left to right finds that goes on behind each occurrence of a text. -/

namespace QuickEntry.Text

variable {needle cs a b before front : List Char} {covered : Nat} {o : Occurrence}

section Space

/-- A character in front adds its space. -/
theorem byteLength_cons (c : Char) (cs : List Char) :
    byteLength (c :: cs) = c.utf8Size + byteLength cs := rfl

/-- One text after the other takes the space of both. -/
theorem byteLength_append (a b : List Char) :
    byteLength (a ++ b) = byteLength a + byteLength b := by
  -- Every character of the front adds its own width, so the sum splits where the texts meet.
  induction a with
  | nil => exact (Nat.zero_add _).symm
  | cons c rest ih => rw [List.cons_append, byteLength_cons, byteLength_cons, ih, Nat.add_assoc]

/-- Only the empty text takes no space. -/
theorem byteLength_eq_zero_iff : byteLength a = 0 ↔ a = [] := by
  -- No character is encoded in zero bytes.
  cases a with
  | nil => exact iff_of_true rfl rfl
  | cons c rest =>
    have space := c.utf8Size_pos
    simp only [byteLength_cons, reduceCtorEq, iff_false]
    omega

/-- Of the texts that one text starts with, one that takes no more space starts the other. -/
theorem prefix_of_byteLength_le (left : a <+: cs) (right : b <+: cs)
    (less : byteLength a ≤ byteLength b) : a <+: b := by
  -- Two prefixes of one text are comparable; if the longer one comes first, its surplus has no
  -- bytes and so no characters.
  rcases List.prefix_or_prefix_of_prefix left right with before | ⟨rest, rfl⟩
  · exact before
  · rw [byteLength_append] at less
    have nothing : rest = [] := byteLength_eq_zero_iff.mp (by omega)
    simp [nothing]

/-- No two texts that one text starts with take the same space. -/
theorem eq_of_byteLength (left : a <+: cs) (right : b <+: cs)
    (same : byteLength a = byteLength b) : a = b := by
  -- Equal lengths make each a prefix of the other.
  have before := prefix_of_byteLength_le left right (Nat.le_of_eq same)
  have behind := prefix_of_byteLength_le right left (Nat.le_of_eq same.symm)
  exact before.eq_of_length (Nat.le_antisymm before.length_le behind.length_le)

end Space

/-- The occurrences in a text behind some characters in front of it. -/
def occurrencesBehind (needle front : List Char) (covered : Nat) (cs : List Char) :
    List Occurrence :=
  occurrencesFrom needle covered (byteLength front) front.getLast? cs

section Scan

variable {c : Char} {rest : List Char}

/-- The scan goes on behind one more character. -/
theorem occurrencesBehind_concat : occurrencesBehind needle (front ++ [c]) covered rest =
    occurrencesFrom needle covered (byteLength front + c.utf8Size) (some c) rest := by
  -- The scan remembers of the front only its length and its last character.
  rw [occurrencesBehind, byteLength_append, List.getLast?_concat]
  rfl

/-- The scan passes over a character that an occurrence covers. -/
theorem occurrencesBehind_covered : occurrencesBehind needle front (covered + 1) (c :: rest) =
    occurrencesBehind needle (front ++ [c]) covered rest := by
  -- A character inside the occurrence found last is passed over.
  rw [occurrencesBehind_concat, occurrencesBehind, occurrencesFrom]

/-- The scan finds the text where the rest starts with it. -/
theorem occurrencesBehind_found (occurs : needle <+: c :: rest) :
    occurrencesBehind needle front 0 (c :: rest) = ⟨byteLength front, front.getLast?⟩ ::
      occurrencesBehind needle (front ++ [c]) (needle.length - 1) rest := by
  -- What follows is scanned with all but the first character of the occurrence still covered.
  rw [occurrencesBehind_concat, occurrencesBehind, occurrencesFrom,
    if_pos (List.isPrefixOf_iff_prefix.mpr occurs)]

/-- The scan goes on where the rest does not start with the text. -/
theorem occurrencesBehind_missed (missed : ¬needle <+: c :: rest) :
    occurrencesBehind needle front 0 (c :: rest) =
      occurrencesBehind needle (front ++ [c]) 0 rest := by
  -- Nothing is recorded here, and the scan goes on with one more character in front.
  rw [occurrencesBehind_concat, occurrencesBehind, occurrencesFrom,
    if_neg (mt List.isPrefixOf_iff_prefix.mp missed)]

/-- What the scan finds are occurrences. -/
theorem occurs_of_mem_behind (front : List Char)
    (found : o ∈ occurrencesBehind needle front covered cs) :
    ∃ before, before ++ needle <+: cs ∧
      o = ⟨byteLength (front ++ before), (front ++ before).getLast?⟩ := by
  induction cs generalizing front covered with
  | nil => cases found
  | cons c rest ih =>
    -- What lies behind the first character is found behind one more.
    have later : ∀ {covered}, o ∈ occurrencesBehind needle (front ++ [c]) covered rest →
        ∃ before, before ++ needle <+: c :: rest ∧
          o = ⟨byteLength (front ++ before), (front ++ before).getLast?⟩ := by
      intro covered found
      obtain ⟨before, occurs, rfl⟩ := ih _ found
      refine ⟨c :: before, (List.prefix_cons_inj c).mpr occurs, ?_⟩
      rw [List.append_assoc, List.singleton_append]
    cases covered with
    | succ covered => exact later (occurrencesBehind_covered ▸ found)
    | zero =>
      by_cases occurs : needle <+: c :: rest
      · rw [occurrencesBehind_found occurs, List.mem_cons] at found
        rcases found with rfl | found
        · exact ⟨[], occurs, by rw [List.append_nil]⟩
        · exact later found
      · exact later (occurrencesBehind_missed occurs ▸ found)

/-- The scan finds occurrences in their order. -/
theorem pairwise_behind (front : List Char) : (occurrencesBehind needle front covered cs).Pairwise
    fun first second => first.position < second.position := by
  induction cs generalizing front covered with
  | nil => exact .nil
  | cons c rest ih =>
    cases covered with
    | succ covered => exact occurrencesBehind_covered ▸ ih _
    | zero =>
      by_cases occurs : needle <+: c :: rest
      · rw [occurrencesBehind_found occurs, List.pairwise_cons]
        refine ⟨fun later found => ?_, ih _⟩
        -- The others lie behind the first character at least.
        obtain ⟨before, _, rfl⟩ := occurs_of_mem_behind _ found
        have space := c.utf8Size_pos
        simp only [byteLength_append, byteLength_cons]
        omega
      · exact occurrencesBehind_missed occurs ▸ ih _

/-- The scan finds the first occurrence first. -/
theorem head?_behind (front : List Char) (present : needle ≠ []) (occurs : before ++ needle <+: cs)
    (first : ∀ other, other ++ needle <+: cs → byteLength before ≤ byteLength other) :
    (occurrencesBehind needle front 0 cs).head? =
      some ⟨byteLength (front ++ before), (front ++ before).getLast?⟩ := by
  -- By induction on the scanned text. Either the needle occurs here, and then nothing can come
  -- before the first occurrence, or the least occurrence lies in the rest.
  induction cs generalizing front before with
  | nil =>
    have nothing := List.append_eq_nil_iff.mp (List.prefix_nil.mp occurs)
    exact absurd nothing.2 present
  | cons c rest ih =>
    by_cases here : needle <+: c :: rest
    · have nothing : before = [] :=
        byteLength_eq_zero_iff.mp (Nat.le_zero.mp (first [] here))
      rw [occurrencesBehind_found here, nothing, List.append_nil, List.head?_cons]
    · -- The rest is scanned with its first character in front, where nothing occurs.
      cases before with
      | nil => exact absurd occurs here
      | cons d before =>
        rw [List.cons_append, List.cons_prefix_cons] at occurs
        obtain ⟨rfl, occurs⟩ := occurs
        rw [occurrencesBehind_missed here, ih _ occurs, List.append_assoc, List.singleton_append]
        intro other occurs'
        have least := first (d :: other) ((List.prefix_cons_inj d).mpr occurs')
        exact Nat.le_of_add_le_add_left least

end Scan

/-- What the scan finds are occurrences. -/
theorem occurs_of_mem (found : o ∈ occurrences needle cs) :
    ∃ before, before ++ needle <+: cs ∧ o = ⟨byteLength before, before.getLast?⟩ :=
  -- The scan starts with an empty front.
  occurs_of_mem_behind [] found

/-- The scan finds occurrences in their order. -/
theorem pairwise_occurrences (needle cs : List Char) : (occurrences needle cs).Pairwise
    fun first second => first.position < second.position :=
  -- The scan starts with an empty front.
  pairwise_behind []

/-- The scan finds the first occurrence first. -/
theorem head?_occurrences (present : needle ≠ []) (occurs : before ++ needle <+: cs)
    (first : ∀ other, other ++ needle <+: cs → byteLength before ≤ byteLength other) :
    (occurrences needle cs).head? = some ⟨byteLength before, before.getLast?⟩ :=
  -- The scan starts with an empty front, so the positions are those of the text itself.
  head?_behind [] present occurs first

end QuickEntry.Text
