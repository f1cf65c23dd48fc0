import Mathlib.Data.List.Infix
import Mathlib.Data.Nat.Find
import QuickEntry.Proofs.Ranking
import QuickEntry.Proofs.Text.Occurrence

/-! The rank of a display text beside the table of tiers, of which it is the best one except where
the query overlaps itself. -/

namespace QuickEntry.Ranking

open Text (byteLength eq_of_byteLength isBlank occurrences occurs_of_mem)

variable {row query : List Char} {r : Rank} {place : Nat}

/-- The query stands at a place of the display text, behind a character that belongs to no word. -/
def StartsLaterWord (row query : List Char) (place : Nat) : Prop :=
  ∃ before c, before ++ [c] ++ query <+: row ∧ isWordChar c = false ∧
    byteLength (before ++ [c]) = place

/-- The places of a display text where the query starts a later word. -/
def laterWords (row query : List Char) : List Nat :=
  (row.inits.filter fun front => (front ++ query).isPrefixOf row &&
    front.getLast?.any fun c => !isWordChar c).map byteLength

/-- The places where a later word starts can be listed. -/
theorem mem_laterWords_iff : place ∈ laterWords row query ↔ StartsLaterWord row query place := by
  -- The list filters the beginnings of the row by the same two conditions.
  simp only [laterWords, List.mem_map, List.mem_filter, List.mem_inits, Bool.and_eq_true,
    List.isPrefixOf_iff_prefix]
  constructor
  · rintro ⟨front, ⟨_, occurs, apart⟩, same⟩
    obtain ⟨c, last, apart⟩ := (Option.any_eq_true _ _).mp apart
    obtain ⟨before, rfl⟩ := List.getLast?_eq_some_iff.mp last
    exact ⟨before, c, occurs, by simpa using apart, same⟩
  · rintro ⟨before, c, occurs, apart, same⟩
    exact ⟨before ++ [c], ⟨(List.prefix_append _ _).trans occurs, occurs, by simp [apart]⟩, same⟩

instance : Decidable (StartsLaterWord row query place) :=
  decidable_of_iff _ mem_laterWords_iff

/-- A place where the scan for the query comes, which goes on behind each occurrence it finds. -/
def Reached (row query : List Char) (place : Nat) : Prop :=
  place ∈ (occurrences query row).map (·.position)

instance : Decidable (Reached row query place) :=
  inferInstanceAs (Decidable (_ ∈ _))

/-- The table of tiers: the ranks that a display text may be given for a query. -/
inductive Qualifies (row query : List Char) : Rank → Prop
  | exact : row = query → Qualifies row query ⟨.exact, 0⟩
  | start : query <+: row → Qualifies row query ⟨.start, 0⟩
  | wordStart {place : Nat} : StartsLaterWord row query place →
      Qualifies row query ⟨.wordStart, place⟩
  | tokens : (∀ token ∈ queryWords query, ∃ word ∈ rowWords row, token <+: word) →
      Qualifies row query ⟨.tokens, 0⟩
  | inside {before : List Char} : before ++ query <+: row →
      Qualifies row query ⟨.inside, byteLength before⟩

/-- A rank is the best one of some ranks, and there is none if there are none. -/
def IsBest (ranks : Rank → Prop) : Option Rank → Prop
  | some r => ranks r ∧ ∀ other, ranks other → r.le other = true
  | none => ∀ other, ¬ranks other

section Best

variable {ranks more : Rank → Prop} {best : Option Rank}

/-- Where there is a rank, there is a best one, which is not behind it. -/
theorem IsBest.exists_le (isBest : IsBest ranks best) (among : ranks r) :
    ∃ b ∈ best, ranks b ∧ b.le r = true := by
  -- Something ranks, so there is a best one.
  cases best with
  | none => exact absurd among (isBest r)
  | some b => exact ⟨b, rfl, isBest.1, isBest.2 r among⟩

/-- The best of some ranks is the best of more, if each of these is behind one of them. -/
theorem IsBest.widen (isBest : IsBest ranks best) (inside : ∀ r, ranks r → more r)
    (covered : ∀ other, more other → ∃ r, ranks r ∧ r.le other = true) : IsBest more best := by
  -- What is added is behind something that was there before.
  cases best with
  | none =>
    intro other among
    obtain ⟨r, among', _⟩ := covered other among
    exact isBest r among'
  | some b =>
    refine ⟨inside b isBest.1, fun other among => ?_⟩
    obtain ⟨r, among', before⟩ := covered other among
    exact Rank.le_trans (isBest.2 r among') before

end Best

/-- The ranks of the table that the scan finds: later words count only where it comes. -/
def Scanned (row query : List Char) (r : Rank) : Prop :=
  Qualifies row query r ∧ (r.tier = .wordStart → Reached row query r.position)

/-- The scan finds every rank of another tier. -/
theorem Qualifies.scanned (qualifies : Qualifies row query r) (other : r.tier ≠ .wordStart) :
    Scanned row query r :=
  -- Only a word start has a further condition.
  ⟨qualifies, fun wordStart => absurd wordStart other⟩

/-- An occurrence that the scan finds starts a later word if the character before it belongs to no
word. -/
theorem startsLaterWord_iff {o : Text.Occurrence} (found : o ∈ occurrences query row) :
    StartsLaterWord row query o.position ↔ (o.before.any fun c => !isWordChar c) = true := by
  -- The place tells the text before it, and so the character that precedes the occurrence.
  obtain ⟨before, occurs, rfl⟩ := occurs_of_mem found
  constructor
  · rintro ⟨front, c, occurs', apart, same⟩
    have whole := eq_of_byteLength ((List.prefix_append _ _).trans occurs')
      ((List.prefix_append _ _).trans occurs) same
    simp [← whole, apart]
  · intro apart
    obtain ⟨c, last, apart⟩ := (Option.any_eq_true _ _).mp apart
    obtain ⟨front, rfl⟩ := List.getLast?_eq_some_iff.mp last
    exact ⟨front, c, occurs, by simpa using apart, rfl⟩

/-- The scan finds the first of the places where it comes that start a later word. -/
theorem laterWord?_eq_some (found : laterWord? row query = some place) :
    Reached row query place ∧ StartsLaterWord row query place ∧
      ∀ other, Reached row query other → StartsLaterWord row query other → place ≤ other := by
  obtain ⟨o, first, rfl⟩ := Option.map_eq_some_iff.mp found
  obtain ⟨apart, before, behind, split, none⟩ := List.find?_eq_some_iff_append.mp first
  have member : o ∈ occurrences query row := List.mem_of_find?_eq_some first
  refine ⟨List.mem_map_of_mem member, (startsLaterWord_iff member).mpr apart, ?_⟩
  intro other reached later
  obtain ⟨o', member', rfl⟩ := List.mem_map.mp reached
  have sorted := Text.pairwise_occurrences query row
  have later' := (startsLaterWord_iff member').mp later
  rw [split] at sorted member'
  -- The scan finds places in their order, and those before the first one start no later word.
  rcases List.mem_append.mp member' with early | late
  · have apart' := none o' early
    rw [later'] at apart'
    cases apart'
  · rcases List.mem_cons.mp late with rfl | late
    · exact Nat.le_refl _
    · exact Nat.le_of_lt ((List.pairwise_cons.mp (List.pairwise_append.mp sorted).2.1).1 o' late)

/-- Where the scan finds no later word, none of the places where it comes starts one. -/
theorem laterWord?_eq_none (missed : laterWord? row query = none) :
    Reached row query place → ¬StartsLaterWord row query place := by
  -- The scan looks at each occurrence that it reaches.
  intro reached later
  obtain ⟨o, member, rfl⟩ := List.mem_map.mp reached
  have apart := List.find?_eq_none.mp (Option.map_eq_none_iff.mp missed) o member
  exact apart ((startsLaterWord_iff member).mp later)

/-- The words of a query start words of a display text. -/
theorem answersWords_iff : answersWords row query = true ↔
    ∀ token ∈ queryWords query, ∃ word ∈ rowWords row, token <+: word := by
  -- Both are tests over all words of the query.
  simp only [answersWords, List.all_eq_true, List.any_eq_true, List.isPrefixOf_iff_prefix]

/-- The first occurrence of a query comes before all others. -/
theorem exists_first_occurrence {before : List Char} (occurs : before ++ query <+: row) :
    ∃ first, first ++ query <+: row ∧
      ∀ other, other ++ query <+: row → byteLength first ≤ byteLength other := by
  -- Places are numbers, so one of them is the least.
  classical
  have places : ∃ place before, before ++ query <+: row ∧ byteLength before = place :=
    ⟨_, before, occurs, rfl⟩
  obtain ⟨first, occurs, same⟩ := Nat.find_spec places
  exact ⟨first, occurs, fun other occurs' => same ▸ Nat.find_min' places ⟨other, occurs', rfl⟩⟩

/-- The first place where a query starts a later word comes before all others. -/
theorem exists_first_later (later : StartsLaterWord row query place) :
    ∃ first, StartsLaterWord row query first ∧
      ∀ other, StartsLaterWord row query other → first ≤ other := by
  -- Places are numbers, so one of them is the least.
  classical
  exact ⟨_, Nat.find_spec ⟨place, later⟩, fun other => Nat.find_min' ⟨place, later⟩⟩

/-- The scan finds the first occurrence of a query first, and it finds something if there is any. -/
theorem head?_occurrences_of_occurs {before : List Char} (present : query ≠ [])
    (occurs : before ++ query <+: row) :
    ∃ o ∈ (occurrences query row).head?, ∀ other, other ++ query <+: row →
      o.position ≤ byteLength other := by
  -- The scan meets the first occurrence before any other.
  obtain ⟨first, occurs, least⟩ := exists_first_occurrence occurs
  exact ⟨_, Text.head?_occurrences present occurs least, least⟩

section Table

variable (present : ∃ c ∈ query, isBlank c = false)
include present

/-- A query that is not blank is not empty. -/
theorem ne_nil_of_visible : query ≠ [] := by
  -- The empty query has no visible character.
  rintro rfl
  simp at present

/-- A query that is not blank has words. -/
theorem isEmpty_queryWords : (queryWords query).isEmpty = false := by
  -- A visible character belongs to some word.
  obtain ⟨c, member, visible⟩ := present
  exact List.isEmpty_eq_false_iff.mpr (Text.pieces_ne_nil member visible)

/-- The rank is the best of those that the scan finds. -/
theorem rank?_isBest (row : List Char) : IsBest (Scanned row query) (rank? row query) := by
  -- The rules are tried in the order of the tiers, so that those before have failed.
  rw [rank?]
  split
  case isTrue same =>
    exact ⟨Qualifies.scanned (.exact same) (by decide), fun other _ => exact_le other⟩
  case isFalse different =>
  split
  case isTrue begins =>
    rw [List.isPrefixOf_iff_prefix] at begins
    refine ⟨Qualifies.scanned (.start begins) (by decide), ?_⟩
    rintro other ⟨qualifies, _⟩
    cases qualifies with
    | exact same => exact absurd same different
    | start | wordStart | tokens | inside => simp [Rank.le_iff, Tier.level]
  case isFalse elsewhere =>
  rw [List.isPrefixOf_iff_prefix] at elsewhere
  split
  case h_1 place found =>
    obtain ⟨reached, later, first⟩ := laterWord?_eq_some found
    refine ⟨⟨.wordStart later, fun _ => reached⟩, ?_⟩
    rintro other ⟨qualifies, reached'⟩
    cases qualifies with
    | exact same => exact absurd same different
    | start begins => exact absurd begins elsewhere
    | wordStart later' => simpa [Rank.le_iff, Tier.level] using first _ (reached' rfl) later'
    | tokens | inside => simp [Rank.le_iff, Tier.level]
  case h_2 missed =>
  split
  case isTrue answers =>
    rw [Bool.and_eq_true, answersWords_iff] at answers
    have answers := answers.2
    refine ⟨Qualifies.scanned (.tokens answers) (by decide), ?_⟩
    rintro other ⟨qualifies, reached⟩
    cases qualifies with
    | exact same => exact absurd same different
    | start begins => exact absurd begins elsewhere
    | wordStart later => exact absurd later (laterWord?_eq_none missed (reached rfl))
    | tokens | inside => simp [Rank.le_iff, Tier.level]
  case isFalse fails =>
  -- Only an occurrence is left.
  have inside : ∀ other, Scanned row query other →
      ∃ before, before ++ query <+: row ∧ other = ⟨.inside, byteLength before⟩ := by
    rintro other ⟨qualifies, reached⟩
    cases qualifies with
    | exact same => exact absurd same different
    | start begins => exact absurd begins elsewhere
    | wordStart later => exact absurd later (laterWord?_eq_none missed (reached rfl))
    | tokens answers =>
      rw [isEmpty_queryWords present, answersWords_iff.mpr answers] at fails
      exact absurd rfl fails
    | inside occurs => exact ⟨_, occurs, rfl⟩
  cases found : (occurrences query row).head? with
  | none =>
    intro other scanned
    obtain ⟨before, occurs, rfl⟩ := inside other scanned
    obtain ⟨o, front, _⟩ := head?_occurrences_of_occurs (ne_nil_of_visible present) occurs
    rw [found] at front
    cases front
  | some o =>
    obtain ⟨before, occurs, rfl⟩ := Text.occurs_of_mem (List.mem_of_head? found)
    refine ⟨Qualifies.scanned (.inside occurs) (by simp), fun other scanned => ?_⟩
    obtain ⟨before', occurs', rfl⟩ := inside other scanned
    obtain ⟨first, front, least⟩ :=
      head?_occurrences_of_occurs (ne_nil_of_visible present) occurs'
    cases Option.mem_unique front found
    simpa [Rank.le_iff, Tier.level] using least _ occurs'

/-- The rank is the best one of the table exactly if the display text starts with the query or the
scan comes to the first place where the query starts a later word. -/
theorem isBest_qualifies_iff : IsBest (Qualifies row query) (rank? row query) ↔
    query <+: row ∨ ∀ place, StartsLaterWord row query place →
      (∀ other, StartsLaterWord row query other → place ≤ other) → Reached row query place := by
  have best := rank?_isBest present row
  constructor
  · intro best'
    rw [Classical.or_iff_not_imp_left]
    intro elsewhere place later first
    obtain ⟨r, ranked, _, before⟩ := best'.exists_le (.wordStart later)
    -- The rank is one that the scan finds, too.
    rw [Option.mem_def.mp ranked] at best
    obtain ⟨qualifies, reached⟩ := best.1
    rw [Rank.le_iff] at before
    cases qualifies with
    | exact same => exact absurd (same ▸ List.prefix_rfl) elsewhere
    | start begins => exact absurd begins elsewhere
    | wordStart later' =>
      -- The ranked place and the first one are the same.
      have same := Nat.le_antisymm (first _ later') (by simpa [Tier.level] using before)
      exact same ▸ reached rfl
    | tokens | inside => simp [Tier.level] at before
  · intro reaches
    -- Of the ranks that the scan misses, one that it finds is as good.
    refine best.widen (fun _ scanned => scanned.1) fun other qualifies => ?_
    by_cases later : other.tier = .wordStart
    · cases qualifies <;> cases later
      rename_i place later
      rcases reaches with begins | reaches
      · exact ⟨_, Qualifies.scanned (.start begins) (by decide), by simp [Rank.le_iff, Tier.level]⟩
      · obtain ⟨first, later', least⟩ := exists_first_later later
        exact ⟨_, ⟨.wordStart later', fun _ => reaches first later' least⟩,
          by simpa [Rank.le_iff, Tier.level] using least _ later⟩
    · exact ⟨other, qualifies.scanned later, Rank.le_iff.mpr (.inr ⟨rfl, Nat.le_refl _⟩)⟩

end Table

/-- For a query that is not blank, the rank of a display text is the best one of the table of tiers,
later words counted only where the scan for the query comes, which goes on behind each occurrence
that it finds. So it is the best one of the whole table if and only if the display text starts with
the query or the scan comes to the first place where the query starts a later word. -/
theorem ranks_by_table (row : List Char) {query : List Char}
    (present : ∃ c ∈ query, isBlank c = false) :
    IsBest (Scanned row query) (rank? row query) ∧
      (IsBest (Qualifies row query) (rank? row query) ↔ query <+: row ∨
        ∀ place, StartsLaterWord row query place →
          (∀ other, StartsLaterWord row query other → place ≤ other) →
            Reached row query place) :=
  -- The first half holds of what the scan reaches; the second says when that is all there is.
  ⟨rank?_isBest present row, isBest_qualifies_iff present⟩

/-- The scan finds the query where it starts a later word, but not where it overlaps an occurrence
inside a word. -/
theorem ranks_by_table_overlap :
    let query := "so so".toList
    (∃ c ∈ query, isBlank c = false) ∧
      (rank? "so-so, so so".toList query = some ⟨.wordStart, 7⟩ ∧
        IsBest (Qualifies "so-so, so so".toList query) (some ⟨.wordStart, 7⟩)) ∧
      (rank? "also so so".toList query = some ⟨.tokens, 0⟩ ∧
        ¬IsBest (Qualifies "also so so".toList query) (some ⟨.tokens, 0⟩)) := by
  -- In the first row the later word starts after a separate occurrence, in the second the scan
  -- passes over it.
  intro query
  have present : ∃ c ∈ query, isBlank c = false := ⟨'s', by decide, by decide⟩
  have plain := (ranks_by_table "so-so, so so".toList present).2
  have overlapping := (ranks_by_table "also so so".toList present).2
  have found : rank? "so-so, so so".toList query = some ⟨.wordStart, 7⟩ := by decide +kernel
  have passed : rank? "also so so".toList query = some ⟨.tokens, 0⟩ := by decide +kernel
  rw [found] at plain
  rw [passed] at overlapping
  refine ⟨present, ⟨found, plain.mpr (.inr fun place later _ => ?_)⟩, passed, fun best => ?_⟩
  · have listed := mem_laterWords_iff.mpr later
    have only : laterWords "so-so, so so".toList query = [7] := by decide +kernel
    rw [only, List.mem_singleton] at listed
    subst listed
    decide +kernel
  · rcases overlapping.mp best with begins | reaches
    · exact absurd begins (by decide +kernel)
    · have only : laterWords "also so so".toList query = [5] := by decide +kernel
      have first : ∀ other, StartsLaterWord "also so so".toList query other → 5 ≤ other := by
        intro other later
        rw [← mem_laterWords_iff, only, List.mem_singleton] at later
        exact Nat.le_of_eq later.symm
      exact absurd (reaches 5 (by decide +kernel) first) (by decide +kernel)

end QuickEntry.Ranking
