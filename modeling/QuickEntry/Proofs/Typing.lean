import QuickEntry.Proofs.Matching
import QuickEntry.Proofs.Text.LowerCase
import QuickEntry.Proofs.Tier

/-! An option whose display text is being typed stays in the list, with nothing but literals and
other texts that begin like it before it, as long as no capital sigma is cut off from its word. -/

namespace QuickEntry

open Text (isBlank lower CutsSigma)

variable {options : List BlockOption} {o : BlockOption} {query : String} {limit : Nat}

/-- No tiers but the first two are before the second or the same. -/
theorem Tier.level_le_start_iff {t : Tier} :
    t.level ≤ Tier.start.level ↔ t = .exact ∨ t = .start := by
  -- The tiers are numbered from the best, and these are the first two.
  cases t <;> decide

/-- A query that is not blank looks for something that can be seen. -/
theorem exists_visible_wanted (present : ∃ c ∈ query.toList, isBlank c = false) :
    ∃ c ∈ wanted query, isBlank c = false := by
  -- Neither trimming nor lower case takes away what is no white space.
  obtain ⟨c, member, visible⟩ := present
  exact Text.exists_visible_lower ⟨c, Text.mem_trim member visible, visible⟩

namespace BlockOption

/-- The display text of an option is the query or starts with it. -/
def Continues (o : BlockOption) (query : String) : Prop :=
  ∃ r ∈ Ranking.rank? (lower o.displayText.toList) (wanted query), r.tier = .exact ∨ r.tier = .start

/-- The first two tiers are those of the texts that start with the query, in lower case. -/
theorem continues_iff (present : ∃ c ∈ query.toList, isBlank c = false) :
    o.Continues query ↔ wanted query <+: lower o.displayText.toList := by
  -- A text that starts with the query has a rank of the second tier, and so none behind it.
  have best := Ranking.rank?_isBest (exists_visible_wanted present) (lower o.displayText.toList)
  constructor
  · rintro ⟨r, ranked, early⟩
    rw [Option.mem_def.mp ranked] at best
    obtain ⟨qualifies, _⟩ := best.1
    cases qualifies with
    | exact same => exact same ▸ List.prefix_rfl
    | start begins => exact begins
    | wordStart | tokens | inside => simp at early
  · intro begins
    have start : Ranking.Scanned (lower o.displayText.toList) (wanted query) ⟨.start, 0⟩ :=
      Ranking.Qualifies.scanned (.start begins) (by decide)
    obtain ⟨r, ranked, _, before⟩ := best.exists_le start
    have early := (Rank.le_iff.mp before).elim le_of_lt fun tied => le_of_eq tied.1
    exact ⟨r, ranked, Tier.level_le_start_iff.mp early⟩

/-- An option that is ranked no later than one that begins like the query begins like it as well. -/
theorem Continues.of_rank_le {p : BlockOption} {k l : ℕ ×ₗ ℕ} (continues : o.Continues query)
    (rank : rankOf? query p = some k) (rank' : rankOf? query o = some l) (before : k ≤ l) :
    p.Continues query := by
  -- Ranks compare their tiers first, so a better rank is in a tier as good.
  obtain ⟨r', ranked', early⟩ := continues
  obtain ⟨r, ranked, rfl⟩ := Option.map_eq_some_iff.mp rank
  rw [rankOf?, Option.mem_def.mp ranked', Option.map_some, Option.some.injEq] at rank'
  subst rank'
  have before' := (Prod.Lex.toLex_le_toLex.mp before).elim le_of_lt fun tied => le_of_eq tied.1
  rw [← Tier.level_le_start_iff] at early
  exact ⟨r, ranked, Tier.level_le_start_iff.mp (before'.trans early)⟩

end BlockOption

/-- An option is in the list of answers, and those before it are a literal or begin like the
query. -/
def Listed (options : List BlockOption) (o : BlockOption) (query : String) (limit : Nat) : Prop :=
  o ∈ matchingOptions options query limit ∧
    ∀ before after, matchingOptions options query limit = before ++ o :: after →
      ∀ p ∈ before, spelledLiteral? options query = some p ∨ p.Continues query

section Room

variable (distinct : (options.map (·.displayText)).Nodup)
  (present : ∃ c ∈ query.toList, isBlank c = false) (room : options.length < limit)
include distinct present room

/-- With more room than there are options, nothing is cut. -/
theorem matchingOptions_of_room : matchingOptions options query limit =
    (spelledLiteral? options query).toList ++ foundOptions options query := by
  rw [matchingOptions_eq distinct (Text.trim_ne_nil_iff.mpr present), List.take_of_length_le]
  have answers := answers_foundOptions (distinct.of_map _) query
  have inside : foundOptions options query ⊆ options := fun _ => mem_of_mem_foundOptions
  -- At most every option is found, and one literal.
  have fewer := (List.subperm_of_subset answers.nodup inside).length_le
  have single := Option.length_toList_le (o := spelledLiteral? options query)
  rw [List.length_append]
  omega

/-- An option that begins like the query is listed, and before it only a literal and options that do
so as well. -/
theorem listed_of_continues (offered : o ∈ options) (continues : o.Continues query) :
    Listed options o query limit := by
  -- All that is listed before the option is the literal or ranks no worse, and what ranks no worse
  -- continues the query too.
  have ⟨r, ranked, _⟩ := continues
  have key : rankOf? query o = some (toLex (r.tier.level, r.position)) := by
    rw [rankOf?, Option.mem_def.mp ranked, Option.map_some]
  have answers := answers_foundOptions (distinct.of_map _) query
  rw [Answers, if_pos ⟨o, offered, by rw [key, Option.isSome_some]⟩] at answers
  have found : o ∈ foundOptions options query :=
    (answers.mem_iff o).mpr ⟨offered, by rw [key, Option.isSome_some]⟩
  rw [Listed, matchingOptions_of_room distinct present room]
  refine ⟨List.mem_append_right _ found, fun before after split p among => ?_⟩
  -- Those that are found before the option are ranked no later.
  have close : ∀ before', foundOptions options query = before' ++ o :: after → p ∈ before' →
      p.Continues query := by
    intro before' split' among'
    have ordered := answers.ordered
    rw [split'] at ordered
    obtain ⟨k, rank, l, rank', less⟩ :=
      (List.pairwise_append.mp ordered).2.2 p among' o List.mem_cons_self
    have less' := (Prod.Lex.toLex_lt_toLex.mp less).elim le_of_lt fun tied => le_of_eq tied.1
    exact continues.of_rank_le rank rank' less'
  cases literal : spelledLiteral? options query with
  | none =>
    rw [literal, Option.toList_none, List.nil_append] at split
    exact .inr (close before split among)
  | some l =>
    rw [literal, Option.toList_some, List.singleton_append] at split
    cases before with
    | nil => cases among
    | cons b before' =>
      obtain ⟨rfl, split'⟩ := List.cons.inj split
      rcases List.mem_cons.mp among with rfl | among'
      · exact .inl rfl
      · exact .inr (close before' split' among')

end Room

section Mark

/-- A mark takes one byte and belongs to no word. -/
def IsMark (c : Char) : Prop := c = '-' ∨ c = '!'

variable {mark : Char} {row needle cs : List Char} {r : Rank}

/-- Some mark is not the first character of a text. -/
theorem exists_mark (needle : List Char) : ∃ mark, IsMark mark ∧ needle.head? ≠ some mark := by
  -- Two marks are at hand, and the needle starts with one of them at most.
  by_cases hyphen : needle.head? = some '-'
  · exact ⟨'!', .inr rfl, by rw [hyphen]; decide⟩
  · exact ⟨'-', .inl rfl, hyphen⟩

/-- A mark before a text is left as it is in lower case, and so is the rest. -/
theorem lower_cons_of_mark (isMark : IsMark mark) : lower (mark :: cs) = mark :: lower cs := by
  -- Neither mark has a case or is passed over when one is looked for.
  rcases isMark with rfl | rfl
  · exact Text.lower_cons_of_uncased (by decide +kernel) (by decide +kernel)
  · exact Text.lower_cons_of_uncased (by decide +kernel) (by decide +kernel)

/-- A text that starts with a mark does not start with another that does not. -/
theorem not_prefix_of_head (present : needle ≠ []) (apart : needle.head? ≠ some mark) :
    ¬needle <+: mark :: row := by
  -- The first characters differ.
  intro begins
  cases needle with
  | nil => exact present rfl
  | cons c needle => exact apart (congrArg some (List.cons_prefix_cons.mp begins).1)

/-- Behind a mark a query starts a later word, where the scan comes if the query starts nowhere
before. -/
theorem scanned_behind_mark (isMark : IsMark mark) (present : needle ≠ [])
    (begins : needle <+: row) (apart : needle.head? ≠ some mark) :
    Ranking.Scanned (mark :: row) needle ⟨.wordStart, 1⟩ := by
  have occurs : [mark] ++ needle <+: mark :: row := (List.prefix_cons_inj mark).mpr begins
  have size : Text.byteLength [mark] = 1 := by rcases isMark with rfl | rfl <;> rfl
  have outside : Ranking.isWordChar mark = false := by
    rcases isMark with rfl | rfl <;> decide +kernel
  refine ⟨.wordStart ⟨[], mark, occurs, outside, size⟩, fun _ => ?_⟩
  have first := Text.head?_occurrences present occurs fun other occurs' => by
    -- Only in front of everything it would come before.
    rw [size, Nat.one_le_iff_ne_zero, ne_eq, Text.byteLength_eq_zero_iff]
    rintro rfl
    exact not_prefix_of_head present apart occurs'
  exact List.mem_map.mpr ⟨_, List.mem_of_head? first, size⟩

/-- An option whose display text has a mark before the query is ranked there or better. -/
theorem exists_rank_of_mark {p : BlockOption} (isMark : IsMark mark)
    (present : ∃ c ∈ query.toList, isBlank c = false)
    (marked : lower p.displayText.toList = mark :: row) (begins : wanted query <+: row)
    (apart : (wanted query).head? ≠ some mark) :
    ∃ k, rankOf? query p = some k ∧ k ≤ toLex (Tier.wordStart.level, 1) := by
  -- The rank of the text is not behind the one that the scan finds there.
  have visible := exists_visible_wanted present
  have scanned := scanned_behind_mark isMark (Ranking.ne_nil_of_visible visible) begins apart
  rw [← marked] at scanned
  obtain ⟨r, ranked, _, before⟩ := (Ranking.rank?_isBest visible _).exists_le scanned
  exact ⟨_, Option.mem_map_of_mem _ ranked, Rank.le_iff_toLex.mp before⟩

/-- A rank of a text that does not start with the query is no better than behind a mark. -/
theorem mark_le (elsewhere : ¬needle <+: row) (qualifies : Ranking.Qualifies row needle r) :
    Rank.le ⟨.wordStart, 1⟩ r = true := by
  -- Without the row itself starting with the needle, the best that is left is a word start, and it
  -- has something before it.
  cases qualifies with
  | exact same => exact absurd (same ▸ List.prefix_rfl) elsewhere
  | start begins => exact absurd begins elsewhere
  | wordStart later =>
    obtain ⟨before, c, _, _, rfl⟩ := later
    have space := c.utf8Size_pos
    have behind : 1 ≤ Text.byteLength (before ++ [c]) := by
      rw [Text.byteLength_append, Text.byteLength_cons]
      omega
    exact Rank.le_iff.mpr (.inr ⟨rfl, behind⟩)
  | tokens | inside => simp [Rank.le_iff, Tier.level]

/-- An option that does not begin like the query is ranked there or worse. -/
theorem mark_le_rank {k : ℕ ×ₗ ℕ} (present : ∃ c ∈ query.toList, isBlank c = false)
    (elsewhere : ¬o.Continues query) (rank : rankOf? query o = some k) :
    toLex (Tier.wordStart.level, 1) ≤ k := by
  -- What does not continue the query ranks no better than a word start behind a mark.
  obtain ⟨r, ranked, rfl⟩ := Option.map_eq_some_iff.mp rank
  have best := Ranking.rank?_isBest (exists_visible_wanted present) (lower o.displayText.toList)
  rw [ranked] at best
  rw [BlockOption.continues_iff present] at elsewhere
  exact Rank.le_iff_toLex.mp (mark_le elsewhere best.1.1)

/-- An option that does not begin like the query is not listed before one that has a mark and then
the query. -/
theorem not_listed_behind_mark {rival : BlockOption}
    (distinct : ([rival, o].map (·.displayText)).Nodup)
    (present : ∃ c ∈ query.toList, isBlank c = false) (elsewhere : ¬o.Continues query)
    (isMark : IsMark mark) (apart : (wanted query).head? ≠ some mark)
    (marked : lower rival.displayText.toList = mark :: row) (begins : wanted query <+: row) :
    ¬Listed [rival, o] o query 3 := by
  rintro ⟨listed, early⟩
  obtain ⟨k, rank, ahead⟩ := exists_rank_of_mark isMark present marked begins apart
  have member : rival ∈ [rival, o] := List.mem_cons_self
  have answers := answers_foundOptions (distinct.of_map _) query
  rw [Answers, if_pos ⟨rival, member, by rw [rank, Option.isSome_some]⟩] at answers
  rw [matchingOptions_of_room distinct present (Nat.lt_succ_self 2)] at listed early
  -- The literal is neither of the two.
  have absent : ∀ p ∈ [rival, o], spelledLiteral? [rival, o] query ≠ some p :=
    fun p inside spells => (spelledLiteral?_eq_some spells).2.1 p inside rfl
  have found : o ∈ foundOptions [rival, o] query :=
    (List.mem_append.mp listed).resolve_left fun literal =>
      absent o (by simp) (Option.mem_toList.mp literal)
  obtain ⟨before, after, split⟩ := List.append_of_mem found
  -- The rival is found as well, so it stands before the option or behind it.
  have found' := (answers.mem_iff rival).mpr ⟨member, by rw [rank, Option.isSome_some]⟩
  have ordered := answers.ordered
  rw [split, List.mem_append, List.mem_cons] at found'
  rw [split] at ordered early
  rcases found' with among | rfl | behind
  · rw [← List.append_assoc] at early
    rcases early _ after rfl rival (List.mem_append_right _ among) with literal | continues
    · exact absent rival member literal
    · rw [BlockOption.continues_iff present, marked] at continues
      exact not_prefix_of_head (Ranking.ne_nil_of_visible (exists_visible_wanted present)) apart
        continues
  · simp at distinct
  · -- The option would be ranked better, or the same and stand first in the list.
    obtain ⟨l, rank', k', same, less⟩ :=
      (List.pairwise_cons.mp (List.pairwise_append.mp ordered).2.1).1 rival behind
    cases Option.mem_unique same rank
    have order := ahead.trans (mark_le_rank present elsewhere rank')
    rw [List.idxOf_cons_self, Prod.Lex.toLex_lt_toLex] at less
    rcases less with less | ⟨_, impossible⟩
    · exact absurd less order.not_gt
    · exact absurd impossible (Nat.not_lt_zero _)

end Mark

/-- Beside an option that does not begin like the query, although its display text does, another one
may be listed before it or in its place. -/
theorem exists_rival {typed rest : String} (text : o.displayText = typed ++ rest)
    (first : ∀ c ∈ typed.toList.head?, isBlank c = false)
    (present : ∃ c ∈ typed.toList, isBlank c = false) (elsewhere : ¬o.Continues typed) :
    ∃ rival : BlockOption, ([rival, o].map (·.displayText)).Nodup ∧
      ¬Listed [rival, o] o typed 3 := by
  -- The rival is the query behind a mark that the query does not start with: its rank is the word
  -- start right after the mark.
  obtain ⟨mark, isMark, apart⟩ := exists_mark (wanted typed)
  let rival : BlockOption := ⟨"text", String.ofList (mark :: typed.toList), none, none⟩
  have marked : lower rival.displayText.toList = mark :: lower typed.toList := by
    rw [String.toList_ofList, lower_cons_of_mark isMark]
  have begins : wanted typed <+: lower typed.toList := by
    have uncut : ¬CutsSigma [] typed.toList [] := fun ⟨_, _, _, _, _, goesOn⟩ => nomatch goesOn
    have kept := (Text.lower_trim_prefix_iff first).mpr uncut
    rwa [List.append_nil] at kept
  have distinct : ([rival, o].map (·.displayText)).Nodup := by
    suffices apart' : rival.displayText ≠ o.displayText by simpa using apart'
    intro same
    -- The text would start with the mark itself, and so would the query.
    rw [text, ← String.toList_inj, String.toList_ofList, String.toList_append] at same
    obtain ⟨blanks, split, _⟩ := Text.exists_blanks first
    cases trimmed : Text.trim typed.toList with
    | nil => exact Text.trim_ne_nil_iff.mpr present trimmed
    | cons c cs =>
      rw [trimmed] at split
      rw [← split] at same
      obtain ⟨rfl, _⟩ := List.cons.inj same
      rw [wanted, trimmed, lower_cons_of_mark isMark] at apart
      exact apart rfl
  exact ⟨rival, distinct,
    not_listed_behind_mark distinct present elsewhere isMark apart marked begins⟩

/-- An option whose display text does not start with white space is listed while this text is typed,
with nothing before it but a literal and options that begin like the query, in every list of options
with distinct display texts and for every limit that leaves room for all: if and only if the start
that is typed is not cut behind a capital sigma from the rest of its word. -/
theorem listed_while_typed_iff {o : BlockOption} {typed rest : String}
    (text : o.displayText = typed ++ rest)
    (first : ∀ c ∈ o.displayText.toList.head?, isBlank c = false)
    (present : ∃ c ∈ typed.toList, isBlank c = false) :
    (∀ options : List BlockOption, (options.map (·.displayText)).Nodup → o ∈ options →
        ∀ limit, options.length < limit → Listed options o typed limit) ↔
      ¬CutsSigma [] typed.toList rest.toList := by
  -- An option that continues the query in small letters is in a tier before the rest.
  have first' : ∀ c ∈ typed.toList.head?, isBlank c = false := by
    obtain ⟨c, member, _⟩ := present
    rwa [text, String.toList_append, List.head?_append_of_ne_nil _ (List.ne_nil_of_mem member)]
      at first
  have continues : o.Continues typed ↔ ¬CutsSigma [] typed.toList rest.toList := by
    rw [BlockOption.continues_iff present, text, String.toList_append, wanted,
      Text.lower_trim_prefix_iff first']
  rw [← continues]
  constructor
  · -- Otherwise one rival in the list is enough.
    intro listed
    by_contra elsewhere
    obtain ⟨rival, distinct, unlisted⟩ := exists_rival text first' present elsewhere
    exact unlisted (listed _ distinct (by simp) 3 (Nat.lt_succ_self 2))
  · intro continues options distinct offered limit room
    exact listed_of_continues distinct present room offered continues

/-- A sigma before a blank ends its word however the text goes on, but one before a letter does
not. -/
theorem listed_while_typed_sigma :
    let street : BlockOption := ⟨"text", "ΟΔΟΣ ΑΘΗΝΑΣ", none, none⟩
    let sign : BlockOption := ⟨"text", "ΟΔΟΣΗΜΑ", none, none⟩
    ((street.displayText = "ΟΔΟΣ" ++ " ΑΘΗΝΑΣ" ∧ sign.displayText = "ΟΔΟΣ" ++ "ΗΜΑ") ∧
        (∀ c ∈ street.displayText.toList.head?, isBlank c = false) ∧
        (∀ c ∈ sign.displayText.toList.head?, isBlank c = false) ∧
        ∃ c ∈ "ΟΔΟΣ".toList, isBlank c = false) ∧
      Listed [sign, street] street "ΟΔΟΣ" 3 ∧
      ¬∀ options : List BlockOption, (options.map (·.displayText)).Nodup → sign ∈ options →
        ∀ limit, options.length < limit → Listed options sign "ΟΔΟΣ" limit := by
  -- One option goes on with a blank, where the sigma is final in both; in the other it is within a
  -- word.
  intro street sign
  have texts : street.displayText = "ΟΔΟΣ" ++ " ΑΘΗΝΑΣ" ∧ sign.displayText = "ΟΔΟΣ" ++ "ΗΜΑ" := by
    decide
  have first : ∀ c ∈ "ΟΔΟΣ ΑΘΗΝΑΣ".toList.head?, isBlank c = false := by
    intro c letter
    cases letter
    decide
  have first' : ∀ c ∈ "ΟΔΟΣΗΜΑ".toList.head?, isBlank c = false := by
    intro c letter
    cases letter
    decide
  have present : ∃ c ∈ "ΟΔΟΣ".toList, isBlank c = false := ⟨'Ο', by decide, by decide⟩
  have whole := listed_while_typed_iff texts.1 first present
  have cut := listed_while_typed_iff texts.2 first' present
  refine ⟨⟨texts, first, first', present⟩, ?_, fun all => ?_⟩
  · refine whole.mpr ?_ [sign, street] (by decide) (by simp) 3 (Nat.lt_succ_self 2)
    exact Text.lowerAfter_prefix_iff.mp (by decide +kernel)
  · exact cut.mp all ⟨"ΟΔΟ".toList, [], rfl, rfl, by decide +kernel, by decide +kernel⟩

end QuickEntry
