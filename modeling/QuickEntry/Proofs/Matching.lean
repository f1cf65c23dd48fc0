import Mathlib.Data.Prod.Lex
import QuickEntry.Proofs.Ranking

/-! What a query finds: the literal that it spells, and behind it exactly the options that answer
it, in the order of their ranks and of the list, cut at the limit. -/

namespace QuickEntry

/-- Some of a list, sorted: exactly those that have a key, in the order of the keys, and of the list
where the keys are the same. -/
structure Arranges {α κ : Type} [BEq α] [LinearOrder κ] (key? : α → Option κ)
    (xs found : List α) : Prop where
  mem_iff : ∀ x, x ∈ found ↔ x ∈ xs ∧ (key? x).isSome = true
  ordered : found.Pairwise fun a b => ∃ k ∈ key? a, ∃ l ∈ key? b,
    toLex (k, xs.idxOf a) < toLex (l, xs.idxOf b)

/-- Those of a list that have a key, sorted by it. -/
def arrange {α κ : Type} (le : κ → κ → Bool) (key? : α → Option κ) (xs : List α) : List α :=
  ((xs.filterMap fun x => (key? x).map (·, x)).mergeSort fun a b => le a.1 b.1).map (·.2)

section Arrange

variable {α β κ ν : Type} {le : κ → κ → Bool} {key? : α → Option κ} {xs : List α} {x : α}

/-- A value that stands with its key has it. -/
theorem mem_keyed_iff {e : κ × α} :
    e ∈ (xs.filterMap fun x => (key? x).map (·, x)) ↔ e.2 ∈ xs ∧ key? e.2 = some e.1 := by
  -- An entry is paired with its key, if it has one.
  simp only [List.mem_filterMap, Option.map_eq_some_iff]
  constructor
  · rintro ⟨x, member, k, key, rfl⟩
    exact ⟨member, key⟩
  · rintro ⟨member, key⟩
    exact ⟨e.2, member, e.1, key, rfl⟩

/-- Exactly those with a key are left. -/
theorem mem_arrange_iff : x ∈ arrange le key? xs ↔ x ∈ xs ∧ (key? x).isSome = true := by
  -- Sorting keeps the members, and the keys are dropped again.
  simp only [arrange, List.mem_map, List.mem_mergeSort, mem_keyed_iff, Option.isSome_iff_exists]
  constructor
  · rintro ⟨e, ⟨member, key⟩, rfl⟩
    exact ⟨member, e.1, key⟩
  · rintro ⟨member, k, key⟩
    exact ⟨(k, x), ⟨member, key⟩, rfl⟩

/-- Values are arranged as those that they come from. -/
theorem arrange_map (f : β → α) (ys : List β) :
    arrange le key? (ys.map f) = (arrange le (fun y => key? (f y)) ys).map f := by
  -- The sort looks at the keys alone, which are the same before and after.
  have keyed : ((ys.map f).filterMap fun x => (key? x).map (·, x)) =
      (ys.filterMap fun y => (key? (f y)).map (·, y)).map fun e => (e.1, f e.2) := by
    rw [List.filterMap_map, List.map_filterMap]
    congr 1
    funext y
    simp [Function.comp_def]
  have sorted := List.map_mergeSort (r := fun a b : κ × β => le a.1 b.1)
    (s := fun a b : κ × α => le a.1 b.1) (f := fun e : κ × β => (e.1, f e.2))
    (l := ys.filterMap fun y => (key? (f y)).map (·, y)) fun _ _ _ _ => rfl
  rw [arrange, keyed, ← sorted, arrange, List.map_map, List.map_map]
  rfl

/-- The places of a list's values grow along the list. -/
theorem pairwise_idxOf [BEq α] [LawfulBEq α] (distinct : xs.Nodup) :
    xs.Pairwise fun a b => xs.idxOf a < xs.idxOf b := by
  -- Without repetition each entry is found first at its own place.
  rw [List.pairwise_iff_getElem]
  intro i j left right less
  rwa [distinct.idxOf_getElem, distinct.idxOf_getElem]

/-- A comparison of keys that follows an order arranges by this order. -/
theorem arranges_arrange [BEq α] [LawfulBEq α] [LinearOrder ν] (key? : α → Option κ)
    (order : κ → ν)
    (follows : ∀ a b, le a b = true ↔ order a ≤ order b) (distinct : xs.Nodup) :
    Arranges (fun x => (key? x).map order) xs (arrange le key? xs) where
  mem_iff x := by rw [mem_arrange_iff, Option.isSome_map]
  ordered := by
    -- The sort is stable, so that it is enough to know where the values stood before it.
    have early : (xs.filterMap fun x => (key? x).map (·, x)).Pairwise
        fun a b => xs.idxOf a.2 < xs.idxOf b.2 := by
      refine List.pairwise_filterMap.mpr ((pairwise_idxOf distinct).imp fun less => ?_)
      simp only [Option.map_eq_some_iff]
      rintro _ ⟨_, _, rfl⟩ _ ⟨_, _, rfl⟩
      exact less
    have transitive : ∀ a b c : κ × α, le a.1 b.1 = true → le b.1 c.1 = true →
        le a.1 c.1 = true := by
      intro a b c
      rw [follows, follows, follows]
      exact le_trans
    have total : ∀ a b : κ × α, (le a.1 b.1 || le b.1 a.1) = true := by
      intro a b
      rw [Bool.or_eq_true, follows, follows]
      exact le_total _ _
    rw [arrange, List.pairwise_map]
    refine (pairwise_stable transitive total early).imp_of_mem fun inside inside' before => ?_
    rw [List.mem_mergeSort, mem_keyed_iff] at inside inside'
    refine ⟨_, Option.mem_map_of_mem _ inside.2, _, Option.mem_map_of_mem _ inside'.2, ?_⟩
    rw [follows, follows] at before
    -- Either the key is smaller, or the keys are tied and the place in the list is.
    rw [Prod.Lex.toLex_lt_toLex]
    rcases before.1.lt_or_eq with less | same
    · exact .inl less
    · exact .inr ⟨same, before.2 same.ge⟩

/-- No value is arranged twice. -/
theorem Arranges.nodup [BEq α] [LinearOrder ν] {key? : α → Option ν} {found : List α}
    (arranged : Arranges key? xs found) : found.Nodup := by
  -- An entry that came twice would have a key less than itself.
  refine arranged.ordered.imp ?_
  rintro a _ ⟨k, key, l, key', less⟩ rfl
  cases Option.mem_unique key key'
  exact lt_irrefl _ less

end Arrange

/-- Ranks are ordered by their tiers, and by their places within a tier. -/
theorem Rank.le_iff_toLex {a b : Rank} : a.le b = true ↔
    toLex (a.tier.level, a.position) ≤ toLex (b.tier.level, b.position) := by
  -- The tier decides, and the position among equal tiers.
  rw [Rank.le_iff, Prod.Lex.toLex_le_toLex]

namespace Ranking

/-- The ranked display texts are those with a rank, arranged by it. -/
theorem ranked_eq (rows : List String) (query : List Char) : ranked rows query =
    arrange Rank.le (fun row => rank? (Text.lower row.toList) query) rows := rfl

/-- The resembling display texts are those with few enough penalties, arranged by them. -/
theorem resembling_eq (rows : List String) (query : List Char) : resembling rows query =
    arrange (fun a b => decide (a ≤ b)) (fun row => similarity? (Text.lower row.toList) query)
      rows := rfl

end Ranking

namespace Literal

/-- The option of a literal under the text that spells it. -/
def option (l : Literal) (spelled : String) : BlockOption :=
  ⟨l.kind, spelled, if l.value.isEmpty then none else some (.ofList [(l.fieldName, l.value)]), none⟩

/-- The template of a literal makes its option. -/
theorem toOption_ofLiteral (l : Literal) {spelled : String} (named : spelled ≠ "") :
    (Template.ofLiteral l).toOption spelled = .ok (l.option spelled) := by
  -- A literal has a named kind and one field, neither of which is refused.
  have text : spelled.isEmpty = false := by simpa [String.isEmpty_iff] using named
  rw [Template.toOption, text]
  cases l <;> rfl

end Literal

/-- What a query looks for: its text without white space at the ends, in lower case. -/
def wanted (query : String) : List Char := Text.lower (Text.trim query.toList)

/-- The rank of an option for a query: its tier, and its place within the tier. -/
def rankOf? (query : String) (o : BlockOption) : Option (ℕ ×ₗ ℕ) :=
  (Ranking.rank? (Text.lower o.displayText.toList) (wanted query)).map fun r =>
    toLex (r.tier.level, r.position)

/-- The penalty of an option for a query, if it is less than six for each character. -/
def scoreOf? (query : String) (o : BlockOption) : Option ℕ :=
  let score := Ranking.penalty (Text.lower o.displayText.toList) 0 10 (wanted query)
  if score < 6 * (wanted query).length then some score else none

/-- The literal that a query spells and no option does. -/
def spelledLiteral? (options : List BlockOption) (query : String) : Option BlockOption :=
  let spelled := String.ofList (Text.trim query.toList)
  if ∃ o ∈ options, o.displayText = spelled then none
  else (Literal.ofText? spelled).map (·.option spelled)

/-- The answers to a query: the ranked options in order, or the similar ones if none has a rank. -/
def Answers (options : List BlockOption) (query : String) (found : List BlockOption) : Prop :=
  if ∃ o ∈ options, (rankOf? query o).isSome = true then Arranges (rankOf? query) options found
  else Arranges (scoreOf? query) options found

section Answers

variable {options : List BlockOption} {o : BlockOption} {query : String} {limit : Nat}

/-- The options with a rank, the best first. -/
def rankedOptions (options : List BlockOption) (query : String) : List BlockOption :=
  arrange Rank.le (fun o => Ranking.rank? (Text.lower o.displayText.toList) (wanted query)) options

/-- The options with few enough penalties, the most similar first. -/
def similarOptions (options : List BlockOption) (query : String) : List BlockOption :=
  arrange (fun a b => decide (a ≤ b)) (scoreOf? query) options

/-- The options that a query finds. -/
def foundOptions (options : List BlockOption) (query : String) : List BlockOption :=
  if rankedOptions options query = [] then similarOptions options query
  else rankedOptions options query

/-- An option is ranked if it has a rank. -/
theorem mem_rankedOptions_iff :
    o ∈ rankedOptions options query ↔ o ∈ options ∧ (rankOf? query o).isSome = true := by
  -- An option has a rank exactly if its key has.
  rw [rankedOptions, mem_arrange_iff, rankOf?, Option.isSome_map]

/-- The options that a query finds answer it. -/
theorem answers_foundOptions (distinct : options.Nodup) (query : String) :
    Answers options query (foundOptions options query) := by
  have ranked : Arranges (rankOf? query) options (rankedOptions options query) :=
    arranges_arrange _ (fun r : Rank => toLex (r.tier.level, r.position))
      (fun _ _ => Rank.le_iff_toLex) distinct
  have similar : Arranges (scoreOf? query) options (similarOptions options query) := by
    have arranged := arranges_arrange (scoreOf? query) id
      (fun a b => decide_eq_true_iff) distinct
    simp only [Option.map_id_fun, id_eq] at arranged
    exact arranged
  -- Some option has a rank exactly if the list of the ranked ones is not empty.
  have some : (∃ o ∈ options, (rankOf? query o).isSome = true) ↔
      rankedOptions options query ≠ [] := by
    simp only [ne_eq, List.eq_nil_iff_forall_not_mem, mem_rankedOptions_iff, not_forall,
      not_not]
  rw [Answers, foundOptions]
  by_cases none : rankedOptions options query = []
  · rw [if_neg (mt some.mp (not_not.mpr none)), if_pos none]
    exact similar
  · rw [if_pos (some.mpr none), if_neg none]
    exact ranked

/-- What a query finds are options of the list. -/
theorem mem_of_mem_foundOptions (found : o ∈ foundOptions options query) : o ∈ options := by
  -- Both lists are arranged from the options.
  rw [foundOptions] at found
  split at found <;> exact (mem_arrange_iff.mp found).1

/-- The display texts that are ranked or similar are those of the options that a query finds. -/
theorem map_foundOptions : (foundOptions options query).map (·.displayText) =
    match Ranking.ranked (options.map (·.displayText)) (wanted query) with
    | [] => Ranking.resembling (options.map (·.displayText)) (wanted query)
    | best => best := by
  -- An option is ranked by its text alone, so arranging options and taking their texts is arranging
  -- their texts.
  have ranked : Ranking.ranked (options.map (·.displayText)) (wanted query) =
      (rankedOptions options query).map (·.displayText) := by
    rw [Ranking.ranked_eq, arrange_map]
    rfl
  have similar : Ranking.resembling (options.map (·.displayText)) (wanted query) =
      (similarOptions options query).map (·.displayText) := by
    rw [Ranking.resembling_eq, arrange_map]
    rfl
  rw [ranked, similar, foundOptions]
  cases rankedOptions options query with
  | nil => rfl
  | cons first rest => rfl

/-- The display text of the literal that a query spells is the trimmed query. -/
theorem map_spelledLiteral? : (spelledLiteral? options query).toList.map (·.displayText) =
    if (Literal.ofText? (String.ofList (Text.trim query.toList))).isSome &&
      !(options.map (·.displayText)).contains (String.ofList (Text.trim query.toList))
    then [String.ofList (Text.trim query.toList)] else [] := by
  -- Both look for the trimmed text among the texts of the options.
  generalize spells : String.ofList (Text.trim query.toList) = spelled
  have listed : (options.map (·.displayText)).contains spelled = true ↔
      ∃ o ∈ options, o.displayText = spelled := by
    simp only [List.contains_iff_mem, List.mem_map]
  rw [spelledLiteral?, spells]
  by_cases offered : ∃ o ∈ options, o.displayText = spelled
  · rw [if_pos offered, listed.mpr offered, Bool.not_true, Bool.and_false]
    rfl
  · have absent := Bool.eq_false_iff.mpr (mt listed.mp offered)
    rw [if_neg offered, absent]
    cases Literal.ofText? spelled <;> rfl

/-- The display texts for a query are those of its literal and of the options that it finds. -/
theorem matchingRows_eq (present : Text.trim query.toList ≠ []) :
    matchingRows (options.map (·.displayText)) query limit =
      (((spelledLiteral? options query).toList ++ foundOptions options query).map
        (·.displayText)).take limit := by
  -- The rows are the texts of the literal and of the options found, cut at the same limit.
  have nonempty : (Text.trim query.toList).isEmpty = false := List.isEmpty_eq_false_iff.mpr present
  rw [List.map_append, map_foundOptions, map_spelledLiteral?, matchingRows, nonempty]
  cases limit with
  | zero => rfl
  | succ limit =>
    rw [if_neg (by simp)]
    rfl

/-- The literal that a query spells is that of a text which no option has. -/
theorem spelledLiteral?_eq_some (spells : spelledLiteral? options query = some o) :
    o.displayText = String.ofList (Text.trim query.toList) ∧
      (∀ p ∈ options, p.displayText ≠ o.displayText) ∧
        ∃ l, Literal.ofText? o.displayText = some l ∧ o = l.option o.displayText := by
  -- A literal is offered only where no option has its text.
  rw [spelledLiteral?] at spells
  split at spells
  case isTrue => cases spells
  case isFalse absent =>
    obtain ⟨l, reads, rfl⟩ := Option.map_eq_some_iff.mp spells
    exact ⟨rfl, fun p member same => absent ⟨p, member, same⟩, l, reads, rfl⟩

/-- The literal that a query spells is found under its text. -/
theorem optionFor?_literal (present : Text.trim query.toList ≠ [])
    (spells : spelledLiteral? options query = some o) :
    optionFor? options o.displayText = some o := by
  -- No option has the text, so it is read as a literal once more.
  obtain ⟨spelled, absent, l, reads, literal⟩ := spelledLiteral?_eq_some spells
  have named : o.displayText ≠ "" := by
    rw [spelled]
    simpa [String.ofList_eq_empty_iff] using present
  have none : options.reverse.find? (·.displayText = o.displayText) = none := by
    simpa using absent
  rw [optionFor?, none, reads, Option.bind_some, l.toOption_ofLiteral named, ← literal]
  rfl

/-- A query gives its literal and the options that it finds, cut at the limit. -/
theorem matchingOptions_eq (distinct : (options.map (·.displayText)).Nodup)
    (present : Text.trim query.toList ≠ []) : matchingOptions options query limit =
      ((spelledLiteral? options query).toList ++ foundOptions options query).take limit := by
  -- Each display text that is found leads back to its own option.
  have back : ∀ o ∈ ((spelledLiteral? options query).toList ++ foundOptions options query).take
      limit, optionFor? options o.displayText = some o := by
    intro o member
    rcases List.mem_append.mp (List.mem_of_mem_take member) with literal | found
    · exact optionFor?_literal present (Option.mem_toList.mp literal)
    · exact optionFor?_of_mem distinct (mem_of_mem_foundOptions found)
  rw [matchingOptions, matchingRows_eq present, ← List.map_take, List.filterMap_map]
  exact (List.filterMap_congr back).trans List.filterMap_some

/-- Answers to a query repeat no option. -/
theorem Answers.nodup {found : List BlockOption} (answers : Answers options query found) :
    found.Nodup := by
  -- Both branches arrange the options.
  rw [Answers] at answers
  split at answers <;> exact answers.nodup

end Answers

/-- In a list of options with distinct display texts, a query that is not blank gives the literal
that it spells if no option has its text, then exactly the options with a rank in the order of their
ranks and of the list, or exactly the similar ones by their penalties if none has a rank, all cut at
the limit. So no option comes twice, every display text that answers the query stands for one, and a
smaller limit cuts the same list earlier. -/
theorem finds_ranked {options : List BlockOption}
    (distinct : (options.map (·.displayText)).Nodup) {query : String}
    (present : ∃ c ∈ query.toList, Text.isBlank c = false) :
    ∃ found, Answers options query found ∧ ∀ limit,
      matchingOptions options query limit =
          ((spelledLiteral? options query).toList ++ found).take limit ∧
        (matchingOptions options query limit).Nodup ∧
        (matchingOptions options query limit).map (·.displayText) =
          matchingRows (options.map (·.displayText)) query limit ∧
        ∀ more, limit ≤ more →
          matchingOptions options query limit <+: matchingOptions options query more := by
  -- The list is one list for all limits, of which each limit takes a prefix.
  have present' := Text.trim_ne_nil_iff.mpr present
  have answers := answers_foundOptions (distinct.of_map _) query
  refine ⟨_, answers, fun limit => ⟨matchingOptions_eq distinct present', ?_, ?_, ?_⟩⟩
  · rw [matchingOptions_eq distinct present']
    refine List.Nodup.sublist (List.take_sublist _ _) (List.Nodup.append ?_ answers.nodup ?_)
    · cases spelledLiteral? options query <;> simp
    · -- The literal has a text that no option has.
      intro o literal found
      have absent := (spelledLiteral?_eq_some (Option.mem_toList.mp literal)).2.1
      exact absent o (mem_of_mem_foundOptions found) rfl
  · rw [matchingOptions_eq distinct present', matchingRows_eq present', List.map_take]
  · intro more less
    rw [matchingOptions_eq distinct present', matchingOptions_eq distinct present']
    exact List.take_prefix_take_left less

/-- A number comes before the options that answer it, and the limit leaves the best of these. -/
theorem finds_ranked_number :
    let room : BlockOption := ⟨"text", "room 42", none, none⟩
    let things : BlockOption := ⟨"text", "42 things", none, none⟩
    let number : BlockOption := ⟨"math_number", "42", some (.ofList [("NUM", "42")]), none⟩
    (([room, things].map (·.displayText)).Nodup ∧
        ∃ c ∈ " 42 ".toList, Text.isBlank c = false) ∧
      ∃ found, Answers [room, things] " 42 " found ∧ found.take 2 = [things, room] ∧
        matchingOptions [room, things] " 42 " 2 = [number, things] := by
  intro room things number
  have distinct : ([room, things].map (·.displayText)).Nodup := by decide
  have present : ∃ c ∈ " 42 ".toList, Text.isBlank c = false := ⟨'4', by decide, by decide⟩
  have literal : spelledLiteral? [room, things] " 42 " = some number := by decide +kernel
  -- The better of the two stands behind the other in the list.
  have ranked : foundOptions [room, things] " 42 " = [things, room] := by
    have keyed : ([room, things].filterMap fun o => (Ranking.rank? (Text.lower o.displayText.toList)
        (wanted " 42 ")).map (·, o)) = [(⟨.wordStart, 5⟩, room), (⟨.start, 0⟩, things)] := by
      decide +kernel
    have sorted : rankedOptions [room, things] " 42 " = [things, room] := by
      rw [rankedOptions, arrange, keyed]
      simp [List.mergeSort, Rank.le, Tier.level]
    rw [foundOptions, sorted, if_neg (List.cons_ne_nil _ _)]
  obtain ⟨found, answers, results⟩ := finds_ranked distinct present
  have same : (number :: found).take 3 = [number, things, room] := by
    have all := (results 3).1
    rw [matchingOptions_eq distinct (Text.trim_ne_nil_iff.mpr present), literal, ranked] at all
    exact all.symm
  have best := List.cons.inj same
  refine ⟨⟨distinct, present⟩, found, answers, best.2, ?_⟩
  rw [(results 2).1, literal]
  exact (List.take_take (i := 2) (j := 3)).symm.trans (congrArg (List.take 2) same)

end QuickEntry
