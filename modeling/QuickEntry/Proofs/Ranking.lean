import QuickEntry.Proofs.Catalog
import QuickEntry.Proofs.Template
import QuickEntry.Proofs.Text.Blank

/-! Which option a query selects that spells the display text of an option. -/

namespace QuickEntry

section Stable

variable {α : Type} {r : α → α → Bool} {xs : List α}
  (transitive : ∀ a b c, r a b = true → r b c = true → r a c = true)
  (total : ∀ a b, (r a b || r b a) = true)

include transitive total

/-- A stable sort keeps the order of those that are all tied. -/
theorem filter_mergeSort {p : α → Bool}
    (tied : ∀ a ∈ xs, ∀ b ∈ xs, p a = true → p b = true → r a b = true) :
    (xs.mergeSort r).filter p = xs.filter p := by
  -- Sorting is stable: the part that is kept is sorted already, so it comes out in the order it
  -- had.
  have same : (xs.mergeSort r).Perm xs := List.mergeSort_perm xs r
  have up : (xs.filter p).Pairwise fun a b => r a b = true := by
    refine List.pairwise_of_forall_mem_list fun a inside b inside' => ?_
    rw [List.mem_filter] at inside inside'
    exact tied a inside.1 b inside'.1 inside.2 inside'.2
  have kept := (List.sublist_mergeSort transitive total up List.filter_sublist).filter p
  rw [List.filter_filter, funext fun y => Bool.and_self (p y)] at kept
  exact (kept.eq_of_length (same.filter _).length_eq.symm).symm

/-- A stable sort puts the first of those in front that come no later than any other. -/
theorem head?_mergeSort {x : α} (member : x ∈ xs) (least : ∀ y ∈ xs, r x y = true) :
    (xs.mergeSort r).head? = xs.find? fun y => r y x := by
  have inside : x ∈ xs.mergeSort r := (List.mergeSort_perm xs r).mem_iff.mpr member
  -- The one in front is tied with the least one.
  have front : (xs.mergeSort r).head? = (xs.mergeSort r).find? fun y => r y x := by
    have sorted := List.pairwise_mergeSort transitive total xs
    cases order : xs.mergeSort r with
    | nil => rfl
    | cons first rest =>
      rw [order] at sorted inside
      have early : r first x = true := by
        rcases List.mem_cons.mp inside with rfl | later
        · exact least x member
        · exact (List.pairwise_cons.mp sorted).1 x later
      simp [early]
  rw [front, ← List.head?_filter, filter_mergeSort transitive total, List.head?_filter]
  exact fun a _ b inside' before _ => transitive a x b before (least b inside')

/-- A stable sort puts one before another only if it comes no later, and if they are tied only if it
stood before the other. -/
theorem pairwise_stable {S : α → α → Prop} (early : xs.Pairwise S) :
    (xs.mergeSort r).Pairwise fun a b => r a b = true ∧ (r b a = true → S a b) := by
  rw [List.pairwise_iff_forall_sublist]
  intro a b pair
  have before : r a b = true :=
    List.pairwise_iff_forall_sublist.mp (List.pairwise_mergeSort transitive total xs) pair
  refine ⟨before, fun behind => ?_⟩
  -- The sort keeps the order of all that are tied with the two.
  let tied (y : α) : Bool := r a y && r y a
  have reflexive : r a a = true := by simpa using total a a
  have kept : (xs.mergeSort r).filter tied = xs.filter tied := by
    refine filter_mergeSort transitive total fun y _ z _ left right => ?_
    rw [Bool.and_eq_true] at left right
    exact transitive y a z left.2 right.1
  have pair' := pair.filter tied
  rw [kept, List.filter_cons_of_pos (by simp [tied, reflexive]),
    List.filter_cons_of_pos (by simp [tied, before, behind]), List.filter_nil] at pair'
  exact List.pairwise_iff_forall_sublist.mp early (pair'.trans List.filter_sublist)

end Stable

namespace Rank

variable {a b c : Rank}

/-- Ranks compare tiers, and places within a tier. -/
theorem le_iff : a.le b = true ↔
    a.tier.level < b.tier.level ∨ a.tier.level = b.tier.level ∧ a.position ≤ b.position := by
  -- Tiers are numbered without repetition.
  have same : a.tier = b.tier ↔ a.tier.level = b.tier.level := by
    cases a.tier <;> cases b.tier <;> decide
  simp only [le, Bool.or_eq_true, Bool.and_eq_true, decide_eq_true_eq, same]

/-- The order of ranks is transitive. -/
theorem le_trans (first : a.le b = true) (second : b.le c = true) : a.le c = true := by
  -- The order is lexicographic on numbers.
  rw [le_iff] at first second ⊢
  omega

/-- Of two ranks one is not behind the other. -/
theorem le_total (a b : Rank) : (a.le b || b.le a) = true := by
  -- The order is lexicographic on numbers.
  rw [Bool.or_eq_true, le_iff, le_iff]
  omega

end Rank

namespace Ranking

open Text (lower)

variable {row query : List Char} {r : Rank}

/-- A text that is the query has the best rank. -/
theorem rank?_self (query : List Char) : rank? query query = some ⟨.exact, 0⟩ := if_pos rfl

/-- No rank is before the best one. -/
theorem exact_le (r : Rank) : Rank.le ⟨.exact, 0⟩ r = true := by
  -- No tier is below the first, and no position below zero.
  rw [Rank.le_iff]
  simp only [Tier.level]
  omega

/-- Only a text that is the query has the best rank. -/
theorem le_exact_iff (ranked : rank? row query = some r) :
    r.le ⟨.exact, 0⟩ = true ↔ row = query := by
  constructor
  · intro best
    by_contra other
    -- All other ways of answering are in later tiers.
    have later : 0 < r.tier.level := by
      rw [rank?, if_neg other] at ranked
      grind [Tier.level, Option.map_eq_some_iff]
    rw [Rank.le_iff] at best
    simp only [Tier.level] at best later
    omega
  · rintro rfl
    rw [rank?_self] at ranked
    cases ranked
    exact exact_le _

/-- The best of the texts that answer a query is the first one that is the query in lower case, if
there is one. -/
theorem head?_ranked {rows : List String} {text : String} (listed : text ∈ rows) :
    (ranked rows (lower text.toList)).head? =
      rows.find? fun row => lower row.toList = lower text.toList := by
  -- The text itself is an exact match, the best there is. The first row that is one comes first, as
  -- sorting is stable.
  let found := rows.filterMap fun row =>
    (rank? (lower row.toList) (lower text.toList)).map (·, row)
  have own : (⟨.exact, 0⟩, text) ∈ found :=
    List.mem_filterMap.mpr ⟨text, listed, by rw [rank?_self]; rfl⟩
  have front := head?_mergeSort (r := fun a b : Rank × String => a.1.le b.1)
    (fun _ _ _ => Rank.le_trans) (fun a b => Rank.le_total a.1 b.1) own fun f _ => exact_le f.1
  -- What ranks as high is spelled the same in small letters.
  have spells : ∀ row : String, (((rank? (lower row.toList) (lower text.toList)).map
      (·, row)).any fun found => found.1.le ⟨.exact, 0⟩) =
        decide (lower row.toList = lower text.toList) := by
    intro row
    rw [Bool.eq_iff_iff, decide_eq_true_eq, Option.any_map]
    cases ranks : rank? (lower row.toList) (lower text.toList) with
    | none =>
      refine ⟨fun impossible => (nomatch impossible), fun same => ?_⟩
      rw [same, rank?_self] at ranks
      cases ranks
    | some r => exact le_exact_iff ranks
  rw [ranked, List.head?_map, front, List.find?_filterMap, funext spells]
  cases first : rows.find? fun row => lower row.toList = lower text.toList with
  | none => rfl
  | some row =>
    have same : lower row.toList = lower text.toList := by simpa using List.find?_some first
    simp [same, rank?_self]

end Ranking

section Matching

variable {rows : List String} {text : String} {limit : Nat}

/-- A query that spells a display text without white space at its ends finds first what comes first
of the texts that differ from it in letter case at most. -/
theorem head?_matchingRows (listed : text ∈ rows) (present : text ≠ "")
    (trimmed : Text.trim text.toList = text.toList) (room : 1 ≤ limit) :
    (matchingRows rows text limit).head? =
      rows.find? fun row => Text.lower row.toList = Text.lower text.toList := by
  have best := Ranking.head?_ranked listed
  have nonempty : text.toList.isEmpty = false := by simpa using present
  have places : limit ≠ 0 := Nat.ne_of_gt room
  cases ranks : Ranking.ranked rows (Text.lower text.toList) with
  | nil =>
    -- The text itself has a rank.
    rw [ranks, List.head?_nil, eq_comm, List.find?_eq_none] at best
    simpa using best text listed
  | cons first rest =>
    rw [ranks] at best
    simp [matchingRows, trimmed, nonempty, places, listed, ranks, List.head?_take, ← best]

end Matching

namespace BlockOption

/-- Two options have the same display text, letter case apart. -/
def Alike (a b : BlockOption) : Prop :=
  Text.lower a.displayText.toList = Text.lower b.displayText.toList

instance (a b : BlockOption) : Decidable (a.Alike b) :=
  inferInstanceAs (Decidable (Text.lower _ = Text.lower _))

/-- Every option is like itself. -/
theorem Alike.refl (o : BlockOption) : o.Alike o := rfl

/-- The display text of an option has no white space at its ends. -/
structure Tidy (o : BlockOption) : Prop where
  first : ∀ c ∈ o.displayText.toList.head?, Text.isBlank c = false
  last : ∀ c ∈ o.displayText.toList.getLast?, Text.isBlank c = false

/-- White space at the ends of a text is looked for there. -/
theorem tidy_iff (o : BlockOption) : o.displayText.toList.head?.any Text.isBlank = false ∧
    o.displayText.toList.getLast?.any Text.isBlank = false ↔ o.Tidy := by
  -- The two tests are those of the two ends.
  simp only [Option.any_eq_false]
  exact ⟨fun ⟨first, last⟩ => ⟨first, last⟩, fun tidy => ⟨tidy.first, tidy.last⟩⟩

instance (o : BlockOption) : Decidable o.Tidy := decidable_of_iff _ o.tidy_iff

end BlockOption

/-- In a list of options with distinct display texts each one is found under its own. -/
theorem optionFor?_of_mem {options : List BlockOption} {o : BlockOption}
    (distinct : (options.map (·.displayText)).Nodup) (offered : o ∈ options) :
    optionFor? options o.displayText = some o := by
  -- The search runs backwards, but no other option has the text.
  have found : options.reverse.find? (·.displayText = o.displayText) = some o := by
    cases found : options.reverse.find? (·.displayText = o.displayText) with
    | none => simpa using List.find?_eq_none.mp found o (List.mem_reverse.mpr offered)
    | some p =>
      have member := List.mem_reverse.mp (List.mem_of_find?_eq_some found)
      have same : p.displayText = o.displayText := by simpa using List.find?_some found
      rw [List.inj_on_of_nodup_map distinct member offered same]
  rw [optionFor?, found]

section Sorted

variable {options : List BlockOption} {o first : BlockOption} {limit : Nat}
  (sorted : options.Pairwise fun a b => a.displayText < b.displayText)

include sorted

/-- Options in the order of their display texts have distinct ones. -/
theorem nodup_displayText : (options.map (·.displayText)).Nodup := by
  -- The order is strict.
  refine List.pairwise_map.mpr (sorted.imp fun before same => ?_)
  rw [same] at before
  exact String.lt_irrefl _ before

/-- A query that spells an option gives first the first option that is alike. -/
theorem head?_matchingOptions (offered : o ∈ options) (named : o.displayText ≠ "") (tidy : o.Tidy)
    (room : 1 ≤ limit) :
    (matchingOptions options o.displayText limit).head? = options.find? fun p => p.Alike o := by
  -- Without white space at its ends the text is looked up as it stands, and the first row leads
  -- back to its option.
  have rows := head?_matchingRows (List.mem_map.mpr ⟨o, offered, rfl⟩) named
    (Text.trim_eq_self tidy.first tidy.last) room
  rw [List.find?_map] at rows
  have alike : ((fun row : String => decide (Text.lower row.toList =
      Text.lower o.displayText.toList)) ∘ fun p : BlockOption => p.displayText) =
        fun p => decide (p.Alike o) := rfl
  rw [alike] at rows
  rw [matchingOptions]
  cases found : options.find? fun p => p.Alike o with
  | none => exact absurd (decide_eq_true (.refl o)) (List.find?_eq_none.mp found o offered)
  | some first =>
    rw [found, Option.map_some, List.head?_eq_some_iff] at rows
    obtain ⟨rest, rows⟩ := rows
    rw [rows, List.filterMap_cons_some
      (optionFor?_of_mem (nodup_displayText sorted) (List.mem_of_find?_eq_some found)),
      List.head?_cons]

/-- The first of sorted options that are alike is the least of them. -/
theorem find?_alike_iff :
    (options.find? fun p => p.Alike o) = some first ↔ first ∈ options ∧ first.Alike o ∧
      ∀ other ∈ options, other.Alike o → first.displayText ≤ other.displayText := by
  -- The options are sorted, so the first of those spelled alike is the least of them.
  have least : ∀ {first}, (options.find? fun p => p.Alike o) = some first →
      ∀ other ∈ options, other.Alike o → first.displayText ≤ other.displayText := by
    intro first found other member alike
    obtain ⟨_, before, after, rfl, apart⟩ := List.find?_eq_some_iff_append.mp found
    rcases List.mem_append.mp member with early | late
    · simpa [alike] using apart other early
    · rcases List.mem_cons.mp late with rfl | late
      · exact String.le_refl _
      · have behind := (List.pairwise_cons.mp (List.pairwise_append.mp sorted).2.1).1 other late
        exact String.not_lt.mp (String.lt_asymm behind)
  constructor
  · intro found
    exact ⟨List.mem_of_find?_eq_some found, by simpa using List.find?_some found, least found⟩
  · rintro ⟨member, alike, before⟩
    cases found : options.find? fun p => p.Alike o with
    | none => simpa [alike] using List.find?_eq_none.mp found first member
    | some p =>
      have member' := List.mem_of_find?_eq_some found
      have alike' : p.Alike o := by simpa using List.find?_some found
      rw [List.inj_on_of_nodup_map (nodup_displayText sorted) member' member
        (String.le_antisymm (least found first member alike) (before p member' alike'))]

end Sorted

namespace Catalog

variable {d : Declarations} {database : ComponentDatabase} {o first : BlockOption} {limit : Nat}

/-- No two options of a catalog have the same display text. -/
theorem eq_of_displayText (offered : o ∈ (build d database).options)
    (offered' : first ∈ (build d database).options) (same : first.displayText = o.displayText) :
    first = o :=
  -- The options of a catalog are sorted strictly by their texts.
  List.inj_on_of_nodup_map (nodup_displayText (sorted_optionsOf (d.templates database)))
    (List.mem_toArray.mp offered') (List.mem_toArray.mp offered) same

/-- A query that spells an option of a catalog gives first the first option that is alike. -/
theorem head?_matchingOptions (offered : o ∈ (build d database).options) (tidy : o.Tidy)
    (room : 1 ≤ limit) :
    (matchingOptions (build d database).options.toList o.displayText limit).head? =
      (build d database).options.toList.find? fun p => p.Alike o := by
  have member := List.mem_toArray.mp offered
  -- Without a text there is no option.
  have named : o.displayText ≠ "" := by
    obtain ⟨t, _, offers⟩ := mem_optionsOf_iff.mp member
    intro empty
    rw [empty] at offers
    cases offers
  exact QuickEntry.head?_matchingOptions (sorted_optionsOf (d.templates database)) member named tidy
    room

/-- The first option of a catalog that is like another one is the least of those that are. -/
theorem find?_alike_iff :
    ((build d database).options.toList.find? fun p => p.Alike o) = some first ↔
      first ∈ (build d database).options ∧ first.Alike o ∧
        ∀ other ∈ (build d database).options, other.Alike o →
          first.displayText ≤ other.displayText := by
  -- The options of a catalog are sorted.
  simp only [build, List.mem_toArray]
  exact QuickEntry.find?_alike_iff (sorted_optionsOf (d.templates database))

end Catalog

namespace Session

/-- In the catalog for any declarations, the display text of an option selects the first of the
options whose texts differ from it in letter case at most: typing it gives this option first, and
entering it picks this option in every session that presents the catalog. It is the option itself
if and only if no other of these texts comes before its own. -/
theorem spelled_text_selects (d : Declarations) (database : ComponentDatabase) {o : BlockOption}
    (offered : o ∈ (Catalog.build d database).options) (tidy : o.Tidy) :
    ∃ first ∈ (Catalog.build d database).options, first.Alike o ∧
      (∀ other ∈ (Catalog.build d database).options, other.Alike o →
        first.displayText ≤ other.displayText) ∧
      (first = o ↔ ∀ other ∈ (Catalog.build d database).options, other.Alike o →
        ¬other.displayText < o.displayText) ∧
      (∀ limit, 1 ≤ limit → (matchingOptions (Catalog.build d database).options.toList
        o.displayText limit).head? = some first) ∧
      ∀ s : Session, s.presentCatalog = .build d database → 1 ≤ s.settings.maxMatches →
        (enter o.displayText).on s =
          (do return some (← confirm first) : Attempt Session (Option Insertion)).on
            ((type o.displayText).on s).2 := by
  -- The first option that is alike is found whatever the limit, and it is the least of them as the
  -- options are sorted.
  have selects := fun {limit : Nat} (room : 1 ≤ limit) =>
    Catalog.head?_matchingOptions offered tidy room
  -- The option itself is one of those that are alike.
  have exists_alike : ((Catalog.build d database).options.toList.find? fun p => p.Alike o).isSome =
      true :=
    List.find?_isSome.mpr ⟨o, Array.mem_toList_iff.mpr offered, decide_eq_true (.refl o)⟩
  obtain ⟨first, found⟩ := Option.isSome_iff_exists.mp exists_alike
  obtain ⟨member, alike, least⟩ := Catalog.find?_alike_iff.mp found
  refine ⟨first, member, alike, least, ⟨?_, fun own => ?_⟩,
    fun limit room => (selects room).trans found, fun s presented room => ?_⟩
  · rintro rfl
    exact fun other inside alike => String.not_lt.mpr (least other inside alike)
  · exact Catalog.eq_of_displayText offered member (String.le_antisymm
      (least o offered (.refl o)) (String.not_lt.mp (own first member alike)))
  · have best : s.best? o.displayText = some first := by
      rw [best?, presented]
      exact (selects room).trans found
    rw [on_enter, best]
    rfl

/-- The text of the only global selects the option that reads it. -/
theorem spelled_text_selects_only :
    let declaration : Block :=
      ⟨"global_declaration", none, .ofList [("NAME", .string "a")], none, [], none⟩
    let o : BlockOption :=
      ⟨"lexical_variable_get", "get global a", some (.ofList [("VAR", "global a")]), none⟩
    let s := (start (.empty ∅) {}).after [.append ∅ declaration]
    (enter "get global a").on s =
      (do return some (← confirm o) : Attempt Session (Option Insertion)).on
        ((type "get global a").on s).2 := by
  intro declaration o
  let t : Template := .presetting "lexical_variable_get" "VAR" "global a"
  dsimp only
  have catalog := presentCatalog_after ∅ {} [.append ∅ declaration]
  have found : (((start (.empty ∅) {}).after [.append ∅ declaration]).declarations.templates
      ∅).get? "get global a" = some t := by decide +kernel
  have texts : ∀ text ∈ (((start (.empty ∅) {}).after
      [.append ∅ declaration]).declarations.templates ∅).keys,
        Text.lower text.toList = Text.lower "get global a".toList → text = "get global a" := by
    decide +kernel
  have room : 1 ≤ ((start (.empty ∅) {}).after [.append ∅ declaration]).settings.maxMatches := by
    decide +kernel
  have offers : t.toOption "get global a" = .ok o := by decide +kernel
  have tidy : o.Tidy := by decide +kernel
  -- Nothing else about the session counts.
  generalize (start (.empty ∅) {}).after [.append ∅ declaration] = s at catalog found texts room ⊢
  have offered : o ∈ (Catalog.build s.declarations ∅).options :=
    List.mem_toArray.mpr (mem_optionsOf_iff.mpr ⟨t, found, offers⟩)
  obtain ⟨first, _, _, _, own, _, enters⟩ := spelled_text_selects s.declarations ∅ offered tidy
  have same : first = o := by
    refine own.mpr fun other member alike before => ?_
    obtain ⟨t', found', _⟩ := mem_optionsOf_iff.mp (List.mem_toArray.mp member)
    have listed := (OrderedMap.mem_keys_iff _ _).mpr (OrderedMap.contains_iff.mpr ⟨t', found'⟩)
    rw [texts other.displayText listed alike] at before
    exact String.lt_irrefl _ before
  rw [← same]
  exact enters s catalog room

/-- Of two globals whose names differ in letter case only, the text of the later one does not select
the option that reads it. -/
theorem spelled_text_selects_other :
    ¬∀ (d : Declarations) (database : ComponentDatabase),
      ∀ o ∈ (Catalog.build d database).options, o.Tidy → ∀ limit, 1 ≤ limit →
        (matchingOptions (Catalog.build d database).options.toList o.displayText limit).head? =
          some o := by
  intro selects
  let d : Declarations := ⟨["A", "a"], [], [], []⟩
  let reads (name : String) : BlockOption :=
    ⟨"lexical_variable_get", "get global " ++ name,
      some (.ofList [("VAR", "global " ++ name)]), none⟩
  have offered : ∀ name ∈ d.globals, reads name ∈ (Catalog.build d ∅).options := by
    intro name member
    let t : Template := .presetting "lexical_variable_get" "VAR" ("global " ++ name)
    have offers : ∀ name ∈ d.globals,
        (d.templates ∅).get? (reads name).displayText =
            some (.presetting "lexical_variable_get" "VAR" ("global " ++ name)) ∧
          (Template.presetting "lexical_variable_get" "VAR" ("global " ++ name)).toOption
            (reads name).displayText = .ok (reads name) := by
      decide +kernel
    exact List.mem_toArray.mpr (mem_optionsOf_iff.mpr ⟨t, offers name member⟩)
  have small := offered "a" (by decide)
  have tidy : (reads "a").Tidy := by decide +kernel
  have first := selects d ∅ (reads "a") small tidy 1 (Nat.le_refl 1)
  rw [Catalog.head?_matchingOptions small tidy (Nat.le_refl 1), Catalog.find?_alike_iff] at first
  obtain ⟨_, _, least⟩ := first
  -- Capital letters come before small ones.
  have before : (reads "a").displayText ≤ (reads "A").displayText :=
    least _ (offered "A" (by decide)) (by decide +kernel)
  exact absurd before (by decide +kernel)

end Session

end QuickEntry
