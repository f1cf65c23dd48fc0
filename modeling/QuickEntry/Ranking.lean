import QuickEntry.BlockOption
import QuickEntry.Text.Alphanumeric
import QuickEntry.Text.LowerCase
import QuickEntry.Text.Occurrence

/-! The order in which display texts answer what the user types. -/

namespace QuickEntry

/-- How well a display text answers a query, the best way first. -/
inductive Tier where
  /-- The text is the query. -/
  | exact
  /-- The text starts with the query. -/
  | start
  /-- A later word of the text starts with the query. -/
  | wordStart
  /-- Every word of the query starts some word of the text. -/
  | tokens
  /-- The query occurs inside the text. -/
  | inside
deriving DecidableEq, Repr

/-- The place of a tier among the tiers. -/
def Tier.level : Tier → Nat
  | exact => 0
  | start => 1
  | wordStart => 2
  | tokens => 3
  | inside => 4

/-- The rank of a display text: its tier and, where that counts, the place of the query in it. -/
structure Rank where
  tier : Tier
  position : Nat
deriving DecidableEq, Repr

/-- One rank is not behind another. -/
def Rank.le (a b : Rank) : Bool :=
  -- The place decides only within a tier.
  a.tier.level < b.tier.level || (a.tier = b.tier && a.position ≤ b.position)

namespace Ranking

open Text (isAlphanumeric isBlank lower occurrences pieces trim)

/-- The characters that make up words. -/
def isWordChar (c : Char) : Bool := isAlphanumeric c || c = '_'

/-- The words of a query, between white space. -/
def queryWords (query : List Char) : List (List Char) := pieces isBlank query

/-- The words of a display text, between white space and points. -/
def rowWords (row : List Char) : List (List Char) := pieces (fun c => isBlank c || c = '.') row

/-- Every word of a query starts some word of a display text. -/
def answersWords (row query : List Char) : Bool :=
  (queryWords query).all fun token => (rowWords row).any token.isPrefixOf

/-- The place in a display text where the query follows a character that belongs to no word. -/
def laterWord? (row query : List Char) : Option Nat :=
  -- At the very start no character comes before, and the tier of starts applies.
  ((occurrences query row).find? (·.before.any fun c => !isWordChar c)).map (·.position)

/-- The rank of a display text for a query, both in lower case. -/
def rank? (row query : List Char) : Option Rank :=
  -- The tiers are tried best first.
  if row = query then some ⟨.exact, 0⟩
  else if query.isPrefixOf row then some ⟨.start, 0⟩
  else match laterWord? row query with
    | some position => some ⟨.wordStart, position⟩
    | none =>
      -- A query without words would be answered by every text.
      if !(queryWords query).isEmpty && answersWords row query then some ⟨.tokens, 0⟩
      else (occurrences query row).head?.map fun o => ⟨.inside, o.position⟩

/-- The penalty of a query character by character: one that stands in the display text beyond the
one before costs the characters in between, up to five less than a miss; a miss costs ten at first
and five more each time. -/
def penalty (row : List Char) (reached missCost : Nat) : List Char → Nat
  -- Each character is looked for from the start of the text, not from the place reached.
  | [] => 0
  | c :: rest =>
    match row.findIdx? (· = c) with
    | none => missCost + penalty row reached (missCost + 5) rest
    | some place =>
      if reached ≤ place then
        min (place - reached) (missCost - 5) + penalty row (place + 1) missCost rest
      else missCost + penalty row reached (missCost + 5) rest

/-- The penalty of a display text that follows the characters of a query roughly in order. -/
def similarity? (row query : List Char) : Option Nat :=
  -- Six points for each character are too many.
  let cost := penalty row 0 10 query
  if cost < 6 * query.length then some cost else none

/-- The display texts that answer a query in lower case, the best first; equally good ones keep
their order. -/
def ranked (rows : List String) (query : List Char) : List String :=
  -- The sort is stable, so that ties keep the order of the catalog.
  let found := rows.filterMap fun row => (rank? (lower row.toList) query).map (·, row)
  (found.mergeSort fun a b => a.1.le b.1).map (·.2)

/-- The display texts that resemble a query in lower case, the most similar first. -/
def resembling (rows : List String) (query : List Char) : List String :=
  let found := rows.filterMap fun row => (similarity? (lower row.toList) query).map (·, row)
  (found.mergeSort fun a b => a.1 ≤ b.1).map (·.2)

end Ranking

/-- The display texts for what the user types, the best first and at most so many. A literal that
no display text spells comes before all; similar texts count only if no text has a rank. -/
def matchingRows (rows : List String) (query : String) (limit : Nat) : List String :=
  -- White space around the query does not count, but its case does for a literal.
  let trimmed := Text.trim query.toList
  if trimmed.isEmpty || limit = 0 then []
  else
    let wanted := Text.lower trimmed
    let found := match Ranking.ranked rows wanted with
      | [] => Ranking.resembling rows wanted
      | best => best
    let spelled := String.ofList trimmed
    let literal :=
      if (Literal.ofText? spelled).isSome && !rows.contains spelled then [spelled] else []
    (literal ++ found).take limit

/-- The option for a display text that answers a query: the last one offered under it, or the
block of the literal that it spells. -/
def optionFor? (options : List BlockOption) (text : String) : Option BlockOption :=
  -- A text that is neither offered nor a literal stands for nothing.
  match options.reverse.find? (·.displayText = text) with
  | some o => some o
  | none => (Literal.ofText? text).bind fun l => ((Template.ofLiteral l).toOption text).toOption

/-- The options for what the user types, the best first and at most so many. -/
def matchingOptions (options : List BlockOption) (query : String) (limit : Nat) :
    List BlockOption :=
  (matchingRows (options.map (·.displayText)) query limit).filterMap (optionFor? options)

end QuickEntry
