import QuickEntry.Proofs.ReadBack

/-! Numbers among the settings of a structural state: what an accepted document writes as a number
is what it counts, unless it is a large number with a sign. -/

namespace QuickEntry

open QuickEntry.Text

namespace Text

variable {limit n : Nat} {cs : List Char}

/-- A number is read from its digits, which may have a plus sign before them. -/
theorem readNat?_eq_some_iff : readNat? limit cs = some n ↔
    ∃ digits, (cs = digits ∨ cs = '+' :: digits) ∧ isDigits digits = true ∧
      digitsValue digits = n ∧ n ≤ limit := by
  -- A plus sign may stand in front, and everything behind it must be digits.
  have decided : ∀ digits, (if isDigits digits && digitsValue digits ≤ limit then
      some (digitsValue digits) else none) = some n ↔
        isDigits digits = true ∧ digitsValue digits = n ∧ n ≤ limit := by
    intro digits
    rw [Option.ite_none_right_eq_some, Bool.and_eq_true, decide_eq_true_eq, Option.some.injEq]
    constructor
    · rintro ⟨⟨all, small⟩, rfl⟩
      exact ⟨all, rfl, small⟩
    · rintro ⟨all, rfl, small⟩
      exact ⟨⟨all, small⟩, rfl⟩
  unfold readNat?
  split
  case h_1 rest =>
    rw [decided]
    constructor
    · exact fun read => ⟨rest, .inr rfl, read⟩
    · rintro ⟨digits, rfl | same, read⟩
      · -- A sign is no digit.
        cases read.1
      · cases same
        exact read
  case h_2 unsigned =>
    rw [decided]
    constructor
    · exact fun read => ⟨cs, .inl rfl, read⟩
    · rintro ⟨digits, rfl | same, read⟩
      · exact read
      · exact absurd same (unsigned digits)

end Text

namespace Markup

variable {document : List Char}

/-- White space does not start with a mark. -/
theorem isPrefixOf_of_blank {mark : List Char}
    (marks : mark.head?.any (fun c => !isBlank c) = true) (blank : document.all isBlank = true) :
    mark.isPrefixOf document = false := by
  -- A mark starts with a visible character, the document with white space.
  cases mark with
  | nil => cases marks
  | cons m rest =>
    cases document with
    | nil => rfl
    | cons c more =>
      rw [List.all_cons, Bool.and_eq_true] at blank
      have other : (m == c) = false := by
        rw [beq_eq_false_iff_ne]
        rintro rfl
        simp [blank.1] at marks
      rw [List.isPrefixOf_cons_cons, other, Bool.false_and]

/-- No mark can be taken off white space. -/
theorem dropPrefix?_of_blank {mark : List Char}
    (marks : mark.head?.any (fun c => !isBlank c) = true) (blank : document.all isBlank = true) :
    dropPrefix? mark document = none := by
  -- The mark is not there to be dropped.
  rw [dropPrefix?, isPrefixOf_of_blank marks blank]
  rfl

/-- Nothing but white space is left of white space when its start is skipped. -/
theorem skipMisc_of_blank (room : Nat) (blank : document.all isBlank = true) :
    ∃ left, skipMisc room document = some left ∧ left.all isBlank = true := by
  -- Neither a comment nor an instruction starts with white space.
  cases room with
  | zero => exact ⟨document, rfl, blank⟩
  | succ room =>
    have left : (skipSpaces document).all isBlank = true := by
      rw [List.all_eq_true] at blank ⊢
      exact fun c member => blank c ((List.dropWhile_sublist _).subset member)
    have comment : dropPrefix? "<!--".toList (skipSpaces document) = none :=
      dropPrefix?_of_blank (by decide) left
    have instruction : dropPrefix? "<?".toList (skipSpaces document) = none :=
      dropPrefix?_of_blank (by decide) left
    refine ⟨skipSpaces document, ?_, left⟩
    rw [skipMisc, comment, instruction]

/-- A document of white space alone has no root element. -/
theorem ofDocument?_of_blank (blank : document.all isBlank = true) :
    Element.ofDocument? document = none := by
  -- Nothing is left for the root to start with.
  have unmarked : dropPrefix? [Char.ofNat 0xfeff] document = none :=
    dropPrefix?_of_blank (by decide) blank
  have undeclared : "<?xml ".toList.isPrefixOf document = false :=
    isPrefixOf_of_blank (by decide) blank
  obtain ⟨left, skipped, empty⟩ := skipMisc_of_blank document.length blank
  rw [Element.ofDocument?, unmarked]
  simp only [Option.getD_none, undeclared, Bool.false_eq_true, if_false, Option.bind_eq_bind,
    Option.bind_some, skipped]
  split
  · -- An angle bracket is no white space.
    cases empty
  · rfl

end Markup

namespace Mutation

variable {document : String} {root : Markup.Element} {m : Mutation}

/-- The number that a value stands for, as counts read it. -/
def number? (value : List Char) : Option Nat := readNat? maxWord (trim value)

/-- A setting that is a number counts as many parts, but no more than a block may have. -/
theorem count_of_number {name value : String} (given : m.attribute? name = some value) {n : Nat}
    (number : number? value.toList = some n) (default : Nat) :
    m.count name default = min n maxArity := by
  -- The value is read and capped.
  have read : readNat? maxWord (trim value.toList) = some n := number
  rw [count, given, Option.bind_some, read]
  rfl

/-- An element describes a structural state only by the settings that its attributes make. -/
theorem readAttributes_of_ofElement (described : ofElement root = .ok m) :
    readAttributes root.attributes = .ok m.attributes := by
  -- The attributes are read before the arguments, and the state has them as read.
  unfold ofElement at described
  split at described
  · cases described
  · cases read : readAttributes root.attributes with
    | error e => simp [read, bind, Except.bind] at described
    | ok attributes =>
      cases named : root.children.mapM readArgument with
      | error e => simp [read, named, bind, Except.bind] at described
      | ok arguments =>
        simp only [read, named, bind, Except.bind, pure, Except.pure, Except.ok.injEq] at described
        rw [← described]

/-- The settings of an accepted state are those that the attributes of the root element make. -/
theorem readAttributes_of_ofMarkup
    (found : Markup.Element.ofDocument? document.toList = some root)
    (accepted : ofMarkup document = .ok m) :
    readAttributes root.attributes = .ok m.attributes := by
  -- A document of white space would be accepted as the empty state, but it has no root element.
  have written : document.toList.all isBlank = false := by
    by_contra blank
    rw [Bool.not_eq_false] at blank
    rw [Markup.ofDocument?_of_blank blank] at found
    cases found
  rw [ofMarkup, written, found] at accepted
  exact readAttributes_of_ofElement accepted

/-- Every setting is the last attribute of its name. -/
theorem attribute?_of_ofMarkup
    (found : Markup.Element.ofDocument? document.toList = some root)
    (accepted : ofMarkup document = .ok m) {before after : List Markup.Attribute}
    {a : Markup.Attribute} (place : root.attributes = before ++ a :: after)
    (last : ∀ b ∈ after, b.name ≠ a.name) :
    m.attribute? (String.ofList a.name) = some (String.ofList a.value) := by
  -- The settings are built from the attributes in their order, so that the last of a name stays.
  have made := (readAttributes_eq_ok_iff.mp (readAttributes_of_ofMarkup found accepted)).2
  rw [attribute?, ← made, place, List.map_append, List.map_cons]
  apply OrderedMap.get?_ofList_of_last
  intro e member same
  obtain ⟨b, later, rfl⟩ := List.mem_map.mp member
  exact last b later (String.ofList_injective same)

/-- An attribute of an accepted state that is a number in digits is no larger than the largest
number of parts. -/
theorem modest_of_ofMarkup
    (found : Markup.Element.ofDocument? document.toList = some root)
    (accepted : ofMarkup document = .ok m) {a : Markup.Attribute} (member : a ∈ root.attributes)
    (digits : isDigits (trim a.value) = true) : digitsValue (trim a.value) ≤ maxArity := by
  -- The document was accepted, so the attribute has passed its check.
  have passed := (readAttributes_eq_ok_iff.mp (readAttributes_of_ofMarkup found accepted)).1
  exact checkArity_eq_ok_iff.mp (passed a member) digits

/-- An accepted document means the numbers that it writes, unless they have a sign. An attribute of
the root element that is the last one of its name and stands for a number counts as exactly this
number, whatever the default, if and only if the number is not above the largest number of parts;
and above it is no number that is written without a plus sign. An attribute that writes a larger
number in digits, however many, is refused. -/
theorem counts_as_written (document : String) {root : Markup.Element}
    (found : Markup.Element.ofDocument? document.toList = some root) :
    (∀ m, ofMarkup document = .ok m → ∀ before a after,
      root.attributes = before ++ a :: after → (∀ b ∈ after, b.name ≠ a.name) →
      ∀ n, number? a.value = some n →
        ((∀ default, m.count (String.ofList a.name) default = n) ↔ n ≤ maxArity) ∧
        ((trim a.value).head? ≠ some '+' → n ≤ maxArity)) ∧
    ∀ a ∈ root.attributes, isDigits (trim a.value) = true → maxArity < digitsValue (trim a.value) →
      ∃ e, ofMarkup document = .error e := by
  constructor
  · -- What is counted is what the reading of numbers gives, cut at the largest number of parts.
    intro m accepted before a after place last n number
    have given := attribute?_of_ofMarkup found accepted place last
    have counts : ∀ default, m.count (String.ofList a.name) default = min n maxArity :=
      count_of_number given (by rwa [String.toList_ofList])
    refine ⟨?_, fun unsigned => ?_⟩
    · simp only [counts, forall_const]
      omega
    · -- Without a sign there are digits alone, which have been checked.
      obtain ⟨digits, written, all, value, _⟩ := readNat?_eq_some_iff.mp number
      rcases written with same | signed
      · rw [← value, ← same]
        exact modest_of_ofMarkup found accepted (by rw [place]; simp) (same ▸ all)
      · rw [signed] at unsigned
        exact absurd rfl unsigned
  · intro a member digits large
    cases read : ofMarkup document with
    | error e => exact ⟨e, rfl⟩
    | ok m =>
      -- An accepted state has no such attribute.
      have modest := modest_of_ofMarkup found read member digits
      omega

/-- White space and zeros before a number do not matter, neither where it counts nor where it is too
large. -/
theorem counts_as_written_zeros :
    let small : Markup.Attribute := ⟨none, "elseif".toList, " 007 ".toList⟩
    let signed : Markup.Attribute := ⟨none, "else".toList, "+1".toList⟩
    let large : Markup.Attribute := ⟨none, "items".toList, " 0257".toList⟩
    (∃ root m, Markup.Element.ofDocument?
        "<mutation elseif=\" 007 \" else=\"+1\"></mutation>".toList = some root ∧
      root.attributes = [small, signed] ∧
      ofMarkup "<mutation elseif=\" 007 \" else=\"+1\"></mutation>" = .ok m ∧
      number? small.value = some 7 ∧ ∀ default, m.count "elseif" default = 7) ∧
    ∃ root e, Markup.Element.ofDocument? "<mutation items=\" 0257\"></mutation>".toList =
        some root ∧ root.attributes = [large] ∧
      ofMarkup "<mutation items=\" 0257\"></mutation>" = .error e := by
  -- Leading zeros, blanks and a small signed number are accepted and counted; one above the limit
  -- is refused.
  intro small signed large
  constructor
  · have read : (Markup.Element.ofDocument?
        "<mutation elseif=\" 007 \" else=\"+1\"></mutation>".toList).map (·.attributes) =
          some [small, signed] := by decide +kernel
    obtain ⟨root, found, attributes⟩ := Option.map_eq_some_iff.mp read
    have accepted : ofMarkup "<mutation elseif=\" 007 \" else=\"+1\"></mutation>" =
        .ok ⟨.ofList [("elseif", " 007 "), ("else", "+1")], []⟩ := by decide +kernel
    have number : number? small.value = some 7 := by decide +kernel
    have counts := (counts_as_written _ found).1 _ accepted [] small [signed] attributes
      (by decide) 7 number
    exact ⟨root, _, found, attributes, accepted, number, counts.1.mpr (by decide)⟩
  · have read : (Markup.Element.ofDocument?
        "<mutation items=\" 0257\"></mutation>".toList).map (·.attributes) = some [large] := by
      decide +kernel
    obtain ⟨root, found, attributes⟩ := Option.map_eq_some_iff.mp read
    have member : large ∈ root.attributes := by
      rw [attributes]
      exact List.mem_singleton_self _
    obtain ⟨e, refused⟩ := (counts_as_written _ found).2 large member (by decide +kernel)
      (by decide +kernel)
    exact ⟨root, e, found, attributes, refused⟩

-- A number with a sign is accepted however large it is: one that a count can read is cut, and one
-- that it cannot read gives way to the default.
example :
    ((ofMarkup "<mutation elseif=\"+300\"></mutation>").toOption.map (·.count "elseif" 2) =
        some 256) ∧
      (ofMarkup "<mutation elseif=\"+99999999999999999999\"></mutation>").toOption.map
        (·.count "elseif" 2) = some 2 := by
  decide +kernel

end Mutation

end QuickEntry
