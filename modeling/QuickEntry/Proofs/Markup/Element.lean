import Mathlib.Data.List.Nodup
import Mathlib.Data.List.TakeWhile
import QuickEntry.Markup.Element
import QuickEntry.Proofs.Lists
import QuickEntry.Proofs.Markup.Characters

/-! Elements as they are written are read back: their names, and the values of their attributes up
to white space, unless a value has an illegal character. -/

namespace QuickEntry.Markup

/-- An attribute name without a qualifier that declares no namespace. -/
def isPlainName (name : List Char) : Bool :=
  startsName name && name.all (fun c => isNameChar c && c ≠ ':') && name ≠ "xmlns".toList

/-- The parts of being a plain name. -/
theorem isPlainName_iff {name : List Char} :
    isPlainName name = true ↔ startsName name = true ∧
      (∀ c ∈ name, isNameChar c = true ∧ c ≠ ':') ∧ name ≠ "xmlns".toList := by
  -- The test, spelled as propositions.
  simp only [isPlainName, Bool.and_eq_true, List.all_eq_true, decide_eq_true_eq, and_assoc]

/-- What starts a name is neither white space nor part of a mark. -/
theorem apart_of_isNameStart {c : Char} (starts : isNameStart c = true) :
    isSpace c = false ∧ c ≠ '/' ∧ c ≠ '>' ∧ c ≠ '?' ∧ c ≠ '!' := by
  -- None of these characters starts a name.
  refine ⟨?_, ?_, ?_, ?_, ?_⟩
  · rw [Bool.eq_false_iff]
    intro space
    simp only [isSpace, Bool.or_eq_true, decide_eq_true_eq] at space
    rcases space with ((rfl | rfl) | rfl) | rfl <;> exact absurd starts (by decide)
  all_goals
    rintro rfl
    exact absurd starts (by decide)

/-- A plain name is read up to the first character that is none of a name. -/
theorem readQName_plain {name rest : List Char} (plain : isPlainName name = true)
    (ends : ∀ c ∈ rest.head?, isNameChar c = false) :
    readQName (name ++ rest) = some (⟨[], name⟩, rest) := by
  obtain ⟨starts, goes, _⟩ := isPlainName_iff.mp plain
  -- The name is taken as a whole, and no colon divides it.
  have front : ∀ c ∈ name, isNameChar c = true := fun c member => (goes c member).1
  have written : (name ++ rest).takeWhile isNameChar = name := by
    rw [List.takeWhile_append_of_pos front]
    cases rest with
    | nil => exact List.append_nil _
    | cons c rest => simp [ends c rfl]
  have left : (name ++ rest).dropWhile isNameChar = rest := by
    rw [List.dropWhile_append_of_pos front]
    cases rest with
    | nil => rfl
    | cons c rest => simp [ends c rfl]
  have whole : name.dropWhile (· ≠ ':') = [] :=
    List.dropWhile_eq_nil_iff.mpr fun c member => by simp [(goes c member).2]
  simp only [readQName, written, left, whole, starts, if_true]

/-- A text is taken up to the character that stops it, if all its characters are legal. -/
theorem takeUntil_append {stop : List Char → Bool} {text rest : List Char} {mark : Char}
    (stops : stop (mark :: rest) = true) (legal : isLegal mark = true)
    (passes : ∀ d ∈ text, ∀ left, stop (d :: left) = false) :
    takeUntil stop (text ++ mark :: rest) =
      if text.all isLegal then some (text, mark :: rest) else none := by
  -- The mark is the first place at which the text may stop.
  induction text with
  | nil => simp [takeUntil, stops, legal]
  | cons d text ih =>
    rw [List.cons_append, takeUntil, passes d List.mem_cons_self,
      ih fun e member => passes e (List.mem_cons_of_mem _ member)]
    cases own : isLegal d <;> cases others : text.all isLegal <;> simp [own, others]

/-- An attribute is read as it is written, if all characters of its value are legal. -/
theorem readAttribute_written {name : List Char} (plain : isPlainName name = true)
    (value rest : List Char) :
    readAttribute (name ++ '=' :: '"' :: (escape value ++ '"' :: rest)) =
      if value.all isLegal then some ((⟨[], name⟩, escape value), rest) else none := by
  -- Neither mark that could end the value early occurs in it.
  have equals : ∀ opened : List Char, readEquals ('=' :: '"' :: opened) = some ('"' :: opened) :=
    fun _ => rfl
  have body : takeUntil (fun left => left.head? = some '"' || left.head? = some '<')
      (escape value ++ '"' :: rest) =
        if value.all isLegal then some (escape value, '"' :: rest) else none := by
    rw [takeUntil_append (by rfl) (by decide), all_isLegal_escape]
    intro d member left
    simp [not_mark_of_mem_escape d member]
  rw [readAttribute, readQName_plain plain (by simp [isNameChar])]
  simp only [Option.bind_eq_bind, Option.bind_some, equals, decide_true, Bool.true_or, if_true,
    body]
  cases value.all isLegal <;> rfl

/-- Attributes to be written: their names, with their values. -/
abbrev Pairs := List (List Char × List Char)

/-- Attributes that can be read back, since their names are plain and distinct. -/
structure Pairs.Readable (entries : Pairs) : Prop where
  plain : ∀ e ∈ entries, isPlainName e.1 = true
  distinct : (entries.map Prod.fst).Nodup

/-- Attributes as they stand in a tag. -/
def attributeText (entries : Pairs) : List Char :=
  entries.flatMap fun e => ' ' :: (e.1 ++ '=' :: '"' :: (escape e.2 ++ ['"']))

/-- No value has an illegal character. -/
def areLegal (entries : Pairs) : Bool :=
  entries.all fun e => e.2.all isLegal

/-- Attributes are no more than the characters that they are written with. -/
theorem length_le_attributeText (entries : Pairs) :
    entries.length ≤ (attributeText entries).length := by
  -- Every attribute is written in at least one character.
  induction entries with
  | nil => exact Nat.le_refl _
  | cons e rest ih =>
    simp only [attributeText, List.flatMap_cons, List.length_append, List.length_cons] at ih ⊢
    omega

/-- The attributes of a tag are read as they are written. -/
theorem readAttributes_written (entries : Pairs) (plain : ∀ e ∈ entries, isPlainName e.1 = true)
    (rest : List Char) :
    ∀ room, entries.length < room →
      readAttributes room (attributeText entries ++ '>' :: rest) =
        if areLegal entries then
          some (entries.map fun e => (⟨[], e.1⟩, escape e.2), true, rest)
        else none := by
  -- Each attribute takes one turn, and the end of the tag another one.
  induction entries with
  | nil =>
    intro room enough
    obtain ⟨room, rfl⟩ := Nat.exists_eq_succ_of_ne_zero (Nat.ne_of_gt enough)
    rfl
  | cons e others ih =>
    intro room enough
    obtain ⟨room, rfl⟩ := Nat.exists_eq_succ_of_ne_zero (Nat.ne_of_gt (Nat.zero_lt_of_lt enough))
    obtain ⟨name, value⟩ := e
    have own := plain _ List.mem_cons_self
    have later := ih (fun e member => plain e (List.mem_cons_of_mem _ member)) room
      (Nat.lt_of_succ_lt_succ enough)
    obtain ⟨starts, _, _⟩ := isPlainName_iff.mp own
    have written : attributeText ((name, value) :: others) ++ '>' :: rest =
        ' ' :: (name ++ '=' :: '"' :: (escape value ++
          '"' :: (attributeText others ++ '>' :: rest))) := by
      simp [attributeText]
    -- Behind the white space stands the name.
    cases name with
    | nil => cases starts
    | cons c name =>
      obtain ⟨space, slash, bracket, _, _⟩ := apart_of_isNameStart starts
      have first := readAttribute_written own value (attributeText others ++ '>' :: rest)
      have skipped : ∀ text : List Char, skipSpaces (' ' :: c :: text) = c :: text := by
        intro text
        have blank : isSpace ' ' = true := rfl
        simp [skipSpaces, blank, space]
      rw [written, readAttributes, List.cons_append, skipped]
      split
      · rename_i same
        exact absurd (List.cons.inj same).1 slash
      · rename_i same
        exact absurd (List.cons.inj same).1 bracket
      · have legal : areLegal ((c :: name, value) :: others) =
            (value.all isLegal && areLegal others) := rfl
        rw [if_pos (by rfl), ← List.cons_append, first, legal]
        cases value.all isLegal with
        | false => rfl
        | true =>
          simp only [Option.bind_eq_bind, if_true, Option.bind_some, later]
          cases areLegal others <;> rfl

/-- The attributes that plain names and values make. -/
def plainAttributes (entries : Pairs) : List Attribute :=
  entries.map fun e => ⟨none, e.1, blanked e.2⟩

/-- Plain names declare no namespace. -/
theorem declare_plain {entries : Pairs} (plain : ∀ e ∈ entries, isPlainName e.1 = true)
    (outer : Scope) :
    outer.declare (entries.map fun e => (⟨[], e.1⟩, blanked e.2)) = some outer := by
  -- No attribute adds to the bindings of the tag.
  have nothing : ∀ own : Scope,
      (entries.map fun e => ((⟨[], e.1⟩ : QName), blanked e.2)).foldlM Scope.declare.enter own =
        some own := by
    induction entries with
    | nil => exact fun own => rfl
    | cons e others ih =>
      intro own
      obtain ⟨_, _, free⟩ := isPlainName_iff.mp (plain e List.mem_cons_self)
      have entered : Scope.declare.enter own (⟨[], e.1⟩, blanked e.2) = some own := by
        rw [Scope.declare.enter, if_neg (by simp), if_neg free]
      rw [List.map_cons, List.foldlM_cons, entered]
      exact ih (fun e member => plain e (List.mem_cons_of_mem _ member)) own
  rw [Scope.declare, nothing]
  rfl

/-- Distinct plain names make attributes in no namespace. -/
theorem attributes_plain {entries : Pairs} (readable : entries.Readable) (scope : Scope) :
    scope.attributes (entries.map fun e => (⟨[], e.1⟩, blanked e.2)) =
      some (plainAttributes entries) := by
  -- No attribute declares a namespace, so all of them are kept and none has one.
  have kept : (entries.map fun e => ((⟨[], e.1⟩ : QName), blanked e.2)).filter (!·.1.declares) =
      entries.map fun e => (⟨[], e.1⟩, blanked e.2) := by
    refine List.filter_eq_self.mpr fun written member => ?_
    obtain ⟨e, among, rfl⟩ := List.mem_map.mp member
    obtain ⟨_, _, free⟩ := isPlainName_iff.mp (readable.plain e among)
    have other : decide (e.1 = "xmlns".toList) = false := decide_eq_false free
    simp only [QName.declares, other]
    rfl
  have resolved : (entries.map fun e => ((⟨[], e.1⟩ : QName), blanked e.2)).mapM
      (fun written => (scope.resolve written.1.qualifier).bind fun space =>
        some (Attribute.mk space written.1.localName written.2)) =
          some (plainAttributes entries) := by
    rw [mapM_eq_some_map (g := fun written => ⟨none, written.1.localName, written.2⟩) _
      fun written member => by
        obtain ⟨e, _, rfl⟩ := List.mem_map.mp member
        rfl]
    rw [List.map_map]
    rfl
  -- Without namespaces the names alone tell the attributes apart.
  have apart : ((plainAttributes entries).map fun a => (a.space, a.name)).Nodup := by
    have names : (plainAttributes entries).map (fun a => (a.space, a.name)) =
        (entries.map Prod.fst).map fun name => (none, name) := by
      simp [plainAttributes, Function.comp_def]
    rw [names]
    exact readable.distinct.map fun _ _ same => (Prod.mk.inj same).2
  simp only [Scope.attributes, kept, Option.bind_eq_bind, Option.pure_def, resolved,
    Option.bind_some, eraseDups_of_nodup apart, if_true]

section Elements

variable {name : List Char} {entries : Pairs}

/-- An element with attributes is read as it is written, if its attributes and its content are. -/
theorem readElement_written (called : isPlainName name = true) (readable : entries.Readable)
    {room : Nat} {scope : Scope} {content left : List Char} {children : List Element} {sound : Bool}
    (inside : readContent room scope content =
      if sound then some (children, name ++ '>' :: left) else none) :
    readElement (room + 1) scope (name ++ (attributeText entries ++ '>' :: content)) =
      if areLegal entries && sound then
        some (⟨name, plainAttributes entries, children⟩, left)
      else none := by
  -- Both tags bear the name, and the values are read as they are written.
  have opening : readQName (name ++ (attributeText entries ++ '>' :: content)) =
      some (⟨[], name⟩, attributeText entries ++ '>' :: content) := by
    refine readQName_plain called ?_
    cases entries <;> simp [attributeText, isNameChar]
  have closing : readQName (name ++ '>' :: left) = some (⟨[], name⟩, '>' :: left) :=
    readQName_plain called (by simp [isNameChar])
  have enough : entries.length < (attributeText entries ++ '>' :: content).length := by
    have bound := length_le_attributeText entries
    simp only [List.length_append, List.length_cons]
    omega
  -- Unescaping what was escaped fails for no value.
  have read : (entries.map fun e => ((⟨[], e.1⟩ : QName), escape e.2)).mapM
      (fun written => (unescape written.2).bind fun value => some (written.1, value)) =
        some (entries.map fun e => (⟨[], e.1⟩, blanked e.2)) := by
    rw [mapM_eq_some_map (g := fun written => (written.1, (unescape written.2).getD [])) _
      fun written member => by
        obtain ⟨e, _, rfl⟩ := List.mem_map.mp member
        rw [unescape_escape]
        rfl]
    simp [Function.comp_def, unescape_escape]
  simp only [readElement, opening, Option.bind_eq_bind, Option.bind_some,
    readAttributes_written entries readable.plain content _ enough]
  cases areLegal entries with
  | false => rfl
  | true =>
    -- Names without a prefix are always within the scope.
    have unreserved : ([] : List Char) ≠ "xmlns".toList := by simp
    have admitted : scope.admits ⟨[], name⟩ = true := by simp [Scope.admits]
    simp only [if_true, Option.bind_some, Option.pure_def, read, declare_plain readable.plain,
      attributes_plain readable, inside, unreserved, admitted, decide_false, Bool.not_true,
      Bool.or_false, Bool.false_eq_true, if_false]
    cases sound with
    | false => rfl
    | true =>
      simp only [if_true, Option.bind_some, closing]
      rfl

/-- Where a name starts behind an angle bracket there is an element. -/
theorem readContent_tag {c : Char} (starts : isNameStart c = true) (room : Nat) (scope : Scope)
    (tag : List Char) :
    readContent (room + 1) scope ('<' :: c :: tag) =
      (readElement room scope (c :: tag)).bind fun (child, left) =>
        (readContent room scope left).bind fun (others, closing) =>
          some (child :: others, closing) := by
  -- None of the marks that are told apart begins like a name.
  obtain ⟨_, slash, _, question, exclamation⟩ := apart_of_isNameStart starts
  rw [readContent]
  · rfl
  all_goals
    intros
    simp_all

/-- Elements of one name with nothing inside, as they stand in a document. -/
def leafText (name : List Char) (leaves : List Pairs) : List Char :=
  leaves.flatMap fun entries =>
    '<' :: (name ++ (attributeText entries ++ '>' :: '<' :: '/' :: (name ++ ['>'])))

/-- Elements with nothing inside are read as they are written, up to the end tag behind them. -/
theorem readContent_leaves (called : isPlainName name = true) (leaves : List Pairs)
    (readable : ∀ entries ∈ leaves, entries.Readable) (scope : Scope) (closing : List Char) :
    ∀ room, leaves.length + 2 ≤ room →
      readContent room scope (leafText name leaves ++ '<' :: '/' :: closing) =
        if leaves.all areLegal then
          some (leaves.map fun entries => ⟨name, plainAttributes entries, []⟩, closing)
        else none := by
  -- Each element takes one turn of its own, within which two more are enough.
  induction leaves with
  | nil =>
    intro room enough
    obtain ⟨room, rfl⟩ := Nat.exists_eq_add_of_le' enough
    rfl
  | cons entries others ih =>
    intro room enough
    obtain ⟨room, rfl⟩ := Nat.exists_eq_add_of_le' enough
    have later := ih (fun entries member => readable entries (List.mem_cons_of_mem _ member))
      (room + others.length + 2) (by omega)
    have written : leafText name (entries :: others) ++ '<' :: '/' :: closing =
        '<' :: (name ++ (attributeText entries ++ '>' :: ('<' :: '/' :: (name ++ '>' ::
          (leafText name others ++ '<' :: '/' :: closing))))) := by
      simp [leafText]
    -- There is nothing between the tags.
    have inside : readContent (room + others.length + 1) scope
        ('<' :: '/' :: (name ++ '>' :: (leafText name others ++ '<' :: '/' :: closing))) =
          if true then some ([], name ++ '>' :: (leafText name others ++ '<' :: '/' :: closing))
          else none := rfl
    have leaf := readElement_written called (readable entries List.mem_cons_self) inside
    obtain ⟨starts, _, _⟩ := isPlainName_iff.mp called
    cases name with
    | nil => cases starts
    | cons c name =>
      have length : room + ((entries :: others).length + 2) = room + others.length + 2 + 1 := rfl
      rw [written, length, List.cons_append, readContent_tag starts, ← List.cons_append, leaf,
        List.all_cons]
      cases areLegal entries with
      | false => rfl
      | true =>
        simp only [Bool.true_and, if_true, Option.bind_some, later]
        cases others.all areLegal <;> rfl

/-- Elements are no more than the characters that they are written with. -/
theorem length_le_leafText (name : List Char) (leaves : List Pairs) :
    leaves.length ≤ (leafText name leaves).length := by
  -- Every element is written in at least one character.
  induction leaves with
  | nil => exact Nat.le_refl _
  | cons entries others ih =>
    simp only [leafText, List.flatMap_cons, List.length_append, List.length_cons] at ih ⊢
    omega

/-- A document is read as it is written, if no value in it has an illegal character. -/
theorem ofDocument?_written (called : isPlainName name = true) (readable : entries.Readable)
    {leaf : List Char} (inner : isPlainName leaf = true) {leaves : List Pairs}
    (readable' : ∀ entries ∈ leaves, entries.Readable) :
    Element.ofDocument? ('<' :: (name ++ (attributeText entries ++ '>' ::
        (leafText leaf leaves ++ '<' :: '/' :: (name ++ ['>']))))) =
      if areLegal entries && leaves.all areLegal then
        some ⟨name, plainAttributes entries,
          leaves.map fun entries => ⟨leaf, plainAttributes entries, []⟩⟩
      else none := by
  -- Nothing is skipped in front of the root, so the document is read as this one element.
  have tag : ∀ room, leaves.length + 2 ≤ room →
      readElement (room + 1) [] (name ++ (attributeText entries ++ '>' ::
        (leafText leaf leaves ++ '<' :: '/' :: (name ++ ['>'])))) =
          if areLegal entries && leaves.all areLegal then
            some (⟨name, plainAttributes entries,
              leaves.map fun entries => ⟨leaf, plainAttributes entries, []⟩⟩, [])
          else none := fun room enough =>
    readElement_written called readable
      (readContent_leaves inner leaves readable' [] (name ++ ['>']) room enough)
  obtain ⟨starts, _, _⟩ := isPlainName_iff.mp called
  cases name with
  | nil => cases starts
  | cons c name =>
    obtain ⟨_, slash, _, question, exclamation⟩ := apart_of_isNameStart starts
    generalize text : attributeText entries ++ '>' ::
      (leafText leaf leaves ++ '<' :: '/' :: (c :: name ++ ['>'])) = rest at tag ⊢
    -- The reader has a step for every character, and each child is written in several.
    have room : leaves.length + 2 ≤ (name ++ rest).length := by
      have bound := length_le_leafText leaf leaves
      rw [← text]
      simp only [List.length_append, List.length_cons]
      omega
    -- Nothing stands before the element.
    have unmarked : dropPrefix? [Char.ofNat 0xfeff] ('<' :: c :: (name ++ rest)) = none := rfl
    have undeclared : "<?xml ".toList.isPrefixOf ('<' :: c :: (name ++ rest)) = false := by
      simp [List.isPrefixOf, question.symm]
    have nothing : ∀ room, skipMisc (room + 1) ('<' :: c :: (name ++ rest)) =
        some ('<' :: c :: (name ++ rest)) := by
      intro room
      have comment : dropPrefix? "<!--".toList ('<' :: c :: (name ++ rest)) = none := by
        simp [dropPrefix?, List.isPrefixOf, exclamation.symm]
      have instruction : dropPrefix? "<?".toList ('<' :: c :: (name ++ rest)) = none := by
        simp [dropPrefix?, List.isPrefixOf, question.symm]
      have kept : skipSpaces ('<' :: c :: (name ++ rest)) = '<' :: c :: (name ++ rest) := rfl
      rw [skipMisc]
      simp only [kept, comment, instruction]
    rw [List.cons_append, Element.ofDocument?, unmarked, Option.getD_none, undeclared]
    simp only [Bool.false_eq_true, if_false, Option.bind_eq_bind, Option.bind_some,
      List.length_cons, nothing]
    have element := tag _ room
    rw [List.cons_append] at element
    rw [element]
    cases areLegal entries && leaves.all areLegal <;> rfl

end Elements

end QuickEntry.Markup
