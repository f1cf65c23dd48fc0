import Mathlib.Algebra.Group.Int.Defs
import Mathlib.Data.List.Basic
import Mathlib.Data.List.TakeWhile
import QuickEntry.Json.Printer
import QuickEntry.Json.Written

/-! Compact texts read back: the text of a value without doubles is read as the tree of this value,
whatever comes behind it. -/

namespace QuickEntry

namespace Json

open Text

/-- A control character has a code of two hexadecimal digits. -/
theorem hexValue_control {n : Nat} (small : n < 0x20) :
    [hexDigit (n / 16), hexDigit (n % 16)].all isHexDigit = true ∧
      hexValue ['0', '0', hexDigit (n / 16), hexDigit (n % 16)] = n := by
  -- There are thirty-two of them, which are computed.
  have each : ∀ n < 0x20, [hexDigit (n / 16), hexDigit (n % 16)].all isHexDigit = true ∧
      hexValue ['0', '0', hexDigit (n / 16), hexDigit (n % 16)] = n := by decide
  exact each n small

/-- A character stands for itself, is escaped by a letter, or by the digits of its code. -/
theorem escapeChar_cases (c : Char) :
    (escapeChar c = [c] ∧ c ≠ '"' ∧ c ≠ '\\' ∧ 0x20 ≤ c.toNat) ∨
    (∃ letter, escapeChar c = ['\\', letter] ∧ letter ≠ 'u' ∧ unescapeLetter letter = some c) ∨
    ∃ a b, escapeChar c = ['\\', 'u', '0', '0', a, b] ∧ [a, b].all isHexDigit = true ∧
      hexValue ['0', '0', a, b] = c.toNat := by
  -- Seven characters have a letter of their own, before the code of a control character is asked
  -- for.
  by_cases lettered : c ∈ ['"', '\\', '\x08', '\x0c', '\n', '\r', '\t']
  · simp only [List.mem_cons, List.not_mem_nil, or_false] at lettered
    rcases lettered with rfl | rfl | rfl | rfl | rfl | rfl | rfl
    all_goals exact .inr (.inl ⟨_, rfl, by decide, rfl⟩)
  · simp only [List.mem_cons, List.not_mem_nil, or_false, not_or] at lettered
    obtain ⟨quote, backslash, b, f, n, r, t⟩ := lettered
    have other : escapeChar c = if c.toNat < 0x20 then
        ['\\', 'u', '0', '0', hexDigit (c.toNat / 16), hexDigit (c.toNat % 16)] else [c] := by
      simp only [escapeChar, quote, backslash, b, f, n, r, t, if_false]
    by_cases control : c.toNat < 0x20
    · rw [other, if_pos control]
      exact .inr (.inr ⟨_, _, rfl, hexValue_control control⟩)
    · rw [other, if_neg control]
      exact .inl ⟨rfl, quote, backslash, Nat.le_of_not_lt control⟩

/-- What a character is escaped to is read as its code. -/
theorem readCodes_escapeChar (c : Char) (rest : List Char) :
    readCodes (escapeChar c ++ rest) =
      (readCodes rest).map fun (codes, left) => (c.toNat :: codes, left) := by
  -- A character stands for itself, is named by a letter behind a backslash, or by four digits.
  rcases escapeChar_cases c with ⟨plain, quote, backslash, visible⟩ | ⟨letter, escaped, other, meant⟩ |
    ⟨a, b, escaped, digits, value⟩
  · rw [plain, List.singleton_append, readCodes]
    · rw [if_neg (by simp [backslash, Nat.not_lt.mpr visible])]
    · exact quote
    · exact fun _ _ _ _ _ same => absurd same backslash
    · exact fun _ _ same => absurd same backslash
  · rw [escaped, List.cons_append, List.singleton_append, readCodes]
    · rw [meant]
      cases readCodes rest <;> rfl
    · simp [other]
  · have hex : ['0', '0', a, b].all isHexDigit = true := digits
    rw [escaped]
    simp only [List.cons_append, List.nil_append, readCodes]
    rw [if_pos hex, value]

/-- A string is read as the codes of its characters, up to the closing quote. -/
theorem readCodes_escape (cs rest : List Char) :
    readCodes (cs.flatMap escapeChar ++ '"' :: rest) = some (cs.map Char.toNat, rest) := by
  -- One character after the other, up to the closing mark.
  induction cs with
  | nil => rfl
  | cons c cs ih => rw [List.flatMap_cons, List.append_assoc, readCodes_escapeChar, ih]; rfl

/-- The code of a character is no half of a pair. -/
theorem not_half (c : Char) : isHighHalf c.toNat = false ∧ isLowHalf c.toNat = false := by
  -- Halves of pairs are what the range of characters leaves out.
  have valid : c.toNat < 0xd800 ∨ 0xdfff < c.toNat ∧ c.toNat < 0x110000 := c.valid
  simp only [isHighHalf, isLowHalf, Bool.and_eq_false_iff, decide_eq_false_iff_not]
  omega

/-- The codes of characters spell these characters. -/
theorem spell_map_toNat (cs : List Char) : spell (cs.map Char.toNat) = some cs := by
  -- No character is half of a surrogate pair, so each code is spelled alone.
  induction cs with
  | nil => rfl
  | cons c cs ih =>
    obtain ⟨high, low⟩ := not_half c
    cases cs with
    | nil => simp [spell, high, low]
    | cons next rest =>
      rw [List.map_cons] at ih
      rw [List.map_cons, List.map_cons, spell, high, low, ih]
      simp

/-- A quoted text is read as this text. -/
theorem readString_escape (text : String) (rest : List Char) :
    Written.readString (text.toList.flatMap escapeChar ++ '"' :: rest) =
      some (some text, rest) := by
  -- The codes read are those of the text, which spell it.
  rw [Written.readString, readCodes_escape]
  simp only [Option.map_some, spell_map_toNat, String.ofList_toList]

/-- What may come behind a value: nothing more, or a mark that ends an item or a member. -/
def Ends (rest : List Char) : Prop := ∀ c ∈ rest.head?, c ∈ [',', ']', '\x7d']

namespace Numeral

/-- Only zero is written with a zero in front. -/
theorem eq_zero_of_head?_toDigits {n : Nat} (front : (Nat.toDigits 10 n).head? = some '0') :
    n = 0 := by
  induction n using Nat.strongRecOn with
  | ind n ih =>
    -- The first digit is that of the number without its last digit.
    by_cases single : n < 10
    · rw [Nat.toDigits_of_lt_base single] at front
      simpa using front
    · rw [Nat.toDigits_of_base_le (by decide) (Nat.le_of_not_lt single),
        List.head?_append_of_ne_nil _ Nat.toDigits_ne_nil] at front
      have shorter := ih (n / 10) (by omega) front
      omega

/-- The digits of a number denote it. -/
theorem digitsValue_toDigits (n : Nat) : digitsValue (Nat.toDigits 10 n) = n := by
  -- Both values are the same fold over the digits.
  have same : ∀ digits : List Char, digitsValue digits = Nat.ofDigitChars 10 digits 0 := by
    intro digits
    simp only [digitsValue, digitsFrom, Nat.ofDigitChars_eq_foldl, Nat.mul_comm]
  rw [same, Nat.ofDigitChars_ten_toDigits]

/-- Further digits make no number smaller. -/
theorem le_digitsFrom (count : Nat) (digits : List Char) : count ≤ digitsFrom count digits := by
  -- Each digit multiplies the count by ten and adds to it.
  induction digits generalizing count with
  | nil => exact Nat.le_refl count
  | cons d rest ih => exact Nat.le_trans (by omega) (ih (count * 10 + (d.toNat - '0'.toNat)))

/-- No digit of a number that fits is given back. -/
theorem accumulate_of_le {count : Nat} {digits : List Char}
    (fits : digitsFrom count digits ≤ maxWord) :
    accumulate count digits = (digitsFrom count digits, []) := by
  -- Counting further only increases the value, so each partial value is within the word as well.
  induction digits generalizing count with
  | nil => rfl
  | cons d rest ih =>
    have first : digitsFrom count (d :: rest) = digitsFrom (digitsFrom count [d]) rest := rfl
    rw [first] at fits ⊢
    rw [accumulate, if_pos (Nat.le_trans (le_digitsFrom _ rest) fits), ih fits]

/-- A number is read up to its last digit if no digit follows. -/
theorem readDigits_toDigits (n : Nat) {rest : List Char} (ends : Ends rest) :
    readDigits (Nat.toDigits 10 n ++ rest) = some (Nat.toDigits 10 n, rest) := by
  -- All digits are taken, and what ends a number is none of them.
  have digits : ∀ c ∈ Nat.toDigits 10 n, c.isDigit = true :=
    fun c member => Nat.isDigit_of_mem_toDigits (by decide) (by decide) member
  have stop : ∀ c ∈ rest.head?, c.isDigit = false := by
    intro c front
    have marks : [',', ']', '\x7d'].all (!Char.isDigit ·) = true := rfl
    simpa only [Bool.not_eq_true'] using List.all_eq_true.mp marks c (ends c front)
  have taken : rest.takeWhile Char.isDigit = [] ∧ rest.dropWhile Char.isDigit = rest := by
    cases rest with
    | nil => exact ⟨rfl, rfl⟩
    | cons c rest => simp [stop c rfl]
  rw [readDigits, List.takeWhile_append_of_pos digits, List.dropWhile_append_of_pos digits,
    taken.1, taken.2, List.append_nil, if_neg (by simp [Nat.toDigits_ne_nil])]

/-- An integer as written, without point and exponent. -/
def ofInt (v : Int) : Numeral := ⟨decide (v < 0), Nat.toDigits 10 v.natAbs, none, none⟩

/-- A number as written: a double as its text is read. -/
def ofNumber : JsonNumber → Numeral
  | .integer v => ofInt v
  | .double d => ((read d.text).map Prod.fst).getD (ofInt 0)

/-- A number is read as the digits before a point, since no zero precedes other digits. -/
theorem readWhole_toDigits (n : Nat) {rest : List Char} (ends : Ends rest) :
    readWhole (Nat.toDigits 10 n ++ rest) = some (Nat.toDigits 10 n, rest) := by
  -- The only decimal that starts with a zero is zero, so the leading zero stands alone.
  have alone : (Nat.toDigits 10 n).head? = some '0' → (Nat.toDigits 10 n).length = 1 := by
    intro front
    rw [eq_zero_of_head?_toDigits front]
    rfl
  rw [readWhole, readDigits_toDigits n ends, Option.bind_eq_bind, Option.bind_some]
  simp only [Bool.and_eq_true, decide_eq_true_eq]
  exact if_neg fun spread => spread.2 (alone spread.1)

/-- What may come behind a value starts with neither a point nor an exponent. -/
theorem read_tail {rest : List Char} (ends : Ends rest) :
    readFraction rest = some (none, rest) ∧ readExponent rest = some (none, rest) := by
  -- Neither a point nor an exponent ends a number.
  cases rest with
  | nil => exact ⟨rfl, rfl⟩
  | cons c rest =>
    have marks : [',', ']', '\x7d'].all (fun c => c ≠ '.' && !(c = 'e' || c = 'E')) = true := rfl
    have apart := List.all_eq_true.mp marks c (ends c rfl)
    simp only [Bool.and_eq_true, decide_eq_true_eq, Bool.not_eq_true'] at apart
    obtain ⟨point, exponent⟩ := apart
    constructor
    · rw [readFraction]
      exact fun _ same => point (List.cons.inj same).1
    · unfold readExponent
      exact if_neg (by rw [exponent]; exact Bool.false_ne_true)

/-- The text of a number starts with a digit. -/
theorem exists_toDigits (n : Nat) :
    ∃ d digits, Nat.toDigits 10 n = d :: digits ∧ d.isDigit = true := by
  -- The decimal of a number is never empty.
  obtain ⟨d, digits, written⟩ := List.exists_cons_of_ne_nil (Nat.toDigits_ne_nil (n := n) (b := 10))
  have member : d ∈ Nat.toDigits 10 n := by simp [written]
  exact ⟨d, digits, written, Nat.isDigit_of_mem_toDigits (by decide) (by decide) member⟩

/-- An integer is read up to its end. -/
theorem read_integer (v : Int) {rest : List Char} (ends : Ends rest) :
    read ((JsonNumber.integer v).text ++ rest) = some (ofInt v, rest) := by
  obtain ⟨fraction, exponent⟩ := read_tail ends
  cases v with
  | ofNat n =>
    -- A digit in front is no minus sign.
    have unsigned : ∀ after, Nat.toDigits 10 n ++ rest ≠ '-' :: after := by
      intro after same
      obtain ⟨d, digits, written, digit⟩ := exists_toDigits n
      rw [written] at same
      rw [(List.cons.inj same).1] at digit
      exact absurd digit (by decide)
    rw [JsonNumber.text, read]
    · simp only [readWhole_toDigits _ ends, fraction, exponent, Option.bind_eq_bind,
        Option.bind_some]
      rfl
    · exact unsigned
  | negSucc n =>
    have below : decide (Int.negSucc n < 0) = true := decide_eq_true (Int.negSucc_lt_zero n)
    rw [JsonNumber.text, List.cons_append, read, ofInt, below]
    simp only [readWhole_toDigits _ ends, fraction, exponent, Option.bind_eq_bind, Option.bind_some]
    rfl

/-- An integer that fits 64 bits, signed or unsigned, is the value of its numeral. -/
theorem value?_ofInt {v : Int} (low : -2 ^ 63 ≤ v) (high : v < 2 ^ 64) :
    (ofInt v).value? = some (.integer v) := by
  -- The digits are counted without overflow, so it is the sign that decides which word holds the
  -- value.
  have fits : digitsFrom 0 (Nat.toDigits 10 v.natAbs) ≤ maxWord := by
    rw [← digitsValue, digitsValue_toDigits, maxWord, UInt64.size]
    omega
  have count : accumulate 0 (Nat.toDigits 10 v.natAbs) = (v.natAbs, []) := by
    rw [accumulate_of_le fits, ← digitsValue, digitsValue_toDigits]
  rw [value?, ofInt]
  simp only [count]
  by_cases negative : v < 0
  · -- A negative value must be at most half of the word in size.
    have whole : 0 < v.natAbs ∧ v.natAbs ≤ UInt64.size / 2 := by
      rw [UInt64.size]
      omega
    have back : -(v.natAbs : Int) = v := by omega
    simp only [negative, whole, back, decide_true, Bool.not_true, Bool.false_eq_true, if_false,
      Bool.and_self, if_true]
  · have back : (v.natAbs : Int) = v := by omega
    simp only [negative, back, decide_false, Bool.not_false, if_true]

end Numeral

mutual

/-- The tree as which the text of a value is read. -/
def written : Json → Written
  | null => .null
  | bool b => .bool b
  | number n => .number (.ofNumber n)
  | string s => .string (some s)
  | array items => .array (writtenItems items)
  | object members => .object (writtenMembers members)

/-- The trees of the items of an array. -/
def writtenItems : List Json → List Written
  | [] => []
  | item :: rest => written item :: writtenItems rest

/-- The trees of the members of an object, under their names. -/
def writtenMembers : List (String × Json) → List (Option String × Written)
  | [] => []
  | (name, value) :: rest => (some name, written value) :: writtenMembers rest

end

/-- All numbers in a value are integers. -/
inductive Integral : Json → Prop where
  | null : Integral .null
  | bool (b : Bool) : Integral (.bool b)
  | integer (v : Int) : Integral (.number (.integer v))
  | string (text : String) : Integral (.string text)
  | array {items : List Json} (each : ∀ item ∈ items, Integral item) : Integral (.array items)
  | object {members : List (String × Json)} (each : ∀ m ∈ members, Integral m.2) :
    Integral (.object members)

/-- The text of a value is read as its tree, whatever comes behind it. -/
def Legible (value : Json) : Prop :=
  -- Two steps for each character are always enough.
  ∀ (room : Nat) (rest : List Char), Ends rest → 2 * value.compactChars.length < room →
    Written.read room (value.compactChars ++ rest) = some (value.written, rest)

/-- The characters of white space. -/
def blanks : List Char := [' ', '\n', '\t', '\r']

/-- Nothing is dropped in front of a visible character. -/
theorem skip_cons {c : Char} (visible : c ∉ blanks) (cs : List Char) :
    Written.skip (c :: cs) = c :: cs := by
  -- Only the four blanks are passed over.
  simp only [blanks, List.mem_cons, List.not_mem_nil, or_false, not_or] at visible
  simp [Written.skip, visible]

/-- A character that starts a number: a digit or a minus sign. -/
def startsNumber (c : Char) : Bool := c = '-' || c.isDigit

/-- What starts a number is none of several marks that start none. -/
theorem not_mem_of_startsNumber {c : Char} (front : startsNumber c = true) {marks : List Char}
    (none : marks.all (!startsNumber ·) = true) : c ∉ marks := by
  -- Among the marks is no character that starts a number.
  intro member
  have apart := List.all_eq_true.mp none c member
  rw [front] at apart
  exact Bool.false_ne_true apart

/-- What starts like a number is read as a number. -/
theorem read_number {c : Char} (front : startsNumber c = true) (room : Nat) (cs : List Char) :
    Written.read (room + 1) (c :: cs) =
      (Numeral.read (c :: cs)).map fun (numeral, left) => (.number numeral, left) := by
  have visible : c ∉ blanks := not_mem_of_startsNumber front rfl
  have other : c ∉ ['n', 't', 'f', '"', '[', '\x7b'] := not_mem_of_startsNumber front rfl
  simp only [List.mem_cons, not_or] at other
  obtain ⟨n, t, f, quote, bracket, brace, _⟩ := other
  -- No other form of a value starts with this character.
  rw [Written.read, skip_cons visible]
  split
  · rename_i same; exact absurd (List.cons.inj same).1 n
  · rename_i same; exact absurd (List.cons.inj same).1 t
  · rename_i same; exact absurd (List.cons.inj same).1 f
  · rename_i same; exact absurd (List.cons.inj same).1 quote
  · rename_i same; exact absurd (List.cons.inj same).1 bracket
  · rename_i same; exact absurd (List.cons.inj same).1 brace
  · rfl

/-- An integer is written like a number. -/
theorem exists_text_integer (v : Int) : ∃ c digits, (JsonNumber.integer v).text = c :: digits ∧
    startsNumber c = true := by
  -- A natural number starts with a digit, a negative one with its sign.
  cases v with
  | ofNat n =>
    obtain ⟨d, digits, text, digit⟩ := Numeral.exists_toDigits n
    exact ⟨d, digits, text, by rw [startsNumber, digit, Bool.or_true]⟩
  | negSucc n => exact ⟨'-', _, rfl, rfl⟩

/-- A value starts with a visible character, which closes no array. -/
theorem Integral.front {value : Json} (integral : value.Integral) :
    ∃ c cs, value.compactChars = c :: cs ∧ c ∉ blanks ∧ c ≠ ']' := by
  -- One case per kind of value, each with its own first character.
  cases integral with
  | null => exact ⟨'n', _, rfl, by decide, by decide⟩
  | bool b =>
    cases b with
    | true => exact ⟨'t', _, rfl, by decide, by decide⟩
    | false => exact ⟨'f', _, rfl, by decide, by decide⟩
  | integer v =>
    obtain ⟨c, digits, text, front⟩ := exists_text_integer v
    have apart : c ∉ [']'] := not_mem_of_startsNumber front rfl
    exact ⟨c, digits, by rw [compactChars, text], not_mem_of_startsNumber front rfl,
      List.ne_of_not_mem_cons apart⟩
  | string text => exact ⟨'"', _, rfl, by decide, by decide⟩
  | array each => exact ⟨'[', _, rfl, by decide, by decide⟩
  | object each => exact ⟨'\x7b', _, rfl, by decide, by decide⟩

/-- The word for nothing is read. -/
theorem legible_null : Legible null := by
  -- One step of the reader, which matches the whole word.
  intro room rest ends fits
  obtain ⟨room, rfl⟩ := Nat.exists_eq_add_one.mpr (Nat.zero_lt_of_lt fits)
  have text : compactChars null ++ rest = 'n' :: 'u' :: 'l' :: 'l' :: rest := rfl
  rw [text, Written.read, skip_cons (by decide)]
  rfl

/-- The words for truth values are read. -/
theorem legible_bool (b : Bool) : Legible (bool b) := by
  -- One step of the reader, which matches the whole word.
  intro room rest ends fits
  obtain ⟨room, rfl⟩ := Nat.exists_eq_add_one.mpr (Nat.zero_lt_of_lt fits)
  cases b with
  | true =>
    have text : compactChars (bool true) ++ rest = 't' :: 'r' :: 'u' :: 'e' :: rest := rfl
    rw [text, Written.read, skip_cons (by decide)]
    rfl
  | false =>
    have text : compactChars (bool false) ++ rest = 'f' :: 'a' :: 'l' :: 's' :: 'e' :: rest := rfl
    rw [text, Written.read, skip_cons (by decide)]
    rfl

/-- A text is read from between its quotes. -/
theorem legible_string (text : String) : Legible (string text) := by
  -- One step of the reader: behind the mark the text is read to its closing mark.
  intro room rest ends fits
  obtain ⟨room, rfl⟩ := Nat.exists_eq_add_one.mpr (Nat.zero_lt_of_lt fits)
  have opened : compactChars (string text) ++ rest =
      '"' :: (text.toList.flatMap escapeChar ++ '"' :: rest) := by simp [compactChars, quote]
  rw [opened, Written.read, skip_cons (by decide)]
  simp only [readString_escape, Option.map_some]
  rfl

/-- An integer is read up to the mark behind it. -/
theorem legible_integer (v : Int) : Legible (number (.integer v)) := by
  -- The first character shows a number, which is read up to what ends it.
  intro room rest ends fits
  obtain ⟨room, rfl⟩ := Nat.exists_eq_add_one.mpr (Nat.zero_lt_of_lt fits)
  obtain ⟨c, digits, text, front⟩ := exists_text_integer v
  have read := Numeral.read_integer v ends
  rw [text, List.cons_append] at read
  rw [compactChars, text, List.cons_append, read_number front, read, written, Numeral.ofNumber]
  rfl

/-- Items are read up to the closing bracket of their array. -/
theorem readItems_compactItems {items : List Json} (each : ∀ item ∈ items, item.Legible)
    (given : items ≠ []) (room : Nat) (rest : List Char)
    (fits : 2 * (compactItems items).length < room) :
    Written.readItems room (compactItems items ++ rest) = some (writtenItems items, rest) := by
  -- By induction on the items, which are told apart by the bracket or the comma behind each.
  induction items generalizing room with
  | nil => exact absurd rfl given
  | cons item items ih =>
    obtain ⟨room, rfl⟩ := Nat.exists_eq_add_one.mpr (Nat.zero_lt_of_lt fits)
    obtain ⟨first, others⟩ := List.forall_mem_cons.mp each
    cases items with
    | nil =>
      simp only [compactItems, List.length_append, List.length_cons, List.length_nil] at fits
      have last := first room (']' :: rest) (by simp [Ends]) (by omega)
      rw [compactItems, List.append_assoc, List.singleton_append, Written.readItems, last]
      simp only [Option.bind_eq_bind, Option.bind_some]
      rw [skip_cons (by decide)]
      rfl
    | cons next items =>
      have more : compactItems (item :: next :: items) =
          item.compactChars ++ ',' :: compactItems (next :: items) := rfl
      simp only [more, List.length_append, List.length_cons] at fits
      have before := first room (',' :: (compactItems (next :: items) ++ rest)) (by simp [Ends])
        (by omega)
      rw [more, List.append_assoc, List.cons_append, Written.readItems, before]
      simp only [Option.bind_eq_bind, Option.bind_some]
      rw [skip_cons (by decide)]
      -- The comma and the value in front of it pay for the step that the next item takes.
      simp only [ih others (by simp) room (by omega)]
      rfl

/-- A member is read up to the mark behind it, which tells whether another one comes. -/
theorem readMembers_member (name : String) {value : Json} (legible : value.Legible) {room : Nat}
    (fits : 2 * value.compactChars.length < room) {after : List Char} (ends : Ends after) :
    Written.readMembers (room + 1) (quote name ++ ':' :: (value.compactChars ++ after)) =
      match Written.skip after with
      | '\x7d' :: left => some ([(some name, value.written)], left)
      | ',' :: next => do
        let (members, left) ← Written.readMembers room next
        return ((some name, value.written) :: members, left)
      | _ => none := by
  -- The name and the colon are consumed, then the value reads itself within the room that is left.
  have opened : quote name ++ ':' :: (value.compactChars ++ after) =
      '"' :: (name.toList.flatMap escapeChar ++ '"' :: ':' :: (value.compactChars ++ after)) := by
    simp [quote]
  rw [Written.readMembers, opened, skip_cons (by decide)]
  simp only [readString_escape, Option.bind_eq_bind, Option.bind_some]
  rw [skip_cons (by decide)]
  simp only [legible room after ends fits, Option.bind_some]
  rfl

/-- Members are read up to the closing brace of their object. -/
theorem readMembers_compactMembers {members : List (String × Json)}
    (each : ∀ m ∈ members, m.2.Legible) (given : members ≠ []) (room : Nat) (rest : List Char)
    (fits : 2 * (compactMembers members).length < room) :
    Written.readMembers room (compactMembers members ++ rest) =
      some (writtenMembers members, rest) := by
  -- By induction on the members. Every member gives up one step of the room and at least that many
  -- characters.
  induction members generalizing room with
  | nil => exact absurd rfl given
  | cons m members ih =>
    obtain ⟨room, rfl⟩ := Nat.exists_eq_add_one.mpr (Nat.zero_lt_of_lt fits)
    obtain ⟨name, value⟩ := m
    obtain ⟨first, others⟩ : value.Legible ∧ ∀ m ∈ members, m.2.Legible :=
      List.forall_mem_cons.mp each
    cases members with
    | nil =>
      simp only [compactMembers, List.length_append, List.length_cons, List.length_nil] at fits
      -- The last member is followed by the closing bracket.
      have last : compactMembers [(name, value)] ++ rest =
          quote name ++ ':' :: (value.compactChars ++ '\x7d' :: rest) := by simp [compactMembers]
      rw [last, readMembers_member name first (by omega) (by simp [Ends])]
      rfl
    | cons next members =>
      -- Any other member is followed by a comma and the rest.
      have more : compactMembers ((name, value) :: next :: members) =
          quote name ++ ':' :: (value.compactChars ++ ',' :: compactMembers (next :: members)) := by
        simp [compactMembers]
      simp only [more, List.length_append, List.length_cons] at fits
      rw [more, List.append_assoc, List.cons_append, List.append_assoc, List.cons_append,
        readMembers_member name first (by omega) (by simp [Ends]), skip_cons (by decide)]
      simp only [ih others (by simp) room (by omega)]
      rfl

/-- An array is read if its items are; an item never looks like the end of the array. -/
theorem legible_array {items : List Json} (each : ∀ item ∈ items, item.Legible)
    (integral : ∀ item ∈ items, item.Integral) : Legible (array items) := by
  -- An empty array closes at once. Otherwise the first item is visible and no bracket, so the
  -- reader turns to the items.
  intro room rest ends fits
  obtain ⟨room, rfl⟩ := Nat.exists_eq_add_one.mpr (Nat.zero_lt_of_lt fits)
  cases items with
  | nil => simp [Written.read, compactChars, compactItems, Written.skip, written, writtenItems]
  | cons item items =>
    have read := readItems_compactItems each (by simp) room rest (by
      simp only [compactChars, List.length_cons] at fits
      omega)
    obtain ⟨c, cs, text, visible, bracket⟩ := (integral item List.mem_cons_self).front
    have opened : ∃ inside, compactItems (item :: items) = c :: inside := by
      cases items with
      | nil => exact ⟨_, congrArg (· ++ [']']) text⟩
      | cons next items => exact ⟨_, congrArg (· ++ ',' :: compactItems (next :: items)) text⟩
    obtain ⟨inside, opened⟩ := opened
    rw [opened, List.cons_append] at read
    rw [compactChars, List.cons_append, Written.read, skip_cons (by decide), opened,
      List.cons_append]
    simp only [skip_cons visible, read, Option.map_some]
    split
    · rename_i same
      exact absurd (List.cons.inj same).1 bracket
    · rfl

/-- An object is read if the values of its members are. -/
theorem legible_object {members : List (String × Json)} (each : ∀ m ∈ members, m.2.Legible) :
    Legible (object members) := by
  -- An empty object closes at once. Otherwise the first name opens with a mark, so the reader turns
  -- to the members.
  intro room rest ends fits
  obtain ⟨room, rfl⟩ := Nat.exists_eq_add_one.mpr (Nat.zero_lt_of_lt fits)
  cases members with
  | nil => simp [Written.read, compactChars, compactMembers, Written.skip, written, writtenMembers]
  | cons m members =>
    have read := readMembers_compactMembers each (by simp) room rest (by
      simp only [compactChars, List.length_cons] at fits
      omega)
    have opened : ∃ inside, compactMembers (m :: members) = '"' :: inside := by
      obtain ⟨name, value⟩ := m
      cases members with
      | nil => exact ⟨_, rfl⟩
      | cons next members => exact ⟨_, rfl⟩
    obtain ⟨inside, opened⟩ := opened
    rw [opened, List.cons_append] at read
    rw [compactChars, List.cons_append, Written.read, skip_cons (by decide), opened,
      List.cons_append]
    simp only [skip_cons (show '"' ∉ blanks by decide), read, Option.map_some]
    rfl

/-- The text of a value without doubles is read as its tree. -/
theorem Integral.legible {value : Json} (integral : value.Integral) : value.Legible := by
  -- By induction on the value, one lemma for each kind.
  induction integral with
  | null => exact legible_null
  | bool b => exact legible_bool b
  | integer v => exact legible_integer v
  | string text => exact legible_string text
  | array each ih => exact legible_array ih each
  | object each ih => exact legible_object ih

/-- A text of its own is read as the tree of the value for which it was written. -/
theorem Integral.ofText?_compact {value : Json} (integral : value.Integral) :
    Written.ofText? value.compact = some value.written := by
  -- The reader starts with twice as many steps as there are characters, which suffices, and leaves
  -- nothing.
  have read := integral.legible (2 * value.compactChars.length + 2) [] (by simp [Ends]) (by omega)
  rw [List.append_nil] at read
  rw [Written.ofText?, compact, String.toList_ofList]
  simp only [read, Option.bind_eq_bind, Option.bind_some]
  rfl

end Json

end QuickEntry
