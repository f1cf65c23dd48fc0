import QuickEntry.Json.Decoder
import QuickEntry.Proofs.Json.Written
import QuickEntry.Proofs.Lists
import QuickEntry.Proofs.OrderedMap

/-! Decoders that read a value back from the tree of its text if the containers in it are not nested
too deep, and otherwise refuse it. -/

namespace QuickEntry

namespace Json

mutual

/-- How deep containers are nested in a value. -/
def nesting : Json → Nat
  | null => 0
  | bool _ => 0
  | number _ => 0
  | string _ => 0
  | array items => nestingItems items + 1
  | object members => nestingMembers members + 1

/-- How deep containers are nested in the items of an array. -/
def nestingItems : List Json → Nat
  | [] => 0
  | item :: rest => max (nesting item) (nestingItems rest)

/-- How deep containers are nested in the members of an object. -/
def nestingMembers : List (String × Json) → Nat
  | [] => 0
  | (_, value) :: rest => max (nesting value) (nestingMembers rest)

end

/-- Room for an object is room for itself and for each of its members. -/
theorem nestingMembers_le {members : List (String × Json)} {room : Nat} :
    nestingMembers members ≤ room ↔ ∀ m ∈ members, m.2.nesting ≤ room := by
  -- The members are gone through one by one, each with the maximum so far.
  induction members with
  | nil => simp [nestingMembers]
  | cons m members ih => rw [nestingMembers, Nat.max_le, ih, List.forall_mem_cons]

/-- An object nests one container around each of its members. -/
theorem nesting_object_le {members : List (String × Json)} (around : Nat) {room : Nat} :
    (object members).nesting + around ≤ room ↔
      around + 1 ≤ room ∧ ∀ m ∈ members, m.2.nesting + (around + 1) ≤ room := by
  -- An object adds one container around its members, which shifts the room for each of them.
  rw [nesting]
  constructor
  · intro fits
    have inside : nestingMembers members ≤ room - (around + 1) := by omega
    refine ⟨by omega, fun m member => ?_⟩
    have below := nestingMembers_le.mp inside m member
    omega
  · rintro ⟨alone, each⟩
    have inside : nestingMembers members ≤ room - (around + 1) :=
      nestingMembers_le.mpr fun m member => Nat.le_sub_of_add_le (each m member)
    omega

/-- A text is no container. -/
theorem nesting_string (text : String) : (string text).nesting = 0 := by
  -- A string contains nothing.
  rw [nesting]

/-- The trees of members stand in their order. -/
theorem writtenMembers_eq_map (members : List (String × Json)) :
    writtenMembers members = members.map fun m => (some m.1, m.2.written) := by
  -- The definition recurses together with that of values; as a map it can be rewritten.
  induction members with
  | nil => rfl
  | cons m members ih => rw [writtenMembers, ih, List.map_cons]

/-- A decoder reads something back from the tree of a value if there is room for the value, and
otherwise refuses it. Decoders that bound their own depth are only asked with so much room. -/
def ReadsBack {α : Type} (limit : Nat) (decode : Decoder α) (value : Json) (x : α) : Prop :=
  ∀ room ≤ limit, decode room value.written = if value.nesting ≤ room then some x else none

variable {α : Type} {limit : Nat} {decode : Decoder α}

/-- A text is read back. -/
theorem readsBack_string (text : String) : ReadsBack limit .string (string text) text := by
  -- A string fits into any room, so that the guard is always open.
  intro room _
  rw [nesting_string, if_pos (Nat.zero_le room)]
  rfl

/-- What is not `null` is read back as something given. -/
theorem ReadsBack.orNull {value : Json} {x : α} (back : ReadsBack limit decode value x)
    (given : value.written ≠ .null) : ReadsBack limit decode.orNull value (some x) := by
  -- Only what is written as null would be taken for a missing value.
  intro room within
  have read : decode.orNull room value.written = (decode room value.written).map some := by
    rw [Decoder.orNull]
    exact given
  rw [read, back room within]
  split <;> rfl

/-- An object is read back if what it is entered for is read back from its members. -/
theorem readsBack_of_enter {members : List (String × Json)} {x : α} {read : Nat → Option α}
    (entered : ∀ room, decode room (object members).written = Decoder.enter read room)
    (inside : ∀ room ≤ limit,
      read room = if ∀ m ∈ members, m.2.nesting ≤ room then some x else none) :
    ReadsBack (limit + 1) decode (object members) x := by
  -- The object takes one container of the room, and the members have what is left.
  intro room within
  rw [entered]
  cases room with
  | zero =>
    rw [nesting, if_neg (Nat.not_succ_le_zero _)]
    rfl
  | succ room =>
    rw [Decoder.enter, inside room (Nat.le_of_succ_le_succ within)]
    simp only [nesting, Nat.add_le_add_iff_right, nestingMembers_le]

/-- All names in the text of an object are texts. -/
theorem named_writtenMembers (members : List (String × Json)) :
    Decoder.named (writtenMembers members) = some (members.map fun m => (m.1, m.2.written)) := by
  -- Written keys are plain strings, so that naming them never fails.
  rw [writtenMembers_eq_map, Decoder.named, List.mapM_map]
  exact mapM_eq_some_map members fun m _ => rfl

/-- A map is read back from the object of its entries if all its values are. -/
theorem readsBack_map (m : OrderedMap String α) (toJson : α → Json)
    (each : ∀ e ∈ m.entries, ReadsBack limit decode (toJson e.2) e.2) :
    ReadsBack (limit + 1) (.map decode) (object (m.entries.map fun e => (e.1, toJson e.2))) m := by
  refine readsBack_of_enter (fun room => rfl) fun room within => ?_
  rw [named_writtenMembers, List.map_map, Option.bind_eq_bind, Option.bind_some, List.mapM_map]
  have entry : ∀ e ∈ m.entries, (do return (e.1, ← decode room (toJson e.2).written)) =
      if (toJson e.2).nesting ≤ room then some e else none := by
    intro e member
    rw [each e member room within]
    split <;> rfl
  have read := mapM_eq_ite (g := id) m.entries entry
  -- Names that are all different build the map in their order.
  have built : OrderedMap.ofList m.entries = m :=
    OrderedMap.ext (OrderedMap.entries_ofList m.keys_nodup)
  simp only [List.forall_mem_map]
  refine (congrArg (Option.bind · _) read).trans ?_
  rw [bind_ite_some, List.map_id, built]
  rfl

/-- The members of an object, to be read by name. -/
def membersOf (members : List (String × Json)) (room : Nat) : Members :=
  ⟨false, members.map fun m => (m.1, m.2.written), room⟩

/-- A record whose members have known names, and in their order, is entered for all of them. -/
theorem record_written {names : List String} (distinct : names.Nodup) (body : Members → Option α)
    {members : List (String × Json)} (known : (members.map Prod.fst).Sublist names) (room : Nat) :
    Decoder.record names body room (object members).written =
      Decoder.enter (fun room => body (membersOf members room)) room := by
  -- Nothing is written that the record does not know, and nothing twice; so neither the filter for
  -- known names nor the check for repeated ones does anything.
  have given : ((members.map fun m => (m.1, m.2.written)).filter (names.contains ·.1)) =
      members.map fun m => (m.1, m.2.written) := by
    rw [List.filter_eq_self, List.forall_mem_map]
    intro m member
    exact List.contains_iff_mem.mpr (known.subset (List.mem_map_of_mem member))
  have keys : (members.map fun m => (m.1, m.2.written)).map Prod.fst = members.map Prod.fst := by
    rw [List.map_map]
    rfl
  have once : (members.map Prod.fst).eraseDups = members.map Prod.fst :=
    eraseDups_of_nodup (distinct.sublist known)
  rw [Decoder.record, written, Decoder.recordWith]
  congr 1
  funext room
  rw [named_writtenMembers, Option.bind_eq_bind, Option.bind_some]
  simp only [given, keys, once]
  simp [membersOf]

/-- Under a name stands the tree of the member of that name. -/
theorem lookup_membersOf (members : List (String × Json)) (name : String) (room : Nat) :
    (membersOf members room).given.lookup name = (members.lookup name).map written := by
  -- Written members keep their names and their order, so that both look-ups stop at the same one.
  induction members with
  | nil => rfl
  | cons m members ih =>
    rw [membersOf, List.map_cons, OrderedMap.lookup_cons_eq, OrderedMap.lookup_cons_eq]
    split
    · rfl
    · exact ih

/-- A value that is no container: nothing, a truth value, a text, or an integer of 64 bits, signed or
unsigned. -/
inductive Plain : Json → Prop where
  | null : Plain .null
  | bool (b : Bool) : Plain (.bool b)
  | string (text : String) : Plain (.string text)
  | integer {v : Int} (low : -2 ^ 63 ≤ v) (high : v < 2 ^ 64) : Plain (.number (.integer v))

/-- A plain value contains no double. -/
theorem Plain.integral {value : Json} (plain : value.Plain) : value.Integral := by
  -- What is plain is a value without parts, and its only number is an integer.
  cases plain with
  | null => exact .null
  | bool b => exact .bool b
  | string text => exact .string text
  | integer low high => exact .integer _

/-- A plain value is no container. -/
theorem Plain.nesting_eq {value : Json} (plain : value.Plain) : value.nesting = 0 := by
  -- No plain value is a container.
  cases plain <;> rw [nesting]

/-- A plain value is read back as it is. -/
theorem Plain.readsBack {value : Json} (plain : value.Plain) :
    ReadsBack limit .json value value := by
  -- Only the integer is not read back at once: its digits have to give the same number again.
  intro room _
  cases plain with
  | null => simp [written, Decoder.json, nesting]
  | bool b => simp [written, Decoder.json, nesting]
  | string text => simp [written, Decoder.json, nesting]
  | integer low high =>
    simp [written, Decoder.json, nesting, Numeral.ofNumber, Numeral.value?_ofInt low high]

section Members

variable {members : List (String × Json)} {name : String} {value : Json} {x : α} {room : Nat}

/-- A member that must be given is read back. -/
theorem required_membersOf (given : members.lookup name = some value)
    (back : ReadsBack limit decode value x) (within : room ≤ limit) :
    (membersOf members room).required name decode =
      if value.nesting ≤ room then some x else none := by
  -- The member is there, and its own decoder decides.
  rw [Members.required, lookup_membersOf, given]
  exact back room within

/-- A member that is given is read back even if it may be missing. -/
theorem withDefault_membersOf (default : α) (given : members.lookup name = some value)
    (back : ReadsBack limit decode value x) (within : room ≤ limit) :
    (membersOf members room).withDefault name decode default =
      if value.nesting ≤ room then some x else none := by
  -- The default does not come into play, since the member is there.
  rw [Members.withDefault, lookup_membersOf, given]
  exact back room within

/-- A member that may be missing is read back as what it is, given or not. -/
theorem orNull_membersOf {β : Type} {toJson : β → Json} {decode : Decoder β} {y : Option β}
    (given : members.lookup name = y.map toJson)
    (back : ∀ z ∈ y, ReadsBack limit decode (toJson z) z)
    (apart : ∀ z, (toJson z).written ≠ .null) (within : room ≤ limit) :
    (membersOf members room).orNull name decode =
      if ∀ z ∈ y, (toJson z).nesting ≤ room then some y else none := by
  -- A value that is left out reads as missing, and one that is written is never null, so that the
  -- two cannot be confused.
  rw [Members.orNull, Members.withDefault, lookup_membersOf, given]
  cases y with
  | none => simp
  | some z =>
    simp only [Option.mem_some_iff, forall_eq']
    exact (back z rfl).orNull (apart z) room within

end Members

/-- A value without doubles is read back from a text of its own if its containers are not nested too
deep. -/
theorem ReadsBack.ofText?_compact {value : Json} {x : α} (integral : value.Integral)
    (back : ReadsBack maxNesting decode value x) :
    decode.ofText? value.compact = if value.nesting ≤ maxNesting then some x else none := by
  -- The text is first parsed into what was written, which is then decoded with all the room there
  -- is.
  rw [Decoder.ofText?, integral.ofText?_compact, Option.bind_some]
  exact back maxNesting (Nat.le_refl _)

end Json

end QuickEntry
