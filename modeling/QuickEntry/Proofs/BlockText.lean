import QuickEntry.Block
import QuickEntry.Proofs.Json.Decoder

/-! Descriptions of blocks read back from the texts for which they were written. -/

namespace QuickEntry

namespace Block

open Json (ReadsBack membersOf)

/-- A block, with all blocks in it, whose fields have plain values and whose inputs have different
names. -/
inductive Portable : Block → Prop where
  | intro {kind : String} {label : Option String} {fields : OrderedMap String Json}
    {extraState : Option String} {inputs : List (String × Block)} {next : Option Block}
    (plain : ∀ e ∈ fields.entries, e.2.Plain) (distinct : (inputs.map Prod.fst).Nodup)
    (inside : ∀ e ∈ inputs, Portable e.2) (behind : ∀ b ∈ next, Portable b) :
    Portable ⟨kind, label, fields, extraState, inputs, next⟩

/-- A block as what an input holds, or as what follows. -/
def wrapped (b : Block) : Json := .object [("block", b.toJson)]

/-- The inputs stand in their order. -/
theorem inputsToJson_eq_map (inputs : List (String × Block)) :
    inputsToJson inputs = inputs.map fun e => (e.1, e.2.wrapped) := by
  -- The recursion goes through the inputs one by one.
  induction inputs with
  | nil => rfl
  | cons e inputs ih =>
    rw [inputsToJson, ih]
    rfl

/-- The members of a block. -/
def members (b : Block) : List (String × Json) :=
  ("type", .string b.kind) :: b.label.toList.map (fun name => ("alias", .string name)) ++
    ("fields", .object b.fields.entries) ::
    b.extraState.toList.map (fun text => ("extraState", .string text)) ++
    ("inputs", .object (b.inputs.map fun e => (e.1, e.2.wrapped))) ::
    b.next.toList.map (fun b => ("next", b.wrapped))

/-- A block is written as the object of its members. -/
theorem toJson_eq (b : Block) : b.toJson = .object b.members := by
  -- The two ways of writing a block differ only in how they skip the absent parts.
  obtain ⟨kind, label, fields, extraState, inputs, next⟩ := b
  rw [toJson, inputsToJson_eq_map]
  cases next <;> rfl

/-- The names of members, in their order. -/
def names : List String := ["type", "alias", "fields", "extraState", "inputs", "next"]

/-- The members come in the order of their names, and only some of them may be missing. -/
theorem names_members (b : Block) : (b.members.map Prod.fst).Sublist names := by
  -- An absent part leaves its name out, which keeps the order of the others.
  obtain ⟨kind, label, fields, extraState, inputs, next⟩ := b
  cases label <;> cases extraState <;> cases next <;>
    simp [members, names, List.cons_sublist_cons]

/-- Each member stands under its name. -/
theorem lookup_members (b : Block) :
    b.members.lookup "type" = some (.string b.kind) ∧
    b.members.lookup "alias" = b.label.map .string ∧
    b.members.lookup "fields" = some (.object b.fields.entries) ∧
    b.members.lookup "extraState" = b.extraState.map .string ∧
    b.members.lookup "inputs" = some (.object (b.inputs.map fun e => (e.1, e.2.wrapped))) ∧
    b.members.lookup "next" = b.next.map wrapped := by
  -- The names are pairwise different, so each finds its own part or nothing.
  obtain ⟨kind, label, fields, extraState, inputs, next⟩ := b
  cases label <;> cases extraState <;> cases next <;> simp [members, List.lookup_cons]

/-- A condition on all members is one on each kind of them. -/
theorem forall_members {b : Block} {p : Json → Prop} :
    (∀ m ∈ b.members, p m.2) ↔
      p (.string b.kind) ∧ (∀ name ∈ b.label, p (.string name)) ∧ p (.object b.fields.entries) ∧
      (∀ text ∈ b.extraState, p (.string text)) ∧
      p (.object (b.inputs.map fun e => (e.1, e.2.wrapped))) ∧ ∀ z ∈ b.next, p z.wrapped := by
  -- The parts are listed one after another, the absent ones as empty lists.
  simp only [members, List.forall_mem_append, List.forall_mem_cons, List.forall_mem_map,
    Option.mem_toList, Option.mem_def, and_assoc]

/-- A block is put together again from its parts. -/
theorem eta (b : Block) : ⟨b.kind, b.label, b.fields, b.extraState, b.inputs, b.next⟩ = b := by
  cases b
  rfl

/-- Read a block in an input, or one that follows. -/
def inputDecoder (depth : Nat) : Json.Decoder Block :=
  .record ["block"] fun m => m.required "block" (decoderAt depth)

/-- Read a block from its members. -/
def assemble (depth : Nat) (m : Json.Members) : Option Block := do
  return {
    kind := ← m.required "type" .string
    label := ← m.orNull "alias" .string
    fields := ← m.withDefault "fields" (.map .json) ∅
    extraState := ← m.orNull "extraState" .string
    inputs := (← m.withDefault "inputs" (.map (inputDecoder depth)) ∅).entries
    next := ← m.orNull "next" (inputDecoder depth) }

/-- A block in an input is read back if it is read back on its own. -/
theorem readsBack_wrapped {b : Block} {depth limit : Nat}
    (back : ReadsBack limit (decoderAt depth) b.toJson b) :
    ReadsBack (limit + 1) (inputDecoder depth) b.wrapped b := by
  -- The object around a block has one member, which costs one level of nesting.
  refine Json.readsBack_of_enter
    (Json.record_written (List.nodup_singleton "block") _ (List.Sublist.refl _)) ?_
  intro room within
  refine (Json.required_membersOf rfl back within).trans ?_
  simp

/-- Plain values of fields are read back in their order. -/
theorem readsBack_fields {fields : OrderedMap String Json} {limit : Nat}
    (plain : ∀ e ∈ fields.entries, e.2.Plain) :
    ReadsBack (limit + 1) (.map .json) (.object fields.entries) fields := by
  -- A plain value reads back as itself.
  have values : ∀ e ∈ fields.entries, ReadsBack limit .json e.2 e.2 :=
    fun e member => (plain e member).readsBack
  have back := Json.readsBack_map fields (fun value => value) values
  rwa [show (fields.entries.map fun e => (e.1, e.2)) = fields.entries from List.map_id _] at back

/-- A block is put together from its members if there is room for all of them. -/
theorem assemble_members {b : Block} {depth room : Nat} (within : room ≤ depth)
    (plain : ∀ e ∈ b.fields.entries, e.2.Plain) (distinct : (b.inputs.map Prod.fst).Nodup)
    (inside : ∀ e ∈ b.inputs, ReadsBack depth (decoderAt depth) e.2.toJson e.2)
    (behind : ∀ z ∈ b.next, ReadsBack depth (decoderAt depth) z.toJson z) :
    assemble depth (membersOf b.members room) =
      if ∀ m ∈ b.members, m.2.nesting ≤ room then some b else none := by
  obtain ⟨kind, label, fields, extraState, inputs, next⟩ := b.lookup_members
  have kindRead := Json.required_membersOf kind (Json.readsBack_string _) within
  have labelRead := Json.orNull_membersOf label (fun z _ => Json.readsBack_string z)
    (fun z => by simp [Json.written]) within
  have fieldsRead := Json.withDefault_membersOf ∅ fields (readsBack_fields plain)
    (Nat.le_succ_of_le within)
  have extraRead := Json.orNull_membersOf extraState (fun z _ => Json.readsBack_string z)
    (fun z => by simp [Json.written]) within
  have inputsRead := Json.withDefault_membersOf ∅ inputs
    (Json.readsBack_map ⟨b.inputs, distinct⟩ wrapped fun e member =>
      readsBack_wrapped (inside e member)) (show room ≤ depth + 1 + 1 by omega)
  have nextRead := Json.orNull_membersOf next (fun z given => readsBack_wrapped (behind z given))
    (fun z => by simp [wrapped, Json.written]) (show room ≤ depth + 1 by omega)
  -- Each member is read on its own condition, and texts have none.
  rw [assemble, kindRead, labelRead, fieldsRead, extraRead, inputsRead, nextRead]
  simp only [forall_members (p := fun value => value.nesting ≤ room), true_and, ite_and,
    Json.nesting_string, Nat.zero_le, implies_true, if_true, bind_ite_some,
    Option.bind_eq_bind, Option.bind_some, Option.pure_def, eta]

/-- Portable blocks are read back at every depth, as far as there is room. -/
theorem Portable.readsBack {b : Block} (portable : b.Portable) (depth : Nat) :
    ReadsBack depth (decoderAt depth) b.toJson b := by
  induction portable generalizing depth with
  | intro plain distinct inside behind ihInside ihBehind =>
    rw [toJson_eq]
    -- The depth goes down by one where the room goes down by two or three, so that it suffices.
    cases depth with
    | zero =>
      intro room within
      rw [Json.nesting, if_neg (by omega)]
      rfl
    | succ depth =>
      refine Json.readsBack_of_enter
        (Json.record_written (by decide) (assemble depth) (names_members _)) fun room within => ?_
      exact assemble_members within plain distinct (fun e member => ihInside e member depth)
        (fun z given => ihBehind z given depth)

/-- The text of a portable block contains no double. -/
theorem Portable.integral {b : Block} (portable : b.Portable) : b.toJson.Integral := by
  -- By induction over the block: the numbers are those of its fields and of the blocks it holds.
  induction portable with
  | intro plain distinct inside behind ihInside ihBehind =>
    rw [toJson_eq]
    have wrapped : ∀ b : Block, b.toJson.Integral → b.wrapped.Integral :=
      fun b integral => .object (List.forall_mem_singleton.mpr integral)
    refine .object (forall_members.mpr ⟨.string _, fun name _ => .string name, ?_,
      fun text _ => .string text, ?_, fun b given => wrapped b (ihBehind b given)⟩)
    · exact .object fun e member => (plain e member).integral
    · exact .object (List.forall_mem_map.mpr fun e member => wrapped e.2 (ihInside e member))

/-- A portable block is read back from its text if its containers are not nested too deep. -/
theorem Portable.ofText?_compact {b : Block} (portable : b.Portable) :
    decoder.ofText? b.toJson.compact =
      if b.toJson.nesting ≤ Json.maxNesting then some b else none :=
  -- What is printed has no fractions, so the printer and the reader agree on it.
  (portable.readsBack Json.maxNesting).ofText?_compact portable.integral

/-- A block nests two containers, two more around the block behind it and three more around each
block in an input. -/
theorem Portable.nesting_le_iff {b : Block} (portable : b.Portable) (room : Nat) :
    b.toJson.nesting ≤ room ↔ 2 ≤ room ∧ (∀ e ∈ b.inputs, e.2.toJson.nesting + 3 ≤ room) ∧
      ∀ z ∈ b.next, z.toJson.nesting + 2 ≤ room := by
  -- What wraps a block is one more container around it.
  have wrappedFits : ∀ (z : Block) (around : Nat),
      z.wrapped.nesting + around ≤ room ↔ z.toJson.nesting + (around + 1) ≤ room := by
    intro z around
    rw [wrapped, Json.nesting_object_le, List.forall_mem_singleton]
    exact and_iff_right_of_imp (Nat.le_trans (Nat.le_add_left _ _))
  have plain : ∀ e ∈ b.fields.entries, e.2.nesting = 0 := by
    obtain ⟨plain, _, _, _⟩ := portable
    exact fun e member => (plain e member).nesting_eq
  rw [toJson_eq]
  refine (Json.nesting_object_le 0).trans ?_
  rw [forall_members (p := fun value => value.nesting + (0 + 1) ≤ room)]
  simp only [Json.nesting_object_le, Json.nesting_string, List.forall_mem_map, wrappedFits]
  constructor
  · rintro ⟨_, _, _, ⟨two, _⟩, _, ⟨_, inside⟩, behind⟩
    exact ⟨two, inside, behind⟩
  · rintro ⟨two, inside, behind⟩
    -- The texts of a block and the values of its fields fit where the block itself does.
    have one : 1 ≤ room := Nat.le_of_succ_le two
    exact ⟨one, one, fun _ _ => one, ⟨two, fun e member => by rwa [plain e member]⟩,
      fun _ _ => one, ⟨two, inside⟩, behind⟩

/-- The text of a block, with any blocks in its inputs and behind it, is read as this block, with
fields and inputs in their order, if no more than 127 containers are nested in it; otherwise it is
refused. A block nests two containers, two more around the block behind it and three more around each
block in an input. Values of fields are nothing, truth values, texts or integers of 64 bits. -/
theorem compact_reads_back (b : Block) (portable : b.Portable) :
    decoder.ofText? b.toJson.compact = (if b.toJson.nesting ≤ 127 then some b else none) ∧
    ∀ room, b.toJson.nesting ≤ room ↔ 2 ≤ room ∧
      (∀ e ∈ b.inputs, e.2.toJson.nesting + 3 ≤ room) ∧
      ∀ z ∈ b.next, z.toJson.nesting + 2 ≤ room :=
  -- The limit of the reader is 127 containers, and each part needs what its own level adds.
  ⟨portable.ofText?_compact, portable.nesting_le_iff⟩

/-- A block of a kind that has nothing in it but perhaps a block behind it. -/
def bare (kind : String) (next : Option Block) : Block := ⟨kind, none, ∅, none, [], next⟩

/-- A block with nothing in it is portable if the one behind it is. -/
theorem portable_bare (kind : String) {next : Option Block} (behind : ∀ b ∈ next, b.Portable) :
    (bare kind next).Portable :=
  -- Without fields and inputs only the block behind can hold anything.
  .intro (fun _ member => (List.not_mem_nil member).elim) List.nodup_nil
    (fun _ member => (List.not_mem_nil member).elim) behind

/-- A block with every kind of member is read as it was, since it nests no more than five
containers. -/
theorem compact_reads_back_full :
    let fields : OrderedMap String Json := ⟨[("NUM", .number (.integer (2 ^ 64 - 1))),
      ("LOW", .number (.integer (-2 ^ 63))), ("ON", .bool true), ("NONE", .null),
      ("A", .string "\"\n\\é")], by decide⟩
    let b : Block := ⟨"text_join", some "greeting", fields, some "<mutation items=\"2\"/>",
      [("ADD1", bare "text" none), ("ADD0", bare "math_number" none)],
      some (bare "text_print" none)⟩
    b.Portable ∧ b.toJson.nesting ≤ 5 ∧ decoder.ofText? b.toJson.compact = some b := by
  -- Every part of a block is present, with each kind of value among the fields.
  intro fields b
  have alone (kind : String) : (bare kind none).Portable := portable_bare kind (by simp)
  have portable : b.Portable := by
    refine .intro ?_ (by decide) ?_ ?_
    · simp only [fields, List.forall_mem_cons]
      exact ⟨.integer (by decide) (by decide), .integer (by decide) (by decide), .bool true, .null,
        .string _, List.forall_mem_nil _⟩
    · simp only [List.forall_mem_cons]
      exact ⟨alone _, alone _, List.forall_mem_nil _⟩
    · rintro _ ⟨⟩
      exact alone _
  obtain ⟨read, nests⟩ := compact_reads_back b portable
  have five : b.toJson.nesting ≤ 5 := by
    refine (nests 5).mpr ⟨by decide, ?_, ?_⟩
    · simp only [b, List.forall_mem_cons]
      exact ⟨by decide, by decide, List.forall_mem_nil _⟩
    · rintro _ ⟨⟩
      decide
  exact ⟨portable, five, read.trans (if_pos (Nat.le_trans five (by decide)))⟩

/-- A block with some blocks behind it. -/
def chain : Nat → Block
  | 0 => bare "controls_while" none
  | n + 1 => bare "controls_while" (some (chain n))

/-- Every block in a chain is portable. -/
theorem portable_chain (n : Nat) : (chain n).Portable := by
  -- One block at a time, from the last of the chain.
  induction n with
  | zero => exact portable_bare _ (by simp)
  | succ n ih => exact portable_bare _ (by simpa using ih)

/-- Each block nests two containers around those behind it. -/
theorem nesting_chain (n : Nat) : (chain n).toJson.nesting = 2 * n + 2 := by
  -- Each block adds the object that wraps its follower and the follower itself.
  induction n with
  | zero => decide
  | succ n ih =>
    -- The nesting is known through the rooms it fits into.
    refine eq_of_forall_ge_iff fun room => ?_
    rw [(portable_chain (n + 1)).nesting_le_iff]
    simp only [chain, bare, List.not_mem_nil, false_implies, implies_true, true_and,
      Option.mem_some_iff, forall_eq', ih]
    omega

/-- A chain is read back if it has at most 63 blocks. -/
theorem ofText?_chain (n : Nat) :
    decoder.ofText? (chain n).toJson.compact = if n < 63 then some (chain n) else none := by
  -- A chain fits as long as twice its length stays below the limit of the reader.
  have fits : (chain n).toJson.nesting ≤ Json.maxNesting ↔ n < 63 := by
    rw [nesting_chain, Json.maxNesting]
    omega
  rw [(portable_chain n).ofText?_compact]
  simp only [fits]

/-- A chain of 64 blocks is refused although it is portable. -/
theorem long_chain_refused :
    (chain 63).Portable ∧ decoder.ofText? (chain 63).toJson.compact = none :=
  -- The first chain that is refused, 64 blocks long.
  ⟨portable_chain 63, ofText?_chain 63⟩

end Block

end QuickEntry
