/-! A map that lists its entries in the order in which their keys were first given. -/

namespace QuickEntry

universe u v w

/-- Entries in order of first insertion, each key once. -/
structure OrderedMap (κ : Type u) (ν : Type v) where
  /-- The entries, oldest key first. -/
  entries : List (κ × ν)
  /-- No key has two entries. -/
  keys_nodup : (entries.map Prod.fst).Nodup
deriving DecidableEq

namespace OrderedMap

variable {κ : Type u} {ν : Type v}

/-- The map without entries. -/
def empty : OrderedMap κ ν := ⟨[], List.nodup_nil⟩

instance : EmptyCollection (OrderedMap κ ν) := ⟨empty⟩

instance : Inhabited (OrderedMap κ ν) := ⟨empty⟩

instance [Repr κ] [Repr ν] : Repr (OrderedMap κ ν) := ⟨fun m => reprPrec m.entries⟩

/-- The keys, oldest first. -/
def keys (m : OrderedMap κ ν) : List κ := m.entries.map Prod.fst

/-- The values in the order of their keys. -/
def values (m : OrderedMap κ ν) : List ν := m.entries.map Prod.snd

/-- The number of entries. -/
def size (m : OrderedMap κ ν) : Nat := m.entries.length

/-- A map without entries is empty. -/
def isEmpty (m : OrderedMap κ ν) : Bool := m.entries.isEmpty

/-- Two maps with the same entries in the same order are the same map. -/
@[ext] theorem ext {a b : OrderedMap κ ν} (same : a.entries = b.entries) : a = b := by
  -- The distinctness of the keys is a proof and adds nothing to compare.
  cases a; cases b; cases same; rfl

variable [DecidableEq κ]

/-- The value under a key. -/
def get? (m : OrderedMap κ ν) (key : κ) : Option ν := m.entries.lookup key

/-- A key with a value is in the map. -/
def contains (m : OrderedMap κ ν) (key : κ) : Bool := (m.get? key).isSome

/-- Replacing values leaves the keys of a list of entries alone. -/
theorem map_fst_replace (entries : List (κ × ν)) (key : κ) (f : ν → ν) :
    (entries.map fun e => if e.1 = key then (e.1, f e.2) else e).map Prod.fst =
      entries.map Prod.fst := by
  -- Only the second component of an entry is ever replaced.
  induction entries with
  | nil => rfl
  | cons e rest ih =>
    simp only [List.map_cons, ih]
    split <;> rfl

/-- A search looks at the first entry, and at the others only if its key is another one. -/
theorem lookup_cons_eq (e : κ × ν) (rest : List (κ × ν)) (key : κ) :
    (e :: rest).lookup key = if key = e.1 then some e.2 else rest.lookup key := by
  -- Equality of keys is decided, so that the test is the proposition.
  obtain ⟨k, v⟩ := e
  rw [List.lookup_cons]
  by_cases same : key = k
  · simp [same]
  · have apart : (key == k) = false := by simpa using same
    simp [apart, same]

/-- A key is among the entries exactly when it can be looked up. -/
theorem isSome_lookup (entries : List (κ × ν)) (key : κ) :
    (entries.lookup key).isSome = true ↔ key ∈ entries.map Prod.fst := by
  -- The search stops at the first entry of that key, wherever it stands.
  induction entries with
  | nil => simp
  | cons e rest ih =>
    rw [lookup_cons_eq]
    by_cases same : key = e.1
    · simp [same]
    · simp [same, ih]

/-- Change the value under a key, which keeps its place; without that key nothing changes. -/
def modify (m : OrderedMap κ ν) (key : κ) (f : ν → ν) : OrderedMap κ ν where
  entries := m.entries.map fun e => if e.1 = key then (e.1, f e.2) else e
  keys_nodup := by rw [map_fst_replace]; exact m.keys_nodup

/-- Put a value under a key: a known key keeps its place, a new one goes to the end. -/
def insert (m : OrderedMap κ ν) (key : κ) (value : ν) : OrderedMap κ ν :=
  -- A known key keeps its entry, so that its age stays the same.
  if present : m.contains key then m.modify key fun _ => value
  else {
    entries := m.entries ++ [(key, value)]
    keys_nodup := by
      -- A key that cannot be looked up is not among the old keys.
      have absent : key ∉ m.entries.map Prod.fst := fun member =>
        present ((isSome_lookup m.entries key).mpr member)
      rw [List.map_append, List.nodup_append]
      refine ⟨m.keys_nodup, by simp, ?_⟩
      intro old member new fresh same
      simp only [List.map_cons, List.map_nil, List.mem_singleton] at fresh
      exact absent (fresh ▸ same ▸ member)
  }

/-- Take a key out; the others keep their order. -/
def erase (m : OrderedMap κ ν) (key : κ) : OrderedMap κ ν where
  -- Leaving out an entry moves none of the others.
  entries := m.entries.filter fun e => e.1 ≠ key
  keys_nodup := m.keys_nodup.sublist (List.filter_sublist.map Prod.fst)

/-- A key is among the keys exactly when it is in the map. -/
theorem mem_keys_iff (m : OrderedMap κ ν) (key : κ) : key ∈ m.keys ↔ m.contains key = true :=
  -- Both ask whether the key is there.
  (isSome_lookup m.entries key).symm

/-- The empty map has no value under any key. -/
@[simp] theorem get?_empty (key : κ) : (empty : OrderedMap κ ν).get? key = none := rfl

/-- Only the value under the changed key is changed. -/
theorem get?_modify (m : OrderedMap κ ν) (key other : κ) (f : ν → ν) :
    (m.modify key f).get? other = if other = key then (m.get? key).map f else m.get? other := by
  -- The search meets the same keys in the same order, and replacing spares all but one of them.
  have general : ∀ entries : List (κ × ν),
      (entries.map fun e => if e.1 = key then (e.1, f e.2) else e).lookup other =
        if other = key then (entries.lookup key).map f else entries.lookup other := by
    intro entries
    induction entries with
    | nil => simp
    | cons e rest ih =>
      simp only [List.map_cons, lookup_cons_eq, ih]
      by_cases here : e.1 = key
      · by_cases wanted : other = key <;> simp [here, wanted]
      · by_cases wanted : other = key
        · have apart : ¬key = e.1 := fun same => here same.symm
          simp [here, wanted, apart]
        · simp [here, wanted]
  exact general m.entries

/-- Changing a value leaves the keys and their order alone. -/
@[simp] theorem keys_modify (m : OrderedMap κ ν) (key : κ) (f : ν → ν) :
    (m.modify key f).keys = m.keys :=
  -- The value is replaced where it stands.
  map_fst_replace m.entries key f

/-- The value put under a key is found there, and all others are where they were. -/
theorem get?_insert (m : OrderedMap κ ν) (key other : κ) (value : ν) :
    (m.insert key value).get? other = if other = key then some value else m.get? other := by
  -- A known key changes in place, and a new one is found behind all others.
  unfold insert
  split
  case isTrue present =>
    obtain ⟨old, found⟩ := Option.isSome_iff_exists.mp present
    simp [get?_modify, found]
  case isFalse absent =>
    have missing : m.entries.lookup key = none := Option.not_isSome_iff_eq_none.mp absent
    by_cases wanted : other = key
    · simp [get?, List.lookup_append, lookup_cons_eq, wanted, missing]
    · simp [get?, List.lookup_append, lookup_cons_eq, wanted]

/-- A known key keeps its place and a new one goes to the end. -/
theorem keys_insert (m : OrderedMap κ ν) (key : κ) (value : ν) :
    (m.insert key value).keys = if m.contains key then m.keys else m.keys ++ [key] := by
  -- Each case of the definition shows its keys at once.
  unfold insert
  split
  case isTrue => exact keys_modify m key _
  case isFalse => simp [keys]

/-- The value under an erased key is gone, and all others are where they were. -/
theorem get?_erase (m : OrderedMap κ ν) (key other : κ) :
    (m.erase key).get? other = if other = key then none else m.get? other := by
  -- The entries left out are those that a search for the key would have found.
  have general : ∀ entries : List (κ × ν),
      (entries.filter fun e => e.1 ≠ key).lookup other =
        if other = key then none else entries.lookup other := by
    intro entries
    induction entries with
    | nil => simp
    | cons e rest ih =>
      by_cases here : e.1 = key
      · rw [List.filter_cons_of_neg (by simpa using here), ih, lookup_cons_eq]
        by_cases wanted : other = key <;> simp [here, wanted]
      · rw [List.filter_cons_of_pos (by simpa using here), lookup_cons_eq, lookup_cons_eq, ih]
        by_cases wanted : other = key
        · have apart : ¬key = e.1 := fun same => here same.symm
          simp [wanted, apart]
        · simp [wanted]
  exact general m.entries

/-- Erasing a key leaves the order of the others alone. -/
theorem keys_erase (m : OrderedMap κ ν) (key : κ) :
    (m.erase key).keys = m.keys.filter fun k => k ≠ key := by
  -- An entry goes exactly when its key does.
  simp [keys, erase, List.filter_map, Function.comp_def]

/-- The map that a list of entries builds from left to right; a repeated key keeps its first
place and takes its last value. -/
def ofList (entries : List (κ × ν)) : OrderedMap κ ν :=
  -- Insertion is what decides between repeated keys.
  entries.foldl (fun m e => m.insert e.1 e.2) empty

/-- The map that keeps the first of several entries with the same key. -/
def ofFirst (entries : List (κ × ν)) : OrderedMap κ ν :=
  -- An entry counts only while its key is still free.
  entries.foldl (fun m e => if m.contains e.1 then m else m.insert e.1 e.2) empty

/-- Two maps hold the same values under the same keys, in whatever order. -/
def Same (a b : OrderedMap κ ν) : Prop := ∀ key, a.get? key = b.get? key

/-- Whether two maps hold the same values under the same keys, in whatever order. -/
def same [DecidableEq ν] (a b : OrderedMap κ ν) : Bool :=
  -- Keys are distinct, so that equal sizes and one inclusion are enough.
  a.size = b.size && a.entries.all fun e => b.get? e.1 = some e.2

end OrderedMap

end QuickEntry
