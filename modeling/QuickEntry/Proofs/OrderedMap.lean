import Mathlib.Data.List.Nodup
import Mathlib.Data.List.Perm.Subperm
import Mathlib.Tactic.Common
import QuickEntry.OrderedMap

/-! When two ordered maps are equal, and which entries a map has. -/

namespace QuickEntry

namespace OrderedMap

universe u v

variable {κ : Type u} {ν : Type v} [DecidableEq κ]

/-- A key that is in the map has a value. -/
theorem contains_iff {m : OrderedMap κ ν} {key : κ} :
    m.contains key = true ↔ ∃ value, m.get? key = some value := by
  -- Containment is the presence of a value.
  simp [contains, Option.isSome_iff_exists]

/-- A key that is not in the map has no value. -/
theorem contains_eq_false_iff {m : OrderedMap κ ν} {key : κ} :
    m.contains key = false ↔ m.get? key = none := by
  -- Containment is the presence of a value.
  simp [contains]

/-- A key that is not in the map is not among the keys. -/
theorem not_mem_keys {m : OrderedMap κ ν} {key : κ} (absent : m.get? key = none) :
    key ∉ m.keys := by
  -- Each key has a value.
  rw [mem_keys_iff, contains, absent]
  simp

/-- Entries are determined by the order of their distinct keys and the values found under them. -/
theorem entries_eq_of_lookup {xs ys : List (κ × ν)} (keys : xs.map Prod.fst = ys.map Prod.fst)
    (distinct : (xs.map Prod.fst).Nodup) (found : ∀ key, xs.lookup key = ys.lookup key) :
    xs = ys := by
  -- The heads have one key, and no later entry has it.
  induction xs generalizing ys with
  | nil =>
    cases ys with
    | nil => rfl
    | cons y ys => simp at keys
  | cons x xs ih =>
    cases ys with
    | nil => simp at keys
    | cons y ys =>
      simp only [List.map_cons, List.cons.injEq] at keys
      obtain ⟨head, tail⟩ := keys
      simp only [List.map_cons, List.nodup_cons] at distinct
      have value : x.2 = y.2 := by
        have first := found x.1
        rw [lookup_cons_eq, lookup_cons_eq, if_pos rfl, if_pos head] at first
        exact Option.some.inj first
      have rest : ∀ key, xs.lookup key = ys.lookup key := by
        intro key
        by_cases same : key = x.1
        · -- Under the key of the heads neither rest has a value.
          have left : xs.lookup key = none := by
            rw [← Option.not_isSome_iff_eq_none, isSome_lookup, same]
            exact distinct.1
          have right : ys.lookup key = none := by
            rw [← Option.not_isSome_iff_eq_none, isSome_lookup, same, ← tail]
            exact distinct.1
          rw [left, right]
        · have next := found key
          rw [lookup_cons_eq, lookup_cons_eq, if_neg same, if_neg (head ▸ same)] at next
          exact next
      rw [ih tail distinct.2 rest, Prod.ext head value]

/-- Maps with the same keys in the same order and the same value under each key are equal. -/
theorem eq_of_get? {a b : OrderedMap κ ν} (keys : a.keys = b.keys)
    (found : ∀ key, a.get? key = b.get? key) : a = b :=
  -- A map is its keys in their order and what they are mapped to.
  ext (entries_eq_of_lookup keys a.keys_nodup found)

/-- The values of a map are what its keys lead to, in their order. -/
theorem values_eq_filterMap (m : OrderedMap κ ν) : m.values = m.keys.filterMap m.get? := by
  -- Keys are distinct, so that a search for the key of an entry finds that entry.
  have general : ∀ entries : List (κ × ν), (entries.map Prod.fst).Nodup →
      entries.map Prod.snd = (entries.map Prod.fst).filterMap fun key => entries.lookup key := by
    intro entries
    induction entries with
    | nil => simp
    | cons e rest ih =>
      intro distinct
      simp only [List.map_cons, List.nodup_cons] at distinct
      have later : ((rest.map Prod.fst).filterMap fun key => (e :: rest).lookup key) =
          (rest.map Prod.fst).filterMap fun key => rest.lookup key := by
        refine List.filterMap_congr fun key member => ?_
        have apart : key ≠ e.1 := fun same => distinct.1 (same ▸ member)
        rw [lookup_cons_eq, if_neg apart]
      rw [List.map_cons, List.map_cons, List.filterMap_cons, lookup_cons_eq, if_pos rfl, later,
        ih distinct.2]
  exact general m.entries m.keys_nodup

/-- The values of a map are those found under its keys. -/
theorem mem_values_iff {m : OrderedMap κ ν} {value : ν} :
    value ∈ m.values ↔ ∃ key, m.get? key = some value := by
  -- A key that leads to a value is one of the keys.
  rw [values_eq_filterMap, List.mem_filterMap]
  constructor
  · rintro ⟨key, _, found⟩
    exact ⟨key, found⟩
  · rintro ⟨key, found⟩
    exact ⟨key, (mem_keys_iff m key).mpr (contains_iff.mpr ⟨value, found⟩), found⟩

/-- Taking out a new key gives back the map before it was put in. -/
theorem erase_insert {m : OrderedMap κ ν} {key : κ} (absent : m.get? key = none) (value : ν) :
    (m.insert key value).erase key = m := by
  -- A new key goes to the end of the keys, and is the only one taken out.
  have fresh : key ∉ m.keys := not_mem_keys absent
  apply eq_of_get?
  · rw [keys_erase, keys_insert, contains_eq_false_iff.mpr absent]
    simp only [Bool.false_eq_true, if_false, List.filter_append]
    rw [List.filter_eq_self.mpr]
    · simp
    · intro other member
      simpa using fun same : other = key => fresh (same ▸ member)
  · intro other
    rw [get?_erase, get?_insert]
    by_cases same : other = key
    · rw [if_pos same, same, absent]
    · rw [if_neg same, if_neg same]

/-- Putting back the value that was there gives back the map before it was changed. -/
theorem insert_insert_of_get? {m : OrderedMap κ ν} {key : κ} {old : ν}
    (present : m.get? key = some old) (value : ν) :
    (m.insert key value).insert key old = m := by
  -- A known key keeps its place both times.
  have known : m.contains key = true := contains_iff.mpr ⟨old, present⟩
  apply eq_of_get?
  · have still : (m.insert key value).contains key = true :=
      contains_iff.mpr ⟨value, by rw [get?_insert, if_pos rfl]⟩
    rw [keys_insert, still, if_pos rfl, keys_insert, known, if_pos rfl]
  · intro other
    rw [get?_insert, get?_insert]
    by_cases same : other = key
    · rw [if_pos same, same, present]
    · rw [if_neg same, if_neg same]

/-- Maps with the same keys list them in some order each. -/
theorem perm_keys {a b : OrderedMap κ ν} (together : ∀ key, a.contains key = b.contains key) :
    a.keys.Perm b.keys := by
  -- No list of keys has a repetition.
  refine (List.perm_ext_iff_of_nodup a.keys_nodup b.keys_nodup).mpr fun key => ?_
  show key ∈ a.keys ↔ key ∈ b.keys
  rw [mem_keys_iff, mem_keys_iff, together]

/-- Maps with related values under the same keys list these keys in some order each. -/
theorem perm_keys_of_rel {a b : OrderedMap κ ν} {r : ν → ν → Prop}
    (related : ∀ key, Option.Rel r (a.get? key) (b.get? key)) : a.keys.Perm b.keys := by
  -- A key has a value in both or in neither.
  refine perm_keys fun key => ?_
  rw [contains, contains]
  have each := related key
  revert each
  generalize a.get? key = found
  generalize b.get? key = found'
  intro each
  cases each <;> rfl

/-- Maps with the same values under the same keys have equally many entries. -/
theorem Same.size_eq {a b : OrderedMap κ ν} (same : a.Same b) : a.size = b.size := by
  -- Both have the same keys without repetition, in some order.
  have keys : a.keys.Perm b.keys := perm_keys fun key => by rw [contains, contains, same key]
  simpa [size, OrderedMap.keys] using keys.length_eq

/-- Each entry is found under its key. -/
theorem get?_of_mem {m : OrderedMap κ ν} {e : κ × ν} (member : e ∈ m.entries) :
    m.get? e.1 = some e.2 := by
  -- No earlier entry has the same key.
  have general : ∀ entries : List (κ × ν), (entries.map Prod.fst).Nodup → e ∈ entries →
      entries.lookup e.1 = some e.2 := by
    intro entries
    induction entries with
    | nil =>
      intro _ inside
      cases inside
    | cons first rest ih =>
      intro distinct inside
      simp only [List.map_cons, List.nodup_cons] at distinct
      rw [lookup_cons_eq]
      rcases List.mem_cons.mp inside with same | later
      · rw [if_pos (congrArg Prod.fst same), same]
      · have apart : e.1 ≠ first.1 := fun same => distinct.1 (same ▸ List.mem_map_of_mem later)
        rw [if_neg apart, ih distinct.2 later]
  exact general m.entries m.keys_nodup member

/-- Maps with the same values under the same keys list their entries in some order each. -/
theorem Same.perm_entries {a b : OrderedMap κ ν} (same : a.Same b) :
    a.entries.Perm b.entries := by
  -- An entry is what is found under its key.
  have found : ∀ {m : OrderedMap κ ν} {e : κ × ν}, e ∈ m.entries ↔ m.get? e.1 = some e.2 :=
    fun {m e} => ⟨get?_of_mem, fun found => by
      obtain ⟨before, after, split, _⟩ := List.lookup_eq_some_iff.mp found
      simp [split]⟩
  refine (List.perm_ext_iff_of_nodup (List.Nodup.of_map _ a.keys_nodup)
    (List.Nodup.of_map _ b.keys_nodup)).mpr fun e => ?_
  rw [found, found, same e.1]

/-- Maps that list the same entries in some order each have the same values under the same keys. -/
theorem same_of_perm {a b : OrderedMap κ ν} (perm : a.entries.Perm b.entries) : a.Same b := by
  intro key
  cases found : b.get? key with
  | some value =>
    obtain ⟨before, after, split, _⟩ := List.lookup_eq_some_iff.mp found
    exact get?_of_mem (e := (key, value)) (perm.mem_iff.mpr (by simp [split]))
  | none =>
    -- A key of the other map would be a key of this one.
    rw [← Option.not_isSome_iff_eq_none]
    intro present
    have member : key ∈ b.keys := (perm.map Prod.fst).mem_iff.mp ((mem_keys_iff a key).mpr present)
    exact not_mem_keys found member

/-- Maps with the same values under the same keys are the same. -/
theorem Same.same [DecidableEq ν] {a b : OrderedMap κ ν} (same : a.Same b) : a.same b = true := by
  -- They have equally many entries, and each entry of one is found in the other.
  simp only [OrderedMap.same, same.size_eq, decide_true, Bool.true_and, List.all_eq_true,
    decide_eq_true_eq]
  intro e member
  rw [← same e.1, get?_of_mem member]

/-- Maps that are the same have the same values under the same keys. -/
theorem Same.of_same [DecidableEq ν] {a b : OrderedMap κ ν} (same : a.same b = true) :
    a.Same b := by
  -- Every entry of the first is one of the second, which has no more entries than the first.
  simp only [OrderedMap.same, Bool.and_eq_true, decide_eq_true_eq, List.all_eq_true] at same
  obtain ⟨sizes, found⟩ := same
  have included : a.keys ⊆ b.keys := by
    intro key member
    obtain ⟨e, inside, rfl⟩ := List.mem_map.mp member
    exact (mem_keys_iff b e.1).mpr (contains_iff.mpr ⟨e.2, found e inside⟩)
  have lengths : b.keys.length ≤ a.keys.length := by
    simpa [OrderedMap.keys, size] using Nat.le_of_eq sizes.symm
  have keys : a.keys.Perm b.keys := (a.keys_nodup.subperm included).perm_of_length_le lengths
  intro key
  cases there : a.get? key with
  | some value =>
    obtain ⟨before, after, split, _⟩ := List.lookup_eq_some_iff.mp there
    exact (found (key, value) (by simp [split])).symm
  | none =>
    have absent : key ∉ b.keys := fun member => not_mem_keys there (keys.mem_iff.mpr member)
    rw [mem_keys_iff, Bool.not_eq_true, contains_eq_false_iff] at absent
    exact absent.symm

/-- Sameness goes both ways. -/
theorem Same.symm {a b : OrderedMap κ ν} (same : a.Same b) : b.Same a := fun key => (same key).symm

/-- Sameness is passed on. -/
theorem Same.trans {a b c : OrderedMap κ ν} (left : a.Same b) (right : b.Same c) : a.Same c :=
  fun key => (left key).trans (right key)

/-- Put a value under a key, or leave the key out. -/
def put (m : OrderedMap κ ν) (key : κ) (value : Option ν) : OrderedMap κ ν :=
  -- No value stands for no entry.
  match value with
  | some v => m.insert key v
  | none => m.erase key

/-- What is put under a key is found there, and all other values are where they were. -/
theorem get?_put (m : OrderedMap κ ν) (key other : κ) (value : Option ν) :
    (m.put key value).get? other = if other = key then value else m.get? other := by
  -- The value goes in, or the key goes out.
  cases value with
  | some v => exact get?_insert m key other v
  | none => exact get?_erase m key other

/-- The same change keeps maps the same. -/
theorem Same.put {a b : OrderedMap κ ν} (same : a.Same b) (key : κ) (value : Option ν) :
    (a.put key value).Same (b.put key value) := by
  -- Under the key both have the new value, and elsewhere nothing changes.
  intro other
  rw [get?_put, get?_put, same other]

/-- What was there before a change can be put back, up to the order of the entries. -/
theorem same_put_put (m : OrderedMap κ ν) (key : κ) (value : Option ν) :
    ((m.put key value).put key (m.get? key)).Same m := by
  -- Only the value under the key was ever changed.
  intro other
  rw [get?_put, get?_put]
  split
  · rename_i same
    rw [same]
  · rfl

/-- What was there before a value was put in can be put back, and so can the order. -/
theorem put_put_of_get? (m : OrderedMap κ ν) (key : κ) (value : ν) :
    (m.put key (some value)).put key (m.get? key) = m := by
  -- A known key kept its place, and a new one is the last.
  cases found : m.get? key with
  | some old => exact insert_insert_of_get? found value
  | none => exact erase_insert found value

/-- Entries with distinct keys that are put into a map, each in its turn, come before the values that
were there. -/
theorem get?_foldl_insert {μ : Type*} {entries : List (κ × μ)}
    (distinct : (entries.map Prod.fst).Nodup) (f : μ → ν) (m : OrderedMap κ ν) (key : κ) :
    (entries.foldl (fun m e => m.insert e.1 (f e.2)) m).get? key =
      ((entries.lookup key).map f).or (m.get? key) := by
  -- By induction on the entries; a later one of the same key would overwrite it.
  induction entries generalizing m with
  | nil => rfl
  | cons e rest ih =>
    obtain ⟨absent, distinct⟩ := List.nodup_cons.mp distinct
    rw [List.foldl_cons, ih distinct, get?_insert, lookup_cons_eq]
    by_cases same : key = e.1
    · -- No later entry has the key.
      have none : rest.lookup key = none := by
        rw [← Option.not_isSome_iff_eq_none, isSome_lookup, same]
        exact absent
      simp [same, same ▸ none]
    · simp [same]

/-- A list of entries with distinct keys builds the map with these entries. -/
theorem entries_ofList {entries : List (κ × ν)} (distinct : (entries.map Prod.fst).Nodup) :
    (ofList entries).entries = entries := by
  -- Each entry goes behind those before it, since its key is new.
  have general : ∀ (entries : List (κ × ν)) (m : OrderedMap κ ν),
      (m.entries ++ entries).map Prod.fst |>.Nodup →
        (entries.foldl (fun m e => m.insert e.1 e.2) m).entries = m.entries ++ entries := by
    intro entries
    induction entries with
    | nil => exact fun m _ => (List.append_nil _).symm
    | cons e rest ih =>
      intro m apart
      have absent : m.contains e.1 = false := by
        rw [Bool.eq_false_iff, ne_eq, ← mem_keys_iff]
        rw [List.map_append, List.nodup_append] at apart
        exact fun member => apart.2.2 e.1 member e.1 (by simp) rfl
      have appended : (m.insert e.1 e.2).entries = m.entries ++ [e] := by
        rw [insert, dif_neg (by simp [absent])]
      rw [List.foldl_cons, ih _ (by rw [appended]; simpa using apart), appended]
      simp
  exact general entries empty distinct

/-- Of several entries with one key the last one is found. -/
theorem get?_ofList_of_last {before after : List (κ × ν)} {key : κ} (value : ν)
    (last : ∀ e ∈ after, e.1 ≠ key) :
    (ofList (before ++ (key, value) :: after)).get? key = some value := by
  -- Later entries have other keys, so that they leave the value where it is.
  have general : ∀ (entries : List (κ × ν)) (m : OrderedMap κ ν), (∀ e ∈ entries, e.1 ≠ key) →
      (entries.foldl (fun m e => m.insert e.1 e.2) m).get? key = m.get? key := by
    intro entries
    induction entries with
    | nil => exact fun m _ => rfl
    | cons e rest ih =>
      intro m others
      obtain ⟨other, others⟩ := List.forall_mem_cons.mp others
      rw [List.foldl_cons, ih _ others, get?_insert, if_neg other.symm]
  rw [ofList, List.foldl_append, List.foldl_cons, general after _ last, get?_insert, if_pos rfl]

/-- The entries of a map, in any order, build the same map. -/
theorem same_ofList {m : OrderedMap κ ν} {entries : List (κ × ν)} (perm : m.entries.Perm entries) :
    m.Same (ofList entries) := by
  -- Without repeated keys the order of the entries does not matter.
  have distinct : (entries.map Prod.fst).Nodup := (perm.map Prod.fst).nodup_iff.mp m.keys_nodup
  exact same_of_perm (by rwa [entries_ofList distinct])

/-- A key of a map that keeps the first of several entries leads to the first one with that key. -/
theorem get?_ofFirst (entries : List (κ × ν)) (key : κ) :
    (ofFirst entries).get? key = entries.lookup key := by
  -- What is there already is kept, and the rest is only asked for what is not.
  have general : ∀ (entries : List (κ × ν)) (m : OrderedMap κ ν),
      (entries.foldl (fun m e => if m.contains e.1 then m else m.insert e.1 e.2) m).get? key =
        (m.get? key).or (entries.lookup key) := by
    intro entries
    induction entries with
    | nil => exact fun m => (Option.or_none).symm
    | cons e rest ih =>
      intro m
      rw [List.foldl_cons, ih, lookup_cons_eq]
      by_cases wanted : key = e.1
      · subst wanted
        cases present : m.get? e.1 with
        | none => simp [contains, present, get?_insert]
        | some value => simp [contains, present]
      · split <;> simp [get?_insert, wanted]
  exact general entries empty

/-- What is looked up is among the entries. -/
theorem mem_of_lookup {entries : List (κ × ν)} {key : κ} {value : ν}
    (found : entries.lookup key = some value) : (key, value) ∈ entries := by
  -- A lookup gives an entry of the list.
  obtain ⟨before, after, rfl, _⟩ := List.lookup_eq_some_iff.mp found
  simp

/-- What is among the entries is looked up if its key has no other value. -/
theorem lookup_of_mem {entries : List (κ × ν)} {key : κ} {value : ν}
    (member : (key, value) ∈ entries) (only : ∀ e ∈ entries, e.1 = key → e.2 = value) :
    entries.lookup key = some value := by
  -- The first entry of the key may be another one, but it has the same value.
  have keyed : key ∈ entries.map Prod.fst := List.mem_map.mpr ⟨_, member, rfl⟩
  obtain ⟨other, found⟩ := Option.isSome_iff_exists.mp ((isSome_lookup entries key).mpr keyed)
  rw [found, ← only _ (mem_of_lookup found) rfl]

/-- What is looked up in several lists of entries is found in the first one that has the key. -/
theorem lookup_flatMap {α : Type*} (xs : List α) (entries : α → List (κ × ν)) (key : κ) :
    (xs.flatMap entries).lookup key = xs.findSome? fun x => (entries x).lookup key := by
  -- By induction on the list; the first part that has the key decides.
  induction xs with
  | nil => rfl
  | cons x rest ih =>
    rw [List.flatMap_cons, List.lookup_append, List.findSome?_cons, ih]
    cases (entries x).lookup key <;> rfl

end OrderedMap

end QuickEntry
