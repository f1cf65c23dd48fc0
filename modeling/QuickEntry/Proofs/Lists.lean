import Mathlib.Data.List.Basic
import Mathlib.Data.List.Nodup

/-! Lists that are mapped by partial functions, and lists without repetition. -/

namespace QuickEntry

variable {α β : Type}

/-- What is given under a condition is used under this condition. -/
theorem bind_ite_some {p : Prop} [Decidable p] (x : α) (f : α → Option β) :
    (if p then some x else none).bind f = if p then f x else none := by
  -- With the condition false both sides are nothing.
  split <;> rfl

/-- A partial function that is defined on the entries of a list under a condition maps the list if
all of them meet it. -/
theorem mapM_eq_ite {f : α → Option β} {g : α → β} {p : α → Prop} [DecidablePred p] (xs : List α)
    (each : ∀ x ∈ xs, f x = if p x then some (g x) else none) :
    xs.mapM f = if ∀ x ∈ xs, p x then some (xs.map g) else none := by
  induction xs with
  | nil => simp
  | cons x xs ih =>
    obtain ⟨first, others⟩ := List.forall_mem_cons.mp each
    -- The rest is only asked for if the first entry meets the condition.
    rw [List.mapM_cons, first, ih others]
    simp only [Option.bind_eq_bind, bind_ite_some, Option.pure_def, List.forall_mem_cons, ite_and,
      List.map_cons]

/-- A partial function that is defined on all entries of a list maps the list. -/
theorem mapM_eq_some_map {f : α → Option β} {g : α → β} (xs : List α)
    (each : ∀ x ∈ xs, f x = some (g x)) : xs.mapM f = some (xs.map g) := by
  -- The case of a condition that always holds.
  have read := mapM_eq_ite (f := f) (g := g) (p := fun _ => True) xs fun x member => by
    rw [each x member, if_pos trivial]
  rw [read, if_pos fun _ _ => trivial]

/-- A list without repetition has no duplicates to erase. -/
theorem eraseDups_of_nodup [BEq α] [LawfulBEq α] {xs : List α} (distinct : xs.Nodup) :
    xs.eraseDups = xs := by
  -- Behind each element the same element is not there to be dropped.
  induction xs with
  | nil => rfl
  | cons x xs ih =>
    obtain ⟨absent, others⟩ := List.nodup_cons.mp distinct
    have kept : xs.filter (fun y => !y == x) = xs :=
      List.filter_eq_self.mpr fun y member => by
        simpa using fun same : y = x => absent (same ▸ member)
    rw [List.eraseDups_cons, kept, ih others]

end QuickEntry
