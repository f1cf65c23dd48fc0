import Mathlib.Tactic.Common
import QuickEntry.Attempt

/-! What holds after a change that may be refused, when something holds before it. -/

namespace QuickEntry

namespace Attempt

variable {σ τ α β : Type}

/-- A value is a changed one exactly if there is a value to change. -/
theorem map_eq_ok_iff {value : Except EditError α} {f : α → β} {result : β} :
    value.map f = .ok result ↔ ∃ v, value = .ok v ∧ f v = result := by
  -- A refusal stays a refusal.
  cases value <;> simp [Except.map]

/-- Another value of a change leads to the same state. -/
theorem on_bind_pure (attempt : Attempt σ α) (f : α → β) (state : σ) :
    ((attempt >>= fun value => pure (f value)).on state).2 = (attempt.on state).2 := by
  -- Both outcomes carry the state on.
  rw [on_bind]
  cases attempt.on state with
  | mk outcome next => cases outcome <;> rfl

/-- Leaving out the value of a change leads to the same state. -/
theorem on_ignored (attempt : Attempt σ α) (state : σ) :
    ((attempt >>= fun _ => pure () : Attempt σ Unit).on state).2 = (attempt.on state).2 :=
  -- Only the value is replaced.
  on_bind_pure attempt (fun _ => ()) state

/-- A change that starts where something holds ends where something else holds, which depends on
whether the change is made or refused. -/
def Ensures (before : σ → Prop) (attempt : Attempt σ α) (after : α → σ → Prop)
    (refused : σ → Prop) : Prop :=
  -- One of the two conditions is asked for, as the outcome says.
  ∀ state, before state →
    match attempt.on state with
    | (.ok value, next) => after value next
    | (.error _, next) => refused next

/-- A change keeps a property, be it made or refused. -/
def Keeps (property : σ → Prop) (attempt : Attempt σ α) : Prop :=
  attempt.Ensures property (fun _ => property) property

/-- A change that ensures the same in either case leaves a state in which it holds. -/
theorem Ensures.on {before after : σ → Prop} {attempt : Attempt σ α}
    (ensures : attempt.Ensures before (fun _ => after) after) {state : σ} (holds : before state) :
    after (attempt.on state).2 := by
  -- The two outcomes ask for the same.
  have ensured := ensures state holds
  revert ensured
  cases attempt.on state with
  | mk outcome next => cases outcome <;> exact id

/-- A change that keeps a property leaves a state with that property. -/
theorem Keeps.on {property : σ → Prop} {attempt : Attempt σ α} (keeps : attempt.Keeps property)
    {state : σ} (holds : property state) : property (attempt.on state).2 :=
  -- Success and refusal leave the same promise.
  Ensures.on keeps holds

/-- A change keeps a property if it leaves a state with it. -/
theorem keeps_of_on {property : σ → Prop} {attempt : Attempt σ α}
    (leaves : ∀ state, property state → property (attempt.on state).2) :
    attempt.Keeps property := by
  -- Either outcome carries the state.
  intro state holds
  have left := leaves state holds
  revert left
  cases attempt.on state with
  | mk outcome next => cases outcome <;> exact id

/-- Less may be asked before a change, and less may be concluded after it. -/
theorem Ensures.mono {before before' refused refused' : σ → Prop} {attempt : Attempt σ α}
    {after after' : α → σ → Prop} (ensures : attempt.Ensures before after refused)
    (stronger : ∀ state, before' state → before state)
    (weaker : ∀ value state, after value state → after' value state)
    (lenient : ∀ state, refused state → refused' state) :
    attempt.Ensures before' after' refused' := by
  -- Each outcome is treated by its own implication.
  intro state holds
  have ensured := ensures state (stronger state holds)
  revert ensured
  cases attempt.on state with
  | mk outcome next =>
    cases outcome with
    | ok value => exact weaker value next
    | error e => exact lenient next

/-- A second change starts from what the first one ensures. -/
theorem Ensures.bind {before refused : σ → Prop} {first : Attempt σ α} {second : α → Attempt σ β}
    {between : α → σ → Prop} {after : β → σ → Prop}
    (starts : first.Ensures before between refused)
    (continues : ∀ value, (second value).Ensures (between value) after refused) :
    (first >>= second).Ensures before after refused := by
  -- A refusal of the first change is a refusal of both.
  intro state holds
  have ensured := starts state holds
  rw [on_bind]
  revert ensured
  cases first.on state with
  | mk outcome next =>
    cases outcome with
    | ok value => exact continues value next
    | error e => exact id

/-- A value that may be refused ensures what holds already. -/
theorem ensures_ofExcept {before : σ → Prop} (value : Except EditError α) :
    (ofExcept value : Attempt σ α).Ensures before
      (fun v state => value = .ok v ∧ before state) before := by
  -- Neither outcome changes the state.
  intro state holds
  rw [on_ofExcept]
  cases value with
  | ok v => exact ⟨rfl, holds⟩
  | error e => exact holds

/-- A step ensures what holds after it when it is made. -/
theorem ensures_ofStep {before : σ → Prop} {after : α → σ → Prop}
    {step : σ → Except EditError (α × σ)}
    (steps : ∀ state value next, before state → step state = .ok (value, next) →
      after value next) :
    (ofStep step).Ensures before after before := by
  -- A refused step leaves the state alone.
  intro state holds
  rw [on_ofStep]
  cases made : step state with
  | ok result => exact steps state result.1 result.2 holds made
  | error e => exact holds

/-- An update that may be refused ensures what holds after it when it is made. -/
theorem ensures_ofUpdate {before after : σ → Prop} {update : σ → Except EditError σ}
    (updates : ∀ state next, before state → update state = .ok next → after next) :
    (ofUpdate update).Ensures before (fun _ => after) before := by
  -- A refused update leaves the state alone.
  intro state holds
  rw [on_ofUpdate]
  cases made : update state with
  | ok next => exact updates state next holds made
  | error e => exact holds

/-- A change of a part ensures of the whole what follows from the part. -/
theorem Ensures.within {part : σ → τ} {replace : σ → τ → σ} {attempt : Attempt τ α}
    {before refused : σ → Prop} {after : α → σ → Prop}
    (ensures : ∀ state, before state → attempt.Ensures (fun p => p = part state)
      (fun value p => after value (replace state p)) (fun p => refused (replace state p))) :
    (attempt.within part replace).Ensures before after refused := by
  -- The whole is the old state with the new part.
  intro state holds
  have ensured := ensures state holds (part state) rfl
  rw [on_within]
  revert ensured
  cases attempt.on (part state) with
  | mk outcome next => cases outcome <;> exact id

/-- A change of a part keeps a property of that part. -/
theorem Keeps.within {part : σ → τ} {replace : σ → τ → σ} {attempt : Attempt τ α}
    {property : τ → Prop} (keeps : attempt.Keeps property)
    (replaced : ∀ state p, part (replace state p) = p) :
    (attempt.within part replace).Keeps fun state => property (part state) := by
  -- Nothing but the part matters to the property.
  apply Ensures.within
  intro state holds p same
  subst same
  simp only [replaced]
  exact keeps _ holds

/-- A value alone keeps every property. -/
theorem keeps_pure {property : σ → Prop} (value : α) :
    (pure value : Attempt σ α).Keeps property :=
  fun _ holds => holds

/-- Two changes that keep a property keep it together. -/
theorem Keeps.bind {property : σ → Prop} {first : Attempt σ α} {second : α → Attempt σ β}
    (starts : first.Keeps property) (continues : ∀ value, (second value).Keeps property) :
    (first >>= second).Keeps property :=
  -- Each part hands the property on, whether it succeeds or not.
  Ensures.bind starts continues

/-- To look at the state keeps every property. -/
theorem keeps_get {property : σ → Prop} : (get : Attempt σ σ).Keeps property :=
  fun _ holds => holds

/-- A value that may be refused keeps every property. -/
theorem keeps_ofExcept {property : σ → Prop} (value : Except EditError α) :
    (ofExcept value : Attempt σ α).Keeps property :=
  -- The state is not touched.
  (ensures_ofExcept value).mono (fun _ => id) (fun _ _ ensured => ensured.2) (fun _ => id)

/-- A step keeps what it keeps when it is made. -/
theorem keeps_ofStep {property : σ → Prop} {step : σ → Except EditError (α × σ)}
    (steps : ∀ state value next, property state → step state = .ok (value, next) →
      property next) : (ofStep step).Keeps property :=
  -- A step that fails leaves the state alone.
  ensures_ofStep steps

/-- An update that may be refused keeps what it keeps when it is made. -/
theorem keeps_ofUpdate {property : σ → Prop} {update : σ → Except EditError σ}
    (updates : ∀ state next, property state → update state = .ok next → property next) :
    (ofUpdate update).Keeps property :=
  -- An update that fails leaves the state alone.
  ensures_ofUpdate updates

/-- An update keeps what the updated state has. -/
theorem keeps_modify {property : σ → Prop} {f : σ → σ}
    (updates : ∀ state, property state → property (f state)) :
    (modify f : Attempt σ PUnit).Keeps property := updates

/-- What a change keeps it ensures when it is made. -/
theorem Keeps.ensures {property : σ → Prop} {attempt : Attempt σ α}
    (keeps : attempt.Keeps property) :
    attempt.Ensures property (fun _ => property) fun _ => True :=
  -- Nothing is promised of a refusal.
  keeps.mono (fun _ holds => holds) (fun _ _ holds => holds) fun _ _ => trivial

/-- A change whose refusal is ignored keeps what the change keeps. -/
theorem Keeps.regardless {property : σ → Prop} {attempt : Attempt σ α}
    (keeps : attempt.Keeps property) : attempt.regardless.Keeps property :=
  -- Only the outcome is forgotten.
  fun _ holds => keeps.on holds

/-- A repair that keeps what a refused change ensures does not matter otherwise. -/
theorem Ensures.orAfter {before refused : σ → Prop} {after : α → σ → Prop} {attempt : Attempt σ α}
    {repair : Attempt σ Unit} (ensures : attempt.Ensures before after refused)
    (repairs : repair.Keeps refused) : (attempt.orAfter repair).Ensures before after refused := by
  -- The repair starts from what the refusal leaves.
  intro state holds
  rw [on_orAfter]
  have ensured := ensures state holds
  revert ensured
  cases attempt.on state with
  | mk outcome next =>
    cases outcome with
    | ok value => exact id
    | error e =>
      intro ensured
      have repaired := repairs.on ensured
      cases again : repair.on next with
      | mk result last =>
        rw [again] at repaired
        cases result <;> simpa only [again] using repaired

/-- A change and its repair that keep a property keep it together. -/
theorem Keeps.orAfter {property : σ → Prop} {attempt : Attempt σ α} {repair : Attempt σ Unit}
    (keeps : attempt.Keeps property) (repairs : repair.Keeps property) :
    (attempt.orAfter repair).Keeps property :=
  -- The repair starts where the attempt has failed, with the property still there.
  Ensures.orAfter keeps repairs

/-- Changes for the elements of a list keep what each of them keeps. -/
theorem keeps_forM {property : σ → Prop} {step : β → Attempt σ PUnit} {items : List β}
    (keeps : ∀ item ∈ items, (step item).Keeps property) :
    (items.forM step).Keeps property := by
  -- The elements are treated one after the other.
  induction items with
  | nil => exact keeps_pure _
  | cons item rest ih =>
    have others : (rest.forM step).Keeps property :=
      ih fun other member => keeps other (by simp [member])
    show (step item >>= fun _ => rest.forM step).Keeps property
    exact (keeps item (by simp)).bind fun _ => others

/-- Every change ensures what is always so. -/
theorem ensures_true (attempt : Attempt σ α) :
    attempt.Ensures (fun _ => True) (fun _ _ => True) fun _ => True := by
  -- Neither outcome is asked for anything.
  intro state _
  cases attempt.on state with
  | mk outcome next => cases outcome <;> trivial

/-- Changes for the elements of a list that is not empty ensure what each of them ensures and
keeps. -/
theorem ensures_forM {property : σ → Prop} {step : β → Attempt σ PUnit} {items : List β}
    (some : items ≠ [])
    (makes : ∀ item, (step item).Ensures (fun _ => True) (fun _ => property) fun _ => True)
    (keeps : ∀ item, (step item).Keeps property) :
    (items.forM step).Ensures (fun _ => True) (fun _ => property) fun _ => True := by
  -- The first change makes it so, and the others leave it so.
  cases items with
  | nil => exact absurd rfl some
  | cons item rest =>
    show (step item >>= fun _ => rest.forM step).Ensures _ _ _
    exact (makes item).bind fun _ => (keeps_forM fun other _ => keeps other).ensures

/-- A change for an element that may be missing keeps what the change keeps. -/
theorem keeps_forM_option {property : σ → Prop} {step : β → Attempt σ PUnit} {item : Option β}
    (keeps : ∀ b, item = some b → (step b).Keeps property) :
    (item.forM step).Keeps property := by
  -- Without the element nothing happens.
  cases item with
  | none => exact keeps_pure _
  | some b => exact keeps b rfl

/-- Two changes match: from related states they have the same outcome and lead to related states,
be they made or refused. -/
def Matches (related : σ → τ → Prop) (first : Attempt σ α) (second : Attempt τ α) : Prop :=
  ∀ state other, related state other →
    (first.on state).1 = (second.on other).1 ∧ related (first.on state).2 (second.on other).2

section Matching

variable {related : σ → τ → Prop}

/-- A value alone matches itself. -/
theorem matches_pure (value : α) :
    Matches related (pure value : Attempt σ α) (pure value : Attempt τ α) :=
  fun _ _ holds => ⟨rfl, holds⟩

/-- A value that may be refused matches itself. -/
theorem matches_ofExcept (value : Except EditError α) :
    Matches related (ofExcept value : Attempt σ α) (ofExcept value : Attempt τ α) :=
  fun _ _ holds => ⟨rfl, holds⟩

/-- Matching changes may be followed by changes that match for every value. -/
theorem Matches.bind {first : Attempt σ α} {second : Attempt τ α} {first' : α → Attempt σ β}
    {second' : α → Attempt τ β} (starts : Matches related first second)
    (continues : ∀ value, Matches related (first' value) (second' value)) :
    Matches related (first >>= first') (second >>= second') := by
  -- The first outcomes are one, so that both go on with the same value or neither does.
  intro state other holds
  obtain ⟨outcome, between⟩ := starts state other holds
  rw [on_bind, on_bind]
  revert outcome between
  cases first.on state with
  | mk result next =>
    cases second.on other with
    | mk result' next' =>
      intro outcome between
      obtain rfl : result = result' := outcome
      cases result with
      | ok value => exact continues value next next' between
      | error e => exact ⟨rfl, between⟩

/-- Changes for the elements of a list match changes for what a function makes of them, if each of
them does. -/
theorem matches_forM {γ : Type} {f : β → γ} {first : γ → Attempt σ PUnit}
    {second : β → Attempt τ PUnit} (each : ∀ item, Matches related (first (f item)) (second item))
    (items : List β) : Matches related ((items.map f).forM first) (items.forM second) := by
  -- The elements are treated one after the other.
  induction items with
  | nil => exact matches_pure _
  | cons item rest ih => exact (each item).bind fun _ => ih

end Matching

end Attempt

end QuickEntry
