import QuickEntry.EditError

/-! Changes that may be refused half-way: what they did before stays done. -/

namespace QuickEntry

/-- A change of a state that gives a value or is refused; either way it leaves a state. -/
abbrev Attempt (σ α : Type) := ExceptT EditError (StateM σ) α

namespace Attempt

variable {σ α : Type}

/-- Make the change: its outcome and the state that it leaves. -/
def on (attempt : Attempt σ α) (state : σ) : Except EditError α × σ := attempt.run.run state

/-- A change that leaves the state alone when it is refused. -/
def ofStep (step : σ → Except EditError (α × σ)) : Attempt σ α := fun state =>
  match step state with
  | .ok (value, next) => (.ok value, next)
  | .error e => (.error e, state)

/-- A change without a value that leaves the state alone when it is refused. -/
def ofUpdate (update : σ → Except EditError σ) : Attempt σ Unit :=
  ofStep fun state => (update state).map fun next => ((), next)

/-- A value that may be refused, without any change. -/
def ofExcept (value : Except EditError α) : Attempt σ α := fun state => (value, state)

/-- A change of a part of a state. -/
def within {τ : Type} (part : σ → τ) (replace : σ → τ → σ) (attempt : Attempt τ α) :
    Attempt σ α := fun state =>
  -- The rest of the state stays as it is.
  let (outcome, next) := attempt.on (part state)
  (outcome, replace state next)

/-- Make a change and pay no attention to whether it is refused. -/
def regardless (attempt : Attempt σ α) : Attempt σ Unit := fun state =>
  (.ok (), (attempt.on state).2)

/-- Make a change, and if it is refused another one before refusing. -/
def orAfter (attempt : Attempt σ α) (repair : Attempt σ Unit) : Attempt σ α :=
  -- A repair that is refused itself replaces the first refusal.
  tryCatch attempt fun e => do repair; throw e

/-- A value alone changes nothing. -/
@[simp] theorem on_pure (value : α) (state : σ) :
    (pure value : Attempt σ α).on state = (.ok value, state) := rfl

/-- A second change starts where the first one ended, and is left out if the first is refused. -/
theorem on_bind {β : Type} (first : Attempt σ α) (second : α → Attempt σ β) (state : σ) :
    (first >>= second).on state =
      match first.on state with
      | (.ok value, next) => (second value).on next
      | (.error e, next) => (.error e, next) := by
  -- Both sides look at the same outcome of the first change.
  simp only [on, bind, ExceptT.bind, ExceptT.mk, ExceptT.run, StateT.bind, StateT.run]
  cases first state with
  | mk outcome next => cases outcome <;> rfl

/-- To look at the state changes nothing. -/
@[simp] theorem on_get (state : σ) : (get : Attempt σ σ).on state = (.ok state, state) := rfl

/-- A refused step leaves the state alone. -/
theorem on_ofStep (step : σ → Except EditError (α × σ)) (state : σ) :
    (ofStep step).on state =
      match step state with
      | .ok (value, next) => (.ok value, next)
      | .error e => (.error e, state) := rfl

/-- A refused update leaves the state alone. -/
theorem on_ofUpdate (update : σ → Except EditError σ) (state : σ) :
    (ofUpdate update).on state =
      match update state with
      | .ok next => (.ok (), next)
      | .error e => (.error e, state) := by
  -- The step of an update only adds the missing value.
  simp only [ofUpdate, on_ofStep]
  cases update state <;> rfl

/-- A value that may be refused changes nothing. -/
@[simp] theorem on_ofExcept (value : Except EditError α) (state : σ) :
    (ofExcept value : Attempt σ α).on state = (value, state) := rfl

/-- A change whose refusal does not matter is never refused. -/
@[simp] theorem on_regardless (attempt : Attempt σ α) (state : σ) :
    attempt.regardless.on state = (.ok (), (attempt.on state).2) := rfl

/-- A change of a part shows in that part alone. -/
@[simp] theorem on_within {τ : Type} (part : σ → τ) (replace : σ → τ → σ) (attempt : Attempt τ α)
    (state : σ) :
    (attempt.within part replace).on state =
      ((attempt.on (part state)).1, replace state (attempt.on (part state)).2) := rfl

/-- A repair starts where the refused change ended, and its own refusal is the one that counts. -/
theorem on_orAfter (attempt : Attempt σ α) (repair : Attempt σ Unit) (state : σ) :
    (attempt.orAfter repair).on state =
      match attempt.on state with
      | (.ok value, next) => (.ok value, next)
      | (.error e, next) =>
        match repair.on next with
        | (.ok _, repaired) => (.error e, repaired)
        | (.error again, repaired) => (.error again, repaired) := by
  -- Only a refusal brings the repair into play.
  simp only [on, orAfter, tryCatch, tryCatchThe, MonadExceptOf.tryCatch, ExceptT.tryCatch,
    ExceptT.mk, ExceptT.run, bind, ExceptT.bind, StateT.bind, StateT.run]
  cases attempt state with
  | mk outcome next =>
    cases outcome with
    | ok value => rfl
    | error e =>
      simp only [StateT.bind, bind]
      cases repair next with
      | mk result repaired => cases result <;> rfl

end Attempt

end QuickEntry
