import SchemaEvolution.Migration.Error

set_option autoImplicit false

/-! # Work on a state

`Work σ α` is a computation that reads and changes a state of type `σ` and gives a value or an
error. The state that a failed computation has reached is kept, as the effects of a failed call on a
database are until someone rolls them back.
-/

namespace SchemaEvolution

/-- A computation with a state that may fail. -/
def Work (σ α : Type) : Type := σ → Except MigrationError α × σ

namespace Work

variable {σ α β : Type}

/-- Runs the computation in a state. -/
def run (w : Work σ α) (s : σ) : Except MigrationError α × σ := w s

instance : Monad (Work σ) where
  pure a := fun s => (.ok a, s)
  bind w k := fun s =>
    match w s with
    | (.ok a, s) => k a s
    | (.error e, s) => (.error e, s)

/-- Fails. -/
def fail (e : MigrationError) : Work σ α := fun s => (.error e, s)

/-- The state. -/
def read : Work σ σ := fun s => (.ok s, s)

/-- Changes the state. -/
def update (f : σ → σ) : Work σ Unit := fun s => (.ok (), f s)

/-- What a computation that touches no state gives. -/
def ofExcept (r : Except SchemaError α) : Work σ α := fun s =>
  match r with
  | .ok a => (.ok a, s)
  | .error e => (.error (.model e), s)

/-- Runs the computation and gives its outcome as a value. -/
def attempt (w : Work σ α) : Work σ (Except MigrationError α) := fun s => (.ok (w s).1, (w s).2)

/-- Wraps an error with a phase and a table. -/
def inPhase (phase : Phase) (table : String) (w : Work σ α) : Work σ α := fun s =>
  match w s with
  | (.ok a, s) => (.ok a, s)
  | (.error e, s) => (.error (.inPhase phase table e), s)

/-- On an error, runs `cleanup` and fails with the first error, whatever `cleanup` does. -/
def orCleanUp (w : Work σ α) (cleanup : Work σ Unit) : Work σ α := fun s =>
  match w s with
  | (.ok a, s) => (.ok a, s)
  | (.error e, s) => (.error e, (cleanup s).2)

/-- Runs the computation for each item, in order. -/
def forEach (f : β → Work σ α) : List β → Work σ (List α)
  | [] => pure []
  | b :: bs => do
    let a ← f b
    return a :: (← forEach f bs)

@[simp] theorem pure_run (a : α) (s : σ) : (pure a : Work σ α).run s = (.ok a, s) := rfl

theorem bind_run (w : Work σ α) (k : α → Work σ β) (s : σ) :
    (w >>= k).run s =
      match w.run s with
      | (.ok a, s) => (k a).run s
      | (.error e, s) => (.error e, s) := rfl

end Work

end SchemaEvolution
