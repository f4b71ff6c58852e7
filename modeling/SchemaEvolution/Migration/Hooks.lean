import SchemaEvolution.Migration.Report
import SchemaEvolution.Migration.Work
import SchemaEvolution.Model.Descriptor
import SchemaEvolution.Relation.Basic

set_option autoImplicit false

/-! # Hooks

The places where a migration calls its user. The hooks of a table run inside the transaction of the
migration, so what they do to the database is committed or rolled back with it. A hook that returns
an error stops the run.
-/

namespace SchemaEvolution

/-- What a hook is told about the table. -/
structure HookContext where
  schema : String
  model : Descriptor
  /-- The shape recorded before the run; empty for a new table. -/
  last : Relation
  /-- The shape that the model asks for. -/
  desired : Relation

/-- The hooks of a migration. -/
structure Hooks (σ : Type) where
  /-- Called after a table was created and its snapshot saved. -/
  afterCreate : HookContext → Work σ Unit := fun _ => pure ()
  /-- Called when changing a table failed; without an error of its own the run goes on. -/
  afterAlterError : HookContext → MigrationError → Work σ Unit := fun _ e => .fail e
  /-- Called for every table that was not created. -/
  afterMigrate : HookContext → Work σ Unit := fun _ => pure ()
  /-- Called once, after the commit. -/
  afterCommit : Report → Work σ Unit := fun _ => pure ()

/-- Hooks that do nothing. -/
def Hooks.none {σ : Type} : Hooks σ := {}

end SchemaEvolution
