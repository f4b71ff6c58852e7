import SchemaEvolution.Migration.Backend
import SchemaEvolution.Migration.Hooks
import SchemaEvolution.Plan.Differ
import SchemaEvolution.Store.Basic

set_option autoImplicit false

/-! # Running a migration

A run brings every model of a store in line with its declaration, in the order of registration and
inside one unit of work. For each table it reads the live indexes and the snapshot, derives the
desired shape, and then

* creates the table, when there is no snapshot and no live column;
* leaves it alone, when snapshot and live indexes are as desired;
* otherwise changes it, and saves the desired shape as the new snapshot.

The first error rolls everything back, except that a hook may let the run go on after a table could
not be changed. A dry run plans the same statements and executes none, saves nothing, calls no hook
and is rolled back at its end.
-/

namespace SchemaEvolution

/-- A migration of the models of a store. -/
structure Migrator (σ : Type) where
  store : Store
  hooks : Hooks σ := .none
  dryRun : Bool := false

namespace Migrator

variable {σ : Type}

/-- The namespace that is migrated. -/
def schema (m : Migrator σ) : String := m.store.namespaceName

/-- Does something only in a real run. -/
def really (m : Migrator σ) (w : Work σ Unit) : Work σ Unit := if m.dryRun then pure () else w

/-- Executes the statements of a plan and gives them. -/
def apply (m : Migrator σ) (b : Backend σ) (phase : Phase) (p : Plan) : Work σ (List String) := do
  m.really do
    let _ ← Work.forEach (fun sql => (b.execute sql).inPhase phase p.table) p.statements
  return p.statements

/-- Saves the desired shape as the snapshot. -/
def save (m : Migrator σ) (b : Backend σ) (desired : Relation) : Work σ Unit :=
  m.really ((b.saveSnapshot m.schema desired).inPhase .saveSnapshot desired.table)

/-- Whether the table does not exist: it has no snapshot and, unless it is a view, no live
column. -/
def isNew (m : Migrator σ) (b : Backend σ) (last desired : Relation) : Work σ Bool :=
  if !last.isEmpty then return false
  else if desired.isView then return true
  else do
    let live ← (b.liveColumns m.schema desired.table).inPhase .introspect desired.table
    return live.isEmpty

/-- Creates a table. -/
def create (m : Migrator σ) (b : Backend σ) (c : HookContext) : Work σ TableReport := do
  let statements ← m.apply b .create (Plan.create m.schema c.desired)
  m.save b c.desired
  m.really ((m.hooks.afterCreate c).inPhase .hook c.desired.table)
  return ⟨c.desired.table, .created, statements⟩

/-- Changes a table and gives the statements. -/
def alter (m : Migrator σ) (b : Backend σ) (last desired : Relation) (live : List LiveIndex) :
    Work σ (List String) := do
  let columns ←
    if desired.isView then pure []
    else (b.liveColumns m.schema desired.table).inPhase .introspect desired.table
  let plan ← (Work.ofExcept (Plan.alter m.schema last desired columns live)).inPhase
    .alter desired.table
  let statements ← m.apply b .alter plan
  m.save b desired
  return statements

/-- Changes a table unless nothing differs. When that fails in a real run, a hook decides. -/
def alterIfNeeded (m : Migrator σ) (b : Backend σ) (c : HookContext) (live : List LiveIndex) :
    Work σ TableReport := do
  if isUpToDate c.last c.desired live then return ⟨c.desired.table, .unchanged, []⟩
  match ← (m.alter b c.last c.desired live).attempt with
  | .ok statements => return ⟨c.desired.table, .altered, statements⟩
  | .error e =>
    if m.dryRun then Work.fail e
    m.hooks.afterAlterError c e
    return ⟨c.desired.table, .suppressed, []⟩

/-- Migrates one model. -/
def migrateModel (m : Migrator σ) (b : Backend σ) (model : Descriptor) : Work σ TableReport := do
  let live ← (b.liveIndexes m.schema model.table).inPhase .introspect model.table
  let last ← (b.loadSnapshot m.schema model.table).inPhase .loadSnapshot model.table
  let desired ← (Work.ofExcept (m.store.desired model)).inPhase
    (if last.isEmpty then .create else .alter) model.table
  let c : HookContext := ⟨m.schema, model, last, desired⟩
  if ← m.isNew b last desired then m.create b c
  else
    let report ← m.alterIfNeeded b c live
    m.really ((m.hooks.afterMigrate c).inPhase .hook desired.table)
    return report

/-- Migrates every model. -/
def migrateAll (m : Migrator σ) (b : Backend σ) : Work σ Report := do
  (b.ensureSchema m.schema).inPhase .ensureSchema m.schema
  let tables ← Work.forEach (m.migrateModel b) m.store.models
  return ⟨m.schema, m.dryRun, tables⟩

/-- Runs the migration on an open backend and ends its unit of work. -/
def run (m : Migrator σ) (b : Backend σ) : Work σ Report := do
  let report ← (m.migrateAll b).orCleanUp b.rollback
  if m.dryRun then
    b.rollback
    return report
  else
    b.commit
    m.hooks.afterCommit report
    return report

end Migrator

end SchemaEvolution
