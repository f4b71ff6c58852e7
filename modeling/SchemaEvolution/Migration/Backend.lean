import SchemaEvolution.Catalog.Live
import SchemaEvolution.Migration.Work

set_option autoImplicit false

/-! # Backends

A backend is one open unit of work on a database: all that it does becomes visible together when it
is committed, and nothing of it when it is rolled back. A migration reaches the database through a
backend only. Steps are named marks of jobs that are to run once.
-/

namespace SchemaEvolution

/-- The operations on a database whose state has type `σ`. The first argument of most is the
namespace. -/
structure Backend (σ : Type) where
  /-- Creates the namespace and its bookkeeping tables where they are missing. -/
  ensureSchema : String → Work σ Unit
  /-- Executes one statement. -/
  execute : String → Work σ Unit
  /-- The snapshot of a table; an empty relation when none is stored. -/
  loadSnapshot : String → String → Work σ Relation
  /-- Stores the snapshot of the relation's table. -/
  saveSnapshot : String → Relation → Work σ Unit
  /-- Every stored snapshot, by table name. -/
  snapshots : String → Work σ (List Relation)
  liveColumns : String → String → Work σ (List LiveColumn)
  /-- The indexes of a table other than that of its primary key. -/
  liveIndexes : String → String → Work σ (List LiveIndex)
  /-- Marks a step as started. -/
  startStep : String → String → Work σ Unit
  /-- Whether a step is marked. -/
  stepStarted : String → String → Work σ Bool
  /-- Removes the mark of a step. -/
  stopStep : String → String → Work σ Unit
  commit : Work σ Unit
  rollback : Work σ Unit

/-- A computation on the first part of a state. -/
def Work.onFirst {σ τ α : Type} (w : Work σ α) : Work (σ × τ) α := fun s =>
  ((w s.1).1, (w s.1).2, s.2)

/-- The backend on a state with a companion, in which hooks may keep something of their own. -/
def Backend.beside {σ : Type} (τ : Type) (b : Backend σ) : Backend (σ × τ) where
  ensureSchema schema := (b.ensureSchema schema).onFirst
  execute sql := (b.execute sql).onFirst
  loadSnapshot schema table := (b.loadSnapshot schema table).onFirst
  saveSnapshot schema r := (b.saveSnapshot schema r).onFirst
  snapshots schema := (b.snapshots schema).onFirst
  liveColumns schema table := (b.liveColumns schema table).onFirst
  liveIndexes schema table := (b.liveIndexes schema table).onFirst
  startStep schema name := (b.startStep schema name).onFirst
  stepStarted schema name := (b.stepStarted schema name).onFirst
  stopStep schema name := (b.stopStep schema name).onFirst
  commit := b.commit.onFirst
  rollback := b.rollback.onFirst

end SchemaEvolution
