import SchemaEvolution.Migration.Backend
import SchemaEvolution.Relation.Snapshot

set_option autoImplicit false

/-! # A backend in memory

A database that keeps snapshots, steps and namespaces in two copies: the committed one, and the
staged one that a unit of work reads and changes. Committing copies the staged one over, rolling
back copies the committed one back. It executes no SQL; the live columns are given, and the live
indexes of a table are those of its committed snapshot under their full names, and given ones.

Every operation notes itself in the list of calls and asks `fault`, which sees the calls up to this
one, the latest first, whether it fails. An operation that fails does nothing else.
-/

namespace SchemaEvolution

/-- The content of a database. -/
structure Memory.Content where
  /-- Snapshots by table, each table once. -/
  snapshots : List (String × Relation) := []
  steps : List String := []
  schemas : List String := []

/-- A database in memory with its open unit of work. -/
structure Memory where
  committed : Memory.Content := {}
  staged : Memory.Content := {}
  liveColumns : List (String × List LiveColumn) := []
  /-- Live indexes that belong to no snapshot, by table. -/
  extraIndexes : List (String × List LiveIndex) := []
  /-- The calls made so far, the latest first. -/
  calls : List String := []
  fault : List String → Option MigrationError := fun _ => none

namespace Memory

/-- Sets the value of a key. -/
def put {α : Type} (key : String) (value : α) : List (String × α) → List (String × α)
  | [] => [(key, value)]
  | (k, v) :: rest => if k = key then (key, value) :: rest else (k, v) :: put key value rest

/-- Adds a name to a set of names. -/
def insertName (name : String) (names : List String) : List String :=
  if names.contains name then names else names ++ [name]

/-- Notes a call, and fails if the fault says so. -/
def call (parts : List String) : Work Memory Unit := fun s =>
  let s := { s with calls := " ".intercalate parts :: s.calls }
  match s.fault s.calls with
  | some e => (.error e, s)
  | none => (.ok (), s)

/-- Changes the staged content. -/
def stage (f : Content → Content) : Work Memory Unit :=
  .update fun s => { s with staged := f s.staged }

/-- The live index of an index of a snapshot. -/
def indexOf (schema table : String) (i : Index) : LiveIndex where
  name := physicalIndexName table i.name
  table := schema ++ "." ++ table
  schema := schema
  columns := i.columns

/-- The live indexes of a table. A plain view has none of its own. -/
def indexesOf (s : Memory) (schema table : String) : List LiveIndex :=
  let own :=
    match s.committed.snapshots.lookup table with
    | none => []
    | some r => if r.isView && !r.isMaterialized then [] else r.indexes.map (indexOf schema table)
  own ++ (s.extraIndexes.lookup table).getD []

/-- The operations of the database. -/
def backend [Json.Codec] : Backend Memory where
  ensureSchema schema := do
    call ["ensure_schema", schema]
    stage fun c => { c with schemas := insertName schema c.schemas }
  execute sql := call ["execute", sql]
  loadSnapshot schema table := do
    call ["load_snapshot", schema, table]
    let s ← Work.read
    return ((s.staged.snapshots.lookup table).map Relation.normalized).getD { table }
  saveSnapshot schema r := do
    call ["save_snapshot", schema, r.table]
    match Relation.ofSnapshot? r.snapshot with
    | none => Work.fail .serialization
    | some stored => stage fun c => { c with snapshots := put r.table stored c.snapshots }
  snapshots schema := do
    call ["snapshots", schema]
    let s ← Work.read
    return (s.staged.snapshots.mergeSort fun a b => decide (a.1 ≤ b.1)).map (·.2)
  liveColumns schema table := do
    call ["live_columns", schema, table]
    let s ← Work.read
    return (s.liveColumns.lookup table).getD []
  liveIndexes schema table := do
    call ["live_indexes", schema, table]
    let s ← Work.read
    return s.indexesOf schema table
  startStep schema name := do
    call ["start_step", schema, name]
    let s ← Work.read
    if s.staged.steps.contains name then
      Work.fail (.database (.invalidData ("duplicate step: " ++ name)))
    else stage fun c => { c with steps := c.steps ++ [name] }
  stepStarted schema name := do
    call ["step_started", schema, name]
    let s ← Work.read
    return s.staged.steps.contains name
  stopStep schema name := do
    call ["stop_step", schema, name]
    stage fun c => { c with steps := c.steps.filter (· != name) }
  commit := do
    call ["commit"]
    .update fun s => { s with committed := s.staged }
  rollback := do
    call ["rollback"]
    .update fun s => { s with staged := s.committed }

end Memory

end SchemaEvolution
