import SchemaEvolution.Migration.Backend
import SchemaEvolution.Relation.Snapshot
import SchemaEvolution.Server.Session

set_option autoImplicit false

/-! # The PostgreSQL backend

The operations of a backend as SQL statements of one transaction. Each namespace has two bookkeeping
tables: `_config` with the snapshots by table name, and `_migrations` with the steps. Namespaces are
written into the statements, everything else is bound. Once the transaction has been committed or
rolled back, successfully or not, every operation fails and sends nothing.
-/

namespace SchemaEvolution.Postgres

open Session

/-- The statements that create a namespace and its bookkeeping tables. -/
def ensureSchemaSql (schema : String) : List String :=
  ["CREATE SCHEMA IF NOT EXISTS " ++ schema,
    "CREATE TABLE IF NOT EXISTS " ++ schema
      ++ "._config (table_name VARCHAR(250) NOT NULL, storej JSONB NULL, PRIMARY KEY (table_name))",
    "CREATE TABLE IF NOT EXISTS " ++ schema
      ++ "._migrations (name VARCHAR(250) NOT NULL, PRIMARY KEY (name))"]

/-- Reads the snapshot of a table. -/
def loadSnapshotSql (schema : String) : String :=
  "SELECT table_name::text, storej::text FROM " ++ schema ++ "._config WHERE table_name = $1"

/-- Stores the snapshot of a table. -/
def saveSnapshotSql (schema : String) : String :=
  "INSERT INTO " ++ schema ++ "._config (table_name,storej) VALUES($1,$2::jsonb) "
    ++ "ON CONFLICT(table_name) DO UPDATE SET storej=excluded.storej"

/-- Reads every snapshot. -/
def snapshotsSql (schema : String) : String :=
  "SELECT table_name::text, storej::text FROM " ++ schema ++ "._config ORDER BY table_name"

/-- Reads the live columns of a table. -/
def columnsSql : String :=
  "SELECT column_name::text, udt_name::text, is_nullable::text, "
    ++ "character_maximum_length::int4, numeric_precision::int4, numeric_precision_radix::int4 "
    ++ "FROM information_schema.columns WHERE table_name = $1 AND table_schema = $2"

/-- Reads the live indexes of a table. -/
def indexesSql : String :=
  "SELECT i.relname::text, idx.indrelid::regclass::text, "
    ++ "to_jsonb(ARRAY(SELECT pg_get_indexdef(idx.indexrelid, k + 1, true) "
    ++ "FROM generate_subscripts(idx.indkey, 1) AS k ORDER BY k))::text, ns.nspname::text "
    ++ "FROM pg_index AS idx "
    ++ "JOIN pg_class AS i ON i.oid = idx.indexrelid "
    ++ "JOIN pg_namespace AS ns ON ns.oid = i.relnamespace "
    ++ "WHERE NOT idx.indisprimary AND idx.indrelid = to_regclass($1) "
    ++ "ORDER BY i.relname"

/-- Marks a step. -/
def startStepSql (schema : String) : String :=
  "INSERT INTO " ++ schema ++ "._migrations (name) VALUES($1)"

/-- Asks for the mark of a step. -/
def stepStartedSql (schema : String) : String :=
  "SELECT name::text FROM " ++ schema ++ "._migrations WHERE name = $1"

/-- Removes the mark of a step. -/
def stopStepSql (schema : String) : String :=
  "DELETE FROM " ++ schema ++ "._migrations WHERE name = $1"

/-- The snapshot in a row. Without a stored text the relation is empty; one that names no table gets
the name of the row. -/
def readSnapshot [Json.Codec] (row : List Cell) : Work Session Relation := do
  let table ← decoded (Cell.textAt row 0)
  match ← decoded (Cell.optionalTextAt row 1) with
  | none => return { table }
  | some text =>
    match Relation.ofSnapshot? text with
    | none => Work.fail .serialization
    | some r => return if r.table.isEmpty then { r with table } else r

/-- The live column in a row. -/
def readColumn (row : List Cell) : Except DatabaseError LiveColumn := do
  return {
    name := ← Cell.textAt row 0
    typeName := ← Cell.textAt row 1
    isNullable := ← Cell.textAt row 2
    charLength := ← Cell.optionalIntAt row 3
    numericPrecision := ← Cell.optionalIntAt row 4
    numericRadix := ← Cell.optionalIntAt row 5 }

/-- The four texts of a row that describes an index. -/
def readIndexRow (row : List Cell) : Except DatabaseError (String × String × String × String) := do
  return (← Cell.textAt row 0, ← Cell.textAt row 1, ← Cell.textAt row 2, ← Cell.textAt row 3)

/-- The live index of a row; its columns are a JSON list of texts. -/
def readIndex [Json.Codec] (row : String × String × String × String) : Work Session LiveIndex :=
  let (name, table, columns, schema) := row
  match (Json.Codec.read? columns).bind (Json.list? Json.text?) with
  | none => Work.fail .serialization
  | some columns => return { name, table, schema, columns }

/-- The operations on an open transaction. -/
def backend [Json.Codec] [Client] : Backend Session where
  ensureSchema schema := do
    let _ ← Work.forEach (fun sql => query sql []) (ensureSchemaSql schema)
  execute sql := do
    let _ ← query sql []
  loadSnapshot schema table := do
    match ← query (loadSnapshotSql schema) [table] with
    | [] => return { table }
    | row :: _ => readSnapshot row
  saveSnapshot schema r := do
    let _ ← query (saveSnapshotSql schema) [r.table, r.snapshot]
  snapshots schema := do
    let rows ← query (snapshotsSql schema) []
    let _ ← decoded (rows.mapM fun row => do
      return (← Cell.textAt row 0, ← Cell.optionalTextAt row 1))
    Work.forEach readSnapshot rows
  liveColumns schema table := do
    let rows ← query columnsSql [table, schema]
    decoded (rows.mapM readColumn)
  liveIndexes schema table := do
    let rows ← query indexesSql [schema ++ "." ++ table]
    Work.forEach readIndex (← decoded (rows.mapM readIndexRow))
  startStep schema name := do
    let _ ← query (startStepSql schema) [name]
  stepStarted schema name := do
    match ← query (stepStartedSql schema) [name] with
    | [] => return false
    | row :: _ =>
      let _ ← decoded (Cell.textAt row 0)
      return true
  stopStep schema name := do
    let _ ← query (stopStepSql schema) [name]
  commit := finish "COMMIT"
  rollback := finish "ROLLBACK"

end SchemaEvolution.Postgres
