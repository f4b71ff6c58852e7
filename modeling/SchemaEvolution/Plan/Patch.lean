import SchemaEvolution.Relation.Basic

set_option autoImplicit false

/-! # Patches

A patch is one change of a database schema. `Patch.render` writes it as SQL: most patches as a
statement, the four that change columns as a clause of the statement `ALTER TABLE`.
-/

namespace SchemaEvolution

/-- A change of a database schema. -/
inductive Patch where
  | addColumn (column : Column)
  | alterColumnType (column : Column)
  | alterColumnNullable (column : Column)
  | alterColumnDefault (column : Column)
  /-- Gives the column its default wherever it is NULL. -/
  | updateNulls (schema table : String) (column : Column)
  /-- Drops an index; `table` is put in front of its name. A forced drop must find the index. -/
  | dropIndex (schema table index : String) (force : Bool)
  | createIndex (schema table : String) (index : Index)
  | createTable (schema table : String) (columns : List Column)
  | createView (schema table query : String) (materialized : Bool)
  | dropView (schema table : String) (materialized : Bool)
  deriving DecidableEq, Repr

/-- A text that is written only under a condition. -/
def textWhen (condition : Bool) (text : String) : String := if condition then text else ""

namespace Column

/-- Whether a default is written for the column: a primary key gets none. -/
def writesDefault (c : Column) : Bool := !c.defaultValue.isEmpty && !c.primaryKey

/-- The definition of a column in a statement. -/
def definition (c : Column) : String :=
  c.name ++ " " ++ c.dataType ++ textWhen c.notNull " NOT NULL"
    ++ textWhen c.writesDefault (" DEFAULT " ++ c.defaultValue)

end Column

namespace Patch

/-- Whether the patch is a clause of `ALTER TABLE`. -/
def isColumnClause : Patch → Bool
  | addColumn _ | alterColumnType _ | alterColumnNullable _ | alterColumnDefault _ => true
  | _ => false

/-- The statement that creates an index. -/
def renderCreateIndex (schema table : String) (i : Index) : String :=
  "CREATE" ++ textWhen i.isUnique " UNIQUE" ++ " INDEX" ++ textWhen i.concurrently " CONCURRENTLY"
    ++ " " ++ table ++ i.name ++ " ON " ++ schema ++ "." ++ table
    ++ textWhen (!i.method.isEmpty) (" USING " ++ i.method)
    ++ "(" ++ ", ".intercalate i.columns ++ textWhen (!i.options.isEmpty) (" " ++ i.options) ++ ")"
    ++ textWhen (!i.storage.isEmpty) (" WITH " ++ i.storage)
    ++ textWhen (!i.condition.isEmpty) (" WHERE " ++ i.condition)

/-- The statement that creates a table; the primary key is its last clause. -/
def renderCreateTable (schema table : String) (columns : List Column) : String :=
  let keys := Text.sorted ((columns.filter (·.primaryKey)).map (·.name))
  let clauses := columns.map Column.definition
    ++ (if keys.isEmpty then [] else ["PRIMARY KEY (" ++ ",".intercalate keys ++ ")"])
  "CREATE TABLE " ++ schema ++ "." ++ table ++ " (" ++ ",".intercalate clauses ++ ")"

/-- The SQL text of a patch. -/
def render : Patch → String
  | addColumn c => "ADD COLUMN " ++ c.definition
  | alterColumnType c => "ALTER COLUMN " ++ c.name ++ " TYPE " ++ c.dataType
  | alterColumnNullable c =>
    "ALTER COLUMN " ++ c.name ++ (if c.notNull then " SET" else " DROP") ++ " NOT NULL"
  | alterColumnDefault c =>
    "ALTER COLUMN " ++ c.name
      ++ (if c.writesDefault then " SET DEFAULT " ++ c.defaultValue else " DROP DEFAULT")
  | updateNulls schema table c =>
    "UPDATE " ++ schema ++ "." ++ table ++ " SET " ++ c.name ++ " = " ++ c.defaultValue
      ++ " WHERE " ++ c.name ++ " IS NULL"
  | dropIndex schema table index force =>
    "DROP INDEX " ++ textWhen (!force) "IF EXISTS " ++ schema ++ "." ++ table ++ index
  | createIndex schema table i => renderCreateIndex schema table i
  | createTable schema table columns => renderCreateTable schema table columns
  | createView schema table query materialized =>
    (if materialized then "CREATE MATERIALIZED VIEW " else "CREATE OR REPLACE VIEW ")
      ++ schema ++ "." ++ table ++ " AS " ++ query
  | dropView schema table materialized =>
    "DROP " ++ textWhen materialized "MATERIALIZED " ++ "VIEW IF EXISTS " ++ schema ++ "." ++ table

end Patch

end SchemaEvolution
