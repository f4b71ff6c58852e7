import SchemaEvolution.Plan.Patch

set_option autoImplicit false

/-! # Plans

A plan holds the patches of one table in the queues they are executed in: index drops, view drops,
NULL updates, column clauses, table creations, view creations, index creations. Within a queue
patches keep the order in which they were pushed. `statements` writes the plan; all column clauses
together are one statement.
-/

namespace SchemaEvolution

/-- The patches of one table. -/
structure Plan where
  schema : String
  table : String
  dropIndexes : List Patch := []
  dropViews : List Patch := []
  updateNulls : List Patch := []
  columnClauses : List Patch := []
  createTables : List Patch := []
  createViews : List Patch := []
  createIndexes : List Patch := []
  deriving DecidableEq, Repr

namespace Plan

/-- Puts a patch at the end of the queue of its kind. -/
def push (p : Plan) (patch : Patch) : Plan :=
  match patch with
  | .dropIndex .. => { p with dropIndexes := p.dropIndexes ++ [patch] }
  | .dropView .. => { p with dropViews := p.dropViews ++ [patch] }
  | .updateNulls .. => { p with updateNulls := p.updateNulls ++ [patch] }
  | .createTable .. => { p with createTables := p.createTables ++ [patch] }
  | .createView .. => { p with createViews := p.createViews ++ [patch] }
  | .createIndex .. => { p with createIndexes := p.createIndexes ++ [patch] }
  | .addColumn _ | .alterColumnType _ | .alterColumnNullable _ | .alterColumnDefault _ =>
    { p with columnClauses := p.columnClauses ++ [patch] }

/-- Pushes patches one after the other. -/
def pushAll (p : Plan) (patches : List Patch) : Plan := patches.foldl push p

/-- Creates an index of the table. -/
def createIndex (p : Plan) (i : Index) : Plan := p.push (.createIndex p.schema p.table i)

/-- Drops an index of the table, if it exists, by its declared name. -/
def dropIndex (p : Plan) (name : String) : Plan := p.push (.dropIndex p.schema p.table name false)

/-- Drops an index by its name in the database. -/
def forceDropIndex (p : Plan) (name : String) : Plan := p.push (.dropIndex p.schema "" name true)

/-- The patches in the order in which they are executed. -/
def patches (p : Plan) : List Patch :=
  p.dropIndexes ++ p.dropViews ++ p.updateNulls ++ p.columnClauses ++ p.createTables
    ++ p.createViews ++ p.createIndexes

/-- The number of patches. -/
def size (p : Plan) : Nat := p.patches.length

/-- Whether there is nothing to do. -/
def isEmpty (p : Plan) : Bool := p.patches.isEmpty

/-- The statement that changes columns; there is none without column clauses. -/
def alterTable (p : Plan) : List String :=
  if p.columnClauses.isEmpty then []
  else
    ["ALTER TABLE " ++ p.schema ++ "." ++ p.table ++ " "
      ++ ", ".intercalate (p.columnClauses.map Patch.render)]

/-- The statements in the order in which they are executed. -/
def statements (p : Plan) : List String :=
  p.dropIndexes.map Patch.render ++ p.dropViews.map Patch.render
    ++ p.updateNulls.map Patch.render ++ p.alterTable
    ++ p.createTables.map Patch.render ++ p.createViews.map Patch.render
    ++ p.createIndexes.map Patch.render

end Plan

end SchemaEvolution
