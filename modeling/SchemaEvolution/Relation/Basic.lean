import SchemaEvolution.Text.Case
import SchemaEvolution.Text.Search

set_option autoImplicit false

/-! # Relations

A `Relation` is the shape of one table or view: its columns and indexes, and the query of a view.
The shape that was last made is stored as a snapshot; the shape to be made comes from a model.

Equality of shapes (`sameAs`) goes by names up to case and not by order. A relation equals another
one when both have as many columns and as many indexes and each of its columns, and each of its
indexes, equals the first one of that name in the other. `normalized` sorts what has no order of
its own.
-/

namespace SchemaEvolution

open Text

/-- A column. -/
structure Column where
  name : String
  /-- The SQL type. -/
  dataType : String
  /-- The text of the default; empty for none. -/
  defaultValue : String := ""
  notNull : Bool := false
  primaryKey : Bool := false
  deriving DecidableEq, Repr

/-- Equality of columns: names and types up to case. -/
def Column.sameAs (a b : Column) : Bool :=
  sameFold a.name b.name
    && sameFold a.dataType b.dataType
    && a.defaultValue == b.defaultValue
    && a.notNull == b.notNull
    && a.primaryKey == b.primaryKey

/-- An index. -/
structure Index where
  /-- The name without the table name in front of it. -/
  name : String
  isUnique : Bool := false
  /-- The access method; empty for the usual one. -/
  method : String := ""
  columns : List String := []
  /-- What follows the columns inside the parentheses. -/
  options : String := ""
  concurrently : Bool := false
  /-- The storage parameters, after `WITH`. -/
  storage : String := ""
  /-- The condition of a partial index, after `WHERE`. -/
  condition : String := ""
  deriving DecidableEq, Repr

/-- Equality of column lists up to order and case: as long, and each name is in the other list. -/
def sameColumns (a b : List String) : Bool :=
  a.length == b.length
    && a.all (fun l => b.any (fun r => sameFold l r))
    && b.all (fun r => a.any (fun l => sameFold l r))

/-- Equality of indexes: texts up to case, columns up to order. -/
def Index.sameAs (a b : Index) : Bool :=
  sameFold a.name b.name
    && a.isUnique == b.isUnique
    && sameFold a.method b.method
    && sameColumns a.columns b.columns
    && sameFold a.options b.options
    && a.concurrently == b.concurrently
    && sameFold a.storage b.storage
    && sameFold a.condition b.condition

/-- The shape of a table or view. -/
structure Relation where
  table : String
  columns : List Column := []
  indexes : List Index := []
  /-- The resolved query of a view. -/
  viewQuery : String := ""
  isView : Bool := false
  isMaterialized : Bool := false
  deriving DecidableEq, Repr

/-- The name of an index in the database, in lower case: the table name and its own. -/
def physicalIndexName (table index : String) : String := lowercase (table ++ index)

namespace Relation

/-- Whether nothing is recorded, as for a table that does not exist yet. -/
def isEmpty (r : Relation) : Bool := r.columns.isEmpty && r.indexes.isEmpty

/-- The first column of a name up to case. -/
def column? (r : Relation) (name : String) : Option Column :=
  r.columns.find? fun c => sameFold c.name name

/-- The first index of a name up to case. -/
def index? (r : Relation) (name : String) : Option Index :=
  r.indexes.find? fun i => sameFold i.name name

/-- The names of the primary-key columns, sorted. -/
def primaryKey (r : Relation) : List String :=
  sorted ((r.columns.filter (·.primaryKey)).map (·.name))

/-- The indexes by their names in the database. -/
def physicalIndexes (r : Relation) : List (String × Index) :=
  r.indexes.map fun i => (physicalIndexName r.table i.name, i)

/-- The index of a name in the database; of two the later one. -/
def physicalIndex? (r : Relation) (name : String) : Option Index :=
  r.physicalIndexes.reverse.lookup name

/-- The shape with columns, indexes and the columns of each index sorted. -/
def normalized (r : Relation) : Relation :=
  { r with
    columns := r.columns.mergeSort fun a b => decide (a.name ≤ b.name)
    indexes := (r.indexes.mergeSort fun a b => decide (a.name ≤ b.name)).map
      fun i => { i with columns := sorted i.columns } }

/-- Equality of shapes up to case and order. -/
def sameAs (a b : Relation) : Bool :=
  a.columns.length == b.columns.length
    && a.indexes.length == b.indexes.length
    && sameFold a.table b.table
    && a.viewQuery == b.viewQuery
    && a.isView == b.isView
    && a.isMaterialized == b.isMaterialized
    && a.columns.all (fun c => (b.column? c.name).any c.sameAs)
    && a.indexes.all (fun i => (b.index? i.name).any i.sameAs)

end Relation

end SchemaEvolution
