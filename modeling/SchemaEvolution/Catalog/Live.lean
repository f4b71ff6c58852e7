import SchemaEvolution.Relation.Basic

set_option autoImplicit false

/-! # The live catalog

What a database says about the columns and indexes of a table. A live column has a type in the
spelling of the catalog, which `LiveColumn.dataType` brings into the spelling of models; it says
nothing about defaults and the primary key. Live indexes have their full names in the database.
-/

namespace SchemaEvolution

open Text

/-- A column as the catalog describes it. -/
structure LiveColumn where
  name : String
  /-- The name of the underlying type. -/
  typeName : String
  /-- Either `YES` or `NO`. -/
  isNullable : String
  /-- The length of a character type. -/
  charLength : Option Int := none
  numericPrecision : Option Int := none
  numericRadix : Option Int := none
  deriving DecidableEq, Repr

namespace LiveColumn

/-- Whether the column refuses NULL. -/
def notNull (c : LiveColumn) : Bool := sameFold c.isNullable "NO"

/-- The SQL type in the spelling of models; a type without one of its own is in capitals. -/
def dataType (c : LiveColumn) : String :=
  let upper := uppercase c.typeName
  match upper, c.charLength with
  | "VARCHAR", some n => "VARCHAR(" ++ toString n ++ ")"
  | "JSONB", _ => "jsonb"
  | "BOOL", _ => "BOOLEAN"
  | _, _ => upper

/-- The column as it would be recorded. What the catalog does not say is taken from the column that
is wanted. -/
def toColumn (c : LiveColumn) (desired : Column) : Column where
  name := desired.name
  dataType := c.dataType
  defaultValue := desired.defaultValue
  notNull := c.notNull
  primaryKey := desired.primaryKey

end LiveColumn

/-- An index, other than that of the primary key, as the catalog describes it. -/
structure LiveIndex where
  /-- The name in the database. -/
  name : String
  table : String
  schema : String
  columns : List String
  deriving DecidableEq, Repr

namespace LiveIndex

/-- The name and columns of an index. -/
def summary (i : LiveIndex) : String := i.name ++ " (" ++ ", ".intercalate i.columns ++ ")"

/-- Whether this is the given index of a table: the name in the database and the columns agree. -/
def isIndex (live : LiveIndex) (table : String) (i : Index) : Bool :=
  sameFold (physicalIndexName table i.name) live.name && sameColumns live.columns i.columns

end LiveIndex

/-- The first live index of a name up to case. -/
def findLiveIndex? (live : List LiveIndex) (name : String) : Option LiveIndex :=
  live.find? fun i => sameFold i.name name

/-- The first live column of a name up to case. -/
def findLiveColumn? (live : List LiveColumn) (name : String) : Option LiveColumn :=
  live.find? fun c => sameFold c.name name

/-- Whether the live indexes are the indexes of a relation. -/
def Relation.indexesMatch (r : Relation) (live : List LiveIndex) : Bool :=
  r.indexes.length == live.length
    && live.all fun i => (r.physicalIndex? (lowercase i.name)).any (i.isIndex r.table)

end SchemaEvolution
