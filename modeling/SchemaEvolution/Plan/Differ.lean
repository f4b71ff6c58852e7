import SchemaEvolution.Catalog.Live
import SchemaEvolution.Error
import SchemaEvolution.Plan.Basic

set_option autoImplicit false

/-! # Planning changes

The plans that make a relation, and that bring it from its last recorded shape to a desired one.

A table is changed in place. A desired column is compared with the recorded one of its name or, if
none is recorded, with the live one, so a table that exists without a record is adopted; a column
that is neither is added, and no column is dropped. The primary key is never changed. An index is
dropped and created again when its record, its live form or its desired form disagree, and live
indexes that are not desired are dropped. A view is replaced as a whole.
-/

namespace SchemaEvolution

namespace Plan

/-- Creates a table and its indexes. -/
def makeTable (p : Plan) (r : Relation) : Plan :=
  r.indexes.foldl createIndex (p.push (.createTable p.schema r.table r.columns))

/-- Creates a view, and its indexes when it is materialized. -/
def makeView (p : Plan) (r : Relation) : Plan :=
  let view := p.push (.createView p.schema r.table r.viewQuery r.isMaterialized)
  if r.isMaterialized then r.indexes.foldl createIndex view else view

/-- Creates a table or view. -/
def make (p : Plan) (r : Relation) : Plan := if r.isView then p.makeView r else p.makeTable r

/-- Plans a relation that does not exist. -/
def create (schema : String) (desired : Relation) : Plan :=
  make { schema, table := desired.table } desired

/-- Drops a recorded view, and its indexes when it is materialized. A table stays. -/
def unmakeView (p : Plan) (last : Relation) : Plan :=
  if last.isView then
    let indexes := if last.isMaterialized then last.indexes else []
    (indexes.foldl (fun p i => p.dropIndex i.name) p).push
      (.dropView p.schema last.table last.isMaterialized)
  else p

/-- Plans the replacement of a view, or of a table by a view. -/
def replaceView (schema : String) (last desired : Relation) : Plan :=
  (unmakeView { schema, table := desired.table } last).make desired

end Plan

/-- What a desired column is compared with: its record, else the live column. -/
def baseColumn? (last : Relation) (live : List LiveColumn) (desired : Column) : Option Column :=
  match last.column? desired.name with
  | some recorded => some recorded
  | none => (findLiveColumn? live desired.name).map (·.toColumn desired)

/-- The patches that bring a column from one form to another, apart from its primary key. -/
def Column.changes (schema table : String) (old new : Column) : List Patch :=
  (if new.notNull && !old.notNull && !new.defaultValue.isEmpty then
      [.updateNulls schema table new] else [])
    ++ (if Text.sameAsciiFold new.dataType old.dataType then [] else [.alterColumnType new])
    ++ (if new.notNull == old.notNull then [] else [.alterColumnNullable new])
    ++ (if new.defaultValue == old.defaultValue then [] else [.alterColumnDefault new])

/-- The patches for one desired column. -/
def columnPatches (schema table : String) (last : Relation) (live : List LiveColumn)
    (desired : Column) : Except SchemaError (List Patch) :=
  match baseColumn? last live desired with
  | none => .ok [.addColumn desired]
  | some old =>
    if desired.primaryKey == old.primaryKey then .ok (old.changes schema table desired)
    else .error (.primaryKeyChange table desired.name)

/-- Whether an index is dropped and created again. -/
def recreatesIndex (table : String) (recorded : Option Index) (live : Option LiveIndex)
    (desired : Index) : Bool :=
  match recorded, live with
  | some recorded, some live => !(desired.sameAs recorded && live.isIndex table desired)
  | none, some _ => true
  | _, none => false

namespace Plan

/-- Plans one desired index. -/
def alterIndex (last : Relation) (live : List LiveIndex) (p : Plan) (i : Index) : Plan :=
  let found := findLiveIndex? live (physicalIndexName p.table i.name)
  if recreatesIndex p.table (last.index? i.name) found i then (p.dropIndex i.name).createIndex i
  else if found.isNone then p.createIndex i
  else p

/-- The names in the database of the desired indexes that are live. -/
def knownIndexes (desired : Relation) (live : List LiveIndex) : List String :=
  (desired.indexes.map fun i => physicalIndexName desired.table i.name).filter
    fun name => (findLiveIndex? live name).isSome

/-- Plans the changes of the indexes of a table. -/
def alterIndexes (p : Plan) (last desired : Relation) (live : List LiveIndex) : Plan :=
  let known := knownIndexes desired live
  let orphans := live.filter fun i => !known.contains (Text.lowercase i.name)
  (orphans.map (·.name)).foldl forceDropIndex (desired.indexes.foldl (alterIndex last live) p)

/-- Plans the changes of a table. -/
def alterTableShape (schema : String) (last desired : Relation) (liveColumns : List LiveColumn)
    (liveIndexes : List LiveIndex) : Except SchemaError Plan := do
  let patches ← desired.columns.mapM (columnPatches schema desired.table last liveColumns)
  let p : Plan := { schema, table := desired.table }
  return (p.pushAll patches.flatten).alterIndexes last desired liveIndexes

/-- Plans the changes from the last recorded shape to the desired one. -/
def alter (schema : String) (last desired : Relation) (liveColumns : List LiveColumn)
    (liveIndexes : List LiveIndex) : Except SchemaError Plan :=
  if desired.isView || last.isView then .ok (replaceView schema last desired)
  else alterTableShape schema last desired liveColumns liveIndexes

end Plan

/-- Whether nothing has to change: the record is the desired shape and the live indexes are its. -/
def isUpToDate (last desired : Relation) (live : List LiveIndex) : Bool :=
  last.sameAs desired && desired.indexesMatch live

end SchemaEvolution
