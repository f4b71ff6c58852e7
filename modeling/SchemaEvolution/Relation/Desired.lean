import SchemaEvolution.Model.Descriptor
import SchemaEvolution.Relation.Basic

set_option autoImplicit false

/-! # The shape a model asks for

Every stored field gives a column, and its index specs give fragments of indexes: an index spec is a
name followed by flags, all separated by blanks. Fragments of one name up to case are one index over
the columns of all of them; the first fragment decides its other attributes. A plain view has no
indexes.
-/

namespace SchemaEvolution

open Text

/-- What an index spec declares: a plain, a unique or a GIN index. -/
inductive IndexGroup where
  | plain
  | unique
  | gin
  deriving DecidableEq, Repr

/-- The access methods that an index spec can name. -/
def indexMethods : List String := ["btree", "hash", "gist", "spgist", "gin", "brin"]

/-- What the flags of a spec have said so far. -/
structure IndexFlags where
  isUnique : Bool
  method : String
  concurrently : Bool := false
  options : List String := []

/-- Reads one word after the name of a spec. A GIN spec has options only. -/
def IndexFlags.read (group : IndexGroup) (f : IndexFlags) (word : String) : IndexFlags :=
  if group = .gin then { f with options := f.options ++ [word] }
  else
    let lower := lowercase word
    if lower = "concurrently" then { f with concurrently := true }
    else if lower = "unique" then { f with isUnique := true }
    else if indexMethods.contains lower then { f with method := word }
    else { f with options := f.options ++ [word] }

/-- The fragment of an index that a spec declares for a column; a blank spec declares none. -/
def indexOfSpec? (group : IndexGroup) (column spec : String) : Option Index :=
  match wordsOn ' ' spec with
  | [] => none
  | name :: words =>
    let flags := words.foldl (IndexFlags.read group)
      { isUnique := group == .unique, method := if group = .gin then "gin" else "" }
    some {
      name := lowercase name
      isUnique := flags.isUnique
      method := flags.method
      columns := [column]
      options := " ".intercalate flags.options
      concurrently := flags.concurrently }

namespace Field

/-- The default of the column: the declared one, else the one of the type where NULL is refused and
the column is not the primary key. -/
def columnDefault (f : Field) : String :=
  let usual := if !f.nullable && !f.primaryKey then f.element.sqlDefault.getD "" else ""
  match f.defaultValue with
  | none | some "" => usual
  | some value => value

/-- The column of a stored field of a model. -/
def toColumn (model : String) (f : Field) : Except SchemaError Column :=
  match f.resolvedSqlType with
  | none => .error (.sqlTypeUndefined model f.name f.element.tag)
  | some dataType =>
    .ok {
      name := f.column
      dataType
      defaultValue := f.columnDefault
      notNull := !f.nullable
      primaryKey := f.primaryKey }

/-- The index fragments of a field: plain ones, then GIN ones, then unique ones. -/
def indexFragments (f : Field) : List Index :=
  f.indexes.filterMap (indexOfSpec? .plain f.column)
    ++ f.ginIndexes.filterMap (indexOfSpec? .gin f.column)
    ++ f.uniqueIndexes.filterMap (indexOfSpec? .unique f.column)

end Field

/-- Adds a column name that is not in the list up to case. -/
def addColumnName (columns : List String) (column : String) : List String :=
  if columns.any (sameFold · column) then columns else columns ++ [column]

/-- Adds a fragment: to the index of its name, or as a new index after the others. -/
def addFragment (indexes : List Index) (fragment : Index) : List Index :=
  match indexes with
  | [] => [fragment]
  | i :: rest =>
    if sameFold i.name fragment.name then
      { i with columns := fragment.columns.foldl addColumnName i.columns } :: rest
    else i :: addFragment rest fragment

/-- The shape that a model asks for, in normal form. `viewQuery` is the resolved query of a view. -/
def Descriptor.desired (m : Descriptor) (viewQuery : Option String) :
    Except SchemaError Relation := do
  let columns ← m.storedFields.mapM (Field.toColumn m.typeName)
  if columns.isEmpty then throw (.noStoredColumns m.typeName)
  let indexes := (m.storedFields.flatMap Field.indexFragments).foldl addFragment []
  let isView := viewQuery.isSome
  return Relation.normalized {
    table := m.table
    columns
    indexes := if isView && !m.isMaterialized then [] else indexes
    viewQuery := viewQuery.getD ""
    isView
    isMaterialized := isView && m.isMaterialized }

end SchemaEvolution
