import SchemaEvolution.Json.Codec
import SchemaEvolution.Relation.Basic

set_option autoImplicit false

/-! # Snapshots

A snapshot is a relation written as JSON. Attributes that are empty or false are left out of a
relation and of an index, except a name, a table and the columns of an index; a column is written in
full. Reading accepts either form of a record and normalizes what it read.
-/

namespace SchemaEvolution

open Json

/-- A member that is left out when its text is empty. -/
def textMember (key value : String) : List (String × Json) :=
  if value.isEmpty then [] else [(key, .string value)]

/-- A member that is left out when it is false. -/
def flagMember (key : String) (value : Bool) : List (String × Json) :=
  if value then [(key, .bool true)] else []

/-- A member that is left out when its list is empty. -/
def listMember (key : String) (items : List Json) : List (String × Json) :=
  if items.isEmpty then [] else [(key, .array items)]

namespace Column

/-- The keys of a column. -/
def keys : List String := ["ColName", "DataType", "DefaultValue", "NotNull", "PrimaryKey"]

/-- A column as JSON. -/
def toJson (c : Column) : Json :=
  .object [("ColName", .string c.name), ("DataType", .string c.dataType),
    ("DefaultValue", .string c.defaultValue), ("NotNull", .bool c.notNull),
    ("PrimaryKey", .bool c.primaryKey)]

/-- Reads a column. -/
def ofJson? [Codec] (j : Json) : Option Column := do
  let r ← Codec.record? keys j
  return {
    name := ← r.required "ColName" text?
    dataType := ← r.required "DataType" text?
    defaultValue := ← r.optional "DefaultValue" text? ""
    notNull := ← r.optional "NotNull" bool? false
    primaryKey := ← r.optional "PrimaryKey" bool? false }

end Column

namespace Index

/-- The keys of an index. -/
def keys : List String :=
  ["name", "isUnique", "methodName", "columns", "options", "concurrently", "with", "where"]

/-- An index as JSON. -/
def toJson (i : Index) : Json :=
  .object <|
    [("name", .string i.name)] ++ flagMember "isUnique" i.isUnique
      ++ textMember "methodName" i.method
      ++ [("columns", .array (i.columns.map .string))]
      ++ textMember "options" i.options ++ flagMember "concurrently" i.concurrently
      ++ textMember "with" i.storage ++ textMember "where" i.condition

/-- Reads an index. -/
def ofJson? [Codec] (j : Json) : Option Index := do
  let r ← Codec.record? keys j
  return {
    name := ← r.required "name" text?
    isUnique := ← r.optional "isUnique" bool? false
    method := ← r.optional "methodName" text? ""
    columns := ← r.optional "columns" (list? text?) []
    options := ← r.optional "options" text? ""
    concurrently := ← r.optional "concurrently" bool? false
    storage := ← r.optional "with" text? ""
    condition := ← r.optional "where" text? "" }

end Index

namespace Relation

/-- The keys of a relation. -/
def keys : List String := ["table", "cols", "idxs", "viewQuery", "isView", "isMaterialized"]

/-- A relation as JSON. -/
def toJson (r : Relation) : Json :=
  .object <|
    [("table", .string r.table)] ++ listMember "cols" (r.columns.map Column.toJson)
      ++ listMember "idxs" (r.indexes.map Index.toJson)
      ++ textMember "viewQuery" r.viewQuery
      ++ flagMember "isView" r.isView ++ flagMember "isMaterialized" r.isMaterialized

/-- Reads a relation as it is written. -/
def ofJson? [Codec] (j : Json) : Option Relation := do
  let r ← Codec.record? keys j
  return {
    table := ← r.required "table" text?
    columns := ← r.optional "cols" (list? Column.ofJson?) []
    indexes := ← r.optional "idxs" (list? Index.ofJson?) []
    viewQuery := ← r.optional "viewQuery" text? ""
    isView := ← r.optional "isView" bool? false
    isMaterialized := ← r.optional "isMaterialized" bool? false }

/-- The text of a snapshot. -/
def snapshot [Codec] (r : Relation) : String := Codec.write r.toJson

/-- Reads the text of a snapshot, in normal form. -/
def ofSnapshot? [Codec] (s : String) : Option Relation :=
  ((Codec.read? s).bind ofJson?).map normalized

end Relation

end SchemaEvolution
