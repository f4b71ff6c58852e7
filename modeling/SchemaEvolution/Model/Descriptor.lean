import SchemaEvolution.Error
import SchemaEvolution.Model.Declaration

set_option autoImplicit false

/-! # Descriptors of models

A descriptor is an accepted declaration: its fields in declaration order, in which declared names
and the columns of stored fields are unique and at most one stored field is the primary key.
`Descriptor.ofDeclaration` looks at the fields in order and reports the first fault. A field is
looked up by a search of the list, which finds what maps from names to positions would give that are
filled while the fields are looked at (`FieldMaps.finds`).
-/

namespace SchemaEvolution

/-- A described model. -/
structure Descriptor where
  typeName : String
  table : String
  fields : List Field
  /-- The query template; present exactly for a view. -/
  viewQuery : Option String
  isMaterialized : Bool
  deriving DecidableEq, Repr

/-- What the fields looked at so far have taken. -/
structure Descriptor.Taken where
  names : List String := []
  columns : List String := []
  primaryKey : Option String := none

/-- Takes the names of one more field. -/
def Descriptor.Taken.add (model : String) (t : Taken) (f : Field) : Except SchemaError Taken := do
  if t.names.contains f.name then throw (.duplicateColumn model f.name)
  if f.isStored && t.columns.contains f.column then throw (.duplicateColumn model f.column)
  let names := f.name :: t.names
  let columns := if f.isStored then f.column :: t.columns else t.columns
  if f.primaryKey && f.isStored then
    match t.primaryKey with
    | some first => throw (.multiplePrimaryKeys model first f.name)
    | none => return ⟨names, columns, some f.name⟩
  else return ⟨names, columns, t.primaryKey⟩

namespace Descriptor

/-- Describes a declared model. -/
def ofDeclaration (d : Declaration) : Except SchemaError Descriptor := do
  if d.typeName.isEmpty then throw .unnamedModel
  let fields := d.fields
  let _ ← fields.foldlM (Taken.add d.typeName) {}
  let viewQuery := d.viewQuery.filter (!·.isEmpty)
  return {
    typeName := d.typeName
    table := d.table.getD (Naming.snakeCase d.typeName)
    fields, viewQuery
    isMaterialized := d.materialized && viewQuery.isSome }

/-- The fields that have a column, in declaration order. -/
def storedFields (m : Descriptor) : List Field := m.fields.filter Field.isStored

/-- Whether the model is a view. -/
def isView (m : Descriptor) : Bool := m.viewQuery.isSome

/-- The field of a declared name. -/
def field (m : Descriptor) (name : String) : Except SchemaError Field :=
  match m.fields.find? (·.name == name) with
  | some f => .ok f
  | none => .error (.notFound m.typeName .field name)

/-- The stored field of a column. -/
def fieldOfColumn (m : Descriptor) (column : String) : Except SchemaError Field :=
  match m.storedFields.find? (·.column == column) with
  | some f => .ok f
  | none => .error (.notFound m.typeName .column column)

/-- The first field of a JSON name. -/
def fieldOfJson (m : Descriptor) (name : String) : Except SchemaError Field :=
  match m.fields.find? (·.jsonName == name) with
  | some f => .ok f
  | none => .error (.notFound m.typeName .json name)

/-- The first field in a role. -/
def fieldOfRole? (m : Descriptor) (r : Role) : Option Field := m.fields.find? (·.role == some r)

/-- The field in the role of the id. -/
def idField? (m : Descriptor) : Option Field := m.fieldOfRole? .id

end Descriptor

end SchemaEvolution
