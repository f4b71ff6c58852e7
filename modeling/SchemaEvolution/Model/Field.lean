import SchemaEvolution.Model.ElementType
import SchemaEvolution.Naming
import SchemaEvolution.Text.Case

set_option autoImplicit false

/-! # Fields of a model

A `FieldDecl` is what a declaration says about a field; `FieldDecl.describe` fills in what it leaves
open and gives the `Field`. Names decide three things by convention: a field without column name is
stored under the snake case of its name, a field `ID` is the primary key unless told otherwise, and
four names carry a role in the life of a record.
-/

namespace SchemaEvolution

/-- The role of a field in the life of a record. -/
inductive Role where
  | id
  | createdAt
  | updatedAt
  | deletedAt
  deriving DecidableEq, Repr

/-- The role that a field name carries by convention. -/
def Role.ofName? : String → Option Role
  | "ID" => some .id
  | "CreatedAt" => some .createdAt
  | "UpdatedAt" => some .updatedAt
  | "DeletedAt" => some .deletedAt
  | _ => none

/-- The full description of a field. -/
structure Field where
  /-- The declared name, by which templates refer to the field. -/
  name : String
  /-- The column name; empty for a field that is not stored. -/
  column : String
  jsonName : String
  element : ElementType
  length : Nat
  precision : Nat
  /-- The SQL type that replaces the one of the element type. -/
  sqlType : Option String
  /-- The default that replaces the one of the element type. -/
  defaultValue : Option String
  /-- Index specs, `name [flags…]`. -/
  indexes : List String
  ginIndexes : List String
  uniqueIndexes : List String
  nullable : Bool
  /-- Not stored. -/
  skip : Bool
  /-- Left out of upsert statements. -/
  skipUpsert : Bool
  fullText : Bool
  primaryKey : Bool
  jsonSkip : Bool
  omitEmpty : Bool
  role : Option Role
  deriving DecidableEq, Repr

namespace Field

/-- Whether the field has a column. -/
def isStored (f : Field) : Bool := !f.skip

/-- The SQL type of the column. -/
def resolvedSqlType (f : Field) : Option String :=
  f.sqlType <|> f.element.sqlType f.length f.precision

/-- A short description: a star marks a field that takes NULL. -/
def summary (f : Field) : String :=
  if f.skip then "- " ++ f.name ++ " [skip]"
  else (if f.nullable then "*" else "") ++ f.name ++ " (db: " ++ f.column ++ ")"

end Field

/-- The length of a field that declares none. -/
def defaultLength : Nat := 19

/-- The precision of a field that declares none. -/
def defaultPrecision : Nat := 6

/-- What a declaration says about a field. -/
structure FieldDecl where
  name : String
  element : ElementType
  /-- The column name; `-` keeps the field out of storage, the empty name counts as none. -/
  column : Option String := none
  jsonName : Option String := none
  length : Nat := defaultLength
  precision : Nat := defaultPrecision
  sqlType : Option String := none
  defaultValue : Option String := none
  indexes : List String := []
  ginIndexes : List String := []
  uniqueIndexes : List String := []
  nullable : Option Bool := none
  primaryKey : Option Bool := none
  skip : Bool := false
  skipUpsert : Bool := false
  fullText : Bool := false
  jsonSkip : Bool := false
  omitEmpty : Bool := false
  deriving DecidableEq, Repr

namespace FieldDecl

/-- The column name of a field that is stored. -/
def columnName (d : FieldDecl) : String :=
  match d.column with
  | none | some "" => Naming.snakeCase d.name
  | some column => column

/-- Whether the field is kept out of storage. -/
def isSkipped (d : FieldDecl) : Bool := d.skip || d.column == some "-"

/-- Whether the field is a primary key: as declared, else by its name. -/
def isPrimaryKey (d : FieldDecl) : Bool := d.primaryKey.getD (Role.ofName? d.name == some .id)

/-- The role of the field. A field named like the id has it only as a primary key. -/
def role (d : FieldDecl) : Option Role :=
  match Role.ofName? d.name with
  | some .id => if d.isPrimaryKey then some .id else none
  | other => other

/-- Whether the database fills the column from a sequence. -/
def isSerial (d : FieldDecl) : Bool :=
  (d.sqlType <|> d.element.sqlType d.length d.precision).any (Text.sameAsciiFold "BIGSERIAL")

/-- The description of a declared field. -/
def describe (d : FieldDecl) : Field where
  name := d.name
  column := if d.isSkipped then "" else d.columnName
  jsonName := d.jsonName.getD d.name
  element := d.element
  length := d.length
  precision := d.precision
  sqlType := d.sqlType
  defaultValue := d.defaultValue
  indexes := d.indexes
  ginIndexes := d.ginIndexes
  uniqueIndexes := d.uniqueIndexes
  nullable := d.nullable.getD d.element.nullable
  skip := d.isSkipped
  skipUpsert := d.skipUpsert || d.isSerial
  fullText := d.fullText
  primaryKey := d.isPrimaryKey
  jsonSkip := d.jsonSkip
  omitEmpty := d.omitEmpty
  role := d.role

end FieldDecl

end SchemaEvolution
