import SchemaEvolution.Error

set_option autoImplicit false

/-! # Errors of migrations

A migration fails in the database, on a stored text that cannot be read, on a model, in a hook, or
because its transaction is over. Whatever fails while a table is migrated is wrapped with the phase
and the table. Only a change of a primary key makes it pointless to run again.
-/

namespace SchemaEvolution

/-- The phases of the migration of a table. -/
inductive Phase where
  | ensureSchema
  | loadSnapshot
  | introspect
  | create
  | alter
  | saveSnapshot
  | hook
  deriving DecidableEq, Repr

/-- The name of a phase. -/
def Phase.text : Phase → String
  | .ensureSchema => "ensure-schema"
  | .loadSnapshot => "load-snapshot"
  | .introspect => "introspect"
  | .create => "create"
  | .alter => "alter"
  | .saveSnapshot => "save-snapshot"
  | .hook => "hook"

/-- What a value of a row is read as. -/
inductive CellType where
  | text
  | optionalText
  | optionalInt
  deriving DecidableEq, Repr

namespace CellType

/-- The name of a cell type in a message. -/
def name : CellType → String
  | text => "alloc::string::String"
  | optionalText => "core::option::Option<alloc::string::String>"
  | optionalInt => "core::option::Option<i32>"

/-- The SQL type that a cell type reads. -/
def sqlName : CellType → String
  | text | optionalText => "TEXT"
  | optionalInt => "INT4"

/-- The SQL type of the values that a cell type does not read. -/
def otherSqlName : CellType → String
  | text | optionalText => "INT4"
  | optionalInt => "TEXT"

end CellType

/-- What went wrong between the program and the database. -/
inductive DatabaseError where
  /-- The server refused a statement. -/
  | refused (text : String)
  /-- The data exchanged made no sense. -/
  | invalidData (text : String)
  /-- A value that must be there is NULL; columns count from zero. -/
  | unexpectedNull (column : Nat)
  /-- A value has another type than the one asked for. -/
  | mismatchedType (column : Nat) (wanted : CellType)
  /-- A row has too few values. -/
  | missingColumn (width column : Nat)
  /-- No connection was free in time. -/
  | poolTimedOut
  /-- The server could not be reached. -/
  | unreachable (text : String)
  deriving DecidableEq, Repr

/-- The text of a database error. -/
def DatabaseError.message : DatabaseError → String
  | refused text => "error returned from database: " ++ text
  | invalidData text => "encountered unexpected or invalid data: " ++ text
  | unexpectedNull column =>
    "error occurred while decoding column " ++ toString column
      ++ ": unexpected null; try decoding as an `Option`"
  | mismatchedType column wanted =>
    "error occurred while decoding column " ++ toString column
      ++ ": mismatched types; Rust type `" ++ wanted.name ++ "` (as SQL type `" ++ wanted.sqlName
      ++ "`) is not compatible with SQL type `" ++ wanted.otherSqlName ++ "`"
  | missingColumn width column =>
    "column index out of bounds: the len is " ++ toString width ++ ", but the index is "
      ++ toString column
  | poolTimedOut => "pool timed out while waiting for an open connection"
  | unreachable text => text

/-- Why a migration failed. -/
inductive MigrationError where
  | database (cause : DatabaseError)
  /-- A stored text is not the JSON of what it should hold. -/
  | serialization
  | model (cause : SchemaError)
  /-- A file could not be read. -/
  | file (text : String)
  /-- The transaction was committed or rolled back already. -/
  | noTransaction
  /-- A hook refused the migration. -/
  | hook (reason : String)
  | inPhase (phase : Phase) (table : String) (cause : MigrationError)
  deriving DecidableEq, Repr

namespace MigrationError

/-- The text of an error. -/
def message : MigrationError → String
  | database cause => "Database error: " ++ cause.message
  | serialization => "Serialization error: malformed document"
  | model cause => cause.message
  | file text => "IO error: " ++ text
  | noTransaction => "No open transaction"
  | hook reason => "Hook failed: " ++ reason
  | inPhase phase table cause =>
    "Migration of '" ++ table ++ "' failed during " ++ phase.text ++ ": " ++ cause.message

/-- The phase of the outermost wrapper. -/
def phase? : MigrationError → Option Phase
  | inPhase phase _ _ => some phase
  | _ => none

/-- Whether a change of a primary key is at the bottom. -/
def isPrimaryKeyChange : MigrationError → Bool
  | model cause => cause.isPrimaryKeyChange
  | inPhase _ _ cause => cause.isPrimaryKeyChange
  | _ => false

/-- Whether running the migration again may succeed. -/
def isRetryable (e : MigrationError) : Bool := !e.isPrimaryKeyChange

end MigrationError

end SchemaEvolution
