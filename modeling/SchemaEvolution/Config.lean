import SchemaEvolution.Json.Codec
import SchemaEvolution.Migration.Run

set_option autoImplicit false

/-! # Configuration

The settings of a migration, as a JSON record in which every field may be missing.
-/

namespace SchemaEvolution

/-- Connection and migration settings. -/
structure Config where
  databaseUrl : String := ""
  /-- The namespace that is migrated. -/
  namespaceName : String := "public"
  /-- The size of the connection pool. -/
  maxConnections : Nat := 5
  dryRun : Bool := false
  /-- Whether a symbol that stands for nothing is refused. -/
  strictTemplates : Bool := false
  deriving DecidableEq, Repr

namespace Config

/-- The greatest size of a connection pool. -/
def maxPoolSize : Nat := UInt32.size - 1

/-- The keys of a configuration. -/
def keys : List String :=
  ["database_url", "namespace", "max_connections", "dry_run", "strict_templates"]

/-- Reads a configuration. -/
def ofJson? [Json.Codec] (j : Json) : Option Config := do
  let r ← Json.Codec.record? keys j
  return {
    databaseUrl := ← r.optional "database_url" Json.text? ""
    namespaceName := ← r.optional "namespace" Json.text? "public"
    maxConnections := ← r.optional "max_connections" (Json.nat? maxPoolSize) 5
    dryRun := ← r.optional "dry_run" Json.bool? false
    strictTemplates := ← r.optional "strict_templates" Json.bool? false }

/-- A configuration as JSON. -/
def toJson (c : Config) : Json :=
  .object [("database_url", .string c.databaseUrl), ("namespace", .string c.namespaceName),
    ("max_connections", .ofNat c.maxConnections), ("dry_run", .bool c.dryRun),
    ("strict_templates", .bool c.strictTemplates)]

/-- Reads the text of a configuration file. -/
def parse? [Json.Codec] (text : String) : Option Config := (Json.Codec.read? text).bind ofJson?

/-- The reason given for a file that does not exist. -/
def missingFile : String := "No such file or directory (os error 2)"

/-- Reads a configuration file, given its text or the reason why it cannot be read. -/
def ofFile [Json.Codec] : Except String String → Except MigrationError Config
  | .error reason => .error (.file reason)
  | .ok text =>
    match parse? text with
    | none => .error .serialization
    | some c => .ok c

/-- An empty store for the configured namespace. -/
def store (c : Config) : Store := { namespaceName := c.namespaceName, strict := c.strictTemplates }

/-- A migration of a store in the configured mode. -/
def migrator {σ : Type} (c : Config) (store : Store) (hooks : Hooks σ) : Migrator σ :=
  { store, hooks, dryRun := c.dryRun }

end Config

end SchemaEvolution
