import SchemaEvolution.CommandLine.Arguments
import SchemaEvolution.Query.Placeholder
import SchemaEvolution.Server.Steps

set_option autoImplicit false

/-! # Running a command

What the program prints and the code it exits with. Everything outside the program, the environment
variables, files and servers, is a `World`. Usage errors have the code 2, every other failure has
the code 1 and a line on the error output. Log lines go to the standard output.
-/

namespace SchemaEvolution.CommandLine

open Session

/-- What surrounds the program. -/
structure World where
  environment : List (String × String) := []
  /-- The text of a file, or why it cannot be read. -/
  textOf : String → Except String String
  /-- The server of a URL, or why it cannot be reached. -/
  connect : String → Except DatabaseError Server

/-- What a run of the program leaves. -/
structure Outcome where
  code : Nat
  stdout : String := ""
  stderr : String := ""
  deriving DecidableEq, Repr

/-- A log line with its fields. -/
def logLine (text : String) (fields : List (String × String)) : String :=
  " INFO " ++ text ++ String.join (fields.map fun (key, value) => " " ++ key ++ "=" ++ value)
    ++ "\n"

/-- A failure after some output. -/
def failure (stdout reason : String) : Outcome := ⟨1, stdout, "Error: " ++ reason ++ "\n"⟩

/-- The configuration that options, environment and configuration file give together. -/
def Options.configure [Json.Codec] (o : Options) (w : World) : Except String Config := do
  let base : Config ←
    match o.config with
    | none => pure {}
    | some path =>
      match Config.ofFile (w.textOf path) with
      | .error e => throw e.message
      | .ok c => pure c
  let url := o.databaseUrl <|> w.environment.lookup "DATABASE_URL"
  let name := o.namespaceName <|> w.environment.lookup "PGSHAPE_NAMESPACE"
  let config := { base with
    databaseUrl := url.getD base.databaseUrl
    namespaceName := name.getD base.namespaceName
    maxConnections := o.maxConnections.getD base.maxConnections }
  if config.databaseUrl.isEmpty then
    throw "no database URL: pass --database-url or set DATABASE_URL"
  return config

/-- Opens a connection. -/
def openSession (c : Config) (w : World) : Except DatabaseError Session := do
  if c.maxConnections = 0 then throw .poolTimedOut
  return { server := ← w.connect c.databaseUrl }

/-- A text filled up with blanks to a width. -/
def padded (width : Nat) (s : String) : String :=
  s ++ String.ofList (List.replicate (width - s.length) ' ')

/-- A rule under a heading. -/
def rule : String := String.ofList (List.replicate 60 '-') ++ "\n"

/-- The lines about the columns and indexes of a table. -/
def describeTable (schema table : String) (columns : List LiveColumn) (indexes : List LiveIndex) :
    String :=
  "\nColumns of " ++ schema ++ "." ++ table ++ ":\n" ++ rule
    ++ String.join (columns.map fun c =>
      " " ++ padded 30 c.name ++ " " ++ padded 20 c.dataType ++ " "
        ++ (if c.notNull then "NOT NULL" else "NULL") ++ "\n")
    ++ "\nIndexes:\n" ++ rule
    ++ String.join (indexes.map fun i => " " ++ i.summary ++ "\n")
    ++ "\n"

variable [Json.Codec] [Client]

/-- Reads in a transaction that is rolled back. -/
def reading {α : Type} (w : Work Session α) : Work Session α :=
  Steps.transaction w Postgres.backend.rollback

/-- A command that needs a database: what it does on a session, given the namespace. -/
def Command.work (schema : String) : Command → Work Session Outcome
  | .init => do
    Steps.ensure schema
    return ⟨0, logLine "Bookkeeping tables ready." [("namespace", schema)], ""⟩
  | .snapshots => do
    let stored ← reading (Postgres.backend.snapshots schema)
    if stored.isEmpty then
      return ⟨0, logLine "No snapshots stored yet." [("namespace", schema)], ""⟩
    else return ⟨0, String.join (stored.map (·.snapshot ++ "\n")), ""⟩
  | .snapshot table => do
    let r ← reading (Postgres.backend.loadSnapshot schema table)
    if r.isEmpty then return failure "" ("no snapshot stored for " ++ schema ++ "." ++ table)
    else return ⟨0, Json.Codec.writePretty r.toJson ++ "\n", ""⟩
  | .inspect table => do
    let (columns, indexes) ← reading do
      return (← Postgres.backend.liveColumns schema table,
        ← Postgres.backend.liveIndexes schema table)
    return ⟨0, describeTable schema table columns indexes, ""⟩
  | .stepStart name => do
    Steps.start schema name
    return ⟨0, logLine "Step started" [("namespace", schema), ("step", name)], ""⟩
  | .stepCheck name => do
    if ← Steps.isStarted schema name then return ⟨0, name ++ ": started\n", ""⟩
    else return ⟨1, name ++ ": not started\n", ""⟩
  | .stepStop name => do
    Steps.stop schema name
    return ⟨0, logLine "Step stopped" [("namespace", schema), ("step", name)], ""⟩
  | .rebind _ => return ⟨0, "", ""⟩

/-- What a command prints before it reaches the database. -/
def Command.announcement (schema : String) : Command → String
  | .init => logLine "Initializing namespace..." [("namespace", schema)]
  | _ => ""

/-- Runs a command that needs a database. -/
def Command.runOn (c : Command) (schema : String) (s : Session) : Outcome × Session :=
  let before := c.announcement schema
  match (c.work schema).run s with
  | (.ok o, s) => ({ o with stdout := before ++ o.stdout }, s)
  | (.error e, s) => (failure before e.message, s)

/-- The outcome of numbering the placeholders of a query. -/
def rebindOutcome (query : String) : Outcome :=
  ⟨0, Query.rebind query ++ "\n"
    ++ logLine "Rebound query" [("placeholders", toString (Query.countPlaceholders query))], ""⟩

/-- Runs the program. -/
def run (w : World) (args : List String) : Outcome :=
  match parse args with
  | none => { code := 2 }
  | some (_, .rebind query) => rebindOutcome query
  | some (o, command) =>
    match o.configure w with
    | .error reason => failure "" reason
    | .ok config =>
      match openSession config w with
      | .error e => failure "" (MigrationError.database e).message
      | .ok session => (command.runOn config.namespaceName session).1

end SchemaEvolution.CommandLine
