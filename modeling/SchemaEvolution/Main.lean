import SchemaEvolution.CommandLine.Run

set_option autoImplicit false

/-! # The program

Reads the arguments, the environment and the configuration file, runs the command and prints what it
left. No client for a database server is linked in, so commands that need one report that it cannot
be reached.
-/

namespace SchemaEvolution

/-- The value of an environment variable with its name, if it is set. -/
def environmentEntry (name : String) : IO (Option (String × String)) := do
  return (← IO.getEnv name).map (name, ·)

/-- The text of a file, or the reason why it cannot be read. -/
def fileText (path : String) : IO (Except String String) := do
  match ← (IO.FS.readFile path).toBaseIO with
  | .ok text => return .ok text
  | .error (.noFileOrDirectory ..) => return .error Config.missingFile
  | .error e => return .error (toString e)

/-- The world of a run whose options are known. -/
def surroundings (o : CommandLine.Options) : IO CommandLine.World := do
  let environment ← ["DATABASE_URL", "PGSHAPE_NAMESPACE"].filterMapM environmentEntry
  let text ← match o.config with
    | some path => fileText path
    | none => pure (.error Config.missingFile)
  return {
    environment
    textOf := fun _ => text
    connect := fun _ => .error (.unreachable "no database client is available") }

end SchemaEvolution

/-- Runs the program. -/
def main (args : List String) : IO UInt32 := do
  let options := ((SchemaEvolution.CommandLine.parse args).map (·.1)).getD {}
  let outcome := SchemaEvolution.CommandLine.run (← SchemaEvolution.surroundings options) args
  IO.print outcome.stdout
  IO.eprint outcome.stderr
  return outcome.code.toUInt32
