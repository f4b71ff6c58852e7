import SchemaEvolution.Config

set_option autoImplicit false

/-! # Command-line arguments

    [OPTIONS] init | snapshots | snapshot TABLE | inspect TABLE | rebind QUERY
            | step start NAME | step check NAME | step stop NAME

The options `-d`/`--database-url`, `-n`/`--namespace`, `--max-connections` and `-c`/`--config` take
a value, `-v`/`--verbose` takes none; each may be given once. The value of a long option follows it
as the next argument or after `=`; that of a short one follows it as the next argument or directly,
with or without `=`. An argument that starts with a dash and is longer than it is an option wherever
it stands, unless `--` came before it in the arguments of a command.

Reading the arguments only decides which `Command` is run with which `Options`. What is proved about
commands is proved of the `Command` itself, however it was asked for.
-/

namespace SchemaEvolution.CommandLine

/-- What the program is asked to do. -/
inductive Command where
  | init
  | snapshots
  | snapshot (table : String)
  | inspect (table : String)
  | stepStart (name : String)
  | stepCheck (name : String)
  | stepStop (name : String)
  | rebind (query : String)
  deriving DecidableEq, Repr

/-- The options that were given. -/
structure Options where
  databaseUrl : Option String := none
  namespaceName : Option String := none
  maxConnections : Option Nat := none
  config : Option String := none
  verbose : Bool := false
  deriving DecidableEq, Repr

/-- An option that takes a value. -/
inductive ValueOption where
  | databaseUrl
  | namespaceName
  | maxConnections
  | config
  deriving DecidableEq, Repr

/-- The option of a long name. -/
def longOption? : String → Option ValueOption
  | "database-url" => some .databaseUrl
  | "namespace" => some .namespaceName
  | "max-connections" => some .maxConnections
  | "config" => some .config
  | _ => none

/-- The option of a letter. -/
def shortOption? : Char → Option ValueOption
  | 'd' => some .databaseUrl
  | 'n' => some .namespaceName
  | 'c' => some .config
  | _ => none

/-- Reads the size of a connection pool: decimal digits, a plus sign allowed in front. -/
def poolSize? (text : String) : Option Nat :=
  let ds := match text.toList with
    | '+' :: ds => ds
    | ds => ds
  let n := Json.ofDigits ds
  if !ds.isEmpty && ds.all Char.isDigit && n ≤ Config.maxPoolSize then some n else none

/-- Sets an option that was not given before. -/
def Options.set (o : Options) (option : ValueOption) (value : String) : Option Options :=
  match option with
  | .databaseUrl =>
    if o.databaseUrl.isNone then some { o with databaseUrl := some value } else none
  | .namespaceName =>
    if o.namespaceName.isNone then some { o with namespaceName := some value } else none
  | .maxConnections =>
    if o.maxConnections.isNone then
      (poolSize? value).map fun n => { o with maxConnections := some n }
    else none
  | .config =>
    if o.config.isNone && !value.isEmpty then some { o with config := some value } else none

/-- Turns verbose output on, unless it is on. -/
def Options.setVerbose (o : Options) : Option Options :=
  if o.verbose then none else some { o with verbose := true }

/-- Whether an argument is an option and not a value. -/
def isOption (arg : String) : Bool :=
  match arg.toList with
  | '-' :: _ :: _ => true
  | _ => false

/-- Sets an option from the next argument; gives the other arguments too. -/
def takeValue (o : Options) (option : ValueOption) : List String → Option (Options × List String)
  | [] => none
  | value :: rest => if isOption value then none else (o.set option value).map (·, rest)

/-- Reads the letters of an argument that starts with one dash. -/
def readLetters (o : Options) (rest : List String) : List Char → Option (Options × List String)
  | [] => some (o, rest)
  | 'v' :: cs => do readLetters (← o.setVerbose) rest cs
  | c :: cs => do
    let option ← shortOption? c
    match cs with
    | [] => takeValue o option rest
    | '=' :: value => (o.set option (String.ofList value)).map (·, rest)
    | value => (o.set option (String.ofList value)).map (·, rest)

/-- Reads an argument that starts with two dashes, without them. -/
def readLong (o : Options) (rest : List String) (arg : List Char) :
    Option (Options × List String) := do
  let name := String.ofList (arg.takeWhile (· != '='))
  match arg.dropWhile (· != '=') with
  | [] =>
    if name = "verbose" then (← o.setVerbose, rest)
    else takeValue o (← longOption? name) rest
  | _ :: value => (← o.set (← longOption? name) (String.ofList value), rest)

/-- The values among the arguments of a command: none of them is an option, except after `--`. -/
def values? : List String → Option (List String)
  | [] => some []
  | arg :: rest =>
    if arg = "--" then some rest
    else if isOption arg then none
    else (values? rest).map (arg :: ·)

/-- The command of a name and its values. -/
def command? (name : String) (values : List String) : Option Command :=
  match name, values with
  | "init", [] => some .init
  | "snapshots", [] => some .snapshots
  | "snapshot", [table] => some (.snapshot table)
  | "inspect", [table] => some (.inspect table)
  | "rebind", [query] => some (.rebind query)
  | _, _ => none

/-- The step command of a name and its values. -/
def stepCommand? (name : String) (values : List String) : Option Command :=
  match name, values with
  | "start", [step] => some (.stepStart step)
  | "check", [step] => some (.stepCheck step)
  | "stop", [step] => some (.stepStop step)
  | _, _ => none

/-- Reads what follows the options. -/
def readCommand : List String → Option Command
  | "step" :: action :: rest => do stepCommand? action (← values? rest)
  | name :: rest => do command? name (← values? rest)
  | [] => none

/-- Reads the options in front of the command; each takes at least one argument, so the number of
arguments bounds their number. -/
def readOptions : Nat → Options → List String → Option (Options × Command)
  | 0, _, _ => none
  | fuel + 1, o, args =>
    match args with
    | [] => none
    | arg :: rest =>
      match arg.toList with
      | '-' :: '-' :: [] => none
      | '-' :: '-' :: long => do
        let (o, rest) ← readLong o rest long
        readOptions fuel o rest
      | '-' :: c :: cs => do
        let (o, rest) ← readLetters o rest (c :: cs)
        readOptions fuel o rest
      | _ => (readCommand args).map (o, ·)

/-- Reads the arguments of the program; none when they are not usable. -/
def parse (args : List String) : Option (Options × Command) := readOptions (args.length + 1) {} args

end SchemaEvolution.CommandLine
