set_option autoImplicit false

/-! # Reports

What a migration did, table by table, with the statements it executed or, in a dry run, would have
executed.
-/

namespace SchemaEvolution

/-- What a run did to a table or view. -/
inductive TableAction where
  /-- It did not exist and was created. -/
  | created
  /-- It was changed, or existed without a snapshot and was adopted. -/
  | altered
  /-- Nothing differed. -/
  | unchanged
  /-- Changing it failed and a hook let the run go on. -/
  | suppressed
  deriving DecidableEq, Repr

/-- The name of an action. -/
def TableAction.text : TableAction → String
  | .created => "Created"
  | .altered => "Altered"
  | .unchanged => "Unchanged"
  | .suppressed => "Suppressed"

/-- The report of one table. -/
structure TableReport where
  table : String
  action : TableAction
  statements : List String
  deriving DecidableEq, Repr

/-- The report of a run. -/
structure Report where
  namespaceName : String
  dryRun : Bool
  /-- One entry for each model, in the order of registration. -/
  tables : List TableReport
  deriving DecidableEq, Repr

namespace Report

/-- The report of a table. -/
def table? (r : Report) (table : String) : Option TableReport := r.tables.find? (·.table == table)

/-- The statements of all tables, in order. -/
def statements (r : Report) : List String := r.tables.flatMap (·.statements)

/-- Whether no table differed. -/
def isUnchanged (r : Report) : Bool := r.tables.all (·.action == .unchanged)

end Report

end SchemaEvolution
