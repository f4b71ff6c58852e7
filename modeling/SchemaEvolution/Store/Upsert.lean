import SchemaEvolution.Store.Basic

set_option autoImplicit false

/-! # Upsert statements

The statement that inserts a record or, when its id is taken, updates every other column.
-/

namespace SchemaEvolution

namespace Descriptor

/-- The columns that an upsert writes, in declaration order. -/
def upsertColumns (m : Descriptor) : List String :=
  (m.storedFields.filter (!·.skipUpsert)).map (·.column)

end Descriptor

/-- What an upsert does when the id is taken. -/
def conflictAction (updates : List String) : String :=
  let excluded := updates.map ("excluded." ++ ·)
  match updates with
  | [] => "DO NOTHING"
  | [column] => "DO UPDATE SET " ++ column ++ "=" ++ "excluded." ++ column
  | _ => "DO UPDATE SET (" ++ ",".intercalate updates ++ ")=(" ++ ",".intercalate excluded ++ ")"

/-- The upsert statement of a model, keyed on the column of its id. -/
def Store.upsert (s : Store) (m : Descriptor) : Except SchemaError String :=
  match m.idField? with
  | none => .error (.noIdField m.typeName)
  | some id =>
    let columns := m.upsertColumns
    let numbers := (List.range columns.length).map fun n => "$" ++ toString (n + 1)
    .ok ("INSERT INTO " ++ Template.qualify s.namespaceName m.table
      ++ " (" ++ ",".intercalate columns ++ ") VALUES(" ++ ",".intercalate numbers
      ++ ") ON CONFLICT(" ++ id.column ++ ") " ++ conflictAction (columns.filter (· != id.column)))

end SchemaEvolution
