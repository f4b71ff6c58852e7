set_option autoImplicit false

/-! # Errors of models, queries and plans

One constructor for each cause, and one function for the wording.
-/

namespace SchemaEvolution

/-- What a field of a model was looked up by. -/
inductive Lookup where
  | field
  | column
  | json
  deriving DecidableEq, Repr

/-- The name of a lookup in a message. -/
def Lookup.text : Lookup → String
  | .field => "field"
  | .column => "column"
  | .json => "json field"

/-- Why describing a model, preparing a query or planning a change failed. -/
inductive SchemaError where
  /-- Two fields of a model have one name. -/
  | duplicateColumn (model column : String)
  /-- Two stored fields are primary keys. -/
  | multiplePrimaryKeys (model first second : String)
  /-- A model has no type name. -/
  | unnamedModel
  /-- A model has no field of that name. -/
  | notFound (model : String) (lookup : Lookup) (name : String)
  /-- Two models have one type name. -/
  | duplicateModel (name : String)
  /-- No model of that type name is registered. -/
  | modelNotRegistered (name : String)
  /-- No SQL type is known for a stored field. -/
  | sqlTypeUndefined (model field tag : String)
  /-- A model stores nothing. -/
  | noStoredColumns (model : String)
  /-- A model has no field in the role of the id. -/
  | noIdField (model : String)
  /-- A column would enter or leave the primary key. -/
  | primaryKeyChange (table column : String)
  /-- A symbol of a template stands for nothing. -/
  | unresolvedSymbol (symbol : String)
  /-- An empty list is bound to a placeholder. -/
  | emptyList (position : Nat) (query : String)
  /-- A numbered placeholder refers to no argument. -/
  | placeholderOutOfRange (number : Nat)
  /-- There are more placeholders than arguments. -/
  | tooManyPlaceholders
  deriving DecidableEq, Repr

namespace SchemaError

/-- The text of an error. -/
def message : SchemaError → String
  | duplicateColumn model column =>
    "Model '" ++ model ++ "': column name not unique: '" ++ column ++ "'"
  | multiplePrimaryKeys model first second =>
    "Model '" ++ model ++ "': fields '" ++ first ++ "' and '" ++ second ++ "' are both primary keys"
  | unnamedModel => "Model has no type name"
  | notFound model lookup name =>
    "Model '" ++ model ++ "': no such " ++ lookup.text ++ ": '" ++ name ++ "'"
  | duplicateModel name => "Model '" ++ name ++ "' is already registered by another type"
  | modelNotRegistered name => "Model '" ++ name ++ "' is not registered"
  | sqlTypeUndefined model field tag =>
    "Model '" ++ model ++ "': SQL type not defined for field '" ++ field ++ "' (" ++ tag ++ ")"
  | noStoredColumns model => "Model '" ++ model ++ "': no stored fields"
  | noIdField model => "Model '" ++ model ++ "': no id field"
  | primaryKeyChange table column =>
    "Table '" ++ table ++ "': primary key of column '" ++ column ++ "' cannot be changed"
  | unresolvedSymbol symbol => "Unresolved query symbol '" ++ symbol ++ "'"
  | emptyList position query =>
    "Empty list bound to placeholder " ++ toString position ++ " in query: " ++ query
  | placeholderOutOfRange number => "Argument number '$" ++ toString number ++ "' out of range"
  | tooManyPlaceholders => "Number of placeholders exceeds arguments"

/-- Whether the error is a change of a primary key, which is never made automatically. -/
def isPrimaryKeyChange : SchemaError → Bool
  | primaryKeyChange .. => true
  | _ => false

end SchemaError

end SchemaEvolution
