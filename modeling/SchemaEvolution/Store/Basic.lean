import SchemaEvolution.Query.Expansion
import SchemaEvolution.Relation.Desired
import SchemaEvolution.Store.Registry
import SchemaEvolution.Template.Resolve

set_option autoImplicit false

/-! # Stores

A store holds the models of one namespace in the order of their registration and, apart from them,
the symbol tables that queries are resolved with. Type names are unique: a second model of a name is
refused, while registering a model again changes nothing. Queries are prepared in three steps:
symbols are resolved, list arguments are flattened, and placeholders are numbered.
-/

namespace SchemaEvolution

open Template

/-- A model of a store. -/
structure Registered where
  id : ModelId
  model : Descriptor

/-- The models of one namespace. -/
structure Store where
  /-- The namespace; with an empty one tables are not qualified. -/
  namespaceName : String
  /-- Whether a symbol that stands for nothing is refused. -/
  strict : Bool := false
  registry : Registry := {}
  registered : List Registered := []
  /-- The symbol tables of the models, by type name. -/
  source : Source := []

namespace Store

/-- The models in the order of their registration. -/
def models (s : Store) : List Descriptor := s.registered.map (·.model)

/-- Adds a model behind the others, and its symbol table. -/
def add (s : Store) (id : ModelId) (m : Descriptor) : Store :=
  { s with
    source := s.source ++ [(m.typeName, SymbolTable.ofModel m s.namespaceName)]
    registered := s.registered ++ [⟨id, m⟩] }

/-- Registers a model. The registry keeps its descriptor even when the store refuses it. -/
def register (s : Store) (id : ModelId) (d : Declaration) : Except SchemaError Descriptor × Store :=
  match s.registry.describe id d with
  | .error e => (.error e, s)
  | .ok (m, registry) =>
    let s := { s with registry }
    match s.registered.find? (·.model.typeName == m.typeName) with
    | some r =>
      if r.id = id then (.ok m, s) else (.error (.duplicateModel m.typeName), s)
    | none => (.ok m, s.add id m)

/-- Registers declarations in order under the identities from `id` on, up to the first refusal. -/
def registerAll (s : Store) (id : ModelId) : List Declaration → Except SchemaError Store
  | [] => .ok s
  | d :: ds =>
    match s.register id d with
    | (.ok _, s) => s.registerAll (id + 1) ds
    | (.error e, _) => .error e

/-- The model of a type name. -/
def model (s : Store) (typeName : String) : Except SchemaError Descriptor :=
  match s.models.find? (·.typeName == typeName) with
  | some m => .ok m
  | none => .error (.modelNotRegistered typeName)

/-- Resolves a query template. Without a current schema the namespace of the store is it. -/
def resolve (s : Store) (query : String) (currentSchema : Option String) :
    Except SchemaError String :=
  Template.resolve query s.source (currentSchema.getD s.namespaceName) s.strict

/-- Prepares a query template with arguments. -/
def prepare (s : Store) (query : String) (args : List Query.Argument)
    (currentSchema : Option String) : Except SchemaError Query.Prepared := do
  Query.bind (← s.resolve query currentSchema) args

/-- The shape that a model asks for; the query of a view is resolved first. -/
def desired (s : Store) (m : Descriptor) : Except SchemaError Relation :=
  match m.viewQuery with
  | none => m.desired none
  | some query => do m.desired (some (← s.resolve query none))

end Store

end SchemaEvolution
