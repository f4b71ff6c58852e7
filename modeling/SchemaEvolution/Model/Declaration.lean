import SchemaEvolution.Model.Field

set_option autoImplicit false

/-! # Declarations of models

A model is declared by a type name, optionally a storage name, a list of parts, and optionally the
query that makes it a view. A part is a declared field, a field that is described already, or the
parts of another declaration, spliced in where they stand. `Declaration.fields` is the flat list.
-/

namespace SchemaEvolution

/-- A part of a declaration. -/
inductive Part where
  | field (decl : FieldDecl)
  | described (field : Field)
  | embedded (parts : List Part)
  deriving Inhabited

mutual

/-- The fields of a part, depth first. -/
def Part.fields : Part → List Field
  | .field d => [d.describe]
  | .described f => [f]
  | .embedded ps => Part.fieldsOf ps

/-- The fields of a list of parts, depth first. -/
def Part.fieldsOf : List Part → List Field
  | [] => []
  | p :: ps => p.fields ++ Part.fieldsOf ps

end

/-- The declaration of a model. -/
structure Declaration where
  typeName : String
  /-- The storage name; without one the snake case of the type name. -/
  table : Option String := none
  parts : List Part := []
  /-- The query template of a view. -/
  viewQuery : Option String := none
  materialized : Bool := false
  deriving Inhabited

namespace Declaration

/-- The declaration with a part after its other parts. -/
def add (d : Declaration) (p : Part) : Declaration := { d with parts := d.parts ++ [p] }

/-- The declaration with the fields of another one after its own. -/
def embed (d sub : Declaration) : Declaration := d.add (.embedded sub.parts)

/-- The fields of a declaration, depth first. -/
def fields (d : Declaration) : List Field := Part.fieldsOf d.parts

end Declaration

end SchemaEvolution
