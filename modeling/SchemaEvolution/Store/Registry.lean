import SchemaEvolution.Model.Descriptor

set_option autoImplicit false

/-! # Registry of descriptors

A model has an identity apart from its declaration. The registry describes a model the first time
its identity is asked for and gives the same descriptor from then on, whatever is declared later. A
declaration that cannot be described leaves no trace.
-/

namespace SchemaEvolution

/-- The identity of a model. -/
abbrev ModelId := Nat

/-- The descriptors made so far, by identity. -/
structure Registry where
  descriptors : List (ModelId × Descriptor) := []

namespace Registry

/-- The descriptor of a model and the registry that holds it. -/
def describe (r : Registry) (id : ModelId) (d : Declaration) :
    Except SchemaError (Descriptor × Registry) :=
  match r.descriptors.lookup id with
  | some m => .ok (m, r)
  | none => do
    let m ← Descriptor.ofDeclaration d
    return (m, ⟨r.descriptors ++ [(id, m)]⟩)

/-- The number of descriptors. -/
def size (r : Registry) : Nat := r.descriptors.length

/-- Whether no model was described yet. -/
def isEmpty (r : Registry) : Bool := r.descriptors.isEmpty

end Registry

end SchemaEvolution
