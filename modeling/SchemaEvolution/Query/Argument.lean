import SchemaEvolution.Json.Basic

set_option autoImplicit false

/-! # Query arguments

The values bound to the placeholders of a query. A `deferred` argument is a custom value that
stands for the argument it yields when it is asked, so it is bound as that one. A list is bound to
one placeholder and takes as many as it has elements; a byte string is one opaque value.
-/

namespace SchemaEvolution.Query

/-- An argument of a query. -/
inductive Argument where
  | null
  | bool (b : Bool)
  | int (n : Int64)
  | float (x : Binary64)
  | text (s : String)
  | bytes (b : List UInt8)
  | json (j : Json)
  | list (items : List Argument)
  | deferred (value : Argument)
  deriving Inhabited

namespace Argument

/-- What a deferred argument yields in the end; any other argument is itself. -/
def resolved : Argument → Argument
  | .deferred value => value.resolved
  | a => a

/-- Whether an argument is a list, after no resolution. -/
def isList : Argument → Bool
  | .list _ => true
  | _ => false

variable [BEq Json]

mutual

/-- Equality of arguments, in which a deferred one counts as what it yields. Floats are compared as
numbers and documents as the library does that holds them; arguments of different kinds differ. -/
def equals : Argument → Argument → Bool
  | .deferred a, b => equals a b
  | a, .deferred b => equals a b
  | .null, .null => true
  | .bool a, .bool b => a == b
  | .int a, .int b => a == b
  | .float a, .float b => a.equals b
  | .text a, .text b => a == b
  | .bytes a, .bytes b => a == b
  | .json a, .json b => a == b
  | .list a, .list b => equalLists a b
  | _, _ => false
termination_by a b => sizeOf a + sizeOf b

/-- Equality of argument lists, item by item. -/
def equalLists : List Argument → List Argument → Bool
  | [], [] => true
  | a :: as, b :: bs => equals a b && equalLists as bs
  | _, _ => false
termination_by as bs => sizeOf as + sizeOf bs

end

end Argument

end SchemaEvolution.Query
