import SchemaEvolution.Json.Basic

set_option autoImplicit false

/-! # Records in JSON

A record with fields of known names is an object that holds each name at most once and may hold
others, which are ignored; or an array of the fields' values in order, from which trailing ones may
be missing. A field that is present must have its type: `null` does not stand for a missing one.
-/

namespace SchemaEvolution.Json

/-- The fields of a record that are present, by name. -/
abbrev Record := List (String × Json)

/-- Reads a document as a record with the given field names. -/
def record? (names : List String) : Json → Option Record
  | .object members =>
    let known := members.filter (names.contains ·.1)
    if (known.map (·.1)).Nodup then some known else none
  | .array items =>
    if items.length ≤ names.length then some (names.zip items) else none
  | _ => none

/-- A field that must be present. -/
def Record.required {α : Type} (r : Record) (name : String) (read : Json → Option α) : Option α :=
  match r.lookup name with
  | some j => read j
  | none => none

/-- A field that stands for `absent` when it is missing. -/
def Record.optional {α : Type} (r : Record) (name : String) (read : Json → Option α) (absent : α) :
    Option α :=
  match r.lookup name with
  | some j => read j
  | none => some absent

/-- The items of an array, each read as `read` does. -/
def list? {α : Type} (read : Json → Option α) (j : Json) : Option (List α) :=
  j.items?.bind (·.mapM read)

end SchemaEvolution.Json
