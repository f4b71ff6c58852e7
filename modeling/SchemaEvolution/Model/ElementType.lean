set_option autoImplicit false

/-! # Element types

The type of a field as far as storage is concerned: a tag that names it, a primitive kind, and what
the type decides for itself. What it leaves open, its SQL type and the default of a column that
takes no NULL, follows from the kind.
-/

namespace SchemaEvolution

/-- The primitive kind of a type. -/
inductive Kind where
  | bool
  | int8
  | int16
  | int32
  | int64
  | uint8
  | uint16
  | uint32
  | uint64
  | float32
  | float64
  | decimal
  | string
  | bytes
  | json
  /-- A type that must bring its own SQL type. -/
  | other
  deriving DecidableEq, Repr

namespace Kind

/-- The SQL type of a kind, sized by the length and precision of the field. -/
def sqlType (k : Kind) (length precision : Nat) : Option String :=
  match k with
  | bool => some "BOOLEAN"
  | int8 | int16 | uint8 => some "SMALLINT"
  | int32 | uint16 => some "INT"
  | int64 | uint32 | uint64 => some "BIGINT"
  | float32 => some "FLOAT4"
  | float64 => some "FLOAT8"
  | decimal => some ("NUMERIC(" ++ toString length ++ "," ++ toString precision ++ ")")
  | string => some ("VARCHAR(" ++ toString length ++ ")")
  | bytes => some "BYTEA"
  | json => some "jsonb"
  | other => none

/-- The default of a column of this kind that takes no NULL. -/
def sqlDefault : Kind → Option String
  | bool => some "FALSE"
  | string => some "''"
  | bytes | json | other => none
  | _ => some "0"

end Kind

/-- The storage side of a type. -/
structure ElementType where
  tag : String
  kind : Kind
  /-- The SQL type that the type brings itself. -/
  ownSqlType : Option String := none
  /-- The default that the type brings itself. -/
  ownDefault : Option String := none
  /-- NULL is a value of the type. -/
  nullable : Bool := false
  deriving DecidableEq, Repr

namespace ElementType

/-- A type with an SQL type of its own. -/
def custom (tag sqlType : String) : ElementType :=
  { tag, kind := .other, ownSqlType := some sqlType }

/-- The SQL type, the type's own one before the one of its kind. -/
def sqlType (t : ElementType) (length precision : Nat) : Option String :=
  t.ownSqlType <|> t.kind.sqlType length precision

/-- The default of a column that takes no NULL, the type's own one before the one of its kind. -/
def sqlDefault (t : ElementType) : Option String := t.ownDefault <|> t.kind.sqlDefault

/-! ## Types by name

A record names the types of its fields. A name stands for a primitive type; around it, `Option<…>`
makes the type nullable and `Box<…>` changes nothing. -/

/-- The kind of the primitive type of a name. -/
def kindOfName? : String → Option Kind
  | "bool" => some .bool
  | "i8" => some .int8
  | "i16" => some .int16
  | "i32" => some .int32
  | "i64" | "isize" => some .int64
  | "u8" => some .uint8
  | "u16" => some .uint16
  | "u32" => some .uint32
  | "u64" | "usize" => some .uint64
  | "f32" => some .float32
  | "f64" => some .float64
  | "String" => some .string
  | "Vec<u8>" => some .bytes
  | "serde_json::Value" => some .json
  | _ => none

/-- A name inside its wrappers, how many of them there are, and whether one is an `Option`. -/
def unwrapName : List Char → List Char × Nat × Bool
  | 'O' :: 'p' :: 't' :: 'i' :: 'o' :: 'n' :: '<' :: cs =>
    let (inner, depth, _) := unwrapName cs
    (inner, depth + 1, true)
  | 'B' :: 'o' :: 'x' :: '<' :: cs =>
    let (inner, depth, nullable) := unwrapName cs
    (inner, depth + 1, nullable)
  | cs => (cs, 0, false)

/-- The element type of a type name. -/
def ofName? (name : String) : Option ElementType :=
  let (inner, depth, nullable) := unwrapName name.toList
  let tag := String.ofList (inner.take (inner.length - depth))
  if inner.drop (inner.length - depth) = List.replicate depth '>' then
    (kindOfName? tag).map fun kind => { tag, kind, nullable }
  else none

end ElementType

end SchemaEvolution
