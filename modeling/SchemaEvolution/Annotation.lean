import SchemaEvolution.Json.Reader
import SchemaEvolution.Naming
import SchemaEvolution.Text.Search

set_option autoImplicit false

/-! # Annotated records

A record type is turned into the declaration of a model by annotations on it and on its fields. An
annotation is a list of items, each a name that stands alone or has a literal as its value. The
items are read from left to right, those of the record before those of its fields, and the first
fault is reported; between them stands the check that it is a record with named fields at all. A
repeated item replaces the earlier one, except that index specs add up.

The result, an `Outline`, lists what the declaration is built from, in the order of building.
-/

namespace SchemaEvolution.Annotation

/-- What follows the name of an item. -/
inductive Literal where
  /-- Nothing: the name stands alone. -/
  | absent
  | bool (b : Bool)
  | text (s : String)
  /-- An integer as it is written, with its sign, separators and suffix. -/
  | int (source : String)
  deriving DecidableEq, Repr

/-- An item of an annotation. -/
structure Item where
  name : String
  value : Literal
  deriving DecidableEq, Repr

/-- What kind of type is annotated. -/
inductive Shape where
  | named
  | tuple
  | unit
  | enum
  | union
  deriving DecidableEq, Repr

/-- A field of an annotated record. -/
structure Member where
  ident : String
  type : String
  annotations : List (List Item)
  deriving DecidableEq, Repr

/-- An annotated type. -/
structure Annotated where
  name : String
  shape : Shape
  annotations : List (List Item)
  members : List Member
  deriving DecidableEq, Repr

/-- Why an annotated type gives no declaration. -/
inductive Fault where
  | unknownModelItem
  | unknownFieldItem
  | valueMissing
  | notText
  | notInteger
  | notBoolean
  | tooLarge
  | badDigit
  | notRecord
  | namelessFields
  deriving DecidableEq, Repr

/-- The text of a fault. -/
def Fault.message : Fault → String
  | unknownModelItem => "unknown model attribute"
  | unknownFieldItem => "unknown field attribute"
  | valueMissing => "expected `=`"
  | notText => "expected string literal"
  | notInteger => "expected integer literal"
  | notBoolean => "expected boolean literal"
  | tooLarge => "number too large to fit in target type"
  | badDigit => "invalid digit found in string"
  | notRecord => "Model derive only supports structs"
  | namelessFields => "Model derive only supports structs with named fields"

/-! ## Values -/

/-- The greatest length or precision. -/
def maxSize : Nat := UInt32.size - 1

/-- A text value. -/
def Literal.asText : Literal → Except Fault String
  | .text s => .ok s
  | .absent => .error .valueMissing
  | _ => .error .notText

/-- A flag: true when its name stands alone. -/
def Literal.asFlag : Literal → Except Fault Bool
  | .absent => .ok true
  | .bool b => .ok b
  | _ => .error .notBoolean

/-- The value of a digit in some base up to sixteen. -/
def digitIn? (base : Nat) (c : Char) : Option Nat := (Json.hexDigit? c).filter (· < base)

/-- The base of an integer literal and its digits. -/
def baseOf : List Char → Nat × List Char
  | '0' :: 'x' :: ds => (16, ds)
  | '0' :: 'o' :: ds => (8, ds)
  | '0' :: 'b' :: ds => (2, ds)
  | ds => (10, ds)

/-- The digits at the start of a text, separators left out, and what follows them. -/
def spanDigits (base : Nat) (cs : List Char) : List Nat × List Char :=
  let isPart (c : Char) : Bool := c == '_' || (digitIn? base c).isSome
  ((cs.takeWhile isPart).filterMap (digitIn? base), cs.dropWhile isPart)

/-- Whether what follows the decimal digits of a number makes it a fraction: a point, or an exponent
with a sign or a digit. An `e` without them only starts a suffix. -/
def isFraction : List Char → Bool
  | '.' :: _ => true
  | 'e' :: cs | 'E' :: cs =>
    (cs.dropWhile (· == '_')).head?.any fun c => c == '+' || c == '-' || c.isDigit
  | _ => false

/-- The number that an integer literal without sign spells. It starts with a digit and goes as far
as the digits of its base do; any word may follow as a suffix and does not count. -/
def natural? (cs : List Char) : Option Nat :=
  let (base, ds) := baseOf cs
  let (digits, suffix) := spanDigits base ds
  if !cs.head?.any Char.isDigit || digits.isEmpty || suffix.head?.any Char.isDigit
      || (base == 10 && isFraction suffix) then none
  else some (digits.foldl (fun n d => n * base + d) 0)

/-- A size: an integer literal without sign that fits into 32 bits. -/
def Literal.asSize : Literal → Except Fault Nat
  | .int source =>
    let (negative, cs) := match source.toList with
      | '-' :: cs => (true, cs)
      | cs => (false, cs)
    match natural? cs with
    | none => .error .notInteger
    | some n =>
      if negative then .error .badDigit
      else if n ≤ maxSize then .ok n else .error .tooLarge
  | .absent => .error .valueMissing
  | _ => .error .notInteger

/-- White space at the ends of an index spec. -/
def isSpace (c : Char) : Bool :=
  let n := c.toNat
  (9 ≤ n && n ≤ 13) || n == 0x20 || n == 0x85 || n == 0xA0 || n == 0x1680
    || (0x2000 ≤ n && n ≤ 0x200A) || n == 0x2028 || n == 0x2029 || n == 0x202F || n == 0x205F
    || n == 0x3000

/-- A text without white space at its ends. -/
def trimmed (cs : List Char) : List Char :=
  ((cs.dropWhile isSpace).reverse.dropWhile isSpace).reverse

/-- Index specs: the parts of a text between commas that are not blank. -/
def Literal.asSpecs (l : Literal) : Except Fault (List String) := do
  let text ← l.asText
  return (((Text.splitOnChar ',' text.toList).map trimmed).filter (!·.isEmpty)).map String.ofList

/-! ## Records -/

/-- What the items of a record say. -/
structure RecordItems where
  name : Option String := none
  table : Option String := none
  view : Option String := none
  materialized : Bool := false
  deriving DecidableEq, Repr

/-- Reads an item of a record. -/
def RecordItems.read (r : RecordItems) (i : Item) : Except Fault RecordItems := do
  match i.name with
  | "name" => return { r with name := some (← i.value.asText) }
  | "table" => return { r with table := some (← i.value.asText) }
  | "view" => return { r with view := some (← i.value.asText) }
  | "materialized" => return { r with materialized := ← i.value.asFlag }
  | _ => throw .unknownModelItem

/-- What the items of a field say. -/
structure MemberItems where
  name : Option String := none
  column : Option String := none
  skip : Bool := false
  indexes : List String := []
  uniqueIndexes : List String := []
  ginIndexes : List String := []
  length : Option Nat := none
  precision : Option Nat := none
  sqlType : Option String := none
  defaultValue : Option String := none
  nullable : Option Bool := none
  primaryKey : Option Bool := none
  fullText : Bool := false
  jsonName : Option String := none
  jsonSkip : Bool := false
  omitEmpty : Bool := false
  skipUpsert : Bool := false
  embed : Bool := false
  deriving DecidableEq, Repr

/-- Reads an item of a field. -/
def MemberItems.read (m : MemberItems) (i : Item) : Except Fault MemberItems := do
  match i.name with
  | "name" => return { m with name := some (← i.value.asText) }
  | "db" => return { m with column := some (← i.value.asText) }
  | "skip" => return { m with skip := ← i.value.asFlag }
  | "key" => return { m with indexes := m.indexes ++ (← i.value.asSpecs) }
  | "unikey" => return { m with uniqueIndexes := m.uniqueIndexes ++ (← i.value.asSpecs) }
  | "ginkey" => return { m with ginIndexes := m.ginIndexes ++ (← i.value.asSpecs) }
  | "len" => return { m with length := some (← i.value.asSize) }
  | "prec" => return { m with precision := some (← i.value.asSize) }
  | "sql" => return { m with sqlType := some (← i.value.asText) }
  | "default" => return { m with defaultValue := some (← i.value.asText) }
  | "nullable" => return { m with nullable := some (← i.value.asFlag) }
  | "pk" => return { m with primaryKey := some (← i.value.asFlag) }
  | "fulltext" => return { m with fullText := ← i.value.asFlag }
  | "json" => return { m with jsonName := some (← i.value.asText) }
  | "json_skip" => return { m with jsonSkip := ← i.value.asFlag }
  | "omit_empty" => return { m with omitEmpty := ← i.value.asFlag }
  | "no_upsert" => return { m with skipUpsert := ← i.value.asFlag }
  | "embed" => return { m with embed := ← i.value.asFlag }
  | _ => throw .unknownFieldItem

/-! ## Outlines -/

/-- One setting of a field. -/
inductive Setting where
  | column (name : String)
  | skip
  | index (spec : String)
  | uniqueIndex (spec : String)
  | ginIndex (spec : String)
  | length (n : Nat)
  | precision (n : Nat)
  | sqlType (text : String)
  | defaultValue (text : String)
  | nullable (b : Bool)
  | primaryKey (b : Bool)
  | fullText
  | jsonName (name : String)
  | jsonSkip
  | omitEmpty
  | skipUpsert
  deriving DecidableEq, Repr

/-- A setting that is made when a flag is set. -/
def settingIf (flag : Bool) (s : Setting) : List Setting := if flag then [s] else []

/-- The settings of a field, in the order in which they are made. -/
def MemberItems.settings (m : MemberItems) : List Setting :=
  (m.column.map .column).toList ++ settingIf m.skip .skip
    ++ m.indexes.map .index ++ m.uniqueIndexes.map .uniqueIndex ++ m.ginIndexes.map .ginIndex
    ++ (m.length.map .length).toList ++ (m.precision.map .precision).toList
    ++ (m.sqlType.map .sqlType).toList ++ (m.defaultValue.map .defaultValue).toList
    ++ (m.nullable.map .nullable).toList ++ (m.primaryKey.map .primaryKey).toList
    ++ settingIf m.fullText .fullText ++ (m.jsonName.map .jsonName).toList
    ++ settingIf m.jsonSkip .jsonSkip ++ settingIf m.omitEmpty .omitEmpty
    ++ settingIf m.skipUpsert .skipUpsert

/-- What a declaration is built from. -/
inductive Step where
  | table (name : String)
  | field (type name : String) (settings : List Setting)
  /-- The fields of the model that a type declares. -/
  | embed (type : String)
  | view (query : String)
  | materialized
  deriving DecidableEq, Repr

/-- The declaration of a model, step by step. -/
structure Outline where
  typeName : String
  steps : List Step
  deriving DecidableEq, Repr

/-- The step of a field. -/
def Member.step (m : Member) : Except Fault Step := do
  let items ← m.annotations.flatten.foldlM MemberItems.read {}
  if items.embed then return .embed m.type
  else return .field m.type (items.name.getD (Naming.declaredName m.ident)) items.settings

/-- The declaration that an annotated type gives. -/
def Annotated.outline (a : Annotated) : Except Fault Outline := do
  let items ← a.annotations.flatten.foldlM RecordItems.read {}
  match a.shape with
  | .named => pure ()
  | .tuple | .unit => throw .namelessFields
  | .enum | .union => throw .notRecord
  let fields ← a.members.mapM Member.step
  return {
    typeName := items.name.getD a.name
    steps := (items.table.map .table).toList ++ fields ++ (items.view.map .view).toList
      ++ (if items.materialized then [.materialized] else []) }

end SchemaEvolution.Annotation
