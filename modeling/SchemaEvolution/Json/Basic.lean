import SchemaEvolution.Binary64

set_option autoImplicit false

/-! # JSON documents

A document as the reader delivers it. A number keeps what its literal spells: sign, digits and
scale, and whether it was written as a whole number, without point and exponent. A string literal
may escape half of a surrogate pair; such a literal is well formed but stands for no text, and so
does an object with such a key. Both are the document `unpaired`, which is accepted only where the
content of a document does not matter.
-/

namespace SchemaEvolution

/-- A number literal: `digits * 10 ^ scale`, negated when `negative` is set. -/
structure Json.Number where
  negative : Bool
  digits : Nat
  scale : Int
  /-- Written without point and exponent. -/
  whole : Bool
  deriving DecidableEq, Repr

/-- A JSON document. -/
inductive Json where
  | null
  | bool (b : Bool)
  | number (n : Json.Number)
  | string (s : String)
  | unpaired
  | array (items : List Json)
  | object (members : List (String × Json))
  deriving Inhabited, Repr

namespace Json

/-- What a number literal denotes: a 64-bit integer, signed or not, or a double. -/
inductive Number.Value where
  | integer (n : Int)
  | double (x : Binary64)
  deriving DecidableEq, Repr

/-- The value of a literal. A whole number that fits into 64 bits is an integer, except `-0`;
everything else is the nearest double, if there is one. -/
def Number.value? (n : Number) : Option Number.Value :=
  if n.whole && !n.negative && n.digits < UInt64.size then some (.integer n.digits)
  else if n.whole && n.negative && 0 < n.digits && n.digits ≤ UInt64.size / 2 then
    some (.integer (-n.digits))
  else (Binary64.ofDecimal n.negative n.digits n.scale).map .double

/-- Equality of values: integers among themselves, doubles as numbers. -/
def Number.Value.equals : Number.Value → Number.Value → Bool
  | .integer a, .integer b => a == b
  | .double a, .double b => a.equals b
  | _, _ => false

/-- A number literal for a natural number. -/
def ofNat (n : Nat) : Json := .number ⟨false, n, 0, true⟩

/-- A number literal for an integer. -/
def ofInt (n : Int) : Json := .number ⟨n < 0, n.natAbs, 0, true⟩

/-- The text of a string document. -/
def text? : Json → Option String
  | .string s => some s
  | _ => none

/-- The value of a boolean document. -/
def bool? : Json → Option Bool
  | .bool b => some b
  | _ => none

/-- The items of an array. -/
def items? : Json → Option (List Json)
  | .array items => some items
  | _ => none

/-- A whole number not below zero and not above `limit`. -/
def nat? (limit : Nat) : Json → Option Nat
  | .number n => if n.whole && !n.negative && n.digits ≤ limit then some n.digits else none
  | _ => none

mutual

/-- Equality of documents by value: numbers by what they denote, objects whatever the order of
their members. -/
def equals : Json → Json → Bool
  | .null, .null => true
  | .bool a, .bool b => a == b
  | .number a, .number b =>
    match a.value?, b.value? with
    | some x, some y => x.equals y
    | _, _ => false
  | .string a, .string b => a == b
  | .array a, .array b => equalItems a b
  | .object a, .object b => a.length == b.length && equalMembers a b
  | _, _ => false

/-- Equality of arrays, item by item. -/
def equalItems : List Json → List Json → Bool
  | [], [] => true
  | a :: as, b :: bs => equals a b && equalItems as bs
  | _, _ => false

/-- Whether every member of one object has an equal member of the same key in another. -/
def equalMembers : List (String × Json) → List (String × Json) → Bool
  | [], _ => true
  | (key, a) :: as, bs =>
    (match bs.lookup key with
      | some b => equals a b
      | none => false)
      && equalMembers as bs

end

instance : BEq Json := ⟨equals⟩

end Json

end SchemaEvolution
