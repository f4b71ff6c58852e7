set_option autoImplicit false

/-! # Numbered placeholders

A query marks the places of its arguments by `?`, which `rebind` turns into `$1`, `$2`, … from left
to right. A question mark is read together with the next character: `??` stands for a literal `?`,
and `?|` and `?&` are operators that pass through.
-/

namespace SchemaEvolution.Query

/-- The decimal digits of a number. -/
def digits (n : Nat) : List Char := Nat.toDigits 10 n

/-- Numbers the placeholders of the rest of a query in which `n` were numbered before. -/
def rebindFrom (n : Nat) : List Char → List Char
  | [] => []
  | '?' :: '?' :: cs => '?' :: rebindFrom n cs
  | '?' :: '|' :: cs => '?' :: '|' :: rebindFrom n cs
  | '?' :: '&' :: cs => '?' :: '&' :: rebindFrom n cs
  | '?' :: cs => '$' :: digits (n + 1) ++ rebindFrom (n + 1) cs
  | c :: cs => c :: rebindFrom n cs

/-- The query with its `?` placeholders numbered. -/
def rebind (query : String) : String := String.ofList (rebindFrom 0 query.toList)

/-- The number of placeholders in a text. -/
def countMarks : List Char → Nat
  | [] => 0
  | '?' :: '?' :: cs => countMarks cs
  | '?' :: '|' :: cs => countMarks cs
  | '?' :: '&' :: cs => countMarks cs
  | '?' :: cs => countMarks cs + 1
  | _ :: cs => countMarks cs

/-- The number of placeholders that `rebind` numbers. -/
def countPlaceholders (query : String) : Nat := countMarks query.toList

end SchemaEvolution.Query
