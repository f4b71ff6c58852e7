import SchemaEvolution.Error
import SchemaEvolution.Query.Argument
import SchemaEvolution.Query.Placeholder

set_option autoImplicit false

/-! # List arguments

`expand` gives every element of a list argument a placeholder of its own, as `IN (…)` needs it. The
arguments take consecutive numbers: a list one for each element, any other argument one. A `?` is
the place of the next argument and `$n` the place of argument `n`; both become the numbers of that
argument, separated by commas. A query without list arguments stays as it is.

An empty list is refused before anything else. Then the query is read from the left, and the first
placeholder without an argument is refused.
-/

namespace SchemaEvolution.Query

/-- The numbers of one argument: `width` of them from `first` on. -/
structure Slot where
  first : Nat
  width : Nat
  deriving DecidableEq, Repr

/-- The placeholders of a slot. -/
def Slot.placeholders (s : Slot) : List Char :=
  [','].intercalate ((List.range s.width).map fun k => '$' :: digits (s.first + k))

/-- How many values an argument is flattened to. -/
def Argument.width : Argument → Nat
  | .list items => items.length
  | _ => 1

/-- The values an argument is flattened to. -/
def Argument.flattened : Argument → List Argument
  | .list items => items.map Argument.resolved
  | a => [a]

/-- The slots of arguments of which the first takes the number `first`. -/
def slots (first : Nat) : List Argument → List Slot
  | [] => []
  | a :: as => ⟨first, a.width⟩ :: slots (first + a.width) as

/-- The greatest number that a placeholder can spell; a greater one counts as this one. -/
def maxPlaceholder : Nat := UInt64.size - 1

/-- The number that the digits of a placeholder spell. -/
def placeholderNumber (ds : List Char) : Nat :=
  min maxPlaceholder (ds.foldl (fun n d => n * 10 + (d.toNat - '0'.toNat)) 0)

/-- Dropping characters makes no text longer. -/
theorem length_dropWhile_le (p : Char → Bool) (cs : List Char) :
    (cs.dropWhile p).length ≤ cs.length :=
  (List.dropWhile_sublist p).length_le

/-- Replaces the placeholders of the rest of a query by those of the slots; `next` is the position
of the argument that the next `?` takes, from zero. -/
def substitute (slots : List Slot) (next : Nat) : List Char → Except SchemaError (List Char)
  | [] => .ok []
  | '?' :: '?' :: cs => do return '?' :: '?' :: (← substitute slots next cs)
  | '?' :: '|' :: cs => do return '?' :: '|' :: (← substitute slots next cs)
  | '?' :: '&' :: cs => do return '?' :: '&' :: (← substitute slots next cs)
  | '?' :: cs =>
    match slots[next]? with
    | none => .error .tooManyPlaceholders
    | some slot => do return slot.placeholders ++ (← substitute slots (next + 1) cs)
  | '$' :: cs =>
    let ds := cs.takeWhile Char.isDigit
    if ds.isEmpty then do return '$' :: (← substitute slots next cs)
    else
      let n := placeholderNumber ds
      match if n = 0 then none else slots[n - 1]? with
      | none => .error (.placeholderOutOfRange n)
      | some slot => do
        return slot.placeholders ++ (← substitute slots next (cs.dropWhile Char.isDigit))
  | c :: cs => do return c :: (← substitute slots next cs)
termination_by cs => cs.length
decreasing_by
  all_goals simp only [List.length_cons]
  all_goals try omega
  exact Nat.lt_succ_of_le (length_dropWhile_le _ _)

/-- The position, from zero, of the first empty list. -/
def emptyListAt? (args : List Argument) : Option Nat :=
  args.findIdx? fun
    | .list [] => true
    | _ => false

/-- Flattens the list arguments of a query. -/
def expand (query : String) (args : List Argument) :
    Except SchemaError (String × List Argument) :=
  let args := args.map Argument.resolved
  match emptyListAt? args with
  | some i => .error (.emptyList (i + 1) query)
  | none =>
    if args.any Argument.isList then do
      let text ← substitute (slots 1 args) 0 query.toList
      return (String.ofList text, args.flatMap Argument.flattened)
    else .ok (query, args)

/-- A query ready for a database: numbered placeholders and one value for each. -/
structure Prepared where
  sql : String
  args : List Argument

/-- Flattens the arguments of a query and numbers its placeholders. -/
def bind (query : String) (args : List Argument) : Except SchemaError Prepared := do
  let (expanded, args) ← expand query args
  return ⟨rebind expanded, args⟩

end SchemaEvolution.Query
