import SchemaEvolution.Text.Search

set_option autoImplicit false

/-! # Names of columns and fields

A declared name such as `AppXID` is stored under a snake-case name, `app_xid`; a record field such
as `app_xid` is declared under a capitalised name, `AppXid`, in which a word `id` is spelled `ID`.
Only ASCII letters have a case here; every other character is kept.
-/

namespace SchemaEvolution.Naming

/-- An ASCII small letter. -/
def isSmall (c : Char) : Bool := 'a' ≤ c && c ≤ 'z'

/-- An ASCII capital letter. -/
def isCapital (c : Char) : Bool := 'A' ≤ c && c ≤ 'Z'

/-- Whether an underscore goes before a capital letter that stands between `before` and `after`:
it is not first, follows no underscore, and has a small letter on one side. A run of capitals
therefore stays together. -/
def startsWord (before after : Option Char) : Bool :=
  match before with
  | none => false
  | some p => p != '_' && (isSmall p || after.any isSmall)

/-- The snake case of the rest of a name after the character `before`. -/
def snakeFrom (before : Option Char) : List Char → List Char
  | [] => []
  | c :: cs =>
    let lowered :=
      if isCapital c then
        if startsWord before cs.head? then ['_', c.toLower] else [c.toLower]
      else [c]
    lowered ++ snakeFrom (some c) cs

/-- The snake case of a declared name. -/
def snakeCase (name : String) : String := String.ofList (snakeFrom none name.toList)

/-- A word of a field name with its first letter capitalised; `id` in any case gives `ID`. -/
def declaredWord (word : List Char) : List Char :=
  if word.map Char.toLower = ['i', 'd'] then ['I', 'D']
  else
    match word with
    | [] => []
    | c :: cs => c.toUpper :: cs

/-- A field identifier without the mark `r#` of a raw identifier. -/
def unraw : List Char → List Char
  | 'r' :: '#' :: name => name
  | name => name

/-- The declared name of a record field: its words, capitalised and joined. -/
def declaredName (ident : String) : String :=
  String.ofList ((Text.splitOnChar '_' (unraw ident.toList)).flatMap declaredWord)

end SchemaEvolution.Naming
