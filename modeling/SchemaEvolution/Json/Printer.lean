import SchemaEvolution.Json.Basic

set_option autoImplicit false

/-! # Writing JSON

Two layouts of the same document: `compact` writes no blanks; `pretty` gives each item and each
member a line of its own, indented by two blanks for each level. In a string the quote, the
backslash and the control characters below the blank are escaped, and nothing else is.
-/

namespace SchemaEvolution.Json

/-- The four hexadecimal digits of a code below 256. -/
def hexEscape (n : Nat) : List Char := ['0', '0', Nat.digitChar (n / 16), Nat.digitChar (n % 16)]

/-- A character inside a string literal. -/
def escapeChar (c : Char) : List Char :=
  match c with
  | '"' => ['\\', '"']
  | '\\' => ['\\', '\\']
  | '\x08' => ['\\', 'b']
  | '\x0c' => ['\\', 'f']
  | '\n' => ['\\', 'n']
  | '\r' => ['\\', 'r']
  | '\t' => ['\\', 't']
  | c => if c < ' ' then '\\' :: 'u' :: hexEscape c.toNat else [c]

/-- A string literal. -/
def quote (s : String) : List Char := '"' :: s.toList.flatMap escapeChar ++ ['"']

/-- A number literal: an integer by its digits, any other number by the double it denotes. -/
def Number.write (n : Number) : List Char :=
  match n.value? with
  | some (.integer k) => (toString k).toList
  | some (.double x) => x.toText.toList
  | none => "null".toList

mutual

/-- A document without blanks. -/
def write : Json → List Char
  | .null | .unpaired => "null".toList
  | .bool b => (if b then "true" else "false").toList
  | .number n => n.write
  | .string s => quote s
  | .array items => '[' :: writeItems items ++ [']']
  | .object members => '\x7b' :: writeMembers members ++ ['\x7d']

/-- Items separated by commas. -/
def writeItems : List Json → List Char
  | [] => []
  | [j] => write j
  | j :: js => write j ++ ',' :: writeItems js

/-- Members separated by commas. -/
def writeMembers : List (String × Json) → List Char
  | [] => []
  | [(key, j)] => quote key ++ ':' :: write j
  | (key, j) :: js => quote key ++ ':' :: write j ++ ',' :: writeMembers js

end

/-- The compact text of a document. -/
def compact (j : Json) : String := String.ofList j.write

/-- The start of a line at a level. -/
def newLine (level : Nat) : List Char := '\n' :: List.replicate (2 * level) ' '

mutual

/-- A document with one line for each item and member; `level` is the indentation of its last
line. -/
def layout (level : Nat) : Json → List Char
  | .array [] => ['[', ']']
  | .array items => '[' :: layoutItems (level + 1) items ++ newLine level ++ [']']
  | .object [] => ['\x7b', '\x7d']
  | .object members => '\x7b' :: layoutMembers (level + 1) members ++ newLine level ++ ['\x7d']
  | j => write j

/-- Items, each on its own line. -/
def layoutItems (level : Nat) : List Json → List Char
  | [] => []
  | [j] => newLine level ++ layout level j
  | j :: js => newLine level ++ layout level j ++ ',' :: layoutItems level js

/-- Members, each on its own line. -/
def layoutMembers (level : Nat) : List (String × Json) → List Char
  | [] => []
  | [(key, j)] => newLine level ++ quote key ++ ':' :: ' ' :: layout level j
  | (key, j) :: js =>
    newLine level ++ quote key ++ ':' :: ' ' :: layout level j ++ ',' :: layoutMembers level js

end

/-- The indented text of a document. -/
def pretty (j : Json) : String := String.ofList (j.layout 0)

end SchemaEvolution.Json
