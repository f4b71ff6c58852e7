import SchemaEvolution.Text.CaseTable

set_option autoImplicit false

/-! # Upper and lower case, and names up to case

`lowercase` and `uppercase` are the full case maps of the Unicode standard. Both replace each
character by its image, which may be several characters (`İ` has a two-character lower case, `ß` a
two-letter upper case). One character looks at its neighbours: a capital sigma that ends a word
becomes `ς`, any other `σ`. A word ends there when, leaving out characters that carry no letter of
their own, the character before is cased and the character after is not.

`sameFold` compares identifiers. Two ASCII names are compared letter by letter, any other pair by
the lower-case forms of the whole names.
-/

namespace SchemaEvolution.Text

/-- The code point a list of runs sends `n` to; a code point outside every run stays. -/
def mapCode (runs : List CaseRun) (n : Nat) : Nat :=
  match runs.find? (·.covers n) with
  | some r => r.apply n
  | none => n

/-- Whether a code point lies in one of the closed ranges. -/
def inRanges (ranges : List (Nat × Nat)) (n : Nat) : Bool :=
  ranges.any fun r => r.1 ≤ n && n ≤ r.2

/-- A cased character. -/
def isCased (c : Char) : Bool := inRanges casedRanges c.toNat

/-- A character that a test for the end of a word skips. -/
def isIgnorable (c : Char) : Bool := inRanges ignorableRanges c.toNat

/-- Whether the first character that counts is cased. -/
def meetsCased (cs : List Char) : Bool :=
  match cs.dropWhile isIgnorable with
  | [] => false
  | c :: _ => isCased c

/-- Whether a word ends between the characters `before`, nearest first, and `after`. -/
def endsWord (before after : List Char) : Bool :=
  meetsCased before && !meetsCased after

/-- The lower case of a character out of context. -/
def lowerChar (c : Char) : List Char :=
  if c = 'İ' then ['i', Char.ofNat 0x307] else [Char.ofNat (mapCode lowerRuns c.toNat)]

/-- The upper case of a character. -/
def upperChar (c : Char) : List Char :=
  match upperExpansions.lookup c.toNat with
  | some image => image.map Char.ofNat
  | none => [Char.ofNat (mapCode upperRuns c.toNat)]

/-- The lower case of the rest of a text whose earlier characters, nearest first, are `before`. -/
def lowerFrom (before : List Char) : List Char → List Char
  | [] => []
  | c :: rest =>
    (if c = 'Σ' then [if endsWord before rest then 'ς' else 'σ'] else lowerChar c)
      ++ lowerFrom (c :: before) rest

/-- The lower case of a text. -/
def lowercase (s : String) : String := String.ofList (lowerFrom [] s.toList)

/-- The upper case of a text. -/
def uppercase (s : String) : String := String.ofList (s.toList.flatMap upperChar)

/-- An ASCII character. -/
def isAscii (c : Char) : Bool := c.toNat < 128

/-- Equality of texts up to the case of ASCII letters. -/
def sameAsciiFold (a b : String) : Bool :=
  a.toList.map Char.toLower == b.toList.map Char.toLower

/-- Equality of identifiers up to case. -/
def sameFold (a b : String) : Bool :=
  if a.toList.all isAscii && b.toList.all isAscii then sameAsciiFold a b
  else lowercase a == lowercase b

end SchemaEvolution.Text
