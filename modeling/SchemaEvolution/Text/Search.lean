set_option autoImplicit false

/-! # Searching and cutting text

Cuts and substitutions on lists of characters. Every function splits its input at the first place
where a condition holds, so what comes before that place is kept as it is.
-/

namespace SchemaEvolution.Text

/-- Splits a text at the first occurrence of `pattern` into what stands before and after it. -/
def splitAtFirst (pattern : List Char) : List Char → Option (List Char × List Char)
  | [] => if pattern.isEmpty then some ([], []) else none
  | c :: cs =>
    if pattern.isPrefixOf (c :: cs) then some ([], (c :: cs).drop pattern.length)
    else (splitAtFirst pattern cs).map fun (before, after) => (c :: before, after)

/-- Whether `pattern` occurs in a text. -/
def occursIn (pattern text : String) : Bool :=
  (splitAtFirst pattern.toList text.toList).isSome

/-- Replaces the occurrences of a non-empty `pattern` found from left to right, none of which
overlap; `skip` characters of the one found last are still to be passed over. -/
def replaceFrom (pattern image : List Char) (skip : Nat) : List Char → List Char
  | [] => []
  | c :: cs =>
    match skip with
    | n + 1 => replaceFrom pattern image n cs
    | 0 =>
      if pattern.isPrefixOf (c :: cs) then
        image ++ replaceFrom pattern image (pattern.length - 1) cs
      else c :: replaceFrom pattern image 0 cs

/-- Replaces every occurrence of `pattern` in a text. -/
def replaceAll (pattern image text : List Char) : List Char := replaceFrom pattern image 0 text

/-- Splits a text at every occurrence of a character; `n` occurrences give `n + 1` parts. -/
def splitOnChar (sep : Char) : List Char → List (List Char)
  | [] => [[]]
  | c :: cs =>
    if c = sep then [] :: splitOnChar sep cs
    else
      match splitOnChar sep cs with
      | [] => [[c]]
      | part :: parts => (c :: part) :: parts

/-- The non-empty parts of a text between the occurrences of a character. -/
def wordsOn (sep : Char) (s : String) : List String :=
  ((splitOnChar sep s.toList).filter (!·.isEmpty)).map String.ofList

/-- Sorts texts by code point. -/
def sorted (texts : List String) : List String := texts.mergeSort fun a b => decide (a ≤ b)

end SchemaEvolution.Text
