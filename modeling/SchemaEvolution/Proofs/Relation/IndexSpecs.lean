import SchemaEvolution.Relation.Desired

set_option autoImplicit false

/-! # What an index spec says

The words of a spec behind its name are read one after the other. A GIN spec takes them as options
as they stand. In any other spec a word makes the index unique or concurrent, or names an access
method, of which the last one counts; all other words are options, in their order
(`indexOfSpec?_eq_some_iff`).
-/

namespace SchemaEvolution

open Text

namespace IndexFlags

/-- The word makes an index unique. -/
def saysUnique (word : String) : Bool := lowercase word == "unique"

/-- The word makes an index concurrent. -/
def saysConcurrently (word : String) : Bool := lowercase word == "concurrently"

/-- The word names an access method. -/
def saysMethod (word : String) : Bool := indexMethods.contains (lowercase word)

/-- The word says nothing about the index but what stands behind its columns. -/
def isOption (word : String) : Bool :=
  !saysUnique word && !saysConcurrently word && !saysMethod word

theorem foldl_read_gin (f : IndexFlags) (words : List String) :
    words.foldl (read .gin) f = { f with options := f.options ++ words } := by
  induction words generalizing f with
  | nil => simp
  | cons word words ih =>
      rw [List.foldl_cons, ih, read, if_pos rfl]
      simp

/-- Each word is of one kind. -/
theorem read_eq {group : IndexGroup} (hgroup : group ≠ .gin) (f : IndexFlags) (word : String) :
    read group f word =
      { isUnique := f.isUnique || saysUnique word
        method := if saysMethod word then word else f.method
        concurrently := f.concurrently || saysConcurrently word
        options := f.options ++ if isOption word then [word] else [] } := by
  rw [read, if_neg hgroup, isOption, saysUnique, saysConcurrently, saysMethod]
  dsimp only
  by_cases hconcurrently : lowercase word = "concurrently"
  · rw [if_pos hconcurrently, hconcurrently]
    simp [indexMethods]
  · rw [if_neg hconcurrently]
    by_cases hunique : lowercase word = "unique"
    · rw [if_pos hunique, hunique]
      simp [indexMethods]
    · rw [if_neg hunique]
      cases hmethod : indexMethods.contains (lowercase word) <;> simp [hconcurrently, hunique]

theorem foldl_read {group : IndexGroup} (hgroup : group ≠ .gin) (f : IndexFlags)
    (words : List String) :
    words.foldl (read group) f =
      { isUnique := f.isUnique || words.any saysUnique
        method := (words.filter saysMethod).getLast?.getD f.method
        concurrently := f.concurrently || words.any saysConcurrently
        options := f.options ++ words.filter isOption } := by
  induction words generalizing f with
  | nil => simp
  | cons word words ih =>
      rw [List.foldl_cons, ih, read_eq hgroup]
      simp only [List.any_cons, Bool.or_assoc, List.filter_cons]
      congr 1
      · cases hmethod : saysMethod word with
        | false => rfl
        | true =>
            rw [if_pos rfl, if_pos rfl, List.getLast?_cons, Option.getD_some]
      · cases isOption word <;> simp

end IndexFlags

open IndexFlags

/-- The fragment that a name and words declare for a column. -/
def fragmentOf (group : IndexGroup) (column name : String) (words : List String) : Index :=
  if group = .gin then
    { name := lowercase name, method := "gin", columns := [column],
      options := " ".intercalate words }
  else
    { name := lowercase name
      isUnique := group == .unique || words.any saysUnique
      method := (words.filter saysMethod).getLast?.getD ""
      columns := [column]
      options := " ".intercalate (words.filter isOption)
      concurrently := words.any saysConcurrently }

@[simp]
theorem fragmentOf_columns (group : IndexGroup) (column name : String) (words : List String) :
    (fragmentOf group column name words).columns = [column] := by
  rw [fragmentOf]
  split <;> rfl

/-- A spec with a name declares the fragment of its name and its other words, a blank one none. -/
theorem indexOfSpec?_eq_some_iff {group : IndexGroup} {column spec : String} {i : Index} :
    indexOfSpec? group column spec = some i ↔
      ∃ name words, wordsOn ' ' spec = name :: words ∧ i = fragmentOf group column name words := by
  have hwords : ∀ name words, wordsOn ' ' spec = name :: words →
      indexOfSpec? group column spec = some (fragmentOf group column name words) := by
    intro name words hwords
    rw [indexOfSpec?, hwords, fragmentOf]
    by_cases hgin : group = .gin
    · simp [hgin, foldl_read_gin]
    · simp [hgin, foldl_read hgin]
  constructor
  · intro h
    cases hspec : wordsOn ' ' spec with
    | nil =>
        rw [indexOfSpec?, hspec] at h
        cases h
    | cons name words =>
        rw [hwords name words hspec] at h
        exact ⟨name, words, rfl, (Option.some.inj h).symm⟩
  · rintro ⟨name, words, hspec, rfl⟩
    exact hwords name words hspec

end SchemaEvolution
