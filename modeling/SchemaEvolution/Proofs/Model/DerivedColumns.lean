import SchemaEvolution.Model.Descriptor
import SchemaEvolution.Proofs.Lists
import SchemaEvolution.Proofs.Text.SnakeCase

set_option autoImplicit false

/-! # Columns that are named after record fields

A record field is declared under its words, capitalised and joined, and stored under the snake case
of that name. The way back sees capital letters only, so it puts an underscore before a word that
begins with a letter and has a small letter on either side of it (`isPutBack`). The column of a
field in snake case is its words, joined by these underscores (`snakeCase_declaredName`). So it is
the name of the field exactly when every underscore is put back, and two fields have one column only
if their names differ in underscores alone (`FieldDecl.derived_column_eq_iff`).
-/

namespace SchemaEvolution

open Text

/-! ## Field names in snake case -/

namespace Naming

/-- The words of a field name. -/
def fieldWords (ident : String) : List (List Char) := splitOnChar '_' ident.toList

/-- A word of small letters and digits. -/
def IsWord (word : List Char) : Prop :=
  word ≠ [] ∧ (word.all fun c => isSmall c || c.isDigit) = true

instance (word : List Char) : Decidable (IsWord word) :=
  inferInstanceAs (Decidable (word ≠ [] ∧ (word.all fun c => isSmall c || c.isDigit) = true))

theorem IsWord.char {word : List Char} (h : IsWord word) {c : Char} (hc : c ∈ word) :
    isSmall c = true ∨ c.isDigit = true := by
  rw [← Bool.or_eq_true]
  exact List.all_eq_true.mp h.2 c hc

/-- A field name in snake case: words of small letters and digits between single underscores. -/
def IsSnakeCase (ident : String) : Prop := ∀ word ∈ fieldWords ident, IsWord word

instance (ident : String) : Decidable (IsSnakeCase ident) :=
  inferInstanceAs (Decidable (∀ word ∈ fieldWords ident, IsWord word))

/-- What a declared name keeps of a word: all behind its first character, and nothing of `id`. -/
def keptTail (word : List Char) : List Char := if word = ['i', 'd'] then [] else word.tail

/-- Whether the underscore between two words is put back: the second one begins with a letter, and
in the declared name a small letter stands before it or behind it. -/
def isPutBack (word next : List Char) : Bool :=
  next.head?.any isSmall
    && ((keptTail word).getLast?.any isSmall || (keptTail next).head?.any isSmall)

/-- The words of a field name, joined by the underscores that are put back. -/
def rejoined : List (List Char) → List Char
  | [] => []
  | [word] => word
  | word :: next :: words =>
    word ++ (if isPutBack word next then ['_'] else []) ++ rejoined (next :: words)

/-! ## Characters of words -/

section Characters

variable {c : Char}

theorem isAscii_of_isSmall (h : isSmall c = true) : isAscii c = true := by
  rw [isSmall, Bool.and_eq_true, decide_eq_true_eq, decide_eq_true_eq] at h
  exact isAscii_of_le h.2 (by decide)

theorem isAscii_of_isDigit (h : c.isDigit = true) : isAscii c = true := by
  rw [Char.isDigit, Bool.and_eq_true, decide_eq_true_eq, decide_eq_true_eq] at h
  exact isAscii_of_le (d := '9') h.2 (by decide)

/-- The capital of a small letter is a capital, and the letter is its lower case. -/
theorem toUpper_of_isSmall (h : isSmall c = true) :
    isCapital c.toUpper = true ∧ isSmall c.toUpper = false ∧ c.toUpper.toLower = c
      ∧ c.toUpper ≠ '_' :=
  ascii_forall (P := fun c => isSmall c = true → isCapital c.toUpper = true
    ∧ isSmall c.toUpper = false ∧ c.toUpper.toLower = c ∧ c.toUpper ≠ '_') (by decide)
    (isAscii_of_isSmall h) h

theorem toUpper_of_isDigit (h : c.isDigit = true) : c.toUpper = c ∧ isSmall c = false :=
  ascii_forall (P := fun c => c.isDigit = true → c.toUpper = c ∧ isSmall c = false) (by decide)
    (isAscii_of_isDigit h) h

/-- No character of a word is a capital letter or a mark. -/
theorem plain_of_word (h : isSmall c = true ∨ c.isDigit = true) :
    isCapital c = false ∧ c ≠ '_' ∧ c ≠ '#' := by
  have hascii : isAscii c = true := h.elim isAscii_of_isSmall isAscii_of_isDigit
  exact ascii_forall (P := fun c => isSmall c = true ∨ c.isDigit = true →
    isCapital c = false ∧ c ≠ '_' ∧ c ≠ '#') (by decide) hascii h

end Characters

/-! ## Declared words -/

section Words

variable {word next : List Char}

/-- A word other than `id` is declared with its first character in upper case. -/
theorem IsWord.declared (h : IsWord word) :
    word = ['i', 'd'] ∨ ∃ c cs, word = c :: cs
      ∧ declaredWord (c :: cs) = c.toUpper :: cs ∧ keptTail (c :: cs) = cs := by
  by_cases hid : word = ['i', 'd']
  · exact .inl hid
  · obtain ⟨c, cs, rfl⟩ := List.exists_cons_of_ne_nil h.1
    have hlower : (c :: cs).map Char.toLower = c :: cs := by
      refine (List.map_congr_left fun d hd => ?_).trans (List.map_id _)
      exact toLower_of_not_isCapital (plain_of_word (h.char hd)).1
    refine .inr ⟨c, cs, rfl, ?_, ?_⟩
    · rw [declaredWord, hlower, if_neg hid]
    · rw [keptTail, if_neg hid, List.tail_cons]

/-- The last character of a declared word is a small letter if it is one of the kept ones. -/
theorem exists_getLast?_declaredWord (h : IsWord word) :
    ∃ p, (declaredWord word).getLast? = some p ∧ p ≠ '_'
      ∧ isSmall p = (keptTail word).getLast?.any isSmall := by
  rcases h.declared with rfl | ⟨c, cs, rfl, hdeclared, hkept⟩
  · exact ⟨'D', rfl, by decide, rfl⟩
  · rw [hdeclared, hkept, List.getLast?_cons]
    refine ⟨_, rfl, ?_⟩
    cases hlast : cs.getLast? with
    | none =>
        rcases h.char List.mem_cons_self with hsmall | hdigit
        · obtain ⟨-, hupper, -, hmark⟩ := toUpper_of_isSmall hsmall
          exact ⟨hmark, hupper⟩
        · obtain ⟨hupper, hsmall⟩ := toUpper_of_isDigit hdigit
          rw [Option.getD_none, hupper]
          exact ⟨(plain_of_word (.inr hdigit)).2.1, hsmall⟩
    | some d =>
        have hd : d ∈ c :: cs := List.mem_cons_of_mem c (List.mem_of_getLast? hlast)
        exact ⟨(plain_of_word (h.char hd)).2.1, rfl⟩

theorem head?_tail_declaredWord (h : IsWord word) :
    (declaredWord word).tail.head?.any isSmall = (keptTail word).head?.any isSmall := by
  rcases h.declared with rfl | ⟨c, cs, rfl, hdeclared, hkept⟩
  · rfl
  · rw [hdeclared, hkept, List.tail_cons]

/-- No declared word begins with a small letter. -/
theorem head?_declaredWord_append (h : IsWord word) (cs : List Char) :
    (declaredWord word ++ cs).head?.any isSmall = false := by
  rcases h.declared with rfl | ⟨c, tail, rfl, hdeclared, -⟩
  · rfl
  · rw [hdeclared, List.cons_append, List.head?_cons, Option.any_some]
    rcases h.char List.mem_cons_self with hsmall | hdigit
    · exact (toUpper_of_isSmall hsmall).2.1
    · obtain ⟨hupper, hsmall⟩ := toUpper_of_isDigit hdigit
      rw [hupper, hsmall]

/-- What the snake case puts before a declared word that stands behind a character. -/
def mark (before : Option Char) (word : List Char) : List Char :=
  if word.head?.any isSmall && startsWord before (declaredWord word).tail.head? then ['_'] else []

/-- Of what follows a capital only a small letter counts. -/
theorem startsWord_congr {before after after' : Option Char}
    (h : after.any isSmall = after'.any isSmall) :
    startsWord before after = startsWord before after' := by
  cases before with
  | none => rfl
  | some p => rw [startsWord, startsWord, h]

/-- A declared word gives the word again, behind a mark; no underscore is put inside it. -/
theorem snakeFrom_declaredWord (h : IsWord word) {cs : List Char}
    (hcs : cs.head?.any isSmall = false) (before : Option Char) :
    snakeFrom before (declaredWord word ++ cs)
      = mark before word ++ (word ++ snakeFrom (declaredWord word).getLast? cs) := by
  rcases h.declared with rfl | ⟨c, tail, rfl, hdeclared, -⟩
  · -- the letter before `D` is a capital, and so is the one behind it, if any
    have hinside : startsWord (some 'I') cs.head? = false := by
      rw [startsWord, hcs]
      rfl
    have hid : declaredWord ['i', 'd'] = ['I', 'D'] := rfl
    simp only [hid, List.cons_append, List.nil_append, snakeFrom, mark, hinside]
    cases hmark : startsWord before (some 'D') with
    | false => simp [hmark, isCapital]
    | true => simp [hmark, isCapital, isSmall]
  · have htail : ∀ d ∈ tail, isCapital d = false :=
      fun d hd => (plain_of_word (h.char (List.mem_cons_of_mem c hd))).1
    have hlast : (c.toUpper :: tail).getLast? = tail.getLast?.or (some c.toUpper) := by
      rw [← getLast?_cons_or c.toUpper tail none, Option.or_none]
    rw [mark, hdeclared, hlast, List.cons_append, snakeFrom, snakeFrom_append htail, List.tail_cons,
      List.head?_cons, Option.any_some]
    rcases h.char List.mem_cons_self with hsmall | hdigit
    · obtain ⟨hcapital, -, hlower, -⟩ := toUpper_of_isSmall hsmall
      have hafter : startsWord before (tail ++ cs).head? = startsWord before tail.head? := by
        refine startsWord_congr ?_
        cases tail with
        | nil => exact hcs
        | cons d ds => rfl
      rw [hcapital, if_pos rfl, hafter, hsmall, hlower, Bool.true_and]
      cases startsWord before tail.head? <;> rfl
    · obtain ⟨hupper, hsmall⟩ := toUpper_of_isDigit hdigit
      rw [hupper, (plain_of_word (.inr hdigit)).1, hsmall, Bool.false_and]
      rfl

/-- Behind a declared word the snake case has the mark of the two words. -/
theorem mark_getLast? (hword : IsWord word) (hnext : IsWord next) :
    mark (declaredWord word).getLast? next = if isPutBack word next then ['_'] else [] := by
  obtain ⟨p, hlast, hmark, hsmall⟩ := exists_getLast?_declaredWord hword
  have hstarts : startsWord (some p) (declaredWord next).tail.head?
      = ((keptTail word).getLast?.any isSmall || (keptTail next).head?.any isSmall) := by
    rw [startsWord, head?_tail_declaredWord hnext, hsmall, bne_iff_ne.mpr hmark, Bool.true_and]
  rw [mark, hlast, hstarts, isPutBack]

end Words

/-! ## The snake case of a declared name -/

section Names

variable {words : List (List Char)} {ident : String}

theorem snakeFrom_flatMap {word : List Char} (h : ∀ w ∈ word :: words, IsWord w)
    (before : Option Char) :
    snakeFrom before ((word :: words).flatMap declaredWord)
      = mark before word ++ rejoined (word :: words) := by
  induction words generalizing before word with
  | nil =>
      have hword : snakeFrom before (declaredWord word ++ []) = _ :=
        snakeFrom_declaredWord (h word List.mem_cons_self) rfl before
      rw [List.flatMap_cons, List.flatMap_nil, hword, snakeFrom, List.append_nil, rejoined]
  | cons next words ih =>
      have hword := h word List.mem_cons_self
      have hrest : ∀ w ∈ next :: words, IsWord w := fun w hw => h w (List.mem_cons_of_mem word hw)
      have hnext := hrest next List.mem_cons_self
      have hcs : ((next :: words).flatMap declaredWord).head?.any isSmall = false := by
        rw [List.flatMap_cons]
        exact head?_declaredWord_append hnext _
      rw [List.flatMap_cons, snakeFrom_declaredWord hword hcs, ih hrest,
        mark_getLast? hword hnext, rejoined, List.append_assoc]

theorem splitOnChar_eq_splitOn (sep : Char) (cs : List Char) :
    splitOnChar sep cs = cs.splitOn sep := by
  rw [List.splitOn_eq_splitOnP]
  induction cs with
  | nil => rfl
  | cons c cs ih =>
      rw [splitOnChar, List.splitOnP_cons_eq_if_modifyHead, ih]
      by_cases hc : c = sep
      · rw [if_pos hc, if_pos (beq_iff_eq.mpr hc)]
      · rw [if_neg hc, if_neg (by simpa using hc)]
        cases hparts : cs.splitOnP (· == sep) with
        | nil => exact absurd hparts (List.splitOnP_ne_nil _ _)
        | cons part parts => rfl

theorem intercalate_fieldWords (ident : String) :
    ['_'].intercalate (fieldWords ident) = ident.toList := by
  rw [fieldWords, splitOnChar_eq_splitOn, List.intercalate_splitOn]

theorem fieldWords_ne_nil (ident : String) : fieldWords ident ≠ [] := by
  rw [fieldWords, splitOnChar_eq_splitOn, List.splitOn_eq_splitOnP]
  exact List.splitOnP_ne_nil _ _

/-- A field name in snake case is not marked as raw. -/
theorem unraw_toList (h : IsSnakeCase ident) : unraw ident.toList = ident.toList := by
  have hraw : '#' ∉ ident.toList := by
    rw [← intercalate_fieldWords ident]
    exact not_mem_intercalate (by decide) fun word hword hmem =>
      (plain_of_word ((h word hword).char hmem)).2.2 rfl
  rw [unraw.eq_def]
  split
  · next name heq =>
    rw [heq] at hraw
    exact absurd (List.mem_cons_of_mem _ List.mem_cons_self) hraw
  · rfl

/-- The snake case of the declared name of a field has the words of the field. -/
theorem snakeCase_declaredName (h : IsSnakeCase ident) :
    snakeCase (declaredName ident) = String.ofList (rejoined (fieldWords ident)) := by
  obtain ⟨word, words, hwords⟩ := List.exists_cons_of_ne_nil (fieldWords_ne_nil ident)
  have hall : ∀ w ∈ word :: words, IsWord w := hwords ▸ h
  have hfirst : mark none word = [] := by
    rw [mark, startsWord, Bool.and_false, if_neg Bool.false_ne_true]
  have hdeclared : (declaredName ident).toList = (word :: words).flatMap declaredWord := by
    rw [declaredName, String.toList_ofList, unraw_toList h, ← hwords, fieldWords]
  rw [snakeCase, hdeclared, snakeFrom_flatMap hall, hfirst, List.nil_append, hwords]

theorem exists_rejoined_append (word : List Char) (words : List (List Char)) :
    ∃ cs, rejoined (word :: words) = word ++ cs := by
  cases words with
  | nil => exact ⟨[], (List.append_nil word).symm⟩
  | cons next words => exact ⟨_, List.append_assoc ..⟩

/-- Joining words gives every underscore only if every one is put back. -/
theorem rejoined_eq_intercalate_iff (h : ∀ word ∈ words, IsWord word) :
    rejoined words = ['_'].intercalate words ↔ words.IsChain (isPutBack · · = true) := by
  induction words with
  | nil => exact ⟨fun _ => .nil, fun _ => rfl⟩
  | cons word words ih =>
      have hrest := ih fun w hw => h w (List.mem_cons_of_mem word hw)
      cases words with
      | nil => exact ⟨fun _ => .singleton word, fun _ => List.intercalate_singleton.symm⟩
      | cons next words =>
          rw [List.isChain_cons_cons, ← hrest, rejoined, List.intercalate_cons_cons,
            List.append_assoc, List.append_assoc, List.append_cancel_left_eq]
          cases isPutBack word next with
          | true => simp
          | false =>
              obtain ⟨cs, hjoined⟩ := exists_rejoined_append next words
              obtain ⟨c, tail, rfl⟩ := List.exists_cons_of_ne_nil (h next (by simp)).1
              have hnext := (h (c :: tail) (by simp)).char List.mem_cons_self
              have hc : c ≠ '_' := (plain_of_word hnext).2.1
              rw [hjoined]
              simp [hc]

/-- Joining words changes underscores only. -/
theorem filter_rejoined (words : List (List Char)) :
    (rejoined words).filter (· != '_') = (['_'].intercalate words).filter (· != '_') := by
  induction words with
  | nil => rfl
  | cons word words ih =>
      cases words with
      | nil => rw [rejoined, List.intercalate_singleton]
      | cons next words =>
          rw [rejoined, List.intercalate_cons_cons, List.filter_append, List.filter_append,
            List.filter_append, List.filter_append, ih]
          cases isPutBack word next <;> rfl

end Names

end Naming

/-! ## The columns of record fields -/

/-- The declaration of a stored record field that names no column of its own. -/
structure FieldDecl.OfIdent (d : FieldDecl) (ident : String) : Prop where
  name : d.name = Naming.declaredName ident
  column : d.column = none
  stored : d.skip = false

namespace FieldDecl

open Naming

variable {d : FieldDecl} {ident : String}

theorem OfIdent.column_describe (hd : d.OfIdent ident) (h : IsSnakeCase ident) :
    d.describe.column = String.ofList (rejoined (fieldWords ident)) := by
  have hstored : d.isSkipped = false := by
    rw [isSkipped, hd.stored, hd.column]
    rfl
  have hcolumn : d.describe.column = d.columnName := by
    rw [describe, hstored, if_neg Bool.false_ne_true]
  rw [hcolumn, columnName, hd.column, hd.name, snakeCase_declaredName h]

/-- The column of a record field in snake case has the words of the field, joined by the underscores
that are put back. It is the name of the field exactly when every underscore is. Two fields have one
column only if their names differ in underscores alone, and names of which every underscore is put
back do not differ at all then. -/
theorem derived_column_eq_iff (h : IsSnakeCase ident) (hd : d.OfIdent ident) :
    d.describe.column = String.ofList (rejoined (fieldWords ident))
      ∧ (d.describe.column = ident ↔ (fieldWords ident).IsChain (isPutBack · · = true))
      ∧ ∀ (d' : FieldDecl) (ident' : String), IsSnakeCase ident' → d'.OfIdent ident' →
        d.describe.column = d'.describe.column →
          ident.toList.filter (· != '_') = ident'.toList.filter (· != '_')
            ∧ ((fieldWords ident).IsChain (isPutBack · · = true) →
              (fieldWords ident').IsChain (isPutBack · · = true) → ident = ident') := by
  have hcolumn := hd.column_describe h
  have hiff {ident : String} (h : IsSnakeCase ident) :
      String.ofList (rejoined (fieldWords ident)) = ident
        ↔ (fieldWords ident).IsChain (isPutBack · · = true) := by
    rw [← rejoined_eq_intercalate_iff h, intercalate_fieldWords, ← String.toList_inj,
      String.toList_ofList]
  refine ⟨hcolumn, hcolumn ▸ hiff h, fun d' ident' h' hd' heq => ?_⟩
  rw [hcolumn, hd'.column_describe h'] at heq
  constructor
  · have hfilter := congrArg (·.filter (· != '_')) (String.ofList_injective heq)
    simpa only [filter_rejoined, intercalate_fieldWords] using hfilter
  · intro hall hall'
    calc ident = String.ofList (rejoined (fieldWords ident)) := ((hiff h).mpr hall).symm
      _ = String.ofList (rejoined (fieldWords ident')) := heq
      _ = ident' := (hiff h').mpr hall'

/-- A field of strings that is declared under the name of a record field. -/
def ofIdent (ident : String) : FieldDecl :=
  { name := declaredName ident, element := { tag := "String", kind := .string } }

theorem derived_column_eq_account_id :
    IsSnakeCase "account_id" ∧ IsSnakeCase "app_x_id"
      ∧ (ofIdent "account_id").describe.column = "account_id"
      ∧ (ofIdent "app_x_id").describe.column = "app_xid" := by
  have haccount : IsSnakeCase "account_id" := by decide +kernel
  have happ : IsSnakeCase "app_x_id" := by decide +kernel
  have hd (ident : String) : (ofIdent ident).OfIdent ident := ⟨rfl, rfl, rfl⟩
  obtain ⟨-, hkept, -⟩ := derived_column_eq_iff haccount (hd "account_id")
  obtain ⟨hcolumn, -, -⟩ := derived_column_eq_iff happ (hd "app_x_id")
  exact ⟨haccount, happ, hkept.mpr (by decide +kernel), hcolumn.trans (by decide +kernel)⟩

/-- Two fields of a record have one column, so the record is refused. -/
theorem derived_columns_collide :
    IsSnakeCase "a_b" ∧ IsSnakeCase "ab"
      ∧ (ofIdent "a_b").OfIdent "a_b" ∧ (ofIdent "ab").OfIdent "ab"
      ∧ (ofIdent "a_b").describe.column = "ab" ∧ (ofIdent "ab").describe.column = "ab"
      ∧ Descriptor.ofDeclaration
          { typeName := "Pair", parts := [.field (ofIdent "a_b"), .field (ofIdent "ab")] }
        = .error (.duplicateColumn "Pair" "ab") :=
  ⟨by decide +kernel, by decide +kernel, ⟨rfl, rfl, rfl⟩, ⟨rfl, rfl, rfl⟩, by decide +kernel,
    by decide +kernel, by rfl⟩

end FieldDecl

end SchemaEvolution
