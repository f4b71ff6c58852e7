import SchemaEvolution.Proofs.Query.Tokens

set_option autoImplicit false

/-! # Numbering the marks of a query

`Reads` says what it means to read a query from left to right, pair by pair and mark by mark, with
every other character for itself. A query is read in exactly one way (`exists_reads`,
`Reads.unique`), and its reading decides what `rebind` makes of it: the marks become `$1`, `$2`, …
in order, an escaped `??` becomes `?`, and nothing else changes. Counting the placeholders gives the
number of marks, which is the last number that was written (`rebind_numbers_marks`).
-/

namespace SchemaEvolution.Query

/-! ## Readings -/

/-- The characters that make a pair with a `?` before them. -/
def ClosesPair (c : Char) : Prop := c = '?' ∨ c = '|' ∨ c = '&'

/-- A text is read from left to right as tokens. Digits are characters as any other. -/
inductive Reads : List Char → List Token → Prop
  | done : Reads [] []
  | pair {second : Char} {cs : List Char} {ts : List Token} :
    ClosesPair second → Reads cs ts → Reads ('?' :: second :: cs) (.pair second :: ts)
  | mark {cs : List Char} {ts : List Token} :
    (∀ c ∈ cs.head?, ¬ ClosesPair c) → Reads cs ts → Reads ('?' :: cs) (.mark :: ts)
  | other {c : Char} {cs : List Char} {ts : List Token} :
    c ≠ '?' → Reads cs ts → Reads (c :: cs) (.other c :: ts)

theorem not_closesPair_head {cs : List Char} (hq : ∀ rest, cs ≠ '?' :: rest)
    (hb : ∀ rest, cs ≠ '|' :: rest) (ha : ∀ rest, cs ≠ '&' :: rest) :
    ∀ c ∈ cs.head?, ¬ ClosesPair c := by
  cases cs with
  | nil => simp
  | cons d rest =>
      rintro c hc (rfl | rfl | rfl)
      all_goals
        simp only [List.head?_cons, Option.mem_def, Option.some.injEq] at hc
        subst hc
      · exact hq rest rfl
      · exact hb rest rfl
      · exact ha rest rfl

theorem ne_cons_of_not_closesPair {cs : List Char} (h : ∀ c ∈ cs.head?, ¬ ClosesPair c) {c : Char}
    (hc : ClosesPair c) (rest : List Char) : cs ≠ c :: rest := by
  rintro rfl
  exact h c rfl hc

/-- Every text can be read. -/
theorem exists_reads (cs : List Char) : ∃ ts, Reads cs ts := by
  fun_induction countMarks cs with
  | case1 => exact ⟨[], .done⟩
  | case2 cs ih => exact ih.imp' _ fun _ => .pair (.inl rfl)
  | case3 cs ih => exact ih.imp' _ fun _ => .pair (.inr (.inl rfl))
  | case4 cs ih => exact ih.imp' _ fun _ => .pair (.inr (.inr rfl))
  | case5 cs hq hb ha ih => exact ih.imp' _ fun _ => .mark (not_closesPair_head hq hb ha)
  | case6 c cs _ _ _ hc ih => exact ih.imp' _ fun _ => .other hc

/-- A text is read in one way only: what follows a `?` decides whether it is a mark. -/
theorem Reads.unique {cs : List Char} {ts ts' : List Token} (h : Reads cs ts)
    (h' : Reads cs ts') : ts' = ts := by
  induction h generalizing ts' with
  | done => cases h' with | done => rfl
  | pair hsecond _ ih =>
      cases h' with
      | pair _ hrest => rw [ih hrest]
      | mark hnone _ => exact absurd hsecond (hnone _ rfl)
      | other hc _ => exact absurd rfl hc
  | mark hnone _ ih =>
      cases h' with
      | pair hsecond _ => exact absurd hsecond (hnone _ rfl)
      | mark _ hrest => rw [ih hrest]
      | other hc _ => exact absurd rfl hc
  | other hc _ ih =>
      cases h' with
      | pair _ _ => exact absurd rfl hc
      | mark _ _ => exact absurd rfl hc
      | other _ hrest => rw [ih hrest]

/-- Nothing of a text is lost. -/
theorem Reads.source {cs : List Char} {ts : List Token} (h : Reads cs ts) :
    ts.flatMap Token.source = cs := by
  induction h with
  | done => rfl
  | pair _ _ ih => rw [List.flatMap_cons, ih]; rfl
  | mark _ _ ih => rw [List.flatMap_cons, ih]; rfl
  | other _ _ ih => rw [List.flatMap_cons, ih]; rfl

/-! ## Numbers -/

/-- Tokens with the number that a mark takes in their place, when `n` marks stand before them. -/
def numberedFrom (n : Nat) : List Token → List (Token × Nat)
  | [] => []
  | t :: ts => (t, n + 1) :: numberedFrom (n + [t].count .mark) ts

/-- The numbers of the marks among numbered tokens. -/
def markNumbers (ts : List (Token × Nat)) : List Nat :=
  (ts.filter (·.1 == .mark)).map (·.2)

theorem map_fst_numberedFrom (n : Nat) (ts : List Token) : (numberedFrom n ts).map (·.1) = ts := by
  induction ts generalizing n with
  | nil => rfl
  | cons t ts ih => rw [numberedFrom, List.map_cons, ih]

/-- The marks are numbered without a gap. -/
theorem markNumbers_numberedFrom (n : Nat) (ts : List Token) :
    markNumbers (numberedFrom n ts) = List.range' (n + 1) (ts.count .mark) := by
  induction ts generalizing n with
  | nil => rfl
  | cons t ts ih =>
      simp only [markNumbers] at ih ⊢
      rw [← List.singleton_append, List.count_append]
      by_cases ht : t = .mark
      · subst ht
        rw [List.singleton_append, numberedFrom, List.filter_cons_of_pos (by simp), List.map_cons,
          ih, List.count_singleton_self, Nat.add_comm 1, List.range'_succ]
      · have hnone : [t].count Token.mark = 0 := by
          rw [List.count_eq_zero, List.mem_singleton]
          exact Ne.symm ht
        rw [List.singleton_append, numberedFrom, List.filter_cons_of_neg (by simpa using ht), ih,
          hnone, Nat.add_zero, Nat.zero_add]

theorem renumber_eq_flatMap (n : Nat) (ts : List Token) :
    renumber n ts = (numberedFrom n ts).flatMap fun p => p.1.rebound p.2 := by
  induction ts generalizing n with
  | nil => rfl
  | cons t ts ih => rw [renumber_cons, numberedFrom, List.flatMap_cons, ih]

theorem Reads.rebindFrom_eq {cs : List Char} {ts : List Token} (h : Reads cs ts) (n : Nat) :
    rebindFrom n cs = renumber n ts := by
  induction h generalizing n with
  | done => rfl
  | pair hsecond _ ih =>
      rw [renumber_cons, ← ih]
      rcases hsecond with rfl | rfl | rfl <;> rfl
  | @mark cs ts hnone _ ih =>
      have hpair {c : Char} (hc : ClosesPair c) := ne_cons_of_not_closesPair hnone hc
      rw [renumber_cons, ← ih]
      exact rebindFrom.eq_5 n cs (hpair (.inl rfl)) (hpair (.inr (.inl rfl)))
        (hpair (.inr (.inr rfl)))
  | other hc _ ih =>
      rw [rebindFrom_cons hc, renumber_cons, ih]
      rfl

theorem Reads.countMarks_eq {cs : List Char} {ts : List Token} (h : Reads cs ts) :
    countMarks cs = ts.count .mark := by
  induction h with
  | done => rfl
  | pair hsecond _ ih =>
      rw [List.count_cons_of_ne (by simp), ← ih]
      rcases hsecond with rfl | rfl | rfl <;> rfl
  | @mark cs ts hnone _ ih =>
      have hpair {c : Char} (hc : ClosesPair c) := ne_cons_of_not_closesPair hnone hc
      rw [List.count_cons_self, ← ih]
      exact countMarks.eq_5 cs (hpair (.inl rfl)) (hpair (.inr (.inl rfl)))
        (hpair (.inr (.inr rfl)))
  | other hc _ ih => rw [countMarks_cons hc, ih, List.count_cons_of_ne (by simp)]

/-- Numbering the placeholders of a query. There is one way to read it from left to right, in which
nothing of it is lost. The marks that are read take the numbers `1`, `2`, … without a gap, up to
the number of placeholders that is counted. The query becomes the text in which each of them stands
as `$` with its number and each escaped `??` as `?`, while all other tokens stand as they were. -/
theorem rebind_numbers_marks (query : String) :
    ∃ read, Reads query.toList read
      ∧ (∀ read', Reads query.toList read' → read' = read)
      ∧ read.flatMap Token.source = query.toList
      ∧ countPlaceholders query = read.count .mark
      ∧ ∃ numbered : List (Token × Nat), numbered.map (·.1) = read
        ∧ markNumbers numbered = List.range' 1 (countPlaceholders query)
        ∧ rebind query = String.ofList (numbered.flatMap fun p => p.1.rebound p.2) := by
  obtain ⟨read, hread⟩ := exists_reads query.toList
  have hcount : countPlaceholders query = read.count .mark := hread.countMarks_eq
  refine ⟨read, hread, fun read' hread' => hread.unique hread', hread.source, hcount,
    numberedFrom 0 read, map_fst_numberedFrom 0 read, ?_, ?_⟩
  · rw [markNumbers_numberedFrom, hcount]
  · rw [rebind, hread.rebindFrom_eq, renumber_eq_flatMap]

/-- Of three marks in a row the first two are an escaped one. The third is a placeholder, or before
a bar an operator. -/
example : rebind "a ??? b ???|" = "a ?$1 b ??|" ∧ countPlaceholders "a ??? b ???|" = 1 := by
  decide +kernel

end SchemaEvolution.Query
