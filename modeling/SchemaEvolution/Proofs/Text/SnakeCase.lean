import SchemaEvolution.Naming
import SchemaEvolution.Proofs.Text.Fold

set_option autoImplicit false

/-! # Snake case is lower case

No character of a snake-case name is an ASCII capital, and a name of ASCII characters has a
snake-case name of ASCII characters. Such a name is its own lower-case form
(`Naming.lowercase_snakeCase`). Characters other than capitals are kept (`snakeFrom_append`), and up
to case only underscores come in (`letters_snakeFrom`).
-/

namespace SchemaEvolution.Naming

open Text

/-- Only a capital letter has another letter as its lower case. -/
theorem toLower_of_not_isCapital {c : Char} (h : isCapital c = false) : c.toLower = c := by
  have hv : ¬ (c.val ≥ 'A'.val ∧ c.val ≤ 'Z'.val) := by
    rintro ⟨hlow, hhigh⟩
    have hcapital : isCapital c = true := by
      rw [isCapital, Bool.and_eq_true, decide_eq_true_eq, decide_eq_true_eq]
      exact ⟨hlow, hhigh⟩
    rw [h] at hcapital
    cases hcapital
  unfold Char.toLower
  rw [dif_neg hv]

theorem isAscii_of_le {c d : Char} (h : c ≤ d) (hd : isAscii d = true) : isAscii c = true := by
  rw [isAscii, decide_eq_true_eq] at hd ⊢
  have hn : c.toNat ≤ d.toNat := h
  omega

theorem isAscii_of_isCapital {c : Char} (h : isCapital c = true) : isAscii c = true := by
  rw [isCapital, Bool.and_eq_true, decide_eq_true_eq, decide_eq_true_eq] at h
  exact isAscii_of_le h.2 (by decide)

theorem isCapital_toLower (c : Char) : isCapital c.toLower = false := by
  cases h : isCapital c with
  | false => rw [toLower_of_not_isCapital h, h]
  | true =>
      exact ascii_forall (P := fun c => isCapital c.toLower = false) (by decide)
        (isAscii_of_isCapital h)

/-- A character of a snake-case name is an underscore or the lower case of a character of the name,
and no capital letter. -/
theorem mem_snakeFrom {before : Option Char} {cs : List Char} {c : Char}
    (h : c ∈ snakeFrom before cs) :
    isCapital c = false ∧ (c = '_' ∨ ∃ d ∈ cs, c = d.toLower) := by
  induction cs generalizing before with
  | nil => cases h
  | cons d cs ih =>
      rw [snakeFrom, List.mem_append] at h
      rcases h with hfirst | hrest
      · cases hd : isCapital d with
        | false =>
            rw [hd, if_neg (by decide), List.mem_singleton] at hfirst
            rw [hfirst]
            exact ⟨hd, .inr ⟨d, List.mem_cons_self, (toLower_of_not_isCapital hd).symm⟩⟩
        | true =>
            have hcases : c = '_' ∨ c = d.toLower := by
              rw [hd, if_pos rfl] at hfirst
              split at hfirst
              · simpa using hfirst
              · exact .inr (by simpa using hfirst)
            rcases hcases with rfl | rfl
            · exact ⟨by decide, .inl rfl⟩
            · exact ⟨isCapital_toLower d, .inr ⟨d, List.mem_cons_self, rfl⟩⟩
      · obtain ⟨hcapital, hcases⟩ := ih hrest
        refine ⟨hcapital, hcases.imp_right ?_⟩
        rintro ⟨e, he, hc⟩
        exact ⟨e, List.mem_cons_of_mem d he, hc⟩

/-- The snake case of an ASCII name is in lower case. -/
theorem lowercase_snakeCase {name : String} (h : name.toList.all isAscii = true) :
    lowercase (snakeCase name) = snakeCase name := by
  have hascii : (snakeFrom none name.toList).all isAscii = true := by
    rw [List.all_eq_true] at h ⊢
    intro c hc
    rcases (mem_snakeFrom hc).2 with rfl | ⟨d, hd, rfl⟩
    · decide
    · exact isAscii_toLower (h d hd)
  have hlower : (snakeFrom none name.toList).map Char.toLower = snakeFrom none name.toList := by
    refine (List.map_congr_left fun c hc => ?_).trans (List.map_id _)
    exact toLower_of_not_isCapital (mem_snakeFrom hc).1
  rw [lowercase, snakeCase, String.toList_ofList, lowerFrom_of_isAscii [] hascii, hlower]

/-! ## What is kept -/

theorem getLast?_cons_or (c : Char) (cs : List Char) (before : Option Char) :
    (c :: cs).getLast?.or before = cs.getLast?.or (some c) := by
  rw [List.getLast?_cons]
  cases cs.getLast? <;> rfl

/-- Characters other than capitals are kept. -/
theorem snakeFrom_append {as : List Char} (has : ∀ c ∈ as, isCapital c = false)
    (before : Option Char) (cs : List Char) :
    snakeFrom before (as ++ cs) = as ++ snakeFrom (as.getLast?.or before) cs := by
  induction as generalizing before with
  | nil => rfl
  | cons a as ih =>
      have hrest := ih (fun c hc => has c (List.mem_cons_of_mem a hc)) (some a)
      rw [List.cons_append, snakeFrom, has a List.mem_cons_self, if_neg Bool.false_ne_true, hrest,
        getLast?_cons_or]
      rfl

/-- The letters of a name, without underscores and without a difference between capital and small
ASCII letters. -/
def letters (cs : List Char) : List Char := (cs.filter (· != '_')).map Char.toLower

theorem toLower_ne_underscore {c : Char} (h : isCapital c = true) : (c.toLower != '_') = true :=
  ascii_forall (P := fun c => isCapital c = true → (c.toLower != '_') = true) (by decide)
    (isAscii_of_isCapital h) h

/-- Snake case changes the case of letters and adds underscores. -/
theorem letters_snakeFrom (before : Option Char) (cs : List Char) :
    letters (snakeFrom before cs) = letters cs := by
  induction cs generalizing before with
  | nil => rfl
  | cons c cs ih =>
      have happend (as bs : List Char) : letters (as ++ bs) = letters as ++ letters bs := by
        rw [letters, List.filter_append, List.map_append, letters, letters]
      show letters (_ ++ snakeFrom (some c) cs) = letters ([c] ++ cs)
      rw [happend, happend, ih]
      congr 1
      cases hc : isCapital c with
      | false => rfl
      | true =>
          have hlower : (c.toLower).toLower = c.toLower :=
            toLower_of_not_isCapital (isCapital_toLower c)
          have hne : (c != '_') = true := by
            rw [bne_iff_ne]
            rintro rfl
            exact absurd hc (by decide)
          rw [if_pos rfl]
          split <;> simp [letters, toLower_ne_underscore hc, hlower, hne]

end SchemaEvolution.Naming
