import SchemaEvolution.Proofs.Text.SnakeCase

set_option autoImplicit false

/-! # Where snake case puts underscores

Snake case writes every character of a name in lower case, and an underscore before some of them
(`snakeFrom_eq`). Which ones can be read off the name: the capitals behind another character, which
is no underscore, that have a small letter on one side (`IsSeparated`). So an underscore that is put
in stands between two characters that are none, and a name in snake case stays as it is
(`snakeCase_separates`).
-/

namespace SchemaEvolution.Naming

open Text

/-- Whether an underscore goes directly before the character at a position of a name: it is an ASCII
capital and not first, no underscore stands before it, and a small ASCII letter does so or stands
directly behind it. -/
def IsSeparated (name : List Char) (i : Nat) : Prop :=
  name[i]?.any isCapital ∧ 0 < i ∧ name[i - 1]? ≠ some '_'
    ∧ (name[i - 1]?.any isSmall ∨ name[i + 1]?.any isSmall)

instance (name : List Char) (i : Nat) : Decidable (IsSeparated name i) :=
  inferInstanceAs (Decidable (_ ∧ _ ∧ _ ∧ _))

/-- What is written for the character at a position of a name. -/
def written (name : List Char) (i : Nat) (c : Char) : List Char :=
  if IsSeparated name i then ['_', c.toLower] else [c.toLower]

/-- What is written for each character of a name. -/
def spelled (name : List Char) : List (List Char) := name.mapIdx (written name)

/-- Only an underscore is in lower case one. -/
theorem toLower_eq_underscore_iff (c : Char) : c.toLower = '_' ↔ c = '_' := by
  cases hc : isCapital c with
  | false => rw [toLower_of_not_isCapital hc]
  | true =>
      refine iff_of_false (bne_iff_ne.mp (toLower_ne_underscore hc)) ?_
      rintro rfl
      exact absurd hc (by decide)

theorem letters_eq (cs : List Char) : letters cs = (cs.map Char.toLower).filter (· != '_') := by
  have hsame : (fun c : Char => c.toLower != '_') = (· != '_') := by
    funext c
    rw [Bool.eq_iff_iff, bne_iff_ne, bne_iff_ne, ne_eq, toLower_eq_underscore_iff]
  rw [List.filter_map, Function.comp_def, hsame, letters]

/-! ## Character by character -/

/-- Whether a character is separated shows at the characters around it. -/
theorem isSeparated_append (before cs : List Char) (c : Char) :
    IsSeparated (before ++ c :: cs) before.length
      ↔ isCapital c = true ∧ startsWord before.getLast? cs.head? = true := by
  have hat : (before ++ c :: cs)[before.length]? = some c := by simp
  have hnext : (before ++ c :: cs)[before.length + 1]? = cs.head? := by
    rw [List.getElem?_append_right (by omega), Nat.add_sub_cancel_left, List.getElem?_cons_succ,
      List.head?_eq_getElem?]
  unfold IsSeparated
  rw [hat, hnext, Option.any_some]
  apply and_congr_right
  intro _
  rcases List.eq_nil_or_concat' before with rfl | ⟨earlier, p, rfl⟩
  · simp [startsWord]
  · have hprevious : (earlier ++ [p] ++ c :: cs)[(earlier ++ [p]).length - 1]? = some p := by simp
    rw [hprevious]
    simp [startsWord]

theorem snakeFrom_cons (before cs : List Char) (c : Char) :
    snakeFrom before.getLast? (c :: cs)
      = written (before ++ c :: cs) before.length c ++ snakeFrom (some c) cs := by
  rw [snakeFrom, written, if_congr (isSeparated_append before cs c) rfl rfl]
  cases hc : isCapital c with
  | false => simp [toLower_of_not_isCapital hc]
  | true => simp

/-- The snake case of the rest of a name, character by character. -/
theorem snakeFrom_eq (before cs : List Char) :
    snakeFrom before.getLast? cs
      = (cs.mapIdx fun i => written (before ++ cs) (before.length + i)).flatten := by
  induction cs generalizing before with
  | nil => rfl
  | cons c cs ih =>
      -- the character moves to what stands before, whose last one the recursion remembers
      have hrest := ih (before ++ [c])
      rw [List.getLast?_concat, List.append_assoc, List.singleton_append, List.length_append,
        List.length_singleton] at hrest
      simp only [snakeFrom_cons, hrest, List.mapIdx_cons, List.flatten_cons, Nat.add_zero,
        Nat.add_assoc, Nat.add_comm 1]

theorem toList_snakeCase (name : String) :
    (snakeCase name).toList = (spelled name.toList).flatten := by
  rw [snakeCase, String.toList_ofList, spelled, ← List.getLast?_nil, snakeFrom_eq]
  simp

/-! ## Underscores -/

section Underscores

variable {name : List Char} {i : Nat}

theorem getElem?_spelled {c : Char} (h : name[i]? = some c) :
    (spelled name)[i]? = some (written name i c) := by
  rw [spelled, List.getElem?_mapIdx, h, Option.map_some]

/-- Something is written for every character, and it ends with the character in lower case. -/
theorem getLast?_written (c : Char) : (written name i c).getLast? = some c.toLower := by
  unfold written
  split <;> rfl

/-- An underscore of the name is written as it is. -/
theorem getElem?_spelled_underscore (h : name[i]? = some '_') :
    (spelled name)[i]? = some ['_'] := by
  have hnot : ¬ IsSeparated name i := by
    rintro ⟨hcapital, -⟩
    rw [h] at hcapital
    exact absurd hcapital (by decide)
  rw [getElem?_spelled h, written, if_neg hnot]
  rfl

/-- An underscore that is put in stands between two characters other than underscores. -/
theorem IsSeparated.between (h : IsSeparated name i) :
    ∃ p c, ((spelled name).take i).flatten.getLast? = some p ∧ p ≠ '_'
      ∧ (spelled name)[i]? = some ['_', c] ∧ c ≠ '_' := by
  have hmark := h
  obtain ⟨hcapital, hpos, hprevious, -⟩ := h
  obtain ⟨c, hc, hcapital⟩ := (Option.any_eq_true _ _).mp hcapital
  have hlt : i - 1 < name.length := by
    have := (List.getElem?_eq_some_iff.mp hc).1
    omega
  obtain ⟨p, hp⟩ : ∃ p, name[i - 1]? = some p := ⟨_, List.getElem?_eq_getElem hlt⟩
  -- the last part written before is that of `p`, and it ends with `p` in lower case
  have htake : (spelled name).take i = (spelled name).take (i - 1) ++ [written name (i - 1) p] := by
    have hsucc : i = i - 1 + 1 := by omega
    conv_lhs => rw [hsucc]
    rw [List.take_add_one, getElem?_spelled hp, Option.toList_some]
  refine ⟨p.toLower, c.toLower, ?_, ?_, ?_, ?_⟩
  · rw [htake, List.flatten_append, List.flatten_singleton, List.getLast?_append,
      getLast?_written, Option.some_or]
  · rw [ne_eq, toLower_eq_underscore_iff]
    rintro rfl
    exact hprevious hp
  · rw [getElem?_spelled hc, written, if_pos hmark]
  · exact bne_iff_ne.mp (toLower_ne_underscore hcapital)

end Underscores

/-- Snake case lowers and separates. No ASCII capital is left. Without underscores, a snake-case
name is the name in lower case without underscores. It is written character by character: each one in
lower case, with an underscore directly before it exactly when it is an ASCII capital that is not
first, has no underscore before it, and has a small ASCII letter before or behind it. So every
underscore of the name is kept, and one that is put in is neither first nor last nor next to
another. The snake case of a snake-case name is that name. -/
theorem snakeCase_separates (name : String) :
    (∀ c ∈ (snakeCase name).toList, isCapital c = false)
      ∧ (snakeCase name).toList.filter (· != '_')
        = (name.toList.map Char.toLower).filter (· != '_')
      ∧ (snakeCase name).toList = (spelled name.toList).flatten
      ∧ (spelled name.toList).length = name.length
      ∧ (∀ (i : Nat) (c : Char), name.toList[i]? = some c → (spelled name.toList)[i]?
        = some (if IsSeparated name.toList i then ['_', c.toLower] else [c.toLower]))
      ∧ (∀ i : Nat, name.toList[i]? = some '_' → (spelled name.toList)[i]? = some ['_'])
      ∧ (∀ i, IsSeparated name.toList i →
        ∃ p c, ((spelled name.toList).take i).flatten.getLast? = some p ∧ p ≠ '_'
          ∧ (spelled name.toList)[i]? = some ['_', c] ∧ c ≠ '_')
      ∧ snakeCase (snakeCase name) = snakeCase name := by
  have hlower : ∀ c ∈ (snakeCase name).toList, isCapital c = false := by
    intro c hc
    rw [snakeCase, String.toList_ofList] at hc
    exact (mem_snakeFrom hc).1
  have hsame : (snakeCase name).toList.map Char.toLower = (snakeCase name).toList :=
    (List.map_congr_left fun c hc => toLower_of_not_isCapital (hlower c hc)).trans (List.map_id _)
  refine ⟨hlower, ?_, toList_snakeCase name, ?_, fun i c hc => getElem?_spelled hc,
    fun i hi => getElem?_spelled_underscore hi, fun i hi => hi.between, ?_⟩
  · calc (snakeCase name).toList.filter (· != '_')
        = letters (snakeCase name).toList := by rw [letters_eq, hsame]
      _ = letters name.toList := by rw [snakeCase, String.toList_ofList, letters_snakeFrom]
      _ = (name.toList.map Char.toLower).filter (· != '_') := letters_eq _
  · rw [spelled, List.length_mapIdx, String.length_toList]
  · -- without capitals there is nothing to separate
    have hkept := snakeFrom_append hlower none []
    rw [List.append_nil, snakeFrom, List.append_nil] at hkept
    rw [snakeCase, hkept, String.ofList_toList]

/-- In a run of capitals only the last one is separated, and an underscore is not doubled. -/
theorem snakeCase_separates_httpServer :
    IsSeparated "HTTPServer_ID".toList 4 ∧ ¬ IsSeparated "HTTPServer_ID".toList 11
      ∧ (∃ p c, ((spelled "HTTPServer_ID".toList).take 4).flatten.getLast? = some p ∧ p ≠ '_'
        ∧ (spelled "HTTPServer_ID".toList)[4]? = some ['_', c] ∧ c ≠ '_')
      ∧ (spelled "HTTPServer_ID".toList)[10]? = some ['_']
      ∧ snakeCase "HTTPServer_ID" = "http_server_id" := by
  obtain ⟨-, -, hspelled, -, -, hkept, hbetween, -⟩ := snakeCase_separates "HTTPServer_ID"
  have hseparated : IsSeparated "HTTPServer_ID".toList 4 := by decide
  have hwritten : (spelled "HTTPServer_ID".toList).flatten = "http_server_id".toList := by decide
  refine ⟨hseparated, by decide, hbetween 4 hseparated, hkept 10 (by decide), ?_⟩
  rw [← String.toList_inj, hspelled, hwritten]

end SchemaEvolution.Naming
