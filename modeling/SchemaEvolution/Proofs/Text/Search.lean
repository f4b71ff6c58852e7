import SchemaEvolution.Text.Search
import Mathlib.Tactic

set_option autoImplicit false

/-! # Replacing a pattern in a text

A replacement goes from one occurrence to the next. It can be cut wherever no occurrence lies across
the cut (`replaceAll_append`), and it leaves a text as it is exactly when the pattern does not occur
or is replaced by itself (`replaceAll_eq_self_iff`). Two texts that are replaced at once, on both
sides of a third, cannot make up for one another (`replaceAll_sides_eq_iff`).
-/

namespace SchemaEvolution.Text

variable {pattern image : List Char}

/-! ## Cutting a replacement -/

theorem replaceFrom_skip (as bs : List Char) :
    replaceFrom pattern image as.length (as ++ bs) = replaceAll pattern image bs := by
  induction as with
  | nil => rfl
  | cons c as ih => exact ih

/-- An occurrence at the front is replaced. -/
theorem replaceAll_pattern_append (h : pattern ≠ []) (bs : List Char) :
    replaceAll pattern image (pattern ++ bs) = image ++ replaceAll pattern image bs := by
  cases pattern with
  | nil => exact absurd rfl h
  | cons c cs =>
      have hfirst : (c :: cs).isPrefixOf (c :: (cs ++ bs)) = true := by
        rw [List.isPrefixOf_iff_prefix]
        exact List.prefix_append (c :: cs) bs
      rw [List.cons_append, replaceAll, replaceFrom, if_pos hfirst, List.length_cons,
        Nat.add_sub_cancel, replaceFrom_skip]

/-- No occurrence of the pattern in `as ++ bs` begins in `as` and ends beyond it. -/
def CutsNone (pattern as bs : List Char) : Prop :=
  ∀ xs ys, as = xs ++ ys → ys ≠ [] → pattern <+: ys ++ bs → pattern <+: ys

theorem replaceFrom_append {as bs : List Char} (hcut : CutsNone pattern as bs) {skip : Nat}
    (hskip : skip ≤ as.length) :
    replaceFrom pattern image skip (as ++ bs)
      = replaceFrom pattern image skip as ++ replaceAll pattern image bs := by
  induction as generalizing skip with
  | nil =>
      rw [Nat.le_zero.mp hskip]
      rfl
  | cons c as ih =>
      have hrest : CutsNone pattern as bs := by
        intro xs ys hsplit
        exact hcut (c :: xs) ys (by rw [hsplit, List.cons_append])
      cases skip with
      | succ n => exact ih hrest (Nat.le_of_succ_le_succ hskip)
      | zero =>
          have hfront := hcut [] (c :: as) rfl (List.cons_ne_nil c as)
          simp only [List.cons_append, replaceFrom, List.isPrefixOf_iff_prefix] at hfront ⊢
          by_cases hoccurs : pattern <+: c :: as
          · have hlength := hoccurs.length_le
            have hwhole : pattern <+: c :: (as ++ bs) :=
              hoccurs.trans (List.prefix_append (c :: as) bs)
            rw [List.length_cons] at hlength
            rw [if_pos hoccurs, if_pos hwhole, ih hrest (by omega), List.append_assoc]
          · rw [if_neg hoccurs, if_neg fun h => hoccurs (hfront h), ih hrest (Nat.zero_le _),
              List.cons_append]

/-- A replacement can be cut where it cuts no occurrence. -/
theorem replaceAll_append {as bs : List Char} (hcut : CutsNone pattern as bs) :
    replaceAll pattern image (as ++ bs)
      = replaceAll pattern image as ++ replaceAll pattern image bs :=
  replaceFrom_append hcut (Nat.zero_le _)

/-- No occurrence reaches over a last character that the pattern lacks. -/
theorem cutsNone_of_getLast? {as : List Char} (h : ∀ c ∈ as.getLast?, c ∉ pattern)
    (bs : List Char) : CutsNone pattern as bs := by
  intro xs ys hsplit hne hoccurs
  rcases List.prefix_or_prefix_of_prefix hoccurs (List.prefix_append ys bs) with hys | hys
  · exact hys
  · have hlast : as.getLast? = some (ys.getLast hne) := by
      rw [hsplit, List.getLast?_append_of_ne_nil xs hne, List.getLast?_eq_some_getLast hne]
    exact absurd (hys.subset (List.getLast_mem hne)) (h _ hlast)

/-- No occurrence reaches a first character that the pattern lacks. -/
theorem cutsNone_of_head? (as : List Char) {bs : List Char} (h : ∀ c ∈ bs.head?, c ∉ pattern) :
    CutsNone pattern as bs := by
  intro xs ys hsplit hne hoccurs
  rcases List.prefix_or_prefix_of_prefix hoccurs (List.prefix_append ys bs) with hys | ⟨rest, hrest⟩
  · exact hys
  · rw [← hrest, List.prefix_append_right_inj] at hoccurs
    cases rest with
    | nil => rw [← hrest, List.append_nil]
    | cons c rest =>
        obtain ⟨bs', rfl⟩ := hoccurs
        refine absurd ?_ (h c rfl)
        rw [← hrest]
        exact List.mem_append_right ys List.mem_cons_self

/-- No occurrence begins in a text without the first character of the pattern. -/
theorem cutsNone_of_not_mem {mark : Char} {rest as : List Char} (h : mark ∉ as)
    (bs : List Char) : CutsNone (mark :: rest) as bs := by
  rintro xs ys rfl hne hoccurs
  cases ys with
  | nil => exact absurd rfl hne
  | cons c ys =>
      rw [List.cons_append, List.cons_prefix_cons] at hoccurs
      rw [hoccurs.1] at h
      exact absurd (List.mem_append_right xs List.mem_cons_self) h

/-! ## Texts that a replacement leaves -/

theorem replaceAll_of_not_infix {text : List Char} (h : ¬ pattern <:+: text) :
    replaceAll pattern image text = text := by
  induction text with
  | nil => rfl
  | cons c cs ih =>
      have hfront : ¬ pattern <+: c :: cs := fun hfirst => h hfirst.isInfix
      have hrest : ¬ pattern <:+: cs := fun hlater =>
        h (hlater.trans (List.suffix_cons c cs).isInfix)
      have hih := ih hrest
      simp only [replaceAll, replaceFrom, List.isPrefixOf_iff_prefix, if_neg hfront] at hih ⊢
      rw [hih]

/-- The first occurrence of a pattern is replaced, and what stands before it is kept. -/
theorem exists_first_of_infix {text : List Char} (hne : pattern ≠ []) (h : pattern <:+: text) :
    ∃ before after, text = before ++ (pattern ++ after)
      ∧ ∀ image, replaceAll pattern image text
        = before ++ (image ++ replaceAll pattern image after) := by
  induction text with
  | nil => exact absurd (List.infix_nil.mp h) hne
  | cons c cs ih =>
      by_cases hfront : pattern <+: c :: cs
      · obtain ⟨after, hafter⟩ := hfront
        refine ⟨[], after, hafter.symm, fun image => ?_⟩
        rw [← hafter, replaceAll_pattern_append hne, List.nil_append]
      · have hlater := (List.infix_cons_iff.mp h).resolve_left hfront
        obtain ⟨before, after, hcs, hreplaced⟩ := ih hlater
        refine ⟨c :: before, after, by rw [hcs, List.cons_append], fun image => ?_⟩
        have hrest := hreplaced image
        simp only [replaceAll, replaceFrom, List.isPrefixOf_iff_prefix, if_neg hfront,
          List.cons_append] at hrest ⊢
        rw [hrest]

section Lengths

variable (hne : pattern ≠ [])

include hne

theorem length_le_replaceFrom (h : pattern.length ≤ image.length) (skip : Nat) (text : List Char) :
    text.length ≤ (replaceFrom pattern image skip text).length + skip := by
  have hpos : 0 < pattern.length := List.length_pos_iff.mpr hne
  induction text generalizing skip with
  | nil => exact Nat.zero_le _
  | cons c cs ih =>
      cases skip with
      | succ n =>
          have := ih n
          simp only [replaceFrom, List.length_cons]
          omega
      | zero =>
          have := ih (pattern.length - 1)
          have := ih 0
          simp only [replaceFrom]
          split <;> simp only [List.length_append, List.length_cons] <;> omega

theorem replaceFrom_length_le (h : image.length ≤ pattern.length) (skip : Nat) {text : List Char}
    (hskip : skip ≤ text.length) :
    (replaceFrom pattern image skip text).length + skip ≤ text.length := by
  have hpos : 0 < pattern.length := List.length_pos_iff.mpr hne
  induction text generalizing skip with
  | nil => simpa [replaceFrom] using hskip
  | cons c cs ih =>
      cases skip with
      | succ n =>
          have := ih n (Nat.le_of_succ_le_succ hskip)
          simp only [replaceFrom, List.length_cons]
          omega
      | zero =>
          simp only [replaceFrom, List.isPrefixOf_iff_prefix]
          split
          · next hoccurs =>
            have hlength := hoccurs.length_le
            rw [List.length_cons] at hlength
            have := ih (pattern.length - 1) (by omega)
            simp only [List.length_append, List.length_cons]
            omega
          · have := ih 0 (Nat.zero_le cs.length)
            simp only [List.length_cons]
            omega

/-- A longer image makes no text shorter and a shorter one no text longer. -/
theorem length_replaceAll (image text : List Char) :
    (pattern.length ≤ image.length → text.length ≤ (replaceAll pattern image text).length)
      ∧ (image.length ≤ pattern.length → (replaceAll pattern image text).length ≤ text.length) :=
  ⟨fun h => length_le_replaceFrom hne h 0 text,
    fun h => replaceFrom_length_le hne h 0 (Nat.zero_le _)⟩

theorem replaceAll_self (text : List Char) : replaceAll pattern pattern text = text := by
  induction h : text.length using Nat.strong_induction_on generalizing text with
  | _ n ih =>
      by_cases hoccurs : pattern <:+: text
      · obtain ⟨before, after, htext, hreplaced⟩ := exists_first_of_infix hne hoccurs
        have hpos : 0 < pattern.length := List.length_pos_iff.mpr hne
        have hshorter : after.length < n := by
          rw [← h, htext, List.length_append, List.length_append]
          omega
        rw [hreplaced, ih after.length hshorter after rfl, ← htext]
      · exact replaceAll_of_not_infix hoccurs

/-- A replacement leaves exactly the texts without the pattern, unless it replaces the pattern by
itself. -/
theorem replaceAll_eq_self_iff (text : List Char) :
    replaceAll pattern image text = text ↔ image = pattern ∨ ¬ pattern <:+: text := by
  constructor
  · intro hself
    by_contra hneither
    obtain ⟨hdiffer, hoccurs⟩ := not_or.mp hneither
    obtain ⟨before, after, htext, hreplaced⟩ := exists_first_of_infix hne (not_not.mp hoccurs)
    rw [hreplaced image, htext] at hself
    have hrest := List.append_cancel_left hself
    -- the two sides are of one length, and so is the rest only if the images are
    have htotal := congrArg List.length hrest
    have hafter := length_replaceAll hne image after
    simp only [List.length_append] at htotal
    have hlength : image.length = pattern.length := by
      rcases Nat.le_total image.length pattern.length with hle | hle
      · have := hafter.2 hle
        omega
      · have := hafter.1 hle
        omega
    exact hdiffer (List.append_inj hrest hlength).1
  · rintro (rfl | habsent)
    · exact replaceAll_self hne text
    · exact replaceAll_of_not_infix habsent

/-- A replacement on both sides of a text leaves both exactly as it leaves each. -/
theorem replaceAll_sides_eq_iff (before middle after : List Char) :
    replaceAll pattern image before ++ (middle ++ replaceAll pattern image after)
        = before ++ (middle ++ after)
      ↔ image = pattern ∨ (¬ pattern <:+: before ∧ ¬ pattern <:+: after) := by
  constructor
  · intro hself
    have htotal := congrArg List.length hself
    simp only [List.length_append] at htotal
    have hbefore := length_replaceAll hne image before
    have hafter := length_replaceAll hne image after
    have hlength : (replaceAll pattern image before).length = before.length := by
      rcases Nat.le_total image.length pattern.length with hle | hle
      · have := hbefore.2 hle
        have := hafter.2 hle
        omega
      · have := hbefore.1 hle
        have := hafter.1 hle
        omega
    obtain ⟨hleft, hright⟩ := List.append_inj hself hlength
    have hright' := List.append_cancel_left hright
    rw [replaceAll_eq_self_iff hne] at hleft hright'
    tauto
  · intro h
    have hleft := (replaceAll_eq_self_iff hne before).mpr (h.imp_right And.left)
    have hright := (replaceAll_eq_self_iff hne after).mpr (h.imp_right And.right)
    rw [hleft, hright]

end Lengths

end SchemaEvolution.Text
