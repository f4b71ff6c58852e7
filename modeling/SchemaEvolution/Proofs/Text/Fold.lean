import SchemaEvolution.Text.Case
import Mathlib.Tactic

set_option autoImplicit false

/-! # Names up to case

`lowercase` is idempotent and `sameFold` is equality of lower-case forms, on the ASCII path as on
the general one (`sameFold_iff`). So names up to case are an equivalence, and a name that is in
lower case already can be compared by its text. The case tables enter through finite checks only: on
the sets of their code points (`lowerCodes_and_lowerImages`, `dottedI_not_image`) and on the ASCII
characters (`ascii_forall`).
-/

namespace SchemaEvolution.Text

/-! ## The lower-case map on code points -/

/-- The union of sets of code points, each the number with its bits set at the members. -/
def union (sets : List Nat) : Nat := sets.foldr (· ||| ·) 0

theorem testBit_union {sets : List Nat} {s n : Nat} (hs : s ∈ sets) (hn : s.testBit n = true) :
    (union sets).testBit n = true := by
  induction sets with
  | nil => exact absurd hs List.not_mem_nil
  | cons t sets ih =>
      have hor : union (t :: sets) = t ||| union sets := rfl
      rw [hor, Nat.testBit_or, Bool.or_eq_true]
      rcases List.mem_cons.mp hs with rfl | hs
      · exact Or.inl hn
      · exact Or.inr (ih hs)

/-- The set `start, start + step, …` with as many members as the run. -/
def CaseRun.setFrom (r : CaseRun) (start : Nat) : Nat :=
  union ((List.range ((r.last - r.first) / r.step + 1)).map fun i => 2 ^ (start + r.step * i))

theorem CaseRun.testBit_setFrom (r : CaseRun) (start : Nat) {n : Nat} (h : r.covers n = true) :
    (r.setFrom start).testBit (start + (n - r.first)) = true := by
  simp only [covers, Bool.and_eq_true, decide_eq_true_eq, beq_iff_eq] at h
  obtain ⟨⟨hfirst, hlast⟩, hstep⟩ := h
  have hdiv : r.step * ((n - r.first) / r.step) = n - r.first :=
    Nat.mul_div_cancel' (Nat.dvd_of_mod_eq_zero hstep)
  have hle : (n - r.first) / r.step ≤ (r.last - r.first) / r.step :=
    Nat.div_le_div_right (by omega)
  refine testBit_union (s := 2 ^ (start + (n - r.first))) ?_ Nat.testBit_two_pow_self
  rw [List.mem_map]
  exact ⟨(n - r.first) / r.step, List.mem_range.mpr (by omega), by rw [hdiv]⟩

/-- The code points of the lower-case runs, and their images. -/
def lowerCodes : Nat := union (lowerRuns.map fun r => r.setFrom r.first)

def lowerImages : Nat := union (lowerRuns.map fun r => r.setFrom r.image)

-- One intersection instead of a test for each pair of runs.
theorem lowerCodes_and_lowerImages : lowerCodes &&& lowerImages = 0 := by
  decide +kernel

theorem testBit_lowerCodes {r : CaseRun} (hr : r ∈ lowerRuns) {n : Nat} (h : r.covers n = true) :
    lowerCodes.testBit n = true := by
  have hbit := testBit_union
    (List.mem_map_of_mem (f := fun r => CaseRun.setFrom r r.first) hr) (r.testBit_setFrom r.first h)
  have hn : r.first + (n - r.first) = n := by
    simp only [CaseRun.covers, Bool.and_eq_true, decide_eq_true_eq] at h
    omega
  rwa [hn] at hbit

theorem testBit_lowerImages {r : CaseRun} (hr : r ∈ lowerRuns) {n : Nat} (h : r.covers n = true) :
    lowerImages.testBit (r.apply n) = true :=
  testBit_union (List.mem_map_of_mem (f := fun r => CaseRun.setFrom r r.image) hr)
    (r.testBit_setFrom r.image h)

/-- No image is a code point of a run. -/
theorem not_covers_apply {r s : CaseRun} (hr : r ∈ lowerRuns) (hs : s ∈ lowerRuns) {n : Nat}
    (h : r.covers n = true) : s.covers (r.apply n) = false := by
  rw [← Bool.not_eq_true]
  intro hc
  have hboth : (lowerCodes &&& lowerImages).testBit (r.apply n) = true := by
    rw [Nat.testBit_and, testBit_lowerCodes hs hc, testBit_lowerImages hr h]
    rfl
  rw [lowerCodes_and_lowerImages, Nat.zero_testBit] at hboth
  exact Bool.noConfusion hboth

/-- A code point outside every run stays. -/
theorem mapCode_of_not_covers {runs : List CaseRun} {n : Nat}
    (h : ∀ r ∈ runs, r.covers n = false) : mapCode runs n = n := by
  have hnone : runs.find? (·.covers n) = none := by
    rw [List.find?_eq_none]
    intro r hr
    simp [h r hr]
  simp [mapCode, hnone]

/-- The lower case of a code point lies in no run, or it is the code point itself. -/
theorem mapCode_lowerRuns_cases (n : Nat) :
    mapCode lowerRuns n = n
      ∨ ∃ r ∈ lowerRuns, r.covers n = true ∧ mapCode lowerRuns n = r.apply n := by
  unfold mapCode
  cases hf : lowerRuns.find? (·.covers n) with
  | none => exact Or.inl rfl
  | some r =>
      have hcovers := List.find?_some hf
      exact Or.inr ⟨r, List.mem_of_find?_eq_some hf, hcovers, rfl⟩

theorem mapCode_mapCode (n : Nat) :
    mapCode lowerRuns (mapCode lowerRuns n) = mapCode lowerRuns n := by
  rcases mapCode_lowerRuns_cases n with h | ⟨r, hr, hc, h⟩
  · rw [h, h]
  · rw [h]
    exact mapCode_of_not_covers fun s hs => not_covers_apply hr hs hc

/-! ## Settled characters -/

/-- The character is its own lower case wherever it stands. -/
def Settled (c : Char) : Prop := c ≠ 'Σ' ∧ lowerChar c = [c]

theorem dottedI_not_image : lowerImages.testBit 0x130 = false := by
  decide +kernel

theorem mapCode_ne_dottedI {n : Nat} (h : n ≠ 0x130) : mapCode lowerRuns n ≠ 0x130 := by
  rcases mapCode_lowerRuns_cases n with hn | ⟨r, hr, hc, hn⟩
  · rwa [hn]
  · rw [hn]
    intro heq
    have hbit := testBit_lowerImages hr hc
    rw [heq, dottedI_not_image] at hbit
    exact Bool.noConfusion hbit

theorem toNat_ofNat_cases (n : Nat) : (Char.ofNat n).toNat = n ∨ (Char.ofNat n).toNat = 0 := by
  by_cases h : n.isValidChar
  · rw [Char.ofNat, dif_pos h]
    exact Or.inl rfl
  · rw [Char.ofNat, dif_neg h]
    exact Or.inr rfl

/-- A code point that the lower-case map fixes belongs to a settled character. -/
theorem settled_of_mapCode {c : Char} (hd : c.toNat ≠ 0x130)
    (h : mapCode lowerRuns c.toNat = c.toNat) : Settled c := by
  refine ⟨?_, ?_⟩
  · rintro rfl
    exact absurd h (by decide)
  · have hne : c ≠ 'İ' := by
      rintro rfl
      exact hd rfl
    rw [lowerChar, if_neg hne, h, Char.ofNat_toNat]

theorem settled_lowerChar (c : Char) : ∀ d ∈ lowerChar c, Settled d := by
  intro d hd
  unfold lowerChar at hd
  split at hd
  · simp only [List.mem_cons, List.not_mem_nil, or_false] at hd
    rcases hd with rfl | rfl
    · exact settled_of_mapCode (by decide) (by decide)
    · exact settled_of_mapCode (by decide) (by decide)
  · next hne =>
    rw [List.mem_singleton] at hd
    subst hd
    have hcode : c.toNat ≠ 0x130 := by
      intro h
      exact hne (Char.toNat_inj.mp h)
    rcases toNat_ofNat_cases (mapCode lowerRuns c.toNat) with h | h
    · refine settled_of_mapCode ?_ ?_
      · rw [h]
        exact mapCode_ne_dottedI hcode
      · rw [h, mapCode_mapCode]
    · refine settled_of_mapCode ?_ ?_
      · rw [h]
        decide
      · rw [h]
        decide

theorem settled_lowerFrom (before cs : List Char) : ∀ d ∈ lowerFrom before cs, Settled d := by
  induction cs generalizing before with
  | nil => simp [lowerFrom]
  | cons c cs ih =>
      intro d hd
      rw [lowerFrom, List.mem_append] at hd
      rcases hd with hd | hd
      · split at hd
        · -- either form of sigma is settled
          split at hd <;> rw [List.mem_singleton] at hd <;> subst hd <;>
            exact settled_of_mapCode (by decide) (by decide)
        · exact settled_lowerChar c d hd
      · exact ih (c :: before) d hd

/-- A text of settled characters is in lower case. -/
theorem lowerFrom_of_settled {cs : List Char} (before : List Char) (h : ∀ c ∈ cs, Settled c) :
    lowerFrom before cs = cs := by
  induction cs generalizing before with
  | nil => rfl
  | cons c cs ih =>
      have hc := h c (by simp)
      rw [lowerFrom, if_neg hc.1, hc.2, ih (c :: before) fun d hd => h d (by simp [hd])]
      rfl

/-- Lower-casing twice is lower-casing once. -/
@[simp] theorem lowercase_lowercase (s : String) : lowercase (lowercase s) = lowercase s := by
  unfold lowercase
  rw [String.toList_ofList, lowerFrom_of_settled [] (settled_lowerFrom [] s.toList)]

/-! ## ASCII letters -/

/-- A property of the code points below 128 is one of the ASCII characters. -/
theorem ascii_forall {P : Char → Prop} (h : ∀ n < 128, P (Char.ofNat n)) {c : Char}
    (hc : isAscii c = true) : P c := by
  have hn : c.toNat < 128 := by simpa [isAscii] using hc
  have := h c.toNat hn
  rwa [Char.ofNat_toNat] at this

theorem isAscii_toLower {c : Char} (h : isAscii c = true) : isAscii c.toLower = true :=
  ascii_forall (P := fun c => isAscii c.toLower = true) (by decide) h

theorem toLower_toLower {c : Char} (h : isAscii c = true) : c.toLower.toLower = c.toLower :=
  ascii_forall (P := fun c => c.toLower.toLower = c.toLower) (by decide) h

/-- The only run of ASCII code points is the first one. -/
theorem lowerRuns_tail : ∀ r ∈ lowerRuns.tail, 128 ≤ r.first := by
  decide +kernel

theorem mapCode_ascii {n : Nat} (h : n < 128) :
    mapCode lowerRuns n = if 0x41 ≤ n ∧ n ≤ 0x5A then n + 0x20 else n := by
  have htail : lowerRuns.tail.find? (·.covers n) = none := by
    rw [List.find?_eq_none]
    intro r hr
    have hle := lowerRuns_tail r hr
    simp only [CaseRun.covers, Bool.and_eq_true, decide_eq_true_eq, beq_iff_eq]
    omega
  have hruns : lowerRuns = ⟨0x41, 0x5A, 1, 0x61⟩ :: lowerRuns.tail := rfl
  rw [mapCode, hruns, List.find?_cons]
  by_cases hn : 0x41 ≤ n ∧ n ≤ 0x5A
  · have hcov : CaseRun.covers ⟨0x41, 0x5A, 1, 0x61⟩ n = true := by
      simp [CaseRun.covers, hn, Nat.mod_one]
    rw [hcov, if_pos hn]
    show 0x61 + (n - 0x41) = n + 0x20
    omega
  · have hcov : CaseRun.covers ⟨0x41, 0x5A, 1, 0x61⟩ n = false := by
      simp only [CaseRun.covers, Bool.and_eq_false_iff, decide_eq_false_iff_not]
      omega
    rw [hcov, if_neg hn, htail]

theorem lowerChar_of_isAscii {c : Char} (h : isAscii c = true) :
    lowerChar c = [c.toLower] ∧ c ≠ 'Σ' := by
  have hn : c.toNat < 128 := by simpa [isAscii] using h
  have hcode : Char.ofNat (if 0x41 ≤ c.toNat ∧ c.toNat ≤ 0x5A then c.toNat + 0x20 else c.toNat)
      = c.toLower :=
    ascii_forall (P := fun c => Char.ofNat
      (if 0x41 ≤ c.toNat ∧ c.toNat ≤ 0x5A then c.toNat + 0x20 else c.toNat) = c.toLower)
      (by decide) h
  refine ⟨?_, ?_⟩
  · have hne : c ≠ 'İ' := by
      rintro rfl
      exact absurd hn (by decide)
    rw [lowerChar, if_neg hne, mapCode_ascii hn, hcode]
  · rintro rfl
    exact absurd hn (by decide)

/-- Only the ranges that begin below 128 decide about an ASCII code point. -/
theorem inRanges_ascii (ranges : List (Nat × Nat)) {n : Nat} (h : n < 128) :
    inRanges ranges n = inRanges (ranges.filter fun r => r.1 < 128) n := by
  induction ranges with
  | nil => rfl
  | cons r rs ih =>
      unfold inRanges at ih ⊢
      rw [List.any_cons, List.filter_cons, ih]
      by_cases hr : r.1 < 128
      · simp [hr]
      · have hout : ¬ r.1 ≤ n := by omega
        simp [hr, hout]

theorem isCased_ascii {c : Char} (h : isAscii c = true) :
    isCased c = inRanges [(0x41, 0x5A), (0x61, 0x7A)] c.toNat := by
  have hranges : casedRanges.filter (fun r => r.1 < 128) = [(0x41, 0x5A), (0x61, 0x7A)] := by
    decide
  rw [isCased, inRanges_ascii casedRanges (by simpa [isAscii] using h), hranges]

/-- The ASCII characters that a test for the end of a word skips: `'`, `.`, `:`, `^` and the
backquote. -/
theorem isIgnorable_ascii {c : Char} (h : isAscii c = true) :
    isIgnorable c = inRanges [(0x27, 0x27), (0x2E, 0x2E), (0x3A, 0x3A), (0x5E, 0x5E), (0x60, 0x60)]
      c.toNat := by
  have hranges : ignorableRanges.filter (fun r => r.1 < 128)
      = [(0x27, 0x27), (0x2E, 0x2E), (0x3A, 0x3A), (0x5E, 0x5E), (0x60, 0x60)] := by
    decide
  rw [isIgnorable, inRanges_ascii ignorableRanges (by simpa [isAscii] using h), hranges]

theorem isCased_toLower {c : Char} (h : isAscii c = true) : isCased c.toLower = isCased c := by
  rw [isCased_ascii h, isCased_ascii (isAscii_toLower h)]
  exact ascii_forall (P := fun c => inRanges _ c.toLower.toNat = inRanges _ c.toNat)
    (by decide) h

theorem isIgnorable_toLower {c : Char} (h : isAscii c = true) :
    isIgnorable c.toLower = isIgnorable c := by
  rw [isIgnorable_ascii h, isIgnorable_ascii (isAscii_toLower h)]
  exact ascii_forall (P := fun c => inRanges _ c.toLower.toNat = inRanges _ c.toNat)
    (by decide) h

theorem toLower_of_not_isAscii {c : Char} (h : isAscii c = false) : c.toLower = c := by
  have hn : 128 ≤ c.toNat := by simpa [isAscii] using h
  have hv : ¬ (c.val ≥ 'A'.val ∧ c.val ≤ 'Z'.val) := by
    rintro ⟨-, hle⟩
    have : c.toNat ≤ 90 := hle
    omega
  unfold Char.toLower
  rw [dif_neg hv]

/-- What the lower-case map sees of a character is the same for an ASCII capital and its small
letter. -/
theorem class_toLower (c : Char) :
    isCased c.toLower = isCased c ∧ isIgnorable c.toLower = isIgnorable c
      ∧ lowerChar c.toLower = lowerChar c ∧ (c.toLower = 'Σ' ↔ c = 'Σ') := by
  cases h : isAscii c with
  | true =>
      obtain ⟨hlower, hne⟩ := lowerChar_of_isAscii h
      obtain ⟨hlower', hne'⟩ := lowerChar_of_isAscii (isAscii_toLower h)
      refine ⟨isCased_toLower h, isIgnorable_toLower h, ?_, iff_of_false hne' hne⟩
      rw [hlower, hlower', toLower_toLower h]
  | false =>
      rw [toLower_of_not_isAscii h]
      exact ⟨rfl, rfl, rfl, Iff.rfl⟩

theorem meetsCased_map_toLower (cs : List Char) :
    meetsCased (cs.map Char.toLower) = meetsCased cs := by
  induction cs with
  | nil => rfl
  | cons c cs ih =>
      obtain ⟨hcased, hign, -, -⟩ := class_toLower c
      unfold meetsCased at ih ⊢
      rw [List.map_cons, List.dropWhile_cons, List.dropWhile_cons, hign]
      cases isIgnorable c with
      | true => exact ih
      | false => exact hcased

theorem lowerFrom_map_toLower (before cs : List Char) :
    lowerFrom (before.map Char.toLower) (cs.map Char.toLower) = lowerFrom before cs := by
  induction cs generalizing before with
  | nil => rfl
  | cons c cs ih =>
      obtain ⟨-, -, hlower, hsigma⟩ := class_toLower c
      rw [List.map_cons, lowerFrom, lowerFrom, hlower]
      -- a sigma sees its neighbours through their classes only
      have hword : endsWord (before.map Char.toLower) (cs.map Char.toLower)
          = endsWord before cs := by
        simp only [endsWord, meetsCased_map_toLower]
      simp only [hsigma, hword]
      rw [← ih (c :: before), List.map_cons]

theorem lowerFrom_of_isAscii {cs : List Char} (before : List Char)
    (h : cs.all isAscii = true) : lowerFrom before cs = cs.map Char.toLower := by
  induction cs generalizing before with
  | nil => rfl
  | cons c cs ih =>
      rw [List.all_cons, Bool.and_eq_true] at h
      obtain ⟨hlower, hne⟩ := lowerChar_of_isAscii h.1
      rw [lowerFrom, if_neg hne, hlower, ih (c :: before) h.2]
      rfl

/-- Texts that differ in the case of ASCII letters only have one lower-case form. -/
theorem lowercase_eq_of_sameAsciiFold {a b : String} (h : sameAsciiFold a b = true) :
    lowercase a = lowercase b := by
  have hmap : a.toList.map Char.toLower = b.toList.map Char.toLower := by
    simpa [sameAsciiFold] using h
  have hlower : lowerFrom [] a.toList = lowerFrom [] b.toList :=
    calc lowerFrom [] a.toList
        = lowerFrom [] (a.toList.map Char.toLower) := (lowerFrom_map_toLower [] a.toList).symm
      _ = lowerFrom [] (b.toList.map Char.toLower) := by rw [hmap]
      _ = lowerFrom [] b.toList := lowerFrom_map_toLower [] b.toList
  rw [lowercase, hlower, lowercase]

/-! ## Names up to case -/

/-- Names are the same up to case when their lower-case forms are. -/
theorem sameFold_iff {a b : String} : sameFold a b = true ↔ lowercase a = lowercase b := by
  unfold sameFold
  split
  · next h =>
    rw [Bool.and_eq_true] at h
    constructor
    · exact lowercase_eq_of_sameAsciiFold
    · intro heq
      unfold lowercase at heq
      rw [lowerFrom_of_isAscii [] h.1, lowerFrom_of_isAscii [] h.2] at heq
      simpa [sameAsciiFold] using String.ofList_injective heq
  · exact beq_iff_eq

theorem sameFold_of_sameAsciiFold {a b : String} (h : sameAsciiFold a b = true) :
    sameFold a b = true :=
  sameFold_iff.mpr (lowercase_eq_of_sameAsciiFold h)

@[simp] theorem sameFold_refl (a : String) : sameFold a a = true := sameFold_iff.mpr rfl

theorem sameFold_comm (a b : String) : sameFold a b = sameFold b a := by
  rw [Bool.eq_iff_iff, sameFold_iff, sameFold_iff]
  exact eq_comm

theorem sameFold_symm {a b : String} (h : sameFold a b = true) : sameFold b a = true := by
  rwa [sameFold_comm]

theorem sameFold_trans {a b c : String} (hab : sameFold a b = true) (hbc : sameFold b c = true) :
    sameFold a c = true :=
  sameFold_iff.mpr ((sameFold_iff.mp hab).trans (sameFold_iff.mp hbc))

@[simp] theorem sameFold_lowercase_right (a b : String) :
    sameFold a (lowercase b) = sameFold a b := by
  rw [Bool.eq_iff_iff, sameFold_iff, sameFold_iff, lowercase_lowercase]

end SchemaEvolution.Text
