import SchemaEvolution.Template.Segment
import Mathlib.Tactic

set_option autoImplicit false

/-! # One pass over a template

A single pass from left to right tells plain text from quoted spans and comments: in plain text a
quote opens a span, which the same character closes, and two dashes open a comment, which the line
end closes (`modeAt`). Skipping to a word (`lead`) and cleaning a text (`clean`) follow this pass
for as long as they run, and both can be cut where it is cut.
-/

namespace SchemaEvolution.Template

/-- A word character opens nothing, and cleaning keeps it. -/
theorem word_char {c : Char} (hc : isBoundary c = false) :
    isQuote c = false ∧ c ≠ '-' ∧ ¬ c < ' ' := by
  refine ⟨?_, ?_, ?_⟩
  · rw [Bool.eq_false_iff]
    intro hquote
    rw [isQuote, Bool.or_eq_true, beq_iff_eq, beq_iff_eq] at hquote
    rcases hquote with rfl | rfl <;> exact absurd hc (by decide)
  · rintro rfl
    exact absurd hc (by decide)
  · intro hlt
    have hcontrol : ∀ n < 32, isBoundary (Char.ofNat n) = true := by decide +kernel
    have hboundary := hcontrol c.toNat hlt
    rw [Char.ofNat_toNat, hc] at hboundary
    cases hboundary

theorem isBoundary_of_isQuote {c : Char} (hc : isQuote c = true) : isBoundary c = true := by
  rw [isQuote, Bool.or_eq_true, beq_iff_eq, beq_iff_eq] at hc
  rcases hc with rfl | rfl <;> decide

/-! ## The pass -/

/-- Whether a character begins a comment when `rest` follows. -/
def opensComment (c : Char) (rest : List Char) : Bool := c = '-' && rest.head? = some '-'

/-- The mode after a character that `rest` follows. -/
def Mode.after (m : Mode) (c : Char) (rest : List Char) : Mode :=
  match m with
  | .comment => if c = '\n' then .plain else .comment
  | .quoted mark => if c = mark then .plain else .quoted mark
  | .plain => if isQuote c then .quoted c else if opensComment c rest then .comment else .plain

/-- The mode in which a pass over `before ++ after` that starts in mode `m` comes to `after`. -/
def modeAt (m : Mode) : List Char → List Char → Mode
  | [], _ => m
  | c :: before, after => modeAt (m.after c (before ++ after)) before after

theorem modeAt_append (m : Mode) (as bs after : List Char) :
    modeAt m (as ++ bs) after = modeAt (modeAt m as (bs ++ after)) bs after := by
  induction as generalizing m with
  | nil => rfl
  | cons c as ih => rw [List.cons_append, modeAt, modeAt, List.append_assoc, ih]

/-- What follows counts only by the dash that it may begin with. -/
theorem opensComment_append (c : Char) (before : List Char) {after after' : List Char}
    (h : after.head? = some '-' ↔ after'.head? = some '-') :
    opensComment c (before ++ after) = opensComment c (before ++ after') := by
  cases before with
  | nil => simp only [opensComment, List.nil_append, decide_eq_decide.mpr h]
  | cons d before => rfl

theorem after_congr (m : Mode) {c : Char} {rest rest' : List Char}
    (h : opensComment c rest = opensComment c rest') : m.after c rest = m.after c rest' := by
  simp only [Mode.after, h]

theorem modeAt_congr (m : Mode) (before : List Char) {after after' : List Char}
    (h : after.head? = some '-' ↔ after'.head? = some '-') :
    modeAt m before after = modeAt m before after' := by
  induction before generalizing m with
  | nil => rfl
  | cons c before ih =>
      rw [modeAt, modeAt, after_congr m (opensComment_append c before h), ih]

theorem after_word {c : Char} (hc : isBoundary c = false) (rest : List Char) :
    Mode.plain.after c rest = .plain := by
  obtain ⟨hquote, hdash, -⟩ := word_char hc
  simp [Mode.after, opensComment, hquote, hdash]

/-- A span is opened by a quote. -/
theorem isQuote_of_after {m : Mode} (hm : ∀ mark, m = .quoted mark → isQuote mark = true)
    {c mark : Char} {rest : List Char} (h : m.after c rest = .quoted mark) :
    isQuote mark = true := by
  cases m with
  | comment =>
      simp only [Mode.after] at h
      split_ifs at h
  | quoted mark' =>
      simp only [Mode.after] at h
      split_ifs at h
      exact hm mark h
  | plain =>
      simp only [Mode.after] at h
      split_ifs at h with hquote
      cases h
      exact hquote

theorem modeAt_word {word : List Char} (hword : ∀ c ∈ word, isBoundary c = false)
    (after : List Char) : modeAt .plain word after = .plain := by
  induction word with
  | nil => rfl
  | cons c word ih =>
      rw [modeAt, after_word (hword c List.mem_cons_self)]
      exact ih fun d hd => hword d (List.mem_cons_of_mem c hd)

/-! ## Skipping to a word -/

/-- Skipping ends with the line end of a comment or before a word; else it follows the pass. -/
theorem lead_cons (m : Mode) (c : Char) (cs : List Char) :
    (m = .comment ∧ c = '\n' ∧ lead m (c :: cs) = ⟨[c], true, cs⟩)
      ∨ (m = .plain ∧ isBoundary c = false ∧ lead m (c :: cs) = ⟨[], false, c :: cs⟩)
      ∨ ((m = .plain → isBoundary c = true)
        ∧ lead m (c :: cs) = (lead (m.after c cs) cs).cons c) := by
  cases m with
  | comment =>
      by_cases hc : c = '\n'
      · exact .inl ⟨rfl, hc, by rw [lead, if_pos hc]⟩
      · exact .inr (.inr ⟨nofun, by simp only [lead, Mode.after, if_neg hc]⟩)
  | quoted mark => exact .inr (.inr ⟨nofun, rfl⟩)
  | plain =>
      by_cases hword : isBoundary c = false
      · obtain ⟨hquote, hdash, -⟩ := word_char hword
        exact .inr (.inl ⟨rfl, hword, by simp [lead, hquote, hdash, hword]⟩)
      · rw [Bool.not_eq_false] at hword
        refine .inr (.inr ⟨fun _ => hword, ?_⟩)
        rw [lead, ← opensComment]
        cases hquote : isQuote c <;> cases hopens : opensComment c cs <;>
          simp [Mode.after, hquote, hopens, hword]

/-- Skipping that goes past a text follows the pass over it. -/
theorem lead_append_of_lt (m : Mode) (as bs : List Char)
    (h : as.length < (lead m (as ++ bs)).skipped.length) :
    (lead m (as ++ bs)).skipped = as ++ (lead (modeAt m as bs) bs).skipped := by
  induction as generalizing m with
  | nil => rfl
  | cons c as ih =>
      rw [List.cons_append, modeAt]
      rw [List.cons_append] at h
      rcases lead_cons m c (as ++ bs) with ⟨-, -, hlead⟩ | ⟨-, -, hlead⟩ | ⟨-, hlead⟩
      · rw [hlead, List.length_singleton, List.length_cons] at h
        omega
      · rw [hlead] at h
        exact absurd h (Nat.not_lt_zero _)
      · rw [hlead, Lead.cons, List.length_cons, List.length_cons, Nat.add_lt_add_iff_right] at h
        rw [hlead, Lead.cons, ih _ h, List.cons_append]

/-- Before a word, and after the line end of a comment, the text is plain. -/
theorem modeAt_lead (m : Mode) (cs : List Char)
    (h : (lead m cs).lineEnd = true ∨ (lead m cs).rest ≠ []) :
    modeAt m (lead m cs).skipped (lead m cs).rest = .plain := by
  induction cs generalizing m with
  | nil => simp [lead] at h
  | cons c cs ih =>
      rcases lead_cons m c cs with ⟨rfl, rfl, hlead⟩ | ⟨rfl, -, hlead⟩ | ⟨-, hlead⟩
      · rw [hlead]
        rfl
      · rw [hlead]
        rfl
      · rw [hlead] at h ⊢
        have hih := ih (m.after c cs) h
        rw [Lead.cons, modeAt, lead_append]
        exact hih

/-! ## Cleaning -/

/-- What cleaning writes for a character that `rest` follows. -/
def Mode.cleaned (m : Mode) (spaced : Bool) (c : Char) (rest : List Char) : List Char :=
  match m with
  | .comment => []
  | .quoted _ => [c]
  | .plain =>
    if isQuote c then [c]
    else if opensComment c rest then []
    else if c < ' ' then (if spaced then [] else [' '])
    else [c]

/-- Whether a blank for control characters is then the last thing written outside quotes. -/
def Mode.spacedAfter (m : Mode) (spaced : Bool) (c : Char) (rest : List Char) : Bool :=
  match m with
  | .plain => if isQuote c || opensComment c rest then spaced else decide (c < ' ')
  | _ => spaced

theorem cleaned_congr (m : Mode) (spaced : Bool) {c : Char} {rest rest' : List Char}
    (h : opensComment c rest = opensComment c rest') :
    m.cleaned spaced c rest = m.cleaned spaced c rest' := by
  simp only [Mode.cleaned, h]

theorem spacedAfter_congr (m : Mode) (spaced : Bool) {c : Char} {rest rest' : List Char}
    (h : opensComment c rest = opensComment c rest') :
    m.spacedAfter spaced c rest = m.spacedAfter spaced c rest' := by
  simp only [Mode.spacedAfter, h]

theorem clean_cons (m : Mode) (spaced : Bool) (c : Char) (cs : List Char) :
    clean m spaced (c :: cs)
      = m.cleaned spaced c cs ++ clean (m.after c cs) (m.spacedAfter spaced c cs) cs := by
  cases m with
  | comment =>
      simp only [clean, Mode.cleaned, Mode.after, Mode.spacedAfter, List.nil_append]
      split_ifs <;> rfl
  | quoted mark => rfl
  | plain =>
      rw [clean, ← opensComment]
      cases hquote : isQuote c <;> cases hopens : opensComment c cs <;>
        by_cases hcontrol : c < ' ' <;> cases spaced <;>
        simp [Mode.cleaned, Mode.after, Mode.spacedAfter, hquote, hopens, hcontrol]

/-- The pass cuts what cleaning writes, unless a dash follows the cut. -/
theorem clean_append (m : Mode) (spaced : Bool) (as : List Char) {bs : List Char}
    (hbs : bs.head? ≠ some '-') :
    ∃ spaced', clean m spaced (as ++ bs)
      = clean m spaced as ++ clean (modeAt m as bs) spaced' bs := by
  induction as generalizing m spaced with
  | nil => exact ⟨spaced, by simp [clean, modeAt]⟩
  | cons c as ih =>
      have hopens : opensComment c (as ++ bs) = opensComment c as := by
        have hiff : bs.head? = some '-' ↔ ([] : List Char).head? = some '-' := by simp [hbs]
        rw [opensComment_append c as hiff, List.append_nil]
      obtain ⟨spaced', hrest⟩ := ih (m.after c as) (m.spacedAfter spaced c as)
      refine ⟨spaced', ?_⟩
      rw [List.cons_append, clean_cons, clean_cons, modeAt, cleaned_congr m spaced hopens,
        after_congr m hopens, spacedAfter_congr m spaced hopens, hrest, List.append_assoc]

end SchemaEvolution.Template
