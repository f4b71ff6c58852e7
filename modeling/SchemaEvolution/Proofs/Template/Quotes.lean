import SchemaEvolution.Proofs.Template.Pieces

set_option autoImplicit false

/-! # Quoted text in a template

The scanner starts every segment in plain text, and the boundary character that ends a word belongs
to the segment of the word. So a quote directly after a word opens nothing: what follows it is
scanned as plain text, up to a closing quote that then opens a span (`quotes_not_respected`). As
long as every quote and every comment opens apart from a word, the segments begin in the plain text
of one pass over the whole template, no symbol comes from quoted text, and every quoted span is kept
as it is written (`quotes_respected`).
-/

namespace SchemaEvolution.Template

/-- A quoted span between `before` and `after`: a quote in plain text, and what follows up to the
same character, or up to the end when that does not come again. -/
structure QuotedSpan (before span after : List Char) : Prop where
  plain : modeAt .plain before (span ++ after) = .plain
  delimited : ∃ mark body, isQuote mark = true ∧ mark ∉ body
    ∧ (span = mark :: (body ++ [mark]) ∨ span = mark :: body ∧ after = [])

/-- Up to `after`, no quote and no comment opens directly after a word character. -/
def OpensApart (before after : List Char) : Prop :=
  ∀ bs c cs, before = bs ++ c :: cs → modeAt .plain bs (c :: cs ++ after) = .plain →
    Mode.plain.after c (cs ++ after) ≠ .plain → ∀ d ∈ bs.getLast?, isBoundary d = true

/-- It is enough to look at each character. -/
theorem opensApart_iff {before after : List Char} :
    OpensApart before after
      ↔ ∀ i, (hi : i < before.length) →
        modeAt .plain (before.take i) (before.drop i ++ after) = .plain →
        Mode.plain.after before[i] (before.drop (i + 1) ++ after) ≠ .plain →
        (before.take i).getLast?.all isBoundary = true := by
  simp only [Option.all_eq_true]
  constructor
  · intro h i hi hplain
    refine h (before.take i) before[i] (before.drop (i + 1)) ?_ ?_
    · rw [← List.drop_eq_getElem_cons, List.take_append_drop]
    · rwa [← List.drop_eq_getElem_cons]
  · rintro h bs c cs rfl hplain hopens
    have hi := h bs.length (by simp)
    simp only [List.take_left, List.drop_left, List.getElem_append_right,
      Nat.le_refl, Nat.sub_self, List.getElem_cons_zero, ← List.drop_drop, List.drop_one,
      List.tail_cons] at hi
    exact hi hplain hopens

instance (before after : List Char) : Decidable (OpensApart before after) :=
  decidable_of_iff _ opensApart_iff.symm

section Apart

variable {as bs after : List Char}

theorem OpensApart.of_append (h : OpensApart (as ++ bs) after) : OpensApart as (bs ++ after) := by
  intro xs c cs hsplit hplain hopens
  refine h xs c (cs ++ bs) ?_ ?_ ?_
  · rw [hsplit, List.append_assoc, List.cons_append]
  · rwa [← List.cons_append, List.append_assoc]
  · rwa [List.append_assoc]

/-- Behind a part that ends in plain text, openings are apart from words of the rest. -/
theorem OpensApart.drop (h : OpensApart (as ++ bs) after)
    (hplain : modeAt .plain as (bs ++ after) = .plain) : OpensApart bs after := by
  intro xs c cs hsplit hxs hopens d hd
  refine h (as ++ xs) c cs (by rw [hsplit, List.append_assoc]) ?_ hopens d ?_
  · rw [modeAt_append, ← List.append_assoc, ← hsplit, hplain]
    exact hxs
  · cases xs with
    | nil => cases hd
    | cons x xs => rwa [List.getLast?_append_of_ne_nil as (List.cons_ne_nil x xs)]

end Apart

/-! ## Segments begin in plain text -/

section Pieces

variable {cs : List Char}

/-- What stands before the boundary that ends a word ends with a word character. -/
theorem exists_getLast?_word (h : (piece cs).word ≠ []) :
    ∃ d ∈ ((piece cs).skipped ++ (piece cs).word).getLast?, isBoundary d = false := by
  refine ⟨(piece cs).word.getLast h, ?_, piece_word cs _ (List.getLast_mem h)⟩
  rw [List.getLast?_append_of_ne_nil _ h, List.getLast?_eq_some_getLast h]
  rfl

/-- When openings are apart from words, a segment ends in plain text. -/
theorem modeAt_source (hrest : (piece cs).rest ≠ [])
    (hapart : OpensApart (piece cs).source (piece cs).rest) :
    modeAt .plain (piece cs).source (piece cs).rest = .plain := by
  by_cases hword : (piece cs).word = []
  · exact modeAt_source_of_word_eq_nil cs hword hrest
  · have hplain : modeAt .plain ((piece cs).skipped ++ (piece cs).word)
        ((piece cs).closing ++ (piece cs).rest) = .plain := by
      rw [modeAt_append, ← List.append_assoc, modeAt_skipped cs hword, modeAt_word (piece_word cs)]
    rcases piece_closing cs with hclosing | ⟨c, hclosing, -, -⟩
    · rw [Piece.source, hclosing, List.append_nil]
      rwa [hclosing, List.nil_append] at hplain
    · rw [hclosing, List.singleton_append] at hplain
      obtain ⟨d, hd, hboundary⟩ := exists_getLast?_word hword
      rw [Piece.source, hclosing] at hapart ⊢
      rw [modeAt_append, List.singleton_append, hplain, modeAt, List.nil_append, modeAt]
      by_contra hopens
      have hd := hapart _ c [] rfl hplain hopens d hd
      rw [hboundary] at hd
      cases hd

/-- When openings are apart from words, a word stands in plain text. -/
theorem modeAt_word_of_apart {earlier later : List Piece} {p : Piece}
    (hsplit : pieces cs = earlier ++ p :: later) (hword : p.word ≠ [])
    (hapart : OpensApart (earlier.flatMap Piece.source ++ p.skipped)
      (p.word ++ p.closing ++ later.flatMap Piece.source)) :
    modeAt .plain (earlier.flatMap Piece.source ++ p.skipped)
      (p.word ++ p.closing ++ later.flatMap Piece.source) = .plain := by
  induction earlier generalizing cs with
  | nil =>
      obtain ⟨hcs, hp, hrest⟩ := pieces_eq_append hsplit
      rw [List.flatMap_nil, List.nil_append] at hcs ⊢
      rw [← hcs] at hp
      subst hp
      rw [← hrest]
      exact modeAt_skipped cs hword
  | cons q earlier ih =>
      have hne : cs ≠ [] := by
        rintro rfl
        rw [pieces_nil] at hsplit
        cases hsplit
      rw [pieces_of_ne_nil hne, List.cons_append, List.cons.injEq] at hsplit
      obtain ⟨rfl, hsplit⟩ := hsplit
      have hrest : (piece cs).rest = earlier.flatMap Piece.source ++ p.skipped
          ++ (p.word ++ p.closing ++ later.flatMap Piece.source) := by
        rw [(pieces_eq_append hsplit).1, Piece.source]
        simp only [List.append_assoc]
      have hne : (piece cs).rest ≠ [] := by simp [hrest, hword]
      rw [List.flatMap_cons, List.append_assoc] at hapart ⊢
      have hends : modeAt .plain (piece cs).source (piece cs).rest = .plain := by
        refine modeAt_source hne ?_
        rw [hrest]
        exact hapart.of_append
      rw [hrest] at hends
      rw [modeAt_append, hends]
      exact ih hsplit (hapart.drop hends)

end Pieces

/-! ## Quoted spans are kept -/

section Spans

variable {before span after : List Char}

theorem lead_quoted {mark : Char} {body : List Char} (hbody : mark ∉ body) (cs : List Char) :
    (lead (.quoted mark) (body ++ cs)).skipped
      = body ++ (lead (.quoted mark) cs).skipped := by
  induction body with
  | nil => rfl
  | cons c body ih =>
      rw [List.mem_cons, not_or] at hbody
      rw [List.cons_append, lead, if_neg (Ne.symm hbody.1), Lead.cons, ih hbody.2, List.cons_append]

theorem clean_quoted {mark : Char} {body : List Char} (hbody : mark ∉ body) (spaced : Bool)
    (cs : List Char) :
    clean (.quoted mark) spaced (body ++ cs) = body ++ clean (.quoted mark) spaced cs := by
  induction body with
  | nil => rfl
  | cons c body ih =>
      rw [List.mem_cons, not_or] at hbody
      rw [List.cons_append, clean, if_neg (Ne.symm hbody.1), ih hbody.2, List.cons_append]

/-- A span that a segment comes to in plain text belongs to what the segment skips. -/
theorem QuotedSpan.lead (h : QuotedSpan before span after) :
    ∃ tail, (lead .plain (span ++ after)).skipped = span ++ tail := by
  obtain ⟨mark, body, hmark, hbody, rfl | ⟨rfl, rfl⟩⟩ := h.delimited
  · refine ⟨(Template.lead .plain after).skipped, ?_⟩
    simp only [List.cons_append, List.append_assoc, Template.lead, if_pos hmark, Lead.cons,
      lead_quoted hbody, List.nil_append, if_true]
  · refine ⟨[], ?_⟩
    have hskipped := lead_quoted hbody []
    rw [List.append_nil, Template.lead, List.append_nil] at hskipped
    rw [List.append_nil, Template.lead, if_pos hmark, Lead.cons, hskipped]

/-- Cleaning keeps a span that it comes to in plain text. -/
theorem QuotedSpan.clean (h : QuotedSpan before span after) (spaced : Bool) (cs : List Char) :
    ∃ tail, clean .plain spaced (span ++ cs) = span ++ tail := by
  obtain ⟨mark, body, hmark, hbody, rfl | ⟨rfl, rfl⟩⟩ := h.delimited
  · refine ⟨Template.clean .plain spaced cs, ?_⟩
    simp only [List.cons_append, List.append_assoc, Template.clean, if_pos hmark,
      clean_quoted hbody, List.nil_append, if_true]
  · refine ⟨Template.clean (.quoted mark) spaced cs, ?_⟩
    rw [List.cons_append, Template.clean, if_pos hmark, clean_quoted hbody, List.cons_append]

theorem QuotedSpan.exists_cons (h : QuotedSpan before span after) :
    ∃ mark tail, span = mark :: tail ∧ isQuote mark = true := by
  obtain ⟨mark, body, hmark, -, rfl | ⟨rfl, -⟩⟩ := h.delimited
  · exact ⟨mark, _, rfl, hmark⟩
  · exact ⟨mark, _, rfl, hmark⟩

theorem QuotedSpan.opens (h : QuotedSpan before span after) {mark : Char} {tail : List Char}
    (hspan : span = mark :: tail) : Mode.plain.after mark (tail ++ after) ≠ .plain := by
  obtain ⟨mark', tail', hspan', hmark⟩ := h.exists_cons
  rw [hspan, List.cons.injEq] at hspan'
  rw [hspan'.1, Mode.after, if_pos hmark]
  exact Mode.noConfusion

/-- A quote that opens apart from words does not stand at the end of one. -/
theorem QuotedSpan.before_ne_word (h : QuotedSpan before span after)
    (hapart : OpensApart (before ++ span) after) (cs : List Char) (hword : (piece cs).word ≠ []) :
    before ≠ (piece cs).skipped ++ (piece cs).word := by
  intro hbefore
  obtain ⟨mark, tail, hspan, -⟩ := h.exists_cons
  obtain ⟨d, hd, hboundary⟩ := exists_getLast?_word hword
  have hplain := h.plain
  rw [hspan] at hapart hplain
  rw [← hbefore] at hd
  rw [hapart before mark tail rfl hplain (h.opens hspan) d hd] at hboundary
  cases hboundary

/-- A span that begins in a segment begins before its word, when it opens apart from words. -/
theorem QuotedSpan.length_lt_skipped (h : QuotedSpan before span after)
    (hapart : OpensApart (before ++ span) after)
    (hlt : before.length < (piece (before ++ (span ++ after))).source.length) :
    before.length < (piece (before ++ (span ++ after))).skipped.length := by
  obtain ⟨mark, tail, hspan, hmark⟩ := h.exists_cons
  have hwhole := piece_append (before ++ (span ++ after))
  by_contra hge
  obtain ⟨inner, hbefore⟩ : (piece (before ++ (span ++ after))).skipped <+: before := by
    rw [Piece.source, List.append_assoc, List.append_assoc] at hwhole
    exact List.prefix_of_prefix_length_le ⟨_, hwhole⟩ (List.prefix_append before _)
      (Nat.not_lt.mp hge)
  -- the quote would end the word
  have hcs : before ++ (span ++ after)
      = (piece (before ++ (span ++ after))).skipped ++ (inner ++ mark :: (tail ++ after)) := by
    rw [← List.append_assoc _ inner, hbefore, hspan, List.cons_append]
  obtain ⟨hword, hinner⟩ := word_of_boundary hcs (isBoundary_of_isQuote hmark) (by rwa [hbefore])
  exact h.before_ne_word hapart _ hword (by rw [← hinner, hbefore])

/-- Cleaning the segment in which a span begins keeps the span. -/
theorem QuotedSpan.infix_text (h : QuotedSpan before span after)
    (hlt : before.length < (piece (before ++ (span ++ after))).skipped.length) :
    span <:+: (piece (before ++ (span ++ after))).text := by
  obtain ⟨mark, rest, hspan, hmark⟩ := h.exists_cons
  have hdash : ∀ cs, (span ++ cs).head? ≠ some '-' := by
    rintro cs hhead
    rw [hspan, List.cons_append, List.head?_cons, Option.some.injEq] at hhead
    rw [hhead] at hmark
    exact absurd hmark (by decide)
  obtain ⟨tail, htail⟩ := h.lead
  rw [piece_skipped] at hlt
  have hskipped := lead_append_of_lt .plain before (span ++ after) hlt
  rw [h.plain, htail, ← piece_skipped] at hskipped
  generalize piece (before ++ (span ++ after)) = p at hskipped ⊢
  have hsource : p.source = before ++ (span ++ (tail ++ p.word ++ p.closing)) := by
    rw [Piece.source, hskipped]
    simp only [List.append_assoc]
  have hplain : modeAt .plain before (span ++ (tail ++ p.word ++ p.closing)) = .plain :=
    (modeAt_congr .plain before (iff_of_false (hdash _) (hdash _))).trans h.plain
  obtain ⟨spaced, hclean⟩ := clean_append .plain false before (hdash (tail ++ p.word ++ p.closing))
  obtain ⟨tail', hspan'⟩ := h.clean spaced (tail ++ p.word ++ p.closing)
  refine ⟨Template.clean .plain false before, tail', ?_⟩
  rw [Piece.text, hsource, hclean, hplain, hspan', List.append_assoc]

/-- A span that opens apart from words, as everything before it does, is kept. -/
theorem infix_of_quotedSpan {cs : List Char} (hcs : cs = before ++ (span ++ after))
    (h : QuotedSpan before span after) (hapart : OpensApart (before ++ span) after) :
    span <:+: (pieces cs).flatMap Piece.text := by
  fun_induction pieces cs generalizing before with
  | case1 =>
      obtain ⟨mark, tail, rfl, -⟩ := h.exists_cons
      simp at hcs
  | case2 cs hne ih =>
      rw [List.flatMap_cons]
      by_cases hlt : before.length < (piece cs).source.length
      · -- the span begins in this segment
        subst hcs
        have hkept := h.infix_text (h.length_lt_skipped hapart hlt)
        exact hkept.trans (List.prefix_append _ _).isInfix
      · -- the segment ends in plain text, and the span stands in the rest
        have hwhole := piece_append cs
        have hsource : (piece cs).source <+: cs := ⟨_, hwhole⟩
        have hfits : (piece cs).source <+: before := by
          refine List.prefix_of_prefix_length_le hsource ?_ (Nat.not_lt.mp hlt)
          exact ⟨_, hcs.symm⟩
        obtain ⟨inner, rfl⟩ := hfits
        have hrest : (piece cs).rest = inner ++ span ++ after :=
          List.append_cancel_left (hwhole.trans (hcs.trans (by simp only [List.append_assoc])))
        have hspan : span ≠ [] := by
          obtain ⟨mark, tail, rfl, -⟩ := h.exists_cons
          exact List.cons_ne_nil mark tail
        rw [List.append_assoc] at hapart
        have hends : modeAt .plain (piece cs).source (inner ++ span ++ after) = .plain := by
          have hapart' := hapart.of_append
          rw [← hrest] at hapart' ⊢
          exact modeAt_source (by simp [hrest, hspan]) hapart'
        have hplain := h.plain
        rw [modeAt_append, ← List.append_assoc, hends] at hplain
        have hkept := ih (by rw [hrest, List.append_assoc]) ⟨hplain, h.delimited⟩
          (hapart.drop hends)
        exact hkept.trans (List.suffix_append _ _).isInfix

end Spans

/-! ## The scanner and the pass -/

/-- The scanner respects quoted text as far as quotes and comments open apart from words. The
segments are those of the pieces that the template is cut into. The word of a piece stands in plain
text and holds no quote, unless a quote or a comment opens directly after a word before it. And a
quoted span stands in the texts of the segments as it is written, unless such a quote or comment
opens before it or the span itself opens so. -/
theorem quotes_respected (query : String) :
    segments query = segmentsOf 0 (pieces query.toList)
      ∧ (∀ earlier p later, pieces query.toList = earlier ++ p :: later → symbolOf p.word ≠ none →
        OpensApart (earlier.flatMap Piece.source ++ p.skipped)
          (p.word ++ p.closing ++ later.flatMap Piece.source) →
        modeAt .plain (earlier.flatMap Piece.source ++ p.skipped)
            (p.word ++ p.closing ++ later.flatMap Piece.source) = .plain
          ∧ ∀ c ∈ p.word, isQuote c = false)
      ∧ ∀ before span after, query.toList = before ++ (span ++ after) →
        QuotedSpan before span after → OpensApart (before ++ span) after →
        span <:+: (segments query).flatMap (·.text.toList) := by
  refine ⟨segments_eq query, ?_, ?_⟩
  · intro earlier p later hsplit hsymbol hapart
    have hword : p.word ≠ [] := by
      intro hnil
      rw [hnil] at hsymbol
      exact hsymbol rfl
    refine ⟨modeAt_word_of_apart hsplit hword hapart, fun c hc => ?_⟩
    obtain ⟨-, hp, -⟩ := pieces_eq_append hsplit
    rw [← hp] at hc
    exact (word_char (piece_word _ c hc)).1
  · intro before span after hquery hspan hapart
    rw [segments_eq, flatMap_text_segmentsOf]
    exact infix_of_quotedSpan hquery hspan hapart

/-- A quoted span behind a blank. -/
theorem quotes_respected_after_blank :
    QuotedSpan "x = ".toList "':ID'".toList " + :ID".toList
      ∧ OpensApart ("x = ".toList ++ "':ID'".toList) " + :ID".toList
      ∧ "':ID'".toList <:+: (segments "x = ':ID' + :ID").flatMap (·.text.toList) := by
  have hspan : QuotedSpan "x = ".toList "':ID'".toList " + :ID".toList :=
    ⟨by decide, '\'', ":ID".toList, by decide, by decide, .inl rfl⟩
  have hapart : OpensApart ("x = ".toList ++ "':ID'".toList) " + :ID".toList := by decide +kernel
  exact ⟨hspan, hapart, (quotes_respected "x = ':ID' + :ID").2.2 _ _ _ (by decide) hspan hapart⟩

/-- Quoted text is not respected behind a word: the symbol of a segment is quoted text, and control
characters of a quoted span are not kept. -/
theorem quotes_not_respected :
    (∃ earlier p later, pieces "E':ID'".toList = earlier ++ p :: later
        ∧ symbolOf p.word = some ":ID".toList
        ∧ modeAt .plain (earlier.flatMap Piece.source ++ p.skipped)
            (p.word ++ p.closing ++ later.flatMap Piece.source) = .quoted '\'')
      ∧ QuotedSpan "N".toList "'a\t'".toList []
      ∧ ¬ "'a\t'".toList <:+: (segments "N'a\t'").flatMap (·.text.toList) := by
  refine ⟨⟨[⟨[], ['E'], ['\''], ":ID'".toList⟩], ⟨[], ":ID".toList, ['\''], []⟩, [], ?_, ?_, ?_⟩,
    ⟨by decide, '\'', "a\t".toList, by decide, by decide, .inl rfl⟩, ?_⟩
  · decide +kernel
  · decide +kernel
  · decide +kernel
  · decide +kernel

end SchemaEvolution.Template
