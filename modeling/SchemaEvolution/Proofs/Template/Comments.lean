import SchemaEvolution.Proofs.Template.Quotes

set_option autoImplicit false

/-! # Comments in a template

A comment runs from two dashes in plain text through the next line end; the text without its
comments is what one pass over the whole template finds outside them (`bare`). The scanner takes the
boundary character that ends a word as part of the segment of the word, so it does not see a comment
whose first dash stands directly behind a word (`comments_not_removed`).

In a template without quotes, whose control characters are the line ends of comments, nothing else
goes wrong: the scanner never takes for a comment what the pass keeps (`Mode.Behind`), so all text
outside comments is kept, and the comments are removed exactly when each of them opens apart from a
word (`comments_removed_iff`).
-/

namespace SchemaEvolution.Template

/-- A text without quotes, as a pass that comes to it in mode `m` meets it, whose control characters
are line ends that close comments. -/
def Unquoted (m : Mode) : List Char → Prop
  | [] => True
  | c :: cs => isQuote c = false ∧ (c < ' ' → c = '\n' ∧ m = .comment) ∧ Unquoted (m.after c cs) cs

instance decidableUnquoted (m : Mode) (cs : List Char) : Decidable (Unquoted m cs) :=
  match cs with
  | [] => .isTrue trivial
  | c :: cs =>
    have := decidableUnquoted (m.after c cs) cs
    inferInstanceAs (Decidable (_ ∧ _ ∧ _))

/-- What a pass in mode `m` keeps of a character that `rest` follows: nothing of a comment. -/
def Mode.kept (m : Mode) (c : Char) (rest : List Char) : List Char :=
  if m = .comment ∨ m.after c rest = .comment then [] else [c]

/-- What stands outside comments in `before`, which a pass comes to in mode `m` and `after`
follows. Both dashes and the line end belong to the comment. -/
def bare (m : Mode) : List Char → List Char → List Char
  | [], _ => []
  | c :: before, after =>
    m.kept c (before ++ after) ++ bare (m.after c (before ++ after)) before after

theorem bare_append (m : Mode) (as bs after : List Char) :
    bare m (as ++ bs) after
      = bare m as (bs ++ after) ++ bare (modeAt m as (bs ++ after)) bs after := by
  induction as generalizing m with
  | nil => rfl
  | cons c as ih =>
      rw [List.cons_append, bare, bare, modeAt, ih, List.append_assoc as bs after,
        List.append_assoc]

/-! ## Texts without quotes -/

section Unquoted

variable {m : Mode} {as bs : List Char}

theorem Unquoted.drop (h : Unquoted m (as ++ bs)) : Unquoted (modeAt m as bs) bs := by
  induction as generalizing m with
  | nil => exact h
  | cons c as ih => exact ih h.2.2

/-- A comment that opens at the end of the first part makes no difference to that part. -/
theorem Unquoted.of_append (h : Unquoted m (as ++ bs)) : Unquoted m as := by
  induction as generalizing m with
  | nil => trivial
  | cons c as ih =>
      refine ⟨h.1, h.2.1, ?_⟩
      cases as with
      | nil => trivial
      | cons d as => exact ih h.2.2

theorem plain_ne_quoted (mark : Char) : Mode.plain ≠ .quoted mark := Mode.noConfusion

theorem not_quoted_after (hm : ∀ mark, m ≠ .quoted mark) {c : Char} (hc : isQuote c = false)
    (rest : List Char) : ∀ mark, m.after c rest ≠ .quoted mark := by
  cases m with
  | quoted mark => exact absurd rfl (hm mark)
  | comment =>
      intro mark
      simp only [Mode.after]
      split_ifs <;> simp
  | plain =>
      intro mark
      simp only [Mode.after, hc, Bool.false_eq_true, if_false]
      split_ifs <;> simp

theorem Unquoted.not_quoted (h : Unquoted m (as ++ bs)) (hm : ∀ mark, m ≠ .quoted mark) :
    ∀ mark, modeAt m as bs ≠ .quoted mark := by
  induction as generalizing m with
  | nil => exact hm
  | cons c as ih => exact ih h.2.2 (not_quoted_after hm h.1 _)

/-- Cleaning a text without quotes removes its comments. -/
theorem clean_eq_bare {cs : List Char} (h : Unquoted m cs) (hm : ∀ mark, m ≠ .quoted mark)
    (spaced : Bool) : clean m spaced cs = bare m cs [] := by
  induction cs generalizing m spaced with
  | nil => simp [clean, bare]
  | cons c cs ih =>
      obtain ⟨hquote, hcontrol, hrest⟩ := h
      have hkept : m.cleaned spaced c cs = m.kept c cs := by
        cases m with
        | quoted mark => exact absurd rfl (hm mark)
        | comment => simp [Mode.cleaned, Mode.kept]
        | plain =>
            have hnot : ¬ c < ' ' := fun hc => absurd (hcontrol hc).2 (by simp)
            cases hopens : opensComment c cs <;>
              simp [Mode.cleaned, Mode.kept, Mode.after, hquote, hopens, hnot]
      rw [clean_cons, bare, List.append_nil, hkept, ih hrest (not_quoted_after hm hquote cs)]

end Unquoted

/-! ## What follows a text -/

theorem kept_congr (m : Mode) {c : Char} {rest rest' : List Char}
    (h : opensComment c rest = opensComment c rest') : m.kept c rest = m.kept c rest' := by
  rw [Mode.kept, Mode.kept, after_congr m h]

theorem bare_congr (m : Mode) (before : List Char) {after after' : List Char}
    (h : after.head? = some '-' ↔ after'.head? = some '-') :
    bare m before after = bare m before after' := by
  induction before generalizing m with
  | nil => rfl
  | cons c before ih =>
      have hopens := opensComment_append c before h
      rw [bare, bare, kept_congr m hopens, after_congr m hopens, ih]

/-- A character after which the text is plain opens no comment. -/
theorem kept_of_after {m : Mode} {c : Char} {rest : List Char} (h : m.after c rest = .plain) :
    m.kept c rest = m.kept c [] := by
  cases m with
  | comment => rfl
  | quoted mark => rfl
  | plain =>
      have hnot : opensComment c rest = false := by
        by_contra hopens
        rw [Bool.not_eq_false] at hopens
        cases hquote : isQuote c <;> simp [Mode.after, hquote, hopens] at h
      exact kept_congr .plain (hnot.trans (by simp [opensComment]))

/-- A text that ends in plain text has the same comments whatever follows it. -/
theorem bare_of_modeAt {m : Mode} {as bs : List Char} (h : modeAt m as bs = .plain) :
    bare m as bs = bare m as [] := by
  rcases List.eq_nil_or_concat as with rfl | ⟨as, c, rfl⟩
  · rfl
  · have hcons : (c :: bs).head? = some '-' ↔ [c].head? = some '-' := Iff.rfl
    rw [List.concat_eq_append] at h ⊢
    rw [modeAt_append, List.singleton_append, modeAt_congr m as hcons] at h
    rw [bare_append, bare_append, List.singleton_append, bare_congr m as hcons,
      modeAt_congr m as hcons, List.append_nil]
    simp only [bare, List.append_nil, List.nil_append]
    have hafter : (modeAt m as [c]).after c bs = .plain := h
    rw [kept_of_after hafter]

/-! ## The scanner falls behind the pass -/

/-- The scanner is in the mode of the pass, or has missed the comment in which the pass is. -/
def Mode.Behind (scanner pass : Mode) : Prop :=
  scanner = pass ∨ (scanner = .plain ∧ pass = .comment)

section Behind

variable {scanner pass : Mode} {c : Char} {as bs : List Char}

/-- A comment that the scanner sees opens in the pass as well. -/
theorem opensComment_of_append (h : opensComment c as = true) :
    opensComment c (as ++ bs) = true := by
  cases as with
  | nil => simp [opensComment] at h
  | cons d as => exact h

/-- The line end of a comment brings the scanner and the pass together again. -/
theorem Mode.Behind.after (h : scanner.Behind pass) (hquote : isQuote c = false)
    (hcontrol : c < ' ' → c = '\n' ∧ pass = .comment) :
    (scanner.after c as).Behind (pass.after c (as ++ bs)) := by
  rcases h with rfl | ⟨rfl, rfl⟩
  · cases scanner with
    | comment => exact .inl rfl
    | quoted mark => exact .inl rfl
    | plain =>
        cases hopens : opensComment c as with
        | true =>
            left
            simp only [Mode.after, hquote, hopens, opensComment_of_append hopens]
        | false =>
            cases hpass : opensComment c (as ++ bs) <;>
              simp [Mode.Behind, Mode.after, hquote, hopens, hpass]
  -- the pass alone is in a comment, where a control character is the line end that closes it
  · by_cases hc : c = '\n'
    · subst hc
      left
      simp [Mode.after, isQuote, opensComment]
    · cases hopens : opensComment c as <;> simp [Mode.Behind, Mode.after, hquote, hopens, hc]

theorem Mode.Behind.kept (h : scanner.Behind pass) (hquote : isQuote c = false)
    (hcontrol : c < ' ' → c = '\n' ∧ pass = .comment) (hpass : ∀ mark, pass ≠ .quoted mark)
    (spaced : Bool) :
    (pass.kept c (as ++ bs)).Sublist (scanner.cleaned spaced c as) := by
  unfold Mode.kept
  split_ifs with hdropped
  · exact List.nil_sublist _
  · rw [not_or] at hdropped
    have hplain : pass = .plain := by
      cases pass with
      | plain => rfl
      | comment => exact absurd rfl hdropped.1
      | quoted mark => exact absurd rfl (hpass mark)
    -- the pass is in no comment here, so the scanner has missed none
    have hscanner : scanner = .plain := by
      rcases h with rfl | ⟨rfl, -⟩
      · exact hplain
      · rfl
    subst hplain hscanner
    have hopens : opensComment c as = false := by
      by_contra hopens
      rw [Bool.not_eq_false] at hopens
      refine hdropped.2 ?_
      simp [Mode.after, hquote, opensComment_of_append hopens]
    have hnot : ¬ c < ' ' := fun hc => absurd (hcontrol hc).2 (by simp)
    simp [Mode.cleaned, hquote, hopens, hnot]

/-- A scanner that is behind the pass keeps all that the pass keeps. -/
theorem bare_sublist_clean (h : scanner.Behind pass) (hpass : ∀ mark, pass ≠ .quoted mark)
    (hunquoted : Unquoted pass (as ++ bs)) (spaced : Bool) :
    (bare pass as bs).Sublist (clean scanner spaced as) := by
  induction as generalizing scanner pass spaced with
  | nil => exact List.nil_sublist _
  | cons c as ih =>
      obtain ⟨hquote, hcontrol, hrest⟩ := hunquoted
      rw [bare, clean_cons]
      exact (h.kept hquote hcontrol hpass spaced).append
        (ih (h.after hquote hcontrol) (not_quoted_after hpass hquote _) hrest _)

end Behind

/-- No text outside comments is lost. -/
theorem bare_sublist_text {m : Mode} {cs : List Char} (h : Unquoted m cs)
    (hm : ∀ mark, m ≠ .quoted mark) :
    (bare m cs []).Sublist ((pieces cs).flatMap Piece.text) := by
  fun_induction pieces cs generalizing m with
  | case1 => exact List.nil_sublist _
  | case2 cs hne ih =>
      -- every segment starts in plain text, so there the scanner is behind the pass
      have hbehind : Mode.plain.Behind m := by
        cases m with
        | plain => exact .inl rfl
        | comment => exact .inr ⟨rfl, rfl⟩
        | quoted mark => exact absurd rfl (hm mark)
      rw [← piece_append cs] at h
      have hfirst := bare_sublist_clean hbehind hm h false
      have hrest := ih h.drop (h.not_quoted hm)
      rw [List.flatMap_cons, ← piece_append cs, bare_append, List.append_nil, piece_append]
      exact hfirst.append hrest

/-! ## Where comments open -/

/-- Skipping to a word comes to plain text behind boundary characters only. -/
theorem skipped_boundary {m : Mode} (hm : ∀ mark, m = .quoted mark → isQuote mark = true)
    {cs before after : List Char} (hskipped : (lead m cs).skipped = before ++ after)
    (hplain : modeAt m before (after ++ (lead m cs).rest) = .plain) :
    ∀ d ∈ before.getLast?, isBoundary d = true := by
  induction before generalizing m cs with
  | nil => simp
  | cons c before ih =>
      cases cs with
      | nil => cases hskipped
      | cons e cs =>
          rcases lead_cons m e cs with ⟨-, rfl, hlead⟩ | ⟨-, -, hlead⟩ | ⟨hboundary, hlead⟩
          · rw [hlead, List.cons_append, List.cons.injEq] at hskipped
            obtain ⟨rfl, hnil⟩ := hskipped
            obtain ⟨rfl, -⟩ := List.append_eq_nil_iff.mp hnil.symm
            intro d hd
            cases hd
            decide
          · rw [hlead] at hskipped
            cases hskipped
          · have hwhole := lead_append (m.after e cs) cs
            rw [hlead, Lead.cons, List.cons_append, List.cons.injEq] at hskipped
            obtain ⟨rfl, hskipped⟩ := hskipped
            rw [hskipped, List.append_assoc] at hwhole
            rw [hlead, Lead.cons, modeAt, hwhole] at hplain
            have hrest := ih (fun _ => isQuote_of_after hm) hskipped hplain
            cases before with
            | cons b before => exact hrest
            | nil =>
                -- the character is the last one, and led to plain text
                intro d hd
                cases hd
                cases m with
                | plain => exact hboundary rfl
                | quoted mark =>
                    simp only [modeAt, Mode.after] at hplain
                    split_ifs at hplain with hclosed
                    rw [hclosed]
                    exact isBoundary_of_isQuote (hm mark rfl)
                | comment =>
                    simp only [modeAt, Mode.after] at hplain
                    split_ifs at hplain with hline
                    rw [hline]
                    decide

theorem skipped_prefix_source (cs : List Char) : (piece cs).skipped <+: (piece cs).source := by
  rw [Piece.source, List.append_assoc]
  exact List.prefix_append _ _

section Opening

variable {cs bs tail : List Char} {c : Char} (hsplit : (piece cs).source = bs ++ c :: tail)

include hsplit

/-- What opens before the word of a segment stands behind a boundary character. -/
theorem boundary_of_lt_skipped (hlt : bs.length < (piece cs).skipped.length)
    (hplain : modeAt .plain bs (c :: tail ++ (piece cs).rest) = .plain) :
    ∀ d ∈ bs.getLast?, isBoundary d = true := by
  have hopening : bs ++ [c] <+: (piece cs).source :=
    ⟨tail, by rw [hsplit, List.append_assoc, List.singleton_append]⟩
  obtain ⟨inner, hinner⟩ : bs ++ [c] <+: (piece cs).skipped :=
    List.prefix_of_prefix_length_le hopening (skipped_prefix_source cs) (by simpa using hlt)
  rw [List.append_assoc, List.singleton_append, piece_skipped] at hinner
  have hleft : c :: inner ++ (lead .plain cs).rest = c :: tail ++ (piece cs).rest := by
    have hlead := lead_append .plain cs
    have hwhole := piece_append cs
    rw [← hinner, List.append_assoc] at hlead
    rw [hsplit, List.append_assoc] at hwhole
    exact List.append_cancel_left (hlead.trans hwhole.symm)
  refine skipped_boundary (fun _ hquoted => by cases hquoted) hinner.symm ?_
  rw [hleft]
  exact hplain

/-- What opens behind that is the character that ends the word. -/
theorem closing_of_opens (hle : (piece cs).skipped.length ≤ bs.length)
    (hopens : Mode.plain.after c (tail ++ (piece cs).rest) ≠ .plain) :
    (piece cs).closing = [c] ∧ tail = [] := by
  have hboundary : isBoundary c = true := by
    by_contra hword
    rw [Bool.not_eq_true] at hword
    exact hopens (after_word hword _)
  obtain ⟨inner, hinner⟩ : (piece cs).skipped <+: bs :=
    List.prefix_of_prefix_length_le (skipped_prefix_source cs) ⟨c :: tail, hsplit.symm⟩ hle
  have hcs : cs = (piece cs).skipped ++ (inner ++ c :: (tail ++ (piece cs).rest)) := by
    rw [← List.append_assoc, hinner, ← List.cons_append, ← List.append_assoc, ← hsplit,
      piece_append]
  have hshort : ((piece cs).skipped ++ inner).length < (piece cs).source.length := by
    rw [hinner, hsplit, List.length_append, List.length_cons]
    omega
  obtain ⟨-, rfl⟩ := word_of_boundary hcs hboundary hshort
  have hlast : (piece cs).closing = c :: tail := by
    rw [← hinner, Piece.source] at hsplit
    exact List.append_cancel_left hsplit
  rcases piece_closing cs with hnil | ⟨d, hd, -⟩
  · rw [hnil] at hlast
    cases hlast
  · rw [hd, List.cons.injEq] at hlast
    obtain ⟨rfl, rfl⟩ := hlast
    exact ⟨hd, rfl⟩

end Opening

/-- In a segment that ends in plain text every comment opens apart from words. -/
theorem opensApart_source {cs : List Char} (hclosing : ∀ c ∈ (piece cs).closing, isQuote c = false)
    (hend : modeAt .plain (piece cs).source (piece cs).rest = .plain ∨ (piece cs).rest = []) :
    OpensApart (piece cs).source (piece cs).rest := by
  intro bs c tail hsplit hplain hopens
  by_cases hlt : bs.length < (piece cs).skipped.length
  · exact boundary_of_lt_skipped hsplit hlt hplain
  · -- a comment that the character ending the word opens would leave plain text
    obtain ⟨hlast, rfl⟩ := closing_of_opens hsplit (Nat.not_lt.mp hlt) hopens
    rcases hend with hend | hnil
    · rw [hsplit, modeAt_append, List.singleton_append] at hend
      rw [List.singleton_append] at hplain
      rw [hplain] at hend
      exact absurd hend hopens
    · refine absurd ?_ hopens
      rw [hnil, List.append_nil, Mode.after, hclosing c (by rw [hlast]; exact List.mem_cons_self)]
      simp [opensComment]

theorem OpensApart.append {as bs after : List Char} (has : OpensApart as (bs ++ after))
    (hplain : modeAt .plain as (bs ++ after) = .plain)
    (hlast : ∀ d ∈ as.getLast?, isBoundary d = true) (hbs : OpensApart bs after) :
    OpensApart (as ++ bs) after := by
  intro xs c tail hsplit hxs hopens
  rcases List.append_eq_append_iff.mp hsplit with ⟨inner, rfl, hinner⟩ | ⟨inner, rfl, hinner⟩
  · by_cases hnil : inner = []
    · rwa [hnil, List.append_nil]
    · rw [List.getLast?_append_of_ne_nil as hnil]
      refine hbs inner c tail hinner ?_ hopens
      rw [modeAt_append, ← List.append_assoc, ← hinner, hplain] at hxs
      exact hxs
  · cases inner with
    | nil => rwa [List.append_nil] at hlast
    | cons d inner =>
        rw [List.cons_append, List.cons.injEq] at hinner
        obtain ⟨rfl, rfl⟩ := hinner
        rw [List.append_assoc] at hopens
        refine has xs c inner rfl ?_ hopens
        rwa [← List.cons_append, List.append_assoc] at hxs

/-! ## When the comments are removed -/

section Removal

variable {cs : List Char}

theorem Unquoted.isQuote_of_mem {m : Mode} (h : Unquoted m cs) : ∀ c ∈ cs, isQuote c = false := by
  induction cs generalizing m with
  | nil => simp
  | cons d cs ih =>
      intro c hc
      rcases List.mem_cons.mp hc with rfl | hc
      · exact h.1
      · exact ih h.2.2 c hc

theorem text_eq_bare (h : Unquoted .plain (piece cs).source) :
    (piece cs).text = bare .plain (piece cs).source [] :=
  clean_eq_bare h plain_ne_quoted false

/-- A comment that opens with the last character of a text takes that character. -/
theorem length_bare_lt {as rest : List Char} {c : Char}
    (hplain : modeAt .plain as (c :: rest) = .plain)
    (hopens : Mode.plain.after c rest = .comment) :
    (bare .plain (as ++ [c]) rest).length < (bare .plain (as ++ [c]) []).length := by
  have hcons : (c :: rest).head? = some '-' ↔ [c].head? = some '-' := Iff.rfl
  have halone : Mode.plain.after c [] ≠ .comment := by
    cases hquote : isQuote c <;> simp [Mode.after, opensComment, hquote]
  have hdropped : Mode.plain.kept c rest = [] := if_pos (.inr hopens)
  have hkept : Mode.plain.kept c [] = [c] := if_neg (by simp [halone])
  have hfollowed : bare .plain (as ++ [c]) rest = bare .plain as [c] := by
    rw [bare_append, List.singleton_append, hplain, bare_congr .plain as hcons]
    simp only [bare, List.nil_append, List.append_nil, hdropped]
  have hlast : bare .plain (as ++ [c]) [] = bare .plain as [c] ++ [c] := by
    rw [bare_append, List.append_nil, ← modeAt_congr .plain as hcons, hplain]
    simp only [bare, List.append_nil, hkept]
  rw [hfollowed, hlast, List.length_append, List.length_singleton]
  omega

/-- A segment that keeps only what stands outside comments ends in plain text. -/
theorem modeAt_source_of_text_eq (h : Unquoted .plain ((piece cs).source ++ (piece cs).rest))
    (htext : (piece cs).text = bare .plain (piece cs).source (piece cs).rest)
    (hrest : (piece cs).rest ≠ []) :
    modeAt .plain (piece cs).source (piece cs).rest = .plain := by
  by_cases hword : (piece cs).word = []
  · exact modeAt_source_of_word_eq_nil cs hword hrest
  · by_contra hend
    have hplain : modeAt .plain ((piece cs).skipped ++ (piece cs).word)
        ((piece cs).closing ++ (piece cs).rest) = .plain := by
      rw [modeAt_append, ← List.append_assoc, modeAt_skipped cs hword, modeAt_word (piece_word cs)]
    rcases piece_closing cs with hclosing | ⟨c, hclosing, -, -⟩
    · rw [Piece.source, hclosing, List.append_nil] at hend
      rw [hclosing, List.nil_append] at hplain
      exact hend hplain
    · have hquote := h.isQuote_of_mem c (by simp [Piece.source, hclosing])
      rw [text_eq_bare h.of_append] at htext
      rw [hclosing, List.singleton_append] at hplain
      rw [Piece.source, hclosing, modeAt_append, List.singleton_append, hplain] at hend
      have hopens : Mode.plain.after c (piece cs).rest = .comment := by
        simp only [modeAt, List.nil_append, Mode.after, hquote] at hend ⊢
        simpa using hend
      have hlt := length_bare_lt hplain hopens
      rw [← hclosing, ← Piece.source, ← htext] at hlt
      exact absurd hlt (Nat.lt_irrefl _)

theorem piece_rest_of_closing (hword : (piece cs).word ≠ []) (hclosing : (piece cs).closing = []) :
    (piece cs).rest = [] := by
  unfold piece Lead.piece at hword hclosing ⊢
  split at hword
  · exact absurd rfl hword
  · next hend =>
    rw [if_neg hend] at hclosing ⊢
    rw [List.take_eq_nil_iff] at hclosing
    simp only [Nat.one_ne_zero, false_or] at hclosing
    simp only [hclosing, List.drop_nil]

/-- A segment that does not end the template ends with a boundary character. -/
theorem source_boundary (hrest : (piece cs).rest ≠ []) :
    ∀ d ∈ (piece cs).source.getLast?, isBoundary d = true := by
  rcases piece_closing cs with hclosing | ⟨c, hclosing, hc, -⟩
  · have hword : (piece cs).word = [] := by
      by_contra hword
      exact hrest (piece_rest_of_closing hword hclosing)
    have hend := modeAt_source_of_word_eq_nil cs hword hrest
    have hsource : (piece cs).source = (lead .plain cs).skipped := by
      rw [Piece.source, hword, hclosing, List.append_nil, List.append_nil, piece_skipped]
    have hleft : (lead .plain cs).rest = (piece cs).rest := by
      have hwhole : (lead .plain cs).skipped ++ (lead .plain cs).rest
          = (lead .plain cs).skipped ++ (piece cs).rest := by
        rw [lead_append, ← hsource, piece_append]
      exact List.append_cancel_left hwhole
    rw [hsource, ← hleft] at hend
    rw [hsource]
    exact skipped_boundary (fun _ hquoted => by cases hquoted) (List.append_nil _).symm hend
  · intro d hd
    rw [Piece.source, hclosing, List.getLast?_concat] at hd
    cases hd
    exact hc

/-- When each of two texts keeps what stands outside comments and together they keep nothing else,
neither of them does. -/
theorem texts_eq_of_append_eq {kept others text texts : List Char} (htext : kept.Sublist text)
    (htexts : others.Sublist texts) (heq : text ++ texts = kept ++ others) :
    text = kept ∧ texts = others := by
  have htotal := congrArg List.length heq
  rw [List.length_append, List.length_append] at htotal
  have hle := htext.length_le
  have hle' := htexts.length_le
  exact ⟨(htext.eq_of_length (by omega)).symm, (htexts.eq_of_length (by omega)).symm⟩

/-- A segment that keeps only what stands outside comments opens them apart from words, and what
follows it is not inside one. -/
theorem opensApart_of_text_eq (h : Unquoted .plain ((piece cs).source ++ (piece cs).rest))
    (htext : (piece cs).text = bare .plain (piece cs).source (piece cs).rest)
    (hothers : modeAt .plain (piece cs).source (piece cs).rest = .plain →
      OpensApart (piece cs).rest []) : OpensApart cs [] := by
  have hclosing : ∀ c ∈ (piece cs).closing, isQuote c = false := fun c hc =>
    h.isQuote_of_mem c (by simp [Piece.source, hc])
  by_cases hrest : (piece cs).rest = []
  · have hapart := opensApart_source hclosing (.inr hrest)
    rwa [hrest, ← List.append_nil (piece cs).source, ← hrest, piece_append, hrest] at hapart
  · have hend := modeAt_source_of_text_eq h htext hrest
    have hapart := opensApart_source hclosing (.inl hend)
    rw [← List.append_nil (piece cs).rest] at hapart hend
    have hwhole := hapart.append hend (source_boundary hrest) (hothers (by simpa using hend))
    rwa [piece_append] at hwhole

/-- The comments are removed exactly when each of them opens apart from words. -/
theorem flatMap_text_eq_bare_iff (h : Unquoted .plain cs) :
    (pieces cs).flatMap Piece.text = bare .plain cs [] ↔ OpensApart cs [] := by
  fun_induction pieces cs with
  | case1 =>
      refine iff_of_true rfl fun before c after hsplit => ?_
      simp at hsplit
  | case2 cs hne ih =>
      rw [← piece_append cs] at h
      have hbare : bare .plain cs [] = bare .plain (piece cs).source (piece cs).rest
          ++ bare (modeAt .plain (piece cs).source (piece cs).rest) (piece cs).rest [] := by
        conv_lhs => rw [← piece_append cs]
        rw [bare_append, List.append_nil]
      rw [List.flatMap_cons, hbare]
      constructor
      · intro heq
        have hfirst : (bare .plain (piece cs).source (piece cs).rest).Sublist (piece cs).text :=
          bare_sublist_clean (.inl rfl) plain_ne_quoted h false
        have hothers := bare_sublist_text h.drop (h.not_quoted plain_ne_quoted)
        obtain ⟨htext, htexts⟩ := texts_eq_of_append_eq hfirst hothers heq
        refine opensApart_of_text_eq h htext fun hend => ?_
        have hdrop := h.drop
        rw [hend] at hdrop htexts
        exact (ih hdrop).mp htexts
      · intro hapart
        rw [← piece_append cs] at hapart
        by_cases hrest : (piece cs).rest = []
        · rw [hrest, pieces_nil, text_eq_bare h.of_append]
          simp [bare]
        · have hfirstApart := hapart.of_append
          rw [List.append_nil] at hfirstApart
          have hend := modeAt_source hrest hfirstApart
          have hdrop := h.drop
          rw [hend] at hdrop ⊢
          rw [text_eq_bare h.of_append, bare_of_modeAt hend]
          rw [(ih hdrop).mpr (hapart.drop (by rwa [List.append_nil]))]

end Removal

/-- In a template without quotes whose control characters are the line ends of comments, no text
outside comments is lost. And comments are really removed, which means that no symbol overlaps a
comment and the texts of the segments are the template without its comments, exactly when each
comment opens apart from a word. -/
theorem comments_removed_iff {query : String} (h : Unquoted .plain query.toList) :
    segments query = segmentsOf 0 (pieces query.toList)
      ∧ (bare .plain query.toList []).Sublist ((segments query).flatMap (·.text.toList))
      ∧ ((∀ earlier p later, pieces query.toList = earlier ++ p :: later →
          symbolOf p.word ≠ none → ∀ before after, p.word = before ++ after →
            modeAt .plain (earlier.flatMap Piece.source ++ p.skipped ++ before)
              (after ++ p.closing ++ later.flatMap Piece.source) = .plain)
          ∧ (segments query).flatMap (·.text.toList) = bare .plain query.toList []
        ↔ OpensApart query.toList []) := by
  have htexts : (segments query).flatMap (·.text.toList)
      = (pieces query.toList).flatMap Piece.text := by
    rw [segments_eq, flatMap_text_segmentsOf]
  rw [htexts]
  refine ⟨segments_eq query, bare_sublist_text h plain_ne_quoted, ?_⟩
  rw [flatMap_text_eq_bare_iff h]
  refine ⟨fun hboth => hboth.2, fun hapart => ⟨?_, hapart⟩⟩
  intro earlier p later hsplit hsymbol before after hword
  have hne : p.word ≠ [] := by
    intro hnil
    rw [hnil] at hsymbol
    exact hsymbol rfl
  obtain ⟨hquery, hp, -⟩ := pieces_eq_append hsplit
  have hchars : ∀ c ∈ before, isBoundary c = false := by
    intro c hc
    have hmem : c ∈ p.word := by
      rw [hword]
      exact List.mem_append_left after hc
    rw [← hp] at hmem
    exact piece_word _ c hmem
  rw [hquery, Piece.source, List.append_assoc p.skipped, List.append_assoc p.skipped,
    ← List.append_assoc] at hapart
  have hplain := modeAt_word_of_apart hsplit hne (by simpa using hapart.of_append)
  rw [hword] at hplain
  rw [modeAt_append, ← List.append_assoc, ← List.append_assoc, hplain, modeAt_word hchars]

/-- A comment behind a blank. -/
theorem comments_removed_behind_blank :
    Unquoted .plain "x, -- :Old\n:ID".toList ∧ OpensApart "x, -- :Old\n:ID".toList []
      ∧ (segments "x, -- :Old\n:ID").flatMap (·.text.toList) = "x, :ID".toList := by
  have hquery : Unquoted .plain "x, -- :Old\n:ID".toList := by decide +kernel
  have hapart : OpensApart "x, -- :Old\n:ID".toList [] := by decide +kernel
  have hbare : bare .plain "x, -- :Old\n:ID".toList [] = "x, :ID".toList := by decide +kernel
  obtain ⟨-, htexts⟩ := (comments_removed_iff hquery).2.2.mpr hapart
  exact ⟨hquery, hapart, htexts.trans hbare⟩

/-- A comment behind a word is not removed: it yields the symbol of a segment, and its line end
becomes a blank, so that what follows is part of the comment. -/
theorem comments_not_removed :
    Unquoted .plain "x--:ID\ny".toList
      ∧ (∃ earlier p later, pieces "x--:ID\ny".toList = earlier ++ p :: later
        ∧ symbolOf p.word = some ":ID".toList
        ∧ modeAt .plain (earlier.flatMap Piece.source ++ p.skipped)
            (p.word ++ p.closing ++ later.flatMap Piece.source) = .comment)
      ∧ (segments "x--:ID\ny").flatMap (·.text.toList) = "x--:ID y".toList
      ∧ bare .plain "x--:ID\ny".toList [] = "xy".toList := by
  refine ⟨by decide +kernel, ⟨[⟨[], ['x'], ['-'], "-:ID\ny".toList⟩],
    ⟨['-'], ":ID".toList, ['\n'], ['y']⟩, [⟨[], ['y'], [], []⟩], ?_, ?_, ?_⟩, ?_, ?_⟩
  · decide +kernel
  · decide +kernel
  · decide +kernel
  · decide +kernel
  · decide +kernel

end SchemaEvolution.Template
