import SchemaEvolution.Proofs.Template.Coverage
import SchemaEvolution.Proofs.Template.Substitution

set_option autoImplicit false

/-! # The shape of a symbol

The symbol of a word is what begins with its first mark, up to the first `::` or to the end, unless
the mark stands alone (`symbolOf_eq_some_iff`). The word stands in the source of its segment and, as
it is written, in the cleaned text. So a symbol can be read off the part of the query that its
segment spans, and replacing it in the text finds it (`symbols_shaped`).
-/

namespace SchemaEvolution.Template

/-! ## Symbols of words -/

/-- Two colons, which begin a cast. -/
def castMark : List Char := [':', ':']

/-- What follows the first part is a cast or nothing, and no cast begins before it. -/
def EndsAtCast (as bs : List Char) : Prop :=
  (bs = [] ∨ castMark <+: bs) ∧ ¬ castMark <:+: as ++ bs.take 1

theorem castMark_prefix_cons {c : Char} {cs : List Char} :
    castMark <+: c :: cs ↔ c = ':' ∧ cs.head? = some ':' := by
  cases cs with
  | nil => simp [castMark]
  | cons d cs => simp [castMark, eq_comm]

theorem head?_append_take_one (as bs : List Char) : (as ++ bs.take 1).head? = (as ++ bs).head? := by
  cases as <;> cases bs <;> rfl

theorem castMark_infix_cons {c : Char} {as bs : List Char} :
    castMark <:+: c :: as ++ bs.take 1
      ↔ (c = ':' ∧ (as ++ bs).head? = some ':') ∨ castMark <:+: as ++ bs.take 1 := by
  rw [List.cons_append, List.infix_cons_iff, castMark_prefix_cons, head?_append_take_one]

/-- What stands before the first cast. -/
theorem exists_cast (cs : List Char) :
    ∃ cast, cs = symbolOf.beforeCast cs ++ cast ∧ EndsAtCast (symbolOf.beforeCast cs) cast := by
  induction cs with
  | nil => exact ⟨[], rfl, .inl rfl, by simp [symbolOf.beforeCast, castMark]⟩
  | cons c cs ih =>
      rw [symbolOf.beforeCast]
      by_cases hcast : (c = ':' && cs.head? = some ':') = true
      · rw [if_pos hcast]
        rw [Bool.and_eq_true, decide_eq_true_eq, decide_eq_true_eq] at hcast
        exact ⟨c :: cs, rfl, .inr (castMark_prefix_cons.mpr hcast),
          by simp [castMark, List.infix_cons_iff]⟩
      · rw [if_neg hcast]
        rw [Bool.and_eq_true, decide_eq_true_eq, decide_eq_true_eq] at hcast
        obtain ⟨cast, hcs, hends, hnone⟩ := ih
        -- a cast that begins with `c` would take its second colon from what follows
        refine ⟨cast, congrArg (c :: ·) hcs, hends, ?_⟩
        rw [castMark_infix_cons, ← hcs]
        exact not_or.mpr ⟨hcast, hnone⟩

theorem beforeCast_append {as bs : List Char} (h : EndsAtCast as bs) :
    symbolOf.beforeCast (as ++ bs) = as := by
  induction as with
  | nil =>
      rcases h.1 with rfl | hcast
      · rfl
      · obtain ⟨rest, rfl⟩ := hcast
        rfl
  | cons c as ih =>
      have hnone := h.2
      rw [castMark_infix_cons, not_or] at hnone
      rw [List.cons_append, symbolOf.beforeCast, if_neg, ih ⟨h.1, hnone.2⟩]
      simpa using hnone.1

/-- The symbol of a word begins with the first mark, is more than the mark, and ends where a cast
begins or the word ends. -/
theorem symbolOf_eq_some_iff {word symbol : List Char} :
    symbolOf word = some symbol
      ↔ (∃ mark rest, symbol = mark :: rest ∧ isMark mark = true ∧ rest ≠ [])
        ∧ ∃ before cast, word = before ++ (symbol ++ cast) ∧ (∀ c ∈ before, isMark c = false)
          ∧ EndsAtCast symbol cast := by
  constructor
  · intro h
    obtain ⟨mark, rest, rfl, hmark⟩ := exists_mark_of_symbolOf h
    have hbefore := beforeCast_of_symbolOf h
    obtain ⟨cast, hmarked, hends⟩ := exists_cast (word.dropWhile (!isMark ·))
    rw [hbefore] at hmarked hends
    refine ⟨⟨mark, rest, rfl, hmark, ?_⟩, aliasOf word, cast, ?_, fun c hc => ?_, hends⟩
    · rintro rfl
      rw [symbolOf] at h
      simp only [not_isMark_eq, hbefore] at h
      cases h
    · rw [← hmarked, aliasOf, List.takeWhile_append_dropWhile]
    · simpa using List.mem_takeWhile_imp hc
  · rintro ⟨⟨mark, rest, rfl, hmark, hne⟩, before, cast, rfl, hbefore, hends⟩
    have hmarked :
        (before ++ (mark :: rest ++ cast)).dropWhile (!isMark ·) = mark :: rest ++ cast := by
      rw [List.dropWhile_append_of_pos (by simpa using hbefore), List.cons_append,
        List.dropWhile_cons_of_neg (by simp [hmark])]
    have hlong : (mark :: rest).length > 1 := by
      have := List.length_pos_iff.mpr hne
      rw [List.length_cons]
      omega
    simp only [symbolOf, not_isMark_eq, hmarked, beforeCast_append hends, if_pos hlong]

/-! ## Symbols of segments -/

/-- The symbol of a segment begins with a mark and has at least two bytes. It holds no `::` and no
character that ends a word. It is a part of what the segment spans, and it stands in the cleaned
text, where replacing it by whatever image finds it. -/
theorem symbols_shaped {query : String} {s : Segment} (hs : s ∈ segments query) {symbol : String}
    (hsymbol : s.symbol = some symbol) :
    (∃ mark rest, symbol.toList = mark :: rest ∧ (mark = '&' ∨ mark = ':'))
      ∧ 2 ≤ symbol.utf8ByteSize
      ∧ ¬ [':', ':'] <:+: symbol.toList
      ∧ (∀ c ∈ symbol.toList, isBoundary c = false)
      ∧ (∃ source : String, s.Spans query source ∧ symbol.toList <:+: source.toList)
      ∧ symbol.toList <:+: s.text.toList
      ∧ ∃ before after, s.text.toList = before ++ (symbol.toList ++ after)
        ∧ ∀ image, Text.replaceAll symbol.toList image s.text.toList
          = before ++ (image ++ Text.replaceAll symbol.toList image after) := by
  obtain ⟨cs, start, rfl, hspans⟩ := exists_piece_of_mem_segments hs
  obtain ⟨chars, hchars, rfl⟩ := Option.map_eq_some_iff.mp hsymbol
  obtain ⟨⟨mark, rest, hmarked, hmark, hne⟩, before, cast, hword, -, -, hnone⟩ :=
    symbolOf_eq_some_iff.mp hchars
  -- the word is cleaned to itself, so the symbol is in the text where it is in the word
  have htext : chars <:+: (piece cs).text := by
    rw [text_eq hchars, Piece.withImage]
    exact ⟨(piece cs).leading ++ aliasOf (piece cs).word,
      castOf (piece cs).word ++ (piece cs).trailing, by simp only [List.append_assoc]⟩
  have hsource : chars <:+: (piece cs).source := by
    rw [Piece.source, hword]
    exact ⟨(piece cs).skipped ++ before, cast ++ (piece cs).closing,
      by simp only [List.append_assoc]⟩
  have hsize : 2 ≤ byteLength chars := by
    have hfirst := byteLength_pos (List.cons_ne_nil mark [])
    have hrest := byteLength_pos hne
    rw [hmarked, ← List.singleton_append, byteLength_append]
    omega
  have hne : chars ≠ [] := by
    rw [hmarked]
    exact List.cons_ne_nil mark rest
  rw [← byteLength_toList]
  simp only [Piece.segment, String.toList_ofList]
  refine ⟨⟨mark, rest, hmarked, ?_⟩, hsize, fun hcast => hnone ?_,
    symbol_word hchars (piece_word cs), ⟨_, hspans, ?_⟩, htext,
    Text.exists_first_of_infix hne htext⟩
  · rw [isMark, Bool.or_eq_true, beq_iff_eq, beq_iff_eq] at hmark
    exact hmark.symm
  · exact hcast.trans (List.prefix_append chars (cast.take 1)).isInfix
  · rw [String.toList_ofList]
    exact hsource

/-- A word behind a comment and quoted text, with an alias and a cast around its symbol. -/
def castSegment : Segment := ⟨"':B'  a.:Žid.ID::int,", some ":Žid.ID", 6, 28⟩

theorem symbols_shaped_castSegment :
    castSegment ∈ segments "-- :A\n':B'\t a.:Žid.ID::int,:C"
      ∧ castSegment.symbol = some ":Žid.ID" ∧ 2 ≤ ":Žid.ID".utf8ByteSize
      ∧ ":Žid.ID".toList <:+: castSegment.text.toList
      ∧ ∃ before after, castSegment.text.toList = before ++ (":Žid.ID".toList ++ after)
        ∧ ∀ image, Text.replaceAll ":Žid.ID".toList image castSegment.text.toList
          = before ++ (image ++ Text.replaceAll ":Žid.ID".toList image after) := by
  have hmem : castSegment ∈ segments "-- :A\n':B'\t a.:Žid.ID::int,:C" := by decide +kernel
  obtain ⟨-, hsize, -, -, -, htext, hreplaced⟩ := symbols_shaped hmem rfl
  exact ⟨hmem, rfl, hsize, htext, hreplaced⟩

end SchemaEvolution.Template
