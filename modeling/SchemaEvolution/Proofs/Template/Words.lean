import SchemaEvolution.Proofs.Template.Substitution

set_option autoImplicit false

/-! # Templates of words

A template of two symbols with a blank between them is cut into these symbols, and each is resolved
on its own (`resolve_of_symbols`). A mark with a name behind it that is made of name characters is
such a symbol. A name with a boundary character in it is part of no symbol of any template
(`not_isBoundary_of_mem_symbols`), and the characters from `U+0080` to `U+00FF` are all boundaries.
-/

namespace SchemaEvolution.Template

/-! ## Names -/

/-- A character of a name that the scanner reads as one of a word: an ASCII letter or digit, an
underscore, or a character above `U+00FF` that is no space separator, such as a letter or digit of
an alphabet that Latin-1 lacks. -/
def isNameChar (c : Char) : Bool :=
  c.isAlphanum || c == '_' || (0xFF < c.toNat && !isBoundary c)

/-- A name made of name characters. -/
def IsName (name : String) : Prop := name.toList ≠ [] ∧ ∀ c ∈ name.toList, isNameChar c = true

instance (name : String) : Decidable (IsName name) :=
  decidable_of_iff (name.toList ≠ [] ∧ name.toList.all isNameChar = true)
    (and_congr_right fun _ => List.all_eq_true)

theorem toNat_lt_of_isAlphanum {c : Char} (h : c.isAlphanum = true) : c.toNat < 128 := by
  have hdecided : (decide (c.val ≥ 65 ∧ c.val ≤ 90) || (decide (c.val ≥ 97) && decide (c.val ≤ 122))
      || (decide (c.val ≥ 48) && decide (c.val ≤ 57))) = true := h
  simp only [Bool.or_eq_true, Bool.and_eq_true, decide_eq_true_eq] at hdecided
  have hranges : ((65 ≤ c.toNat ∧ c.toNat ≤ 90) ∨ (97 ≤ c.toNat ∧ c.toNat ≤ 122))
      ∨ (48 ≤ c.toNat ∧ c.toNat ≤ 57) := hdecided
  omega

/-- A name character is a word character, and neither a mark nor a dot. -/
theorem isNameChar_cases {c : Char} (h : isNameChar c = true) :
    isBoundary c = false ∧ c ≠ '.' ∧ isMark c = false := by
  have hnone : ∀ d : Char, isNameChar d = false → c ≠ d := by
    rintro d hd rfl
    rw [hd] at h
    cases h
  refine ⟨?_, hnone '.' (by decide), ?_⟩
  · rw [isNameChar, Bool.or_eq_true, Bool.or_eq_true, beq_iff_eq, Bool.and_eq_true,
      Bool.not_eq_true'] at h
    rcases h with (halnum | rfl) | ⟨-, hword⟩
    · have hlt := toNat_lt_of_isAlphanum halnum
      rw [isBoundary, if_pos (by omega)]
      simp [halnum]
    · decide
    · exact hword
  · rw [isMark, Bool.or_eq_false_iff, beq_eq_false_iff_ne, beq_eq_false_iff_ne]
    exact ⟨hnone ':' (by decide), hnone '&' (by decide)⟩

theorem IsName.word {name : String} (h : IsName name) :
    ∀ c ∈ name.toList, isBoundary c = false ∧ c ≠ ':' := by
  intro c hc
  obtain ⟨hword, -, hnot⟩ := isNameChar_cases (h.2 c hc)
  refine ⟨hword, ?_⟩
  rintro rfl
  exact absurd hnot (by decide)

theorem IsName.dot_not_mem {name : String} (h : IsName name) : '.' ∉ name.toList := fun hmem =>
  (isNameChar_cases (h.2 '.' hmem)).2.1 rfl

/-- The characters behind the ASCII range up to `U+00FF` all end a word, letters among them. -/
theorem isBoundary_of_latin {c : Char} (hlow : 0x80 ≤ c.toNat) (hhigh : c.toNat ≤ 0xFF) :
    isBoundary c = true := by
  by_contra hword
  rw [Bool.not_eq_true, isBoundary, if_pos hhigh, Bool.not_eq_false'] at hword
  have hascii : ∀ d : Char, d.toNat < 128 → c ≠ d := by
    rintro d hd rfl
    omega
  have halnum : ¬ c.isAlphanum = true := fun h => by
    have := toNat_lt_of_isAlphanum h
    omega
  simp [halnum, hascii '&' (by decide), hascii ':' (by decide), hascii '.' (by decide),
    hascii '_' (by decide), hascii '*' (by decide)] at hword

/-! ## Symbols -/

/-- A text that can be the word of a segment and is the symbol of that word. -/
structure IsSymbol (symbol : String) : Prop where
  word : ∀ c ∈ symbol.toList, isBoundary c = false
  symbolOf_eq : symbolOf symbol.toList = some symbol.toList

theorem IsSymbol.ne_nil {symbol : String} (h : IsSymbol symbol) : symbol.toList ≠ [] :=
  ne_nil_of_symbolOf h.symbolOf_eq

theorem beforeCast_eq_self {cs : List Char} (h : ':' ∉ cs) : symbolOf.beforeCast cs = cs := by
  induction cs with
  | nil => rfl
  | cons c cs ih =>
      rw [List.mem_cons, not_or] at h
      rw [symbolOf.beforeCast, if_neg (by simp [Ne.symm h.1]), ih h.2]

/-- A mark with word characters but no colon behind it is a symbol. -/
theorem isSymbol_of_mark {symbol : String} {mark : Char} {rest : List Char}
    (hsymbol : symbol.toList = mark :: rest) (hmark : isMark mark = true) (hne : rest ≠ [])
    (hchars : ∀ c ∈ rest, isBoundary c = false ∧ c ≠ ':') : IsSymbol symbol := by
  have hcolon : ':' ∉ rest := fun hmem => (hchars ':' hmem).2 rfl
  have hcast : ¬ (mark = ':' && rest.head? = some ':') = true := by
    simp only [Bool.and_eq_true, decide_eq_true_eq, not_and]
    exact fun _ hhead => hcolon (List.mem_of_head? hhead)
  have hbefore : symbolOf.beforeCast (mark :: rest) = mark :: rest := by
    rw [symbolOf.beforeCast, if_neg hcast, beforeCast_eq_self hcolon]
  have hlength : (mark :: rest).length > 1 := by
    rw [List.length_cons]
    exact Nat.succ_lt_succ (List.length_pos_iff.mpr hne)
  constructor
  · intro c hc
    rw [hsymbol, List.mem_cons] at hc
    rcases hc with rfl | hc
    · rw [isMark, Bool.or_eq_true, beq_iff_eq, beq_iff_eq] at hmark
      rcases hmark with rfl | rfl <;> decide
    · exact (hchars c hc).1
  · simp only [hsymbol, symbolOf, not_isMark_eq, List.dropWhile_cons, hmark, Bool.not_true,
      Bool.false_eq_true, if_false, hbefore, if_pos hlength]

/-! ## Templates of symbols -/

/-- A word at the front of a template is its first piece. -/
theorem piece_of_word {word cs : List Char} (hne : word ≠ [])
    (hword : ∀ c ∈ word, isBoundary c = false) (hcs : ∀ c ∈ cs.head?, isBoundary c = true) :
    piece (word ++ cs) = ⟨[], word, cs.take 1, cs.drop 1⟩ := by
  obtain ⟨c, rest, rfl⟩ := List.exists_cons_of_ne_nil hne
  have hc := hword c List.mem_cons_self
  obtain ⟨hquote, hdash, -⟩ := word_char hc
  -- nothing is skipped, for the first character is no quote, dash or boundary
  have hlead : lead .plain (c :: rest ++ cs) = ⟨[], false, c :: rest ++ cs⟩ := by
    simp [lead, hquote, hdash, hc]
  have hall : ∀ d ∈ c :: rest, (!isBoundary d) = true := fun d hd => by rw [hword d hd]; rfl
  have htake : (c :: rest ++ cs).takeWhile (!isBoundary ·) = c :: rest := by
    rw [List.takeWhile_append_of_pos hall]
    cases cs with
    | nil => simp
    | cons d ds => simp [hcs d (by simp)]
  have hdrop : (c :: rest ++ cs).dropWhile (!isBoundary ·) = cs := by
    rw [List.dropWhile_append_of_pos hall]
    cases cs with
    | nil => rfl
    | cons d ds => simp [hcs d (by simp)]
  rw [piece, hlead, Lead.piece, if_neg Bool.false_ne_true, htake, hdrop]

section TwoSymbols

variable {first second : String} (hfirst : IsSymbol first) (hsecond : IsSymbol second)

include hfirst hsecond

theorem pieces_of_symbols :
    pieces (first ++ " " ++ second).toList
      = [⟨[], first.toList, [' '], second.toList⟩, ⟨[], second.toList, [], []⟩] := by
  have hcut : (first ++ " " ++ second).toList = first.toList ++ ' ' :: second.toList := by
    simp
  have hpiece : piece (first.toList ++ ' ' :: second.toList)
      = ⟨[], first.toList, [' '], second.toList⟩ :=
    piece_of_word hfirst.ne_nil hfirst.word (by simp; decide)
  have hpiece' : piece (second.toList ++ []) = ⟨[], second.toList, [], []⟩ :=
    piece_of_word hsecond.ne_nil hsecond.word (by simp)
  rw [List.append_nil] at hpiece'
  rw [hcut, pieces_of_ne_nil (by simp), hpiece, pieces_of_ne_nil hsecond.ne_nil, hpiece',
    pieces_nil]

theorem exists_segments_of_symbols :
    ∃ s s' : Segment, segments (first ++ " " ++ second) = [s, s']
      ∧ s.symbol = some first ∧ s.text = first ++ " "
      ∧ s'.symbol = some second ∧ s'.text = second := by
  refine ⟨_, _, by rw [segments_eq, pieces_of_symbols hfirst hsecond]; rfl, ?_, ?_, ?_, ?_⟩
  · simp [Piece.segment, hfirst.symbolOf_eq]
  · have hclean : clean .plain false [' '] = [' '] := by decide
    simp [Piece.segment, Piece.text, Piece.source,
      clean_word hfirst.word hfirst.ne_nil, hclean]
  · simp [Piece.segment, hsecond.symbolOf_eq]
  · have hclean := clean_word hsecond.word hsecond.ne_nil false []
    rw [List.append_nil] at hclean
    simp [Piece.segment, Piece.text, Piece.source, hclean, clean]

theorem symbols_of_symbols : symbols (first ++ " " ++ second) = [first, second] := by
  obtain ⟨s, s', hsegments, hs, -, hs', -⟩ := exists_segments_of_symbols hfirst hsecond
  simp [symbols, hsegments, hs, hs']

end TwoSymbols

/-- The symbol of a segment is replaced at the front of its text. -/
theorem resolveSegment_of_symbol {source : Source} {entries : Entries} {currentSchema : String}
    {s : Segment} {symbol image closing : String} (hsymbol : IsSymbol symbol)
    (hs : s.symbol = some symbol) (htext : s.text = symbol ++ closing)
    (hclosing : ∀ c ∈ closing.toList, isBoundary c = true)
    (himage : replacement? source entries currentSchema symbol s.text = some image)
    (strict : Bool) :
    resolveSegment source entries currentSchema strict s = .ok (image ++ closing) := by
  -- the closing character is in no symbol
  have hkeeps : ¬ symbol.toList <:+: closing.toList := by
    intro hoccurs
    obtain ⟨c, rest, hcons⟩ := List.exists_cons_of_ne_nil hsymbol.ne_nil
    have hc : c ∈ symbol.toList := by
      rw [hcons]
      exact List.mem_cons_self
    have hword := hsymbol.word c hc
    rw [hclosing c (hoccurs.subset hc)] at hword
    cases hword
  have hreplaced : Text.replaceAll symbol.toList image.toList s.text.toList
      = image.toList ++ closing.toList := by
    rw [htext, String.toList_append, Text.replaceAll_pattern_append hsymbol.ne_nil,
      Text.replaceAll_of_not_infix hkeeps]
  simp only [resolveSegment, hs, himage, hreplaced, String.ofList_append, String.ofList_toList]

/-- Two symbols with a blank between them are resolved one by one. -/
theorem resolve_of_symbols {source : Source} {currentSchema first second image image' : String}
    (hfirst : IsSymbol first) (hsecond : IsSymbol second)
    (himage : ∀ text, replacement? source (offered source [first, second]) currentSchema first text
      = some image)
    (himage' : ∀ text, replacement? source (offered source [first, second]) currentSchema second
      text = some image') (strict : Bool) :
    resolve (first ++ " " ++ second) source currentSchema strict
      = .ok (image ++ " " ++ image') := by
  have hsymbols := symbols_of_symbols hfirst hsecond
  obtain ⟨s, s', hsegments, hs, htext, hs', htext'⟩ := exists_segments_of_symbols hfirst hsecond
  rw [symbols, hsegments] at hsymbols
  have hfront := resolveSegment_of_symbol hfirst hs htext (by simp; decide) (himage s.text) strict
  have hback : resolveSegment source (offered source [first, second]) currentSchema strict s'
      = .ok (image' ++ "") :=
    resolveSegment_of_symbol hsecond hs' (by rw [htext', String.append_empty]) (by simp)
      (himage' s'.text) strict
  rw [String.append_empty] at hback
  simp only [resolve, hsegments, hsymbols]
  rw [mapM_eq_ok_iff.mpr (.cons hfront (.cons hback .nil))]
  show Except.ok (String.join [image ++ " ", image']) = _
  rw [String.join_cons, String.join_cons, String.join_nil, String.append_empty]

/-! ## The symbols of a template -/

theorem symbols_eq (query : String) :
    symbols query
      = (pieces query.toList).filterMap fun p => (symbolOf p.word).map String.ofList := by
  have hsegments : ∀ (start : Nat) (ps : List Piece),
      (segmentsOf start ps).filterMap (·.symbol)
        = ps.filterMap fun p => (symbolOf p.word).map String.ofList := by
    intro start ps
    induction ps generalizing start with
    | nil => rfl
    | cons p ps ih => rw [segmentsOf, List.filterMap_cons, List.filterMap_cons, ih]; rfl
  rw [symbols, segments_eq, hsegments]

/-- No symbol of a template holds a boundary character. -/
theorem not_isBoundary_of_mem_symbols {query symbol : String} (h : symbol ∈ symbols query) :
    ∀ c ∈ symbol.toList, isBoundary c = false := by
  rw [symbols_eq, List.mem_filterMap] at h
  obtain ⟨p, hp, hsymbol⟩ := h
  obtain ⟨word, hword, rfl⟩ := Option.map_eq_some_iff.mp hsymbol
  obtain ⟨earlier, later, hsplit⟩ := List.append_of_mem hp
  obtain ⟨-, hpiece, -⟩ := pieces_eq_append hsplit
  rw [String.toList_ofList]
  refine symbol_word hword ?_
  rw [← hpiece]
  exact piece_word _

end SchemaEvolution.Template
