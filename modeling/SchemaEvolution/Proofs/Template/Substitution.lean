import SchemaEvolution.Template.Resolve
import SchemaEvolution.Proofs.Lists
import SchemaEvolution.Proofs.Template.Pieces
import SchemaEvolution.Proofs.Text.Search

set_option autoImplicit false

/-! # What resolving a template replaces

The text of a segment is what leads up to its word, the word, and the boundary character that ends
it; and a word that carries a symbol is an alias, the symbol, and a cast (`text_eq`). Resolving
replaces the symbol wherever it occurs in that text. It cannot occur across the border of two of
these parts, nor in the alias or the boundary character, so beside the symbol itself only the
quoted text before the word and the cast are touched (`replaceAll_text`).
-/

namespace SchemaEvolution.Template

/-! ## The parts of a word -/

/-- Whether a character begins a symbol. -/
def isMark (c : Char) : Bool := c == ':' || c == '&'

/-- What stands in a word before the first mark. -/
def aliasOf (word : List Char) : List Char := word.takeWhile (!isMark ·)

/-- What stands in a word behind its symbol: nothing, or a cast. -/
def castOf (word : List Char) : List Char :=
  (word.dropWhile (!isMark ·)).drop (symbolOf.beforeCast (word.dropWhile (!isMark ·))).length

theorem beforeCast_prefix (cs : List Char) : symbolOf.beforeCast cs <+: cs := by
  induction cs with
  | nil => exact List.nil_prefix
  | cons c cs ih =>
      rw [symbolOf.beforeCast]
      split_ifs
      · exact List.nil_prefix
      · exact List.cons_prefix_cons.mpr ⟨rfl, ih⟩

theorem not_isMark_eq (c : Char) : (c != ':' && c != '&') = !isMark c := by
  simp only [isMark, bne, Bool.not_or]

section Word

variable {word symbol : List Char} (h : symbolOf word = some symbol)

include h

theorem beforeCast_of_symbolOf : symbolOf.beforeCast (word.dropWhile (!isMark ·)) = symbol := by
  simp only [symbolOf, not_isMark_eq] at h
  split_ifs at h
  exact Option.some_injective _ h

theorem ne_nil_of_symbolOf : word ≠ [] := by
  rintro rfl
  cases h

theorem word_eq : word = aliasOf word ++ (symbol ++ castOf word) := by
  have hbefore := beforeCast_of_symbolOf h
  have hfits := beforeCast_prefix (word.dropWhile (!isMark ·))
  rw [List.prefix_iff_eq_append, hbefore] at hfits
  rw [castOf, hbefore, hfits, aliasOf, List.takeWhile_append_dropWhile]

theorem exists_mark_of_symbolOf : ∃ mark rest, symbol = mark :: rest ∧ isMark mark = true := by
  have hbefore := beforeCast_of_symbolOf h
  have hfits := beforeCast_prefix (word.dropWhile (!isMark ·))
  have hhead := List.head?_dropWhile_not (!isMark ·) word
  rw [hbefore] at hfits
  cases symbol with
  | nil =>
      simp only [symbolOf, not_isMark_eq, hbefore] at h
      cases h
  | cons mark rest =>
      obtain ⟨tail, htail⟩ := hfits
      rw [← htail, List.cons_append, List.head?_cons] at hhead
      exact ⟨mark, rest, rfl, by simpa using hhead⟩

theorem symbol_word (hword : ∀ c ∈ word, isBoundary c = false) :
    ∀ c ∈ symbol, isBoundary c = false := by
  intro c hc
  refine hword c ?_
  rw [word_eq h]
  exact List.mem_append_right _ (List.mem_append_left _ hc)

end Word

/-! ## The parts of a segment -/

/-- What leads up to the word in the text of a piece. -/
def Piece.leading (p : Piece) : List Char := clean .plain false p.skipped

/-- What ends the word in the text of a piece. -/
def Piece.trailing (p : Piece) : List Char := clean .plain false p.closing

/-- The text of a piece with an image in place of the symbol that its word carries. -/
def Piece.withImage (p : Piece) (image : List Char) : List Char :=
  p.leading ++ (aliasOf p.word ++ image ++ castOf p.word) ++ p.trailing

theorem clean_word {word : List Char} (hword : ∀ c ∈ word, isBoundary c = false)
    (hne : word ≠ []) (spaced : Bool) (rest : List Char) :
    clean .plain spaced (word ++ rest) = word ++ clean .plain false rest := by
  induction word generalizing spaced with
  | nil => exact absurd rfl hne
  | cons c word ih =>
      obtain ⟨hquote, hdash, hcontrol⟩ := word_char (hword c List.mem_cons_self)
      have hrest : ∀ d ∈ word, isBoundary d = false := fun d hd =>
        hword d (List.mem_cons_of_mem c hd)
      have hc : clean .plain spaced (c :: (word ++ rest))
          = c :: clean .plain false (word ++ rest) := by
        simp [clean, hquote, hdash, hcontrol]
      rw [List.cons_append, hc]
      by_cases hnil : word = []
      · rw [hnil]
        rfl
      · rw [ih hrest hnil, List.cons_append]

/-- The text of a segment with a word has the word in it as it is written. -/
theorem text_of_word {cs : List Char} (h : (piece cs).word ≠ []) :
    (piece cs).text = (piece cs).leading ++ (piece cs).word ++ (piece cs).trailing := by
  have hword := piece_word cs
  have hplain := modeAt_skipped cs h
  generalize piece cs = p at h hword hplain ⊢
  obtain ⟨c, word, hcons⟩ := List.exists_cons_of_ne_nil h
  have hhead : (p.word ++ p.closing).head? ≠ some '-' := by
    rw [hcons, List.cons_append, List.head?_cons, ne_eq, Option.some.injEq]
    exact (word_char (hword c (by rw [hcons]; exact List.mem_cons_self))).2.1
  have hmode : modeAt .plain p.skipped (p.word ++ p.closing) = .plain := by
    refine Eq.trans (modeAt_congr .plain p.skipped ?_) hplain
    rw [hcons]
    exact Iff.rfl
  obtain ⟨spaced, hclean⟩ := clean_append .plain false p.skipped hhead
  rw [Piece.text, Piece.source, List.append_assoc, hclean, hmode, clean_word hword h]
  simp only [Piece.leading, Piece.trailing, List.append_assoc]

/-- A symbol stands in the text of its segment. -/
theorem text_eq {cs symbol : List Char} (h : symbolOf (piece cs).word = some symbol) :
    (piece cs).text = (piece cs).withImage symbol := by
  rw [text_of_word (ne_nil_of_symbolOf h), Piece.withImage, List.append_assoc (aliasOf _),
    ← word_eq h]

/-! ## What leads up to a word -/

theorem lead_comment (cs : List Char) :
    (lead .comment cs).lineEnd = true ∨ (lead .comment cs).rest = [] := by
  induction cs with
  | nil => exact .inr rfl
  | cons c cs ih =>
      rw [lead]
      split_ifs
      · exact .inl rfl
      · exact ih

theorem isBoundary_of_mem_cleaned_plain {c d : Char} {spaced : Bool} {rest : List Char}
    (hc : isBoundary c = true) (hd : d ∈ Mode.plain.cleaned spaced c rest) :
    isBoundary d = true := by
  simp only [Mode.cleaned] at hd
  split_ifs at hd <;> simp only [List.not_mem_nil, List.mem_singleton] at hd <;> rw [hd]
  · exact hc
  · decide
  · exact hc

/-- What is written for the last character before a word is a boundary character. -/
theorem isBoundary_of_mem_cleaned {m : Mode} {c d : Char} {spaced : Bool} {rest : List Char}
    (hc : m = .plain → isBoundary c = true) (hm : ∀ mark, m = .quoted mark → isQuote mark = true)
    (hafter : m.after c rest = .plain) (hd : d ∈ m.cleaned spaced c rest) :
    isBoundary d = true := by
  cases m with
  | comment => cases hd
  | quoted mark =>
      simp only [Mode.after] at hafter
      split_ifs at hafter with hclosed
      rw [Mode.cleaned, List.mem_singleton] at hd
      rw [hd, hclosed]
      exact isBoundary_of_isQuote (hm mark rfl)
  | plain => exact isBoundary_of_mem_cleaned_plain (hc rfl) hd

/-- Cleaning what leads up to a word goes on behind each character. -/
theorem clean_lead_cons {m : Mode} {c : Char} {cs : List Char}
    (hlead : lead m (c :: cs) = (lead (m.after c cs) cs).cons c)
    (hend : (lead (m.after c cs) cs).lineEnd = false) (spaced : Bool) :
    clean m spaced (lead m (c :: cs)).skipped
      = m.cleaned spaced c cs
        ++ clean (m.after c cs) (m.spacedAfter spaced c cs) (lead (m.after c cs) cs).skipped := by
  -- what follows what is skipped is a word, which begins with no dash
  have hword : (lead (m.after c cs) cs).rest.head? = some '-' ↔
      ([] : List Char).head? = some '-' := by
    refine iff_of_false (fun hdash => ?_) (by simp)
    exact absurd (lead_rest _ cs hend '-' hdash) (by decide)
  have hopens : opensComment c (lead (m.after c cs) cs).skipped = opensComment c cs := by
    have hcut := opensComment_append c (lead (m.after c cs) cs).skipped hword
    rw [lead_append, List.append_nil] at hcut
    exact hcut.symm
  rw [hlead, Lead.cons, clean_cons, cleaned_congr m spaced hopens, after_congr m hopens,
    spacedAfter_congr m spaced hopens]

/-- What leads up to a word is written with a boundary character at its end, and a quoted span that
is open leaves something to be written. -/
theorem clean_lead {m : Mode} {cs : List Char} (hend : (lead m cs).lineEnd = false)
    (hrest : (lead m cs).rest ≠ []) (hm : ∀ mark, m = .quoted mark → isQuote mark = true)
    (spaced : Bool) :
    (∀ d ∈ (clean m spaced (lead m cs).skipped).getLast?, isBoundary d = true)
      ∧ (m ≠ .plain → clean m spaced (lead m cs).skipped ≠ []) := by
  induction cs generalizing m spaced with
  | nil => exact absurd rfl hrest
  | cons c cs ih =>
      have hcomment : m ≠ .comment := by
        rintro rfl
        rcases lead_comment (c :: cs) with hline | hnil
        · rw [hline] at hend
          cases hend
        · exact hrest hnil
      rcases lead_cons m c cs with ⟨rfl, -, -⟩ | ⟨rfl, -, hlead⟩ | ⟨hboundary, hlead⟩
      · exact absurd rfl hcomment
      · rw [hlead]
        exact ⟨by simp [clean], fun hplain => absurd rfl hplain⟩
      · rw [hlead] at hend hrest
        rw [clean_lead_cons hlead hend]
        obtain ⟨hlast, hopen⟩ := ih hend hrest (fun _ => isQuote_of_after hm)
          (m.spacedAfter spaced c cs)
        constructor
        · intro d hd
          rw [List.getLast?_append, Option.mem_def, Option.or_eq_some_iff,
            List.getLast?_eq_none_iff] at hd
          rcases hd with hd | ⟨hnil, hd⟩
          · exact hlast d hd
          · -- nothing is written behind the character, so no span is open there
            have hafter : m.after c cs = .plain := by
              by_contra hne
              exact hopen hne hnil
            exact isBoundary_of_mem_cleaned hboundary hm hafter (List.mem_of_getLast? hd)
        · intro hne
          cases m with
          | plain => exact absurd rfl hne
          | comment => exact absurd rfl hcomment
          | quoted mark => exact List.cons_ne_nil _ _

theorem leading_apart {cs : List Char} (h : (piece cs).word ≠ []) :
    ∀ c ∈ (piece cs).leading.getLast?, isBoundary c = true := by
  rw [Piece.leading, piece_skipped]
  refine (clean_lead ?_ ?_ (fun _ hquoted => by cases hquoted) false).1
  · by_contra hline
    rw [Bool.not_eq_false] at hline
    exact h (by rw [piece, Lead.piece, if_pos hline])
  · intro hrest
    refine h ?_
    rw [piece, Lead.piece, hrest]
    split <;> rfl

theorem trailing_boundary (cs : List Char) : ∀ c ∈ (piece cs).trailing, isBoundary c = true := by
  intro d hd
  rw [Piece.trailing] at hd
  rcases piece_closing cs with hnil | ⟨c, hclosing, hc, -⟩
  · rw [hnil] at hd
    cases hd
  · rw [hclosing, clean_cons, List.mem_append] at hd
    rcases hd with hd | hd
    · exact isBoundary_of_mem_cleaned_plain hc hd
    · cases hd

/-! ## Replacing a symbol -/

/-- In the text of a segment, only what leads up to the word and the cast can hold further
occurrences of the symbol. -/
theorem replaceAll_text {cs symbol : List Char} (h : symbolOf (piece cs).word = some symbol)
    (image : List Char) :
    Text.replaceAll symbol image (piece cs).text
      = Text.replaceAll symbol image (piece cs).leading
        ++ (aliasOf (piece cs).word ++ image
          ++ Text.replaceAll symbol image (castOf (piece cs).word))
        ++ (piece cs).trailing := by
  have hleading := leading_apart (ne_nil_of_symbolOf h)
  have htrailing := trailing_boundary cs
  have hsymbol := symbol_word h (piece_word cs)
  rw [text_eq h]
  generalize piece cs = p at h hleading htrailing hsymbol ⊢
  obtain ⟨mark, rest, rfl, hmark⟩ := exists_mark_of_symbolOf h
  have hapart : ∀ c, isBoundary c = true → c ∉ mark :: rest := by
    intro c hc hmem
    rw [hsymbol c hmem] at hc
    cases hc
  have halias : mark ∉ aliasOf p.word := by
    intro hmem
    have hnot := List.mem_takeWhile_imp hmem
    rw [hmark] at hnot
    cases hnot
  have hkeeps : ∀ {text : List Char}, mark ∉ text →
      Text.replaceAll (mark :: rest) image text = text := fun hnot =>
    Text.replaceAll_of_not_infix fun hoccurs => hnot (hoccurs.subset List.mem_cons_self)
  calc Text.replaceAll (mark :: rest) image (p.withImage (mark :: rest))
      = Text.replaceAll (mark :: rest) image
          (p.leading ++ (aliasOf p.word ++ (mark :: rest ++ (castOf p.word ++ p.trailing)))) := by
        simp only [Piece.withImage, List.append_assoc]
    _ = Text.replaceAll (mark :: rest) image p.leading
          ++ (aliasOf p.word
            ++ (image ++ Text.replaceAll (mark :: rest) image (castOf p.word ++ p.trailing))) := by
        rw [Text.replaceAll_append
            (Text.cutsNone_of_getLast? (fun c hc => hapart c (hleading c hc)) _),
          Text.replaceAll_append (Text.cutsNone_of_not_mem halias _), hkeeps halias,
          Text.replaceAll_pattern_append (List.cons_ne_nil mark rest)]
    _ = Text.replaceAll (mark :: rest) image p.leading
          ++ (aliasOf p.word
            ++ (image
              ++ (Text.replaceAll (mark :: rest) image (castOf p.word) ++ p.trailing))) := by
        rw [Text.replaceAll_append (Text.cutsNone_of_head? _ fun c hc =>
            hapart c (htrailing c (List.mem_of_head? hc))),
          hkeeps fun hmem => hapart mark (htrailing mark hmem) List.mem_cons_self]
    _ = Text.replaceAll (mark :: rest) image p.leading
          ++ (aliasOf p.word ++ image ++ Text.replaceAll (mark :: rest) image (castOf p.word))
          ++ p.trailing := by
        simp only [List.append_assoc]

section Images

variable (query : String) (source : Source) (currentSchema : String)

/-- The symbol of a piece of a template and what stands for it. -/
def Piece.image? (p : Piece) : Option (List Char × List Char) :=
  (symbolOf p.word).bind fun symbol =>
    (replacement? source (offered source (symbols query)) currentSchema (String.ofList symbol)
      (String.ofList p.text)).map fun image => (symbol, image.toList)

/-- The text of a piece in which the symbol of its word is replaced, and nothing else. -/
def Piece.substituted (p : Piece) : List Char :=
  match p.image? query source currentSchema with
  | none => p.text
  | some (_, image) => p.withImage image

/-- The text of a piece in which the symbol of its word is replaced, there and wherever else it
occurs. -/
def Piece.resolved (p : Piece) : List Char :=
  match p.image? query source currentSchema with
  | none => p.text
  | some (symbol, image) =>
    Text.replaceAll symbol image p.leading
      ++ (aliasOf p.word ++ image ++ Text.replaceAll symbol image (castOf p.word)) ++ p.trailing

/-- Whether the symbol of a piece that stands for another text occurs only as the symbol of its
word: not in quoted text before the word, and not in the cast. -/
def Piece.NamesOnce (p : Piece) : Prop :=
  ∀ named ∈ p.image? query source currentSchema,
    named.2 = named.1 ∨ (¬ named.1 <:+: p.leading ∧ ¬ named.1 <:+: castOf p.word)

instance (p : Piece) : Decidable (p.NamesOnce query source currentSchema) :=
  inferInstanceAs (Decidable (∀ named ∈ p.image? query source currentSchema,
    named.2 = named.1 ∨ (¬ named.1 <:+: p.leading ∧ ¬ named.1 <:+: castOf p.word)))

theorem symbolOf_of_image? {p : Piece} {symbol image : List Char}
    (h : p.image? query source currentSchema = some (symbol, image)) :
    symbolOf p.word = some symbol := by
  rw [Piece.image?, Option.bind_eq_some_iff] at h
  obtain ⟨symbol', hsymbol, himage⟩ := h
  obtain ⟨_, -, heq⟩ := Option.map_eq_some_iff.mp himage
  cases heq
  exact hsymbol

theorem resolved_eq_substituted_iff (cs : List Char) :
    (piece cs).resolved query source currentSchema
        = (piece cs).substituted query source currentSchema
      ↔ (piece cs).NamesOnce query source currentSchema := by
  rw [Piece.resolved, Piece.substituted, Piece.NamesOnce]
  cases himage : (piece cs).image? query source currentSchema with
  | none => simp
  | some found =>
      obtain ⟨symbol, image⟩ := found
      have hsymbol := symbolOf_of_image? query source currentSchema himage
      obtain ⟨mark, rest, hmark, -⟩ := exists_mark_of_symbolOf hsymbol
      have hne : symbol ≠ [] := by
        rw [hmark]
        exact List.cons_ne_nil mark rest
      dsimp only
      rw [Piece.withImage, List.append_cancel_right_eq, Text.replaceAll_sides_eq_iff hne]
      constructor
      · rintro honce _ ⟨⟩
        exact honce
      · intro honce
        exact honce (symbol, image) rfl

/-- What a segment is resolved to when unknown symbols are left as written. -/
theorem resolveSegment_segment (start : Nat) (cs : List Char) :
    resolveSegment source (offered source (symbols query)) currentSchema false
        ((piece cs).segment start)
      = .ok (String.ofList ((piece cs).resolved query source currentSchema)) := by
  have hreplaced := @replaceAll_text cs
  generalize piece cs = p at hreplaced ⊢
  rw [resolveSegment, Piece.segment, Piece.resolved, Piece.image?]
  cases hsymbol : symbolOf p.word with
  | none => rfl
  | some symbol =>
      simp only [Option.map_some, Option.bind_some]
      cases replacement? source (offered source (symbols query)) currentSchema
          (String.ofList symbol) (String.ofList p.text) with
      | none => rfl
      | some image =>
          simp only [Option.map_some, String.toList_ofList, hreplaced hsymbol]

theorem mapM_resolveSegment (start : Nat) (cs : List Char) :
    (segmentsOf start (pieces cs)).mapM
        (resolveSegment source (offered source (symbols query)) currentSchema false)
      = .ok ((pieces cs).map fun p => String.ofList (p.resolved query source currentSchema)) := by
  rw [mapM_eq_ok_iff]
  fun_induction pieces cs generalizing start with
  | case1 => exact .nil
  | case2 cs _ ih => exact .cons (resolveSegment_segment query source currentSchema start cs) (ih _)

end Images

theorem join_map_ofList (texts : List (List Char)) :
    String.join (texts.map String.ofList) = String.ofList texts.flatten := by
  induction texts with
  | nil => rfl
  | cons text texts ih =>
      rw [List.map_cons, String.join_cons, ih, List.flatten_cons, String.ofList_append]

/-- Resolving a template in lenient mode, segment by segment. The segments are those of the pieces
that the template is cut into, and a symbol stands in the text of its segment between an alias and a
cast. Each segment is resolved on its own. It is the text in which the symbol of its word is
replaced and nothing else, or the text itself when nothing stands for the symbol, exactly when the
symbol does not occur in quoted text before its word or in its cast as well; there it is replaced
too. -/
theorem resolve_lenient (query : String) (source : Source) (currentSchema : String) :
    segments query = segmentsOf 0 (pieces query.toList)
      ∧ (∀ p ∈ pieces query.toList, ∀ symbol, symbolOf p.word = some symbol →
        p.text = p.withImage symbol)
      ∧ resolve query source currentSchema false
        = .ok (String.ofList ((pieces query.toList).flatMap
          (Piece.resolved query source currentSchema)))
      ∧ (∀ p ∈ pieces query.toList,
        p.resolved query source currentSchema = p.substituted query source currentSchema
          ↔ p.NamesOnce query source currentSchema)
      ∧ ((∀ p ∈ pieces query.toList, p.NamesOnce query source currentSchema) →
        resolve query source currentSchema false
          = .ok (String.ofList ((pieces query.toList).flatMap
            (Piece.substituted query source currentSchema)))) := by
  have hpiece : ∀ p ∈ pieces query.toList, ∃ cs, piece cs = p := by
    intro p hp
    obtain ⟨earlier, later, hsplit⟩ := List.append_of_mem hp
    exact ⟨_, (pieces_eq_append hsplit).2.1⟩
  have hresolve : resolve query source currentSchema false
      = .ok (String.ofList ((pieces query.toList).flatMap
        (Piece.resolved query source currentSchema))) := by
    have hparts := mapM_resolveSegment query source currentSchema 0 query.toList
    rw [← segments_eq] at hparts
    have hjoin := join_map_ofList ((pieces query.toList).map
      (Piece.resolved query source currentSchema))
    rw [List.map_map] at hjoin
    rw [symbols] at hparts
    rw [resolve, hparts]
    show Except.ok (String.join _) = _
    rw [List.flatMap, ← hjoin]
    rfl
  have hiff : ∀ p ∈ pieces query.toList,
      p.resolved query source currentSchema = p.substituted query source currentSchema
        ↔ p.NamesOnce query source currentSchema := by
    intro p hp
    obtain ⟨cs, rfl⟩ := hpiece p hp
    exact resolved_eq_substituted_iff query source currentSchema cs
  refine ⟨segments_eq query, ?_, hresolve, hiff, fun honce => ?_⟩
  · intro p hp symbol hsymbol
    obtain ⟨cs, rfl⟩ := hpiece p hp
    exact text_eq hsymbol
  · rw [hresolve, List.flatMap_congr fun p hp => (hiff p hp).mpr (honce p hp)]

/-- The symbols of a model with one field, in a namespace. -/
def accountSource : Source :=
  [("Account", ⟨"Account", "account", [("&Account", ⟨"shop.account", "shop"⟩),
    (":Account.*", ⟨"shop.account.*", "shop"⟩), (":ID", ⟨"id", ""⟩),
    (":Account.ID", ⟨"shop.account.id", ""⟩), (":Account.json.ID", ⟨"'id'", ""⟩)]⟩)]

/-- Symbols that occur once are replaced where they stand, and an unknown one is left. -/
theorem resolve_lenient_once :
    (∀ p ∈ pieces "a.:ID::int = :X FROM &Account".toList,
        p.NamesOnce "a.:ID::int = :X FROM &Account" accountSource "")
      ∧ resolve "a.:ID::int = :X FROM &Account" accountSource "" false
        = .ok (String.ofList "a.id::int = :X FROM shop.account".toList) := by
  have honce : ∀ p ∈ pieces "a.:ID::int = :X FROM &Account".toList,
      p.NamesOnce "a.:ID::int = :X FROM &Account" accountSource "" := by
    decide +kernel
  have hsubstituted : (pieces "a.:ID::int = :X FROM &Account".toList).flatMap
      (Piece.substituted "a.:ID::int = :X FROM &Account" accountSource "")
        = "a.id::int = :X FROM shop.account".toList := by
    decide +kernel
  have hresolve :=
    (resolve_lenient "a.:ID::int = :X FROM &Account" accountSource "").2.2.2.2 honce
  rw [hsubstituted] at hresolve
  exact ⟨honce, hresolve⟩

/-- A symbol is also replaced in quoted text before its word, and in its cast. -/
theorem resolve_lenient_twice :
    (resolve "':ID' = :ID FROM &Account" accountSource "" false).toOption
        = some "'id' = id FROM shop.account"
      ∧ (pieces "':ID' = :ID FROM &Account".toList).flatMap
          (Piece.substituted "':ID' = :ID FROM &Account" accountSource "")
        = "':ID' = id FROM shop.account".toList
      ∧ (resolve ":ID::ID FROM &Account" accountSource "" false).toOption
        = some "id:id FROM shop.account"
      ∧ (pieces ":ID::ID FROM &Account".toList).flatMap
          (Piece.substituted ":ID::ID FROM &Account" accountSource "")
        = "id::ID FROM shop.account".toList := by
  refine ⟨?_, ?_, ?_, ?_⟩ <;> decide +kernel

end SchemaEvolution.Template
