import SchemaEvolution.Proofs.Template.Mentions

set_option autoImplicit false

/-! # The text that a template is resolved to

Resolving goes through the segments of a template. What carries no symbol is left as it is. A symbol
stands for the entry that it has in the first mentioned table with one, in the order of mention
(`TakesEntry`), and a reference in the current schema for the table of the model that it names
(`StandsFor`). The text is that of the segments with their symbols replaced, and there is one unless
an unknown symbol is refused (`resolve_eq_ok_iff`).
-/

namespace SchemaEvolution.Template

/-! ## The first mention -/

/-- A symbol takes the entry that it has in the table of some mention, when no table that is
mentioned earlier has one for it. -/
def TakesEntry (source : Source) (mentions : List String) (symbol : String) (e : Entry) : Prop :=
  ∃ before mention after t, mentions = before ++ mention :: after
    ∧ mentioned? source mention = some t ∧ t.get? symbol = some e
    ∧ ∀ earlier ∈ before, ∀ t', mentioned? source earlier = some t' → t'.get? symbol = none

theorem entryOf?_eq_some_iff {source : Source} {mentions : List String} {symbol : String}
    {e : Entry} :
    entryOf? source mentions symbol = some e ↔ TakesEntry source mentions symbol e := by
  rw [entryOf?, List.findSome?_eq_some_iff]
  constructor
  · rintro ⟨before, mention, after, hsplit, hfound, hbefore⟩
    obtain ⟨t, ht, he⟩ := Option.bind_eq_some_iff.mp hfound
    refine ⟨before, mention, after, t, hsplit, ht, he, fun earlier hearlier t' ht' => ?_⟩
    exact Option.bind_eq_none_iff.mp (hbefore earlier hearlier) t' ht'
  · rintro ⟨before, mention, after, t, hsplit, ht, he, hbefore⟩
    refine ⟨before, mention, after, hsplit, Option.bind_eq_some_iff.mpr ⟨t, ht, he⟩, ?_⟩
    exact fun earlier hearlier => Option.bind_eq_none_iff.mpr (hbefore earlier hearlier)

/-! ## What a symbol stands for -/

/-- What a symbol stands for in a segment with some text. -/
inductive StandsFor (source : Source) (mentions : List String) (currentSchema : String) :
    String → String → String → Prop
  /-- A reference in the current schema stands for the table of the model that it names, in that
  schema. -/
  | reference {symbol : String} {t : SymbolTable} (text : String)
    (hsymbol : symbol.toList = currentSchemaMark ++ ("&" ++ t.typeName).toList)
    (ht : mentioned? source ("&" ++ t.typeName) = some t) :
    StandsFor source mentions currentSchema symbol text (qualify currentSchema t.table)
  /-- Any other symbol stands for its entry, which the current schema may qualify. -/
  | entry {symbol : String} {e : Entry} (text : String)
    (hmark : ¬ currentSchemaMark <+: symbol.toList) (he : TakesEntry source mentions symbol e) :
    StandsFor source mentions currentSchema symbol text
      (if takesCurrentSchema currentSchema symbol text e then currentSchema ++ "." ++ e.text
        else e.text)

theorem inCurrentSchema?_eq_some_iff {currentSchema : String} {reference : List Char}
    {t : SymbolTable} {image : String} :
    inCurrentSchema? currentSchema reference t = some image
      ↔ ("&" ++ t.typeName).toList = reference ∧ qualify currentSchema t.table = image := by
  rw [inCurrentSchema?, Option.ite_none_right_eq_some, Option.some.injEq]

section Segments

variable {source : Source} {mentions : List String} {currentSchema symbol text image : String}

theorem replacement?_eq_some_iff :
    replacement? source (offered source mentions) currentSchema symbol text = some image
      ↔ StandsFor source mentions currentSchema symbol text image := by
  rw [replacement?]
  cases hmark : afterMark? symbol.toList with
  | some reference =>
      have hsymbol := afterMark?_eq_some_iff.mp hmark
      dsimp only
      rw [currentReference?_eq, Option.bind_eq_some_iff]
      constructor
      · rintro ⟨t, ht, himage⟩
        obtain ⟨hname, rfl⟩ := inCurrentSchema?_eq_some_iff.mp himage
        refine .reference text (by rw [hname, hsymbol]) ?_
        rw [← ht, ← hname, String.ofList_toList]
      · intro h
        cases h with
        | @reference t _ hname ht =>
            have hsame := List.append_cancel_left (hsymbol.symm.trans hname)
            refine ⟨t, ?_, inCurrentSchema?_eq_some_iff.mpr ⟨hsame.symm, rfl⟩⟩
            rw [hsame, String.ofList_toList, ht]
        | entry _ hplain _ => exact absurd ⟨reference, hsymbol.symm⟩ hplain
  | none =>
      have hplain := afterMark?_eq_none_iff.mp hmark
      dsimp only
      rw [lookup_offered, Option.map_eq_some_iff]
      constructor
      · rintro ⟨e, he, rfl⟩
        exact .entry text hplain (entryOf?_eq_some_iff.mp he)
      · intro h
        cases h with
        | reference _ hname _ => exact absurd ⟨_, hname.symm⟩ hplain
        | entry _ _ he => exact ⟨_, entryOf?_eq_some_iff.mpr he, rfl⟩

/-! ## Segments and templates -/

/-- The text that a segment is resolved to. A symbol that stands for nothing is kept, unless it is
refused. -/
inductive ResolvesTo (source : Source) (mentions : List String) (currentSchema : String)
    (strict : Bool) : Segment → String → Prop
  | plain {s : Segment} (hsymbol : s.symbol = none) :
    ResolvesTo source mentions currentSchema strict s s.text
  | replaced {s : Segment} {symbol image : String} (hsymbol : s.symbol = some symbol)
    (himage : StandsFor source mentions currentSchema symbol s.text image) :
    ResolvesTo source mentions currentSchema strict s
      (String.ofList (Text.replaceAll symbol.toList image.toList s.text.toList))
  | kept {s : Segment} {symbol : String} (hstrict : strict = false)
    (hsymbol : s.symbol = some symbol)
    (hnone : ∀ image, ¬ StandsFor source mentions currentSchema symbol s.text image) :
    ResolvesTo source mentions currentSchema strict s s.text

theorem resolveSegment_eq_ok_iff {strict : Bool} {s : Segment} {part : String} :
    resolveSegment source (offered source mentions) currentSchema strict s = .ok part
      ↔ ResolvesTo source mentions currentSchema strict s part := by
  rw [resolveSegment]
  cases hsymbol : s.symbol with
  | none =>
      constructor
      · rintro ⟨⟩
        exact .plain hsymbol
      · intro h
        cases h with
        | plain _ => rfl
        | replaced hsome _ | kept _ hsome _ => cases hsymbol.symm.trans hsome
  | some symbol =>
      dsimp only
      cases himage : replacement? source (offered source mentions) currentSchema symbol s.text with
      | some image =>
          have hstands := replacement?_eq_some_iff.mp himage
          constructor
          · rintro ⟨⟩
            exact .replaced hsymbol hstands
          · intro h
            cases h with
            | plain hnone => cases hsymbol.symm.trans hnone
            | replaced hsome himage' =>
                cases hsymbol.symm.trans hsome
                cases himage.symm.trans (replacement?_eq_some_iff.mpr himage')
                rfl
            | kept _ hsome hnone =>
                cases hsymbol.symm.trans hsome
                exact absurd hstands (hnone image)
      | none =>
          have hnone : ∀ image,
              ¬ StandsFor source mentions currentSchema symbol s.text image := by
            intro image hstands
            rw [replacement?_eq_some_iff.mpr hstands] at himage
            cases himage
          constructor
          · intro h
            cases strict with
            | true => cases h
            | false =>
                cases h
                exact .kept rfl hsymbol hnone
          · intro h
            cases h with
            | plain hnone' => cases hsymbol.symm.trans hnone'
            | replaced hsome himage' =>
                cases hsymbol.symm.trans hsome
                exact absurd himage' (hnone _)
            | kept hstrict _ _ =>
                rw [hstrict]
                rfl

end Segments

/-- A template is resolved to what its segments are resolved to, one behind the other. -/
theorem resolve_eq_ok_iff {query : String} {source : Source} {currentSchema : String}
    {strict : Bool} {text : String} :
    resolve query source currentSchema strict = .ok text
      ↔ ∃ parts, List.Forall₂ (ResolvesTo source (symbols query) currentSchema strict)
          (segments query) parts ∧ text = String.join parts := by
  have hparts {parts : List String} :
      (segments query).mapM
          (resolveSegment source (offered source (symbols query)) currentSchema strict) = .ok parts
        ↔ List.Forall₂ (ResolvesTo source (symbols query) currentSchema strict)
          (segments query) parts := by
    rw [mapM_eq_ok_iff]
    simp only [resolveSegment_eq_ok_iff]
  rw [symbols] at hparts ⊢
  rw [resolve]
  constructor
  · intro h
    cases hrun : (segments query).mapM (resolveSegment source
        (offered source ((segments query).filterMap (·.symbol))) currentSchema strict) with
    | error e =>
        simp only [hrun] at h
        cases h
    | ok parts =>
        simp only [hrun] at h
        cases h
        exact ⟨parts, hparts.mp hrun, rfl⟩
  · rintro ⟨parts, hresolved, rfl⟩
    simp only [hparts.mpr hresolved]
    rfl

end SchemaEvolution.Template
