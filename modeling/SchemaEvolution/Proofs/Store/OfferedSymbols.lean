import SchemaEvolution.Proofs.Store.Registration
import SchemaEvolution.Proofs.Template.Words

set_option autoImplicit false

/-! # Writing the symbols that a model offers

A model offers three symbols for each stored field, `:Field`, `:Model.Field` and
`:Model.json.Field`. Behind any of them a template has to mention the model. When the names are made
of name characters, the scanner reads such a template as these two symbols, and each stands for its
own entry (`Store.Sound.resolve_field`), unless a field that is declared later has a name with a dot
in it that is spelled like the rest of the symbol. A name with a letter between `U+0080` and
`U+00FF` is in no symbol of any template (`offered_symbols_resolve`).
-/

namespace SchemaEvolution

open Template
open SymbolTable (ofModel)

theorem qualify_of_ne_empty {namespaceName : String} (h : namespaceName ≠ "") (table : String) :
    qualify namespaceName table = namespaceName ++ "." ++ table := by
  rw [qualify, if_neg (by simpa using h)]

/-- A field symbol and a mention of its model. -/
theorem Store.Sound.resolve_field {s : Store} (hs : s.Sound) (hbound : s.namespaceName ≠ "")
    {m : Descriptor} (hm : m ∈ s.models) (hmodel : IsName m.typeName) {symbol text : String}
    {name : List Char} (hsymbol : symbol.toList = ':' :: name) (hne : name ≠ [])
    (hchars : ∀ c ∈ name, isBoundary c = false ∧ c ≠ ':')
    (hmentions : modelOf? symbol.toList = none
      ∨ modelOf? symbol.toList = some m.typeName.toList)
    (hentry : (ofModel m s.namespaceName).get? symbol = some ⟨text, ""⟩)
    (currentSchema : Option String) :
    s.resolve (symbol ++ " &" ++ m.typeName) currentSchema
      = .ok (text ++ " " ++ (s.namespaceName ++ "." ++ m.table)) := by
  have hreference : ("&" ++ m.typeName).toList = '&' :: m.typeName.toList := by simp
  have htable := hs.table?_of_mem hm
  -- the reference brings in the table, whether the field symbol in front of it mentions one or not
  have hsecond : mentioned? s.source ("&" ++ m.typeName) = some (ofModel m s.namespaceName) := by
    rw [mentioned?, hreference, modelOf?_of_typeName hmodel.dot_not_mem, Option.bind_some,
      String.ofList_toList, htable]
  have hfirst : mentioned? s.source symbol = none
      ∨ mentioned? s.source symbol = some (ofModel m s.namespaceName) := by
    rw [mentioned?]
    rcases hmentions with hnone | hsome
    · exact .inl (by rw [hnone, Option.bind_none])
    · exact .inr (by rw [hsome, Option.bind_some, String.ofList_toList, htable])
  have htext : symbol ++ " &" ++ m.typeName = symbol ++ " " ++ ("&" ++ m.typeName) := by
    rw [String.append_assoc, String.append_assoc]
    rfl
  have hplain : afterMark? ("&" ++ m.typeName).toList = none := by
    rw [hreference]
    exact afterMark?_of_dot_not_mem fun hdot => hmodel.dot_not_mem (by simpa using hdot)
  rw [Store.resolve, htext, ← qualify_of_ne_empty hbound]
  refine resolve_of_symbols (isSymbol_of_mark hsymbol (by decide) hne hchars)
    (isSymbol_of_mark hreference (by decide) hmodel.1 hmodel.word) ?_ ?_ s.strict
  · exact replacement?_of_entry (by rw [hsymbol, afterMark?_of_colon])
      (entryOf?_pair hfirst hsecond hentry) (by simp [hsymbol]) _
  · exact replacement?_of_entry hplain
      (entryOf?_pair hfirst hsecond (get?_ofModel_of_typeName m s.namespaceName))
      (fun _ => hbound) _

section Fields

variable {s : Store} (hs : s.Sound) (hbound : s.namespaceName ≠ "") {m : Descriptor}
  (hm : m ∈ s.models) (hmodel : IsName m.typeName) {before after : List Field} {f : Field}
  (hsplit : m.storedFields = before ++ f :: after) (hname : IsName f.name)

include hs hm hsplit in
theorem Store.Sound.ne_of_later : ∀ g ∈ after, g.name ≠ f.name := by
  intro g hg heq
  have hnodup := hs.nodup_storedFields hm
  rw [hsplit, List.map_append, List.map_cons] at hnodup
  refine (List.nodup_cons.mp hnodup.of_append_right).1 ?_
  rw [← heq]
  exact List.mem_map_of_mem hg

include hs hbound hm hmodel hsplit hname

theorem Store.Sound.resolve_bare (currentSchema : Option String) :
    s.resolve (":" ++ f.name ++ " &" ++ m.typeName) currentSchema
      = .ok (f.column ++ " " ++ (s.namespaceName ++ "." ++ m.table)) := by
  have hsymbol : (":" ++ f.name).toList = ':' :: f.name.toList := by simp
  refine hs.resolve_field hbound hm hmodel hsymbol hname.1 hname.word (.inl ?_) ?_ currentSchema
  · rw [hsymbol, modelOf?_of_bare hname.dot_not_mem]
  · exact get?_ofModel_of_field hsplit (hs.ne_of_later hm hsplit) hname.dot_not_mem _

theorem Store.Sound.resolve_dotted
    (hfree : ∀ g ∈ after, g.name ≠ m.typeName ++ "." ++ f.name) (currentSchema : Option String) :
    s.resolve (":" ++ m.typeName ++ "." ++ f.name ++ " &" ++ m.typeName) currentSchema
      = .ok (s.namespaceName ++ "." ++ m.table ++ "." ++ f.column ++ " "
        ++ (s.namespaceName ++ "." ++ m.table)) := by
  have hsymbol : (":" ++ m.typeName ++ "." ++ f.name).toList
      = ':' :: (m.typeName.toList ++ '.' :: f.name.toList) := by simp
  refine hs.resolve_field hbound hm hmodel hsymbol (by simp) ?_ (.inr ?_) ?_ currentSchema
  · simp only [List.forall_mem_append, List.forall_mem_cons]
    exact ⟨hmodel.word, by decide, hname.word⟩
  · rw [hsymbol, modelOf?_of_dotted hmodel.dot_not_mem]
  · rw [← qualify_of_ne_empty hbound]
    exact get?_ofModel_of_dotted hsplit (hs.ne_of_later hm hsplit) hname.dot_not_mem hfree _

theorem Store.Sound.resolve_json
    (hfree : ∀ g ∈ after, g.name ≠ "json." ++ f.name ∧ g.name ≠ m.typeName ++ ".json." ++ f.name)
    (currentSchema : Option String) :
    s.resolve (":" ++ m.typeName ++ ".json." ++ f.name ++ " &" ++ m.typeName) currentSchema
      = .ok ("'" ++ f.jsonName ++ "'" ++ " " ++ (s.namespaceName ++ "." ++ m.table)) := by
  have hsymbol : (":" ++ m.typeName ++ ".json." ++ f.name).toList
      = ':' :: (m.typeName.toList ++ '.' :: ("json".toList ++ '.' :: f.name.toList)) := by simp
  -- the middle part of the symbol is made of name characters as well
  have hjson : IsName "json" := by decide
  refine hs.resolve_field hbound hm hmodel hsymbol (by simp) ?_ (.inr ?_) ?_ currentSchema
  · simp only [List.forall_mem_append, List.forall_mem_cons]
    exact ⟨hmodel.word, by decide, hjson.word, by decide, hname.word⟩
  · rw [hsymbol, modelOf?_of_dotted hmodel.dot_not_mem]
  · exact get?_ofModel_of_json hsplit (hs.ne_of_later hm hsplit) hfree _

end Fields

/-- The symbols that a stored field offers can be written in a template that mentions the model,
when the names of both are made of name characters. `:Field` always stands for the column;
`:Model.Field` and `:Model.json.Field` stand for the column with its table and for the JSON name
unless a field that is declared later is named like the rest of the symbol. When one of the names
holds a character from `U+0080` to `U+00FF`, it is in no symbol of any template. -/
theorem offered_symbols_resolve {s : Store} (hbuilt : s.IsBuilt) (hbound : s.namespaceName ≠ "")
    {m : Descriptor} (hm : m ∈ s.models) {before after : List Field} {f : Field}
    (hsplit : m.storedFields = before ++ f :: after) (currentSchema : Option String) :
    (IsName m.typeName → IsName f.name →
        s.resolve (":" ++ f.name ++ " &" ++ m.typeName) currentSchema
            = .ok (f.column ++ " " ++ (s.namespaceName ++ "." ++ m.table))
          ∧ ((∀ g ∈ after, g.name ≠ m.typeName ++ "." ++ f.name) →
            s.resolve (":" ++ m.typeName ++ "." ++ f.name ++ " &" ++ m.typeName) currentSchema
              = .ok (s.namespaceName ++ "." ++ m.table ++ "." ++ f.column ++ " "
                ++ (s.namespaceName ++ "." ++ m.table)))
          ∧ ((∀ g ∈ after, g.name ≠ "json." ++ f.name
              ∧ g.name ≠ m.typeName ++ ".json." ++ f.name) →
            s.resolve (":" ++ m.typeName ++ ".json." ++ f.name ++ " &" ++ m.typeName) currentSchema
              = .ok ("'" ++ f.jsonName ++ "'" ++ " " ++ (s.namespaceName ++ "." ++ m.table))))
      ∧ ∀ name ∈ [m.typeName, f.name], (∃ c ∈ name.toList, 0x80 ≤ c.toNat ∧ c.toNat ≤ 0xFF) →
        ∀ (query : String), ∀ symbol ∈ symbols query, ¬ name.toList <:+: symbol.toList := by
  constructor
  · intro hmodel hname
    have hs := hbuilt.sound
    exact ⟨hs.resolve_bare hbound hm hmodel hsplit hname currentSchema,
      fun hfree => hs.resolve_dotted hbound hm hmodel hsplit hname hfree currentSchema,
      fun hfree => hs.resolve_json hbound hm hmodel hsplit hname hfree currentSchema⟩
  · intro name _ hlatin query symbol hsymbol hoccurs
    obtain ⟨c, hc, hlow, hhigh⟩ := hlatin
    have hword := not_isBoundary_of_mem_symbols hsymbol c (hoccurs.subset hc)
    rw [isBoundary_of_latin hlow hhigh] at hword
    cases hword

/-- The fields of accounts, with names of several alphabets and one with a dot in it. -/
def letterFields : List FieldDecl :=
  [{ name := "ID", element := { tag := "i64", kind := .int64 } },
    { name := "Имя", element := { tag := "String", kind := .string }, column := "name" },
    { name := "Größe", element := { tag := "i64", kind := .int64 }, column := "size" },
    { name := "Account.ID", element := { tag := "i64", kind := .int64 }, column := "other" }]

/-- The model of accounts with these fields. -/
def letterModel : Descriptor where
  typeName := "Account"
  table := "account"
  fields := letterFields.map FieldDecl.describe
  viewQuery := none
  isMaterialized := false

/-- A store with this model. -/
def letterStore : Store :=
  Store.registerEach { namespaceName := "shop" }
    [(0, { typeName := "Account", parts := letterFields.map .field })]

/-- A field with a name of letters above Latin-1 can be written, one with a letter of Latin-1 in its
name cannot. -/
theorem offered_symbols_resolve_letters :
    letterStore.resolve ":Имя &Account" (some "tenant7") = .ok "name shop.account"
      ∧ letterStore.resolve ":Account.Имя &Account" (some "tenant7")
        = .ok "shop.account.name shop.account"
      ∧ letterStore.resolve ":Account.json.Имя &Account" (some "tenant7")
        = .ok "'Имя' shop.account"
      ∧ ∀ (query : String), ∀ symbol ∈ symbols query, ¬ "Größe".toList <:+: symbol.toList := by
  have hbuilt : letterStore.IsBuilt := ⟨{}, "shop", false, _, by simp, rfl⟩
  have hm : letterModel ∈ letterStore.models := by decide +kernel
  have hsplit : letterModel.storedFields
      = (letterFields.take 1).map FieldDecl.describe
        ++ letterFields[1].describe :: (letterFields.drop 2).map FieldDecl.describe := by
    decide +kernel
  have hsplit' : letterModel.storedFields
      = (letterFields.take 2).map FieldDecl.describe
        ++ letterFields[2].describe :: (letterFields.drop 3).map FieldDecl.describe := by
    decide +kernel
  obtain ⟨hbare, hdotted, hjson⟩ := (offered_symbols_resolve hbuilt (by decide) hm hsplit
    (some "tenant7")).1 (by decide) (by decide)
  exact ⟨hbare, hdotted (by decide +kernel), hjson (by decide +kernel),
    (offered_symbols_resolve hbuilt (by decide) hm hsplit' none).2 "Größe" (by decide)
      ⟨'ö', by decide, by decide, by decide⟩⟩

/-- The letters of Latin-1 end a word, so a field with such a name is not replaced; and a field that
is declared later takes over a symbol that is spelled like its name. -/
theorem offered_symbols_not_resolved :
    (letterModel ∈ letterStore.models ∧ letterModel.storedFields.map (fun f => (f.name, f.column))
        = [("ID", "id"), ("Имя", "name"), ("Größe", "size"), ("Account.ID", "other")])
      ∧ (letterStore.resolve ":Größe &Account" none).toOption = some ":Größe shop.account"
      ∧ (letterStore.resolve ":Account.ID &Account" none).toOption = some "other shop.account" := by
  decide +kernel

end SchemaEvolution
