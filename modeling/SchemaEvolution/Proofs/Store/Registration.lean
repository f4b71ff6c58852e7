import SchemaEvolution.Store.Basic
import SchemaEvolution.Proofs.Model.Description
import SchemaEvolution.Proofs.Template.CurrentSchema
import SchemaEvolution.Proofs.Template.FirstMention
import SchemaEvolution.Proofs.Template.Strictness

set_option autoImplicit false

/-! # Registering models

A registration leaves the models of a store as they are or adds one whose type name is free
(`Store.register_cases`). So the type names of a store that is built by registering are pairwise
different, and its symbol tables are those made of its models, although the two are kept apart
(`Store.Sound.registerEach`); and a symbol table that such a store has is never replaced
(`Store.Sound.table?_registerEach`). A template whose models are registered is therefore resolved
alike however many models are registered later (`resolution_follows_mentions`).
-/

namespace SchemaEvolution

open Template

/-- What a registry describes, it takes from the declaration or has described before. -/
theorem Registry.describe_eq_ok {r r' : Registry} {id : ModelId} {d : Declaration} {m : Descriptor}
    (h : r.describe id d = .ok (m, r')) :
    (r.descriptors.lookup id = some m ∧ r' = r)
      ∨ (r.descriptors.lookup id = none ∧ Descriptor.ofDeclaration d = .ok m
        ∧ r' = ⟨r.descriptors ++ [(id, m)]⟩) := by
  rw [Registry.describe] at h
  cases hknown : r.descriptors.lookup id with
  | some known =>
      rw [hknown] at h
      cases h
      exact .inl ⟨rfl, rfl⟩
  | none =>
      rw [hknown] at h
      cases hd : Descriptor.ofDeclaration d with
      | error e =>
          rw [hd] at h
          cases h
      | ok described =>
          rw [hd] at h
          cases h
          exact .inr ⟨rfl, rfl, rfl⟩

namespace Store

theorem mem_typeNames {s : Store} {name : String} :
    name ∈ s.models.map (·.typeName) ↔ ∃ r ∈ s.registered, r.model.typeName = name := by
  simp [models]

/-! ## One registration -/

theorem models_add (s : Store) (id : ModelId) (m : Descriptor) :
    (s.add id m).models = s.models ++ [m] := by
  rw [models, add, List.map_append]
  rfl

theorem add_source (s : Store) (id : ModelId) (m : Descriptor) :
    (s.add id m).source
      = s.source ++ [(m.typeName, SymbolTable.ofModel m s.namespaceName)] := rfl

/-- A registration fails to describe the model, finds its type name taken, or adds the model. -/
theorem register_cases (s : Store) (id : ModelId) (d : Declaration) :
    (∃ e, s.registry.describe id d = .error e ∧ s.register id d = (.error e, s))
      ∨ ∃ m registry, s.registry.describe id d = .ok (m, registry)
        ∧ ((∃ r ∈ s.registered, r.model.typeName = m.typeName
            ∧ s.register id d
              = (if r.id = id then .ok m else .error (.duplicateModel m.typeName),
                { s with registry }))
          ∨ ((∀ r ∈ s.registered, r.model.typeName ≠ m.typeName)
            ∧ s.register id d = (.ok m, { s with registry }.add id m))) := by
  rw [register]
  cases hdescribed : s.registry.describe id d with
  | error e => exact .inl ⟨e, rfl, rfl⟩
  | ok described =>
      obtain ⟨m, registry⟩ := described
      refine .inr ⟨m, registry, rfl, ?_⟩
      dsimp only
      cases hfind : s.registered.find? (·.model.typeName == m.typeName) with
      | some r =>
          refine .inl ⟨r, List.mem_of_find?_eq_some hfind, ?_, ?_⟩
          · simpa using List.find?_some hfind
          · dsimp only
            split_ifs <;> rfl
      | none =>
          refine .inr ⟨fun r hr => ?_, rfl⟩
          simpa using List.find?_eq_none.mp hfind r hr

/-- The store after registrations, whatever comes of each. -/
def registerEach (s : Store) (steps : List (ModelId × Declaration)) : Store :=
  steps.foldl (fun s step => (s.register step.1 step.2).2) s

/-! ## What a store is bound to -/

theorem register_binding (s : Store) (id : ModelId) (d : Declaration) :
    (s.register id d).2.namespaceName = s.namespaceName
      ∧ (s.register id d).2.strict = s.strict := by
  rcases s.register_cases id d with ⟨e, -, h⟩ | ⟨m, registry, -, ⟨r, -, -, h⟩ | ⟨-, h⟩⟩ <;>
    rw [h] <;> exact ⟨rfl, rfl⟩

theorem registerEach_binding (s : Store) (steps : List (ModelId × Declaration)) :
    (s.registerEach steps).namespaceName = s.namespaceName
      ∧ (s.registerEach steps).strict = s.strict := by
  induction steps generalizing s with
  | nil => exact ⟨rfl, rfl⟩
  | cons step steps ih =>
      obtain ⟨hname, hstrict⟩ := ih (s.register step.1 step.2).2
      obtain ⟨hname', hstrict'⟩ := s.register_binding step.1 step.2
      exact ⟨hname.trans hname', hstrict.trans hstrict'⟩

/-! ## Stores that are built by registering -/

/-- What holds of a store that is built by registering. -/
structure Sound (s : Store) : Prop where
  /-- The registry holds described models. -/
  described : ∀ entry ∈ s.registry.descriptors, entry.2.IsDescribed
  /-- So does the store. -/
  models : ∀ m ∈ s.models, m.IsDescribed
  /-- There is one symbol table for each model, the one made of it. -/
  tables : s.source = s.models.map fun m => (m.typeName, SymbolTable.ofModel m s.namespaceName)
  /-- No two models have one type name. -/
  distinct : (s.models.map (·.typeName)).Nodup

theorem sound_new {registry : Registry}
    (h : ∀ entry ∈ registry.descriptors, entry.2.IsDescribed) (namespaceName : String)
    (strict : Bool) : Sound { namespaceName, strict, registry } where
  described := h
  models := List.forall_mem_nil _
  tables := rfl
  distinct := .nil

theorem Sound.described_of_describe {s : Store} (hs : s.Sound) {id : ModelId} {d : Declaration}
    {m : Descriptor} {registry : Registry} (h : s.registry.describe id d = .ok (m, registry)) :
    m.IsDescribed ∧ ∀ entry ∈ registry.descriptors, entry.2.IsDescribed := by
  rcases Registry.describe_eq_ok h with ⟨hknown, rfl⟩ | ⟨-, hd, rfl⟩
  · exact ⟨hs.described _ (mem_of_lookup hknown), hs.described⟩
  · refine ⟨⟨d, hd⟩, fun entry hentry => ?_⟩
    rcases List.mem_append.mp hentry with hold | hnew
    · exact hs.described entry hold
    · rw [List.mem_singleton.mp hnew]
      exact ⟨d, hd⟩

theorem Sound.register {s : Store} (hs : s.Sound) (id : ModelId) (d : Declaration) :
    (s.register id d).2.Sound := by
  rcases s.register_cases id d with ⟨e, -, h⟩ | ⟨m, registry, hm, ⟨r, -, -, h⟩ | ⟨hfree, h⟩⟩
  · rw [h]
    exact hs
  · rw [h]
    exact { hs with described := (hs.described_of_describe hm).2 }
  · rw [h]
    obtain ⟨hmodel, hregistry⟩ := hs.described_of_describe hm
    refine ⟨hregistry, ?_, ?_, ?_⟩
    · rw [models_add]
      exact List.forall_mem_append.mpr ⟨hs.models, List.forall_mem_singleton.mpr hmodel⟩
    · rw [models_add, List.map_append, add_source]
      exact congrArg (· ++ _) hs.tables
    · rw [models_add, List.map_append, List.map_singleton, List.nodup_append]
      refine ⟨hs.distinct, List.nodup_singleton _, ?_⟩
      intro name hname name' hname'
      obtain ⟨r, hr, rfl⟩ := mem_typeNames.mp hname
      rw [List.mem_singleton.mp hname']
      exact hfree r hr

theorem Sound.registerEach {s : Store} (hs : s.Sound) (steps : List (ModelId × Declaration)) :
    (s.registerEach steps).Sound := by
  induction steps generalizing s with
  | nil => exact hs
  | cons step steps ih => exact ih (hs.register step.1 step.2)

/-- A store that is built by registering models one after the other. Its registry may hold models
that were described for other stores. -/
def IsBuilt (s : Store) : Prop :=
  ∃ (registry : Registry) (namespaceName : String) (strict : Bool)
    (steps : List (ModelId × Declaration)),
    (∀ entry ∈ registry.descriptors, entry.2.IsDescribed)
      ∧ s = Store.registerEach { namespaceName, strict, registry } steps

theorem IsBuilt.sound {s : Store} (h : s.IsBuilt) : s.Sound := by
  obtain ⟨registry, namespaceName, strict, steps, hregistry, rfl⟩ := h
  exact (sound_new hregistry namespaceName strict).registerEach steps

/-- The stored fields of a model have pairwise different names. -/
theorem Sound.nodup_storedFields {s : Store} (hs : s.Sound) {m : Descriptor} (hm : m ∈ s.models) :
    (m.storedFields.map (·.name)).Nodup :=
  (hs.models m hm).nodup_names.sublist (List.filter_sublist.map _)

/-! ## Symbol tables stay -/

section Tables

variable {s : Store} (hs : s.Sound)

include hs

/-- Symbol tables stand under the type names of models. -/
theorem Sound.source_names : s.source.map (·.1) = s.models.map (·.typeName) := by
  rw [hs.tables, List.map_map]
  rfl

/-- The symbol table of a model stands under its type name. -/
theorem Sound.table?_of_mem {m : Descriptor} (hm : m ∈ s.models) :
    s.source.table? m.typeName = some (SymbolTable.ofModel m s.namespaceName) := by
  have hdistinct : (s.source.map (·.1)).Nodup := hs.source_names ▸ hs.distinct
  have hmem : (m.typeName, SymbolTable.ofModel m s.namespaceName) ∈ s.source := by
    rw [hs.tables]
    exact List.mem_map.mpr ⟨m, hm, rfl⟩
  rw [Source.table?, ← lookup_perm (List.reverse_perm s.source).symm hdistinct,
    lookup_of_mem hdistinct hmem]

variable {name : String} {t : SymbolTable} (h : s.source.table? name = some t)

include h

theorem Sound.table?_register (id : ModelId) (d : Declaration) :
    (s.register id d).2.source.table? name = some t := by
  rcases s.register_cases id d with ⟨e, -, heq⟩ | ⟨m, registry, -, ⟨r, -, -, heq⟩ | ⟨hfree, heq⟩⟩
  · rw [heq]
    exact h
  · rw [heq]
    exact h
  · -- the new table stands under a name that no table stood under
    have hname : name ≠ m.typeName := by
      rintro rfl
      have hmem : m.typeName ∈ s.source.map (·.1) :=
        List.mem_map.mpr ⟨_, Source.mem_of_table? h, rfl⟩
      rw [hs.source_names] at hmem
      obtain ⟨r, hr, hsame⟩ := mem_typeNames.mp hmem
      exact hfree r hr hsame
    rw [heq, Source.table?, add_source, List.reverse_append, List.reverse_singleton,
      List.singleton_append, lookup_cons_ite, if_neg hname]
    exact h

theorem Sound.table?_registerEach (steps : List (ModelId × Declaration)) :
    (s.registerEach steps).source.table? name = some t := by
  induction steps generalizing s with
  | nil => exact h
  | cons step steps ih =>
      exact ih (hs.register step.1 step.2) (hs.table?_register h step.1 step.2)

end Tables

end Store

/-! ## Templates follow what they mention -/

/-- Registering more models changes nothing for a template, unless it names one of them that was
not registered before. -/
theorem Store.Sound.resolve_registerEach {s : Store} (hs : s.Sound)
    {steps : List (ModelId × Declaration)} {query : String}
    (h : ∀ symbol ∈ symbols query, ∀ name ∈ namedModels symbol,
      (s.source.table? name).isSome = true
        ∨ (s.registerEach steps).source.table? name = none)
    (currentSchema : Option String) :
    (s.registerEach steps).resolve query currentSchema = s.resolve query currentSchema := by
  obtain ⟨hname, hstrict⟩ := s.registerEach_binding steps
  rw [Store.resolve, Store.resolve, hname, hstrict]
  refine resolve_congr (fun symbol hsymbol name hnamed => ?_) _ _
  refine Source.agreeAt_of_eq ?_ _
  cases hbefore : s.source.table? name with
  | some t => exact hs.table?_registerEach hbefore steps
  | none =>
      refine (h symbol hsymbol name hnamed).resolve_left ?_
      rw [hbefore]
      exact Bool.false_ne_true

/-- Resolving depends on the models that a template names, in the order in which it mentions them.
Two sources that have, for each of these models, the same type name, table and entries resolve it
alike. When each table stands under its own type name, the one model that a symbol mentions is
enough. What a template is resolved to is known segment by segment, and lenient mode always gives a
text: a symbol is replaced by the entry that it has in the first mentioned table with one, wherever
the mention stands, and a reference in the current schema, for which no model has an entry, by the
table that it names. And models that are registered later change nothing, unless the template names
one of them that was not registered before. -/
theorem resolution_follows_mentions :
    (∀ (query : String) (source source' : Source) (currentSchema : String) (strict : Bool),
        (∀ symbol ∈ symbols query, ∀ name ∈ namedModels symbol,
          source.AgreeAt (lookedUp query) source' name) →
        resolve query source currentSchema strict = resolve query source' currentSchema strict)
      ∧ (∀ (query : String) (source source' : Source) (currentSchema : String) (strict : Bool),
        source.Keyed → source'.Keyed →
        (∀ symbol ∈ symbols query, Option.Rel (SymbolTable.Agree (lookedUp query))
          (mentioned? source symbol) (mentioned? source' symbol)) →
        resolve query source currentSchema strict = resolve query source' currentSchema strict)
      ∧ (∀ (query : String) (source : Source) (currentSchema : String) (strict : Bool)
          (text : String), resolve query source currentSchema strict = .ok text
        ↔ ∃ parts, List.Forall₂ (ResolvesTo source (symbols query) currentSchema strict)
            (segments query) parts ∧ text = String.join parts)
      ∧ (∀ (query : String) (source : Source) (currentSchema : String),
        ∃ text, resolve query source currentSchema false = .ok text)
      ∧ (∀ (source : Source) (mentions : List String) (symbol : String) (e : Entry),
        source.OfModels → TakesEntry source mentions symbol e →
        ¬ currentSchemaMark <+: symbol.toList)
      ∧ ∀ (s : Store) (steps : List (ModelId × Declaration)) (query : String)
        (currentSchema : Option String), s.IsBuilt →
        (∀ symbol ∈ symbols query, ∀ name ∈ namedModels symbol,
          (s.source.table? name).isSome = true
            ∨ (s.registerEach steps).source.table? name = none) →
        (s.registerEach steps).resolve query currentSchema = s.resolve query currentSchema := by
  refine ⟨fun query source source' currentSchema strict h => resolve_congr h currentSchema strict,
    fun query source source' currentSchema strict hkeyed hkeyed' h =>
      resolve_congr_of_keyed hkeyed hkeyed' h currentSchema strict,
    fun query source currentSchema strict text => resolve_eq_ok_iff, exists_resolve_lenient, ?_,
    fun s steps query currentSchema hbuilt h => hbuilt.sound.resolve_registerEach h currentSchema⟩
  intro source mentions symbol e hmodels he hmark
  rw [← entryOf?_eq_some_iff, entryOf?_of_mark hmodels hmark] at he
  cases he

/-- The tables of accounts and of orders, with the entries of accounts in another order. -/
def shuffledSource : Source :=
  [("Order", ⟨"Order", "orders", [("&Order", ⟨"orders", ""⟩), (":ID", ⟨"nr", ""⟩)]⟩),
    ("Account", { SymbolTable.ofModel accountModel "shop" with
      entries := (SymbolTable.ofModel accountModel "shop").entries.reverse })]

/-- A declaration of accounts. -/
def accountDeclaration : Declaration where
  typeName := "Account"
  parts := [.field { name := "ID", element := { tag := "i64", kind := .int64 } }]

/-- A declaration of orders, which have a field of the same name. -/
def orderDeclaration : Declaration where
  typeName := "Order"
  parts := [.field { name := "ID", element := { tag := "i64", kind := .int64 }, column := "nr" }]

/-- The order of entries, the tables of other models and models registered later make no
difference for a template about accounts, the field is that of the account mentioned first, and what
names no model is kept. -/
theorem resolution_follows_mentions_accounts :
    resolve ":ID &Account" (.inNamespace "shop" [("Account", accountModel)]) "" true
        = resolve ":ID &Account" shuffledSource "" true
      ∧ resolve ":ID &CURRSCHEMA.&Account" (.inNamespace "shop" [("Account", accountModel)]) "b" true
        = resolve ":ID &CURRSCHEMA.&Account" shuffledSource "b" true
      ∧ resolve ":ID &Account &CURRSCHEMA.&Order &Note" shuffledSource "b" false
        = .ok "id shop.account b.orders &Note"
      ∧ (Store.registerEach { namespaceName := "shop", registered := [] }
            ([(0, accountDeclaration)] ++ [(1, orderDeclaration)])).resolve ":ID &Account" none
        = (Store.registerEach { namespaceName := "shop", registered := [] }
            [(0, accountDeclaration)]).resolve ":ID &Account" none := by
  have hagree : ∀ query, Source.AgreeAt (lookedUp query)
      (.inNamespace "shop" [("Account", accountModel)]) shuffledSource "Account" := by
    intro query
    refine .some (SymbolTable.agree_of_perm ?_ ?_ (List.reverse_perm _).symm ?_ _)
    · rfl
    · rfl
    · decide +kernel
  refine ⟨?_, ?_, ?_, ?_⟩
  · refine resolution_follows_mentions.1 _ _ _ _ _ ?_
    have hnames : ∀ symbol ∈ symbols ":ID &Account", ∀ name ∈ namedModels symbol,
        name = "Account" := by decide +kernel
    intro symbol hsymbol name hname
    rw [hnames symbol hsymbol name hname]
    exact hagree _
  · refine resolution_follows_mentions.2.1 _ _ _ _ _ ?_ ?_ ?_
    · intro name t ht
      have hkeyed : ∀ entry ∈ Source.inNamespace "shop" [("Account", accountModel)],
          entry.2.typeName = entry.1 := by decide +kernel
      exact hkeyed _ (Source.mem_of_table? ht)
    · intro name t ht
      have hkeyed : ∀ entry ∈ shuffledSource, entry.2.typeName = entry.1 := by decide +kernel
      exact hkeyed _ (Source.mem_of_table? ht)
    · have hsymbols : symbols ":ID &CURRSCHEMA.&Account" = [":ID", "&CURRSCHEMA.&Account"] := by
        decide +kernel
      intro symbol hsymbol
      rw [hsymbols, List.mem_cons, List.mem_singleton] at hsymbol
      rcases hsymbol with rfl | rfl
      · exact .none
      · exact hagree _
  · have hsegments : segments ":ID &Account &CURRSCHEMA.&Order &Note"
        = [⟨":ID ", some ":ID", 0, 4⟩, ⟨"&Account ", some "&Account", 4, 13⟩,
          ⟨"&CURRSCHEMA.&Order ", some "&CURRSCHEMA.&Order", 13, 32⟩,
          ⟨"&Note", some "&Note", 32, 37⟩] := by decide +kernel
    have hmentions : symbols ":ID &Account &CURRSCHEMA.&Order &Note"
        = [":ID", "&Account", "&CURRSCHEMA.&Order", "&Note"] := by decide +kernel
    have hreplaced {mentions : List String} {s : Segment} {symbol part : String} (image : String)
        (hsymbol : s.symbol = some symbol)
        (himage : StandsFor shuffledSource mentions "b" symbol s.text image)
        (hpart : String.ofList (Text.replaceAll symbol.toList image.toList s.text.toList) = part) :
        ResolvesTo shuffledSource mentions "b" false s part := hpart ▸ .replaced hsymbol himage
    refine (resolution_follows_mentions.2.2.1 _ _ _ _ _).mpr
      ⟨["id ", "shop.account ", "b.orders ", "&Note"], ?_, by decide +kernel⟩
    rw [hsegments, hmentions]
    refine .cons ?_ (.cons ?_ (.cons ?_ (.cons ?_ .nil)))
    · refine hreplaced "id" rfl (.entry (e := ⟨"id", ""⟩) ":ID " (by decide +kernel) ?_)
        (by decide +kernel)
      -- the field stands before the mention of the account, and no table is mentioned earlier
      refine ⟨[":ID"], "&Account", ["&CURRSCHEMA.&Order", "&Note"], _, rfl, rfl, ?_, ?_⟩
      · decide +kernel
      · intro earlier hearlier t ht
        rw [List.mem_singleton.mp hearlier] at ht
        cases ht
    · exact hreplaced "shop.account" rfl (replacement?_eq_some_iff.mp (by decide +kernel))
        (by decide +kernel)
    · exact hreplaced "b.orders" rfl (replacement?_eq_some_iff.mp (by decide +kernel))
        (by decide +kernel)
    · refine .kept rfl rfl fun image himage => ?_
      have hnone : replacement? shuffledSource (offered shuffledSource
          [":ID", "&Account", "&CURRSCHEMA.&Order", "&Note"]) "b" "&Note" "&Note" = none := by
        decide +kernel
      rw [replacement?_eq_some_iff.mpr himage] at hnone
      cases hnone
  · refine resolution_follows_mentions.2.2.2.2.2
      (Store.registerEach { namespaceName := "shop", registered := [] } [(0, accountDeclaration)])
      [(1, orderDeclaration)] ":ID &Account" none ⟨{}, "shop", false, _, by simp, rfl⟩ ?_
    decide +kernel

end SchemaEvolution
