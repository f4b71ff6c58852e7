import SchemaEvolution.Proofs.Template.SymbolTables

set_option autoImplicit false

/-! # Which schema qualifies a table

A table reference takes its schema from one of two sides: from the namespace that its model is bound
to, or from the current schema of the caller. The two do not mix. Where every model that a template
refers to is bound to a namespace, the current schema makes no difference; where a template refers
to models in the current schema only, their namespaces make none (`schema_not_redirected`).
-/

namespace SchemaEvolution.Template

open SymbolTable (ofModel)

/-- A reference to a model in the current schema. -/
def IsCurrentReference (symbol : String) : Prop :=
  ∃ model, symbol.toList = currentSchemaMark ++ '&' :: model

/-- Two sources with the symbol tables of the same models, each model in any two namespaces. -/
def Source.SameModels (source source' : Source) : Prop :=
  ∀ name, Option.Rel (fun t t' => ∃ m ns ns', t = ofModel m ns ∧ t' = ofModel m ns')
    (source.table? name) (source'.table? name)

/-- The symbol tables of models in one namespace, each under a name. -/
def Source.inNamespace (namespaceName : String) (models : List (String × Descriptor)) : Source :=
  models.map fun (name, m) => (name, ofModel m namespaceName)

theorem Source.sameModels_inNamespace (ns ns' : String) (models : List (String × Descriptor)) :
    (Source.inNamespace ns models).SameModels (Source.inNamespace ns' models) := by
  intro name
  simp only [Source.table?, Source.inNamespace, ← List.map_reverse]
  induction models.reverse with
  | nil => exact .none
  | cons entry models ih =>
      obtain ⟨key, m⟩ := entry
      rw [List.map_cons, List.map_cons, lookup_cons_ite, lookup_cons_ite]
      split_ifs
      · exact .some ⟨m, ns, ns', rfl, rfl⟩
      · exact ih

/-- The current schema qualifies no table that is bound to a namespace, and no field. -/
theorem takesCurrentSchema_eq_false {symbol : String} {e : Entry}
    (h : symbol.toList.head? = some '&' → e.namespaceName ≠ "") (currentSchema text : String) :
    takesCurrentSchema currentSchema symbol text e = false := by
  rw [takesCurrentSchema]
  by_cases hmodel : symbol.toList.head? = some '&'
  · have hbound : e.namespaceName.isEmpty = false := by
      rw [Bool.eq_false_iff, ne_eq, String.isEmpty_iff]
      exact h hmodel
    simp [hbound]
  · simp [hmodel]

/-- A field, or a table that is bound to a namespace, stands for the text of its entry. -/
theorem replacement?_of_entry {source : Source} {names : List String} {symbol : String} {e : Entry}
    (hplain : afterMark? symbol.toList = none) (hentry : entryOf? source names symbol = some e)
    (hbound : symbol.toList.head? = some '&' → e.namespaceName ≠ "")
    (currentSchema text : String) :
    replacement? source (offered source names) currentSchema symbol text = some e.text := by
  rw [replacement?, hplain, lookup_offered, hentry]
  simp only [Option.map_some, takesCurrentSchema_eq_false hbound, Bool.false_eq_true, if_false]

/-- The tables of one model in two namespaces agree on fields that stand on their own. -/
theorem agree_ofModel {wanted : List String} (h : ∀ symbol ∈ wanted, IsBareField symbol)
    (m : Descriptor) (ns ns' : String) : (ofModel m ns).Agree wanted (ofModel m ns') := by
  refine ⟨rfl, rfl, fun symbol hsymbol => ?_⟩
  rw [get?_ofModel_of_isBareField (h symbol hsymbol),
    get?_ofModel_of_isBareField (h symbol hsymbol)]

/-- Schemas are not redirected. A template without references in the current schema, in which every
model that is referred to by itself is bound to a namespace, resolves alike whatever the current
schema is. A template whose symbols are references in the current schema and fields on their own
resolves alike whatever namespaces its models are bound to. -/
theorem schema_not_redirected :
    (∀ (query : String) (source : Source) (strict : Bool) (currentSchema currentSchema' : String),
        (∀ symbol ∈ symbols query, ¬ currentSchemaMark <+: symbol.toList) →
        (∀ symbol ∈ symbols query, symbol.toList.head? = some '&' →
          ∀ e, (offered source (symbols query)).lookup symbol = some e → e.namespaceName ≠ "") →
        resolve query source currentSchema strict = resolve query source currentSchema' strict)
      ∧ ∀ (query : String) (source source' : Source) (strict : Bool) (currentSchema : String),
        (∀ symbol ∈ symbols query, IsCurrentReference symbol ∨ IsBareField symbol) →
        source.SameModels source' →
        resolve query source currentSchema strict = resolve query source' currentSchema strict := by
  constructor
  · intro query source strict currentSchema currentSchema' hmark hbound
    refine resolve_eq_of_replacement (fun symbol hsymbol text => ?_) strict
    rw [replacement?, replacement?, afterMark?_eq_none_iff.mpr (hmark symbol hsymbol)]
    cases hentry : (offered source (symbols query)).lookup symbol with
    | none => rfl
    | some e =>
        have hmodel := fun h => hbound symbol hsymbol h e hentry
        simp only [Option.map_some, takesCurrentSchema_eq_false hmodel, Bool.false_eq_true, if_false]
  · intro query source source' strict currentSchema hform hmodels
    have hbare : ∀ symbol ∈ lookedUp query, IsBareField symbol := by
      intro symbol hsymbol
      obtain ⟨hmem, hplain⟩ := mem_lookedUp.mp hsymbol
      refine (hform symbol hmem).resolve_left ?_
      rintro ⟨model, hreference⟩
      exact afterMark?_eq_none_iff.mp hplain ⟨_, hreference.symm⟩
    refine resolve_congr (fun symbol _ name _ => ?_) currentSchema strict
    have hrel := hmodels name
    rw [Source.AgreeAt]
    generalize source.table? name = t?, source'.table? name = t'? at hrel ⊢
    cases hrel with
    | none => exact .none
    | some hsame =>
        obtain ⟨m, ns, ns', rfl, rfl⟩ := hsame
        exact .some (agree_ofModel hbare m ns ns')

/-- A model of accounts with one field. -/
def accountModel : Descriptor where
  typeName := "Account"
  table := "account"
  fields := [FieldDecl.describe
    { name := "ID", element := { tag := "i64", kind := .int64 } }]
  viewQuery := none
  isMaterialized := false

/-- A bound model is not drawn into the schema of a tenant, and a reference in the schema of the
tenant does not follow the model into its namespace. -/
theorem schema_not_redirected_accounts :
    resolve "SELECT :ID FROM &Account" (.inNamespace "shop" [("Account", accountModel)]) "" true
        = resolve "SELECT :ID FROM &Account" (.inNamespace "shop" [("Account", accountModel)])
          "tenant7" true
      ∧ resolve ":ID &CURRSCHEMA.&Account" (.inNamespace "shop" [("Account", accountModel)])
          "tenant7" true
        = resolve ":ID &CURRSCHEMA.&Account" (.inNamespace "" [("Account", accountModel)])
          "tenant7" true
      ∧ (resolve ":ID &CURRSCHEMA.&Account" (.inNamespace "shop" [("Account", accountModel)])
          "tenant7" true).toOption = some "id tenant7.account" := by
  refine ⟨?_, ?_, by decide +kernel⟩
  · refine schema_not_redirected.1 _ _ _ _ _ ?_ ?_
    · decide +kernel
    · decide +kernel
  · refine schema_not_redirected.2 _ _ _ _ _ ?_ (Source.sameModels_inNamespace _ _ _)
    intro symbol hsymbol
    have hsymbols : symbols ":ID &CURRSCHEMA.&Account" = [":ID", "&CURRSCHEMA.&Account"] := by
      decide +kernel
    rw [hsymbols, List.mem_cons, List.mem_singleton] at hsymbol
    rcases hsymbol with rfl | rfl
    · exact .inr ⟨"ID".toList, by decide, by decide⟩
    · exact .inl ⟨"Account".toList, by decide⟩

end SchemaEvolution.Template
