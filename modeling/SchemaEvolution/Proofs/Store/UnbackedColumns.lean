import SchemaEvolution.Proofs.Relation.Desired
import SchemaEvolution.Proofs.Store.Registration
import SchemaEvolution.Store.SymbolCatalog

set_option autoImplicit false

/-! # Live columns that no field stands for

The catalog of symbols lists a live column with a dash in front when no stored field has a column
that is written like it. Plans find live columns up to case. So the two agree on a live column
unless some field has its name in another case and no field has it as it is written: then the
catalog lists the column although a plan finds it (`Store.unbacked_listed_iff`).
-/

namespace SchemaEvolution

open Template Text

/-- A catalog lists a column of a model as one that no field stands for. -/
def ListsUnbacked (catalog : List ModelSymbols) (typeName column : String) : Prop :=
  ∃ m ∈ catalog, m.model = typeName ∧ ("-" ++ column, column) ∈ m.symbols

theorem findLiveColumn?_singleton {c : LiveColumn} {name : String} :
    findLiveColumn? [c] name = none ↔ sameFold c.name name = false := by
  simp [findLiveColumn?]

/-- The symbols that stand for columns begin with a colon. -/
theorem head?_of_columnOfEntry? {entry : String × Entry} {symbol : String × String}
    (h : columnOfEntry? entry = some symbol) : symbol.1.toList.head? = some ':' := by
  unfold columnOfEntry? at h
  split at h
  · next hcolon =>
    cases h
    rw [Bool.and_eq_true, beq_iff_eq] at hcolon
    exact hcolon.1
  · cases h

theorem Descriptor.mem_symbols_catalog_iff {m : Descriptor} {t : SymbolTable}
    {namespaceName : String} {live : List LiveColumn} {c : LiveColumn} (hc : c ∈ live) :
    ("-" ++ c.name, c.name) ∈ (m.catalog t namespaceName live).symbols
      ↔ ∀ f ∈ m.storedFields, f.column ≠ c.name := by
  have hunbacked : ∀ e : LiveColumn,
      (!(m.storedFields.any (·.column == e.name))) = true
        ↔ ∀ f ∈ m.storedFields, f.column ≠ e.name := by
    intro e
    simp
  simp only [catalog, List.mem_mergeSort, List.mem_append, List.mem_filterMap, List.mem_map,
    List.mem_filter, hunbacked]
  constructor
  · rintro (⟨entry, -, hentry⟩ | ⟨e, ⟨-, hnone⟩, heq⟩)
    · have hhead := head?_of_columnOfEntry? hentry
      simp at hhead
    · rwa [← (Prod.mk.inj heq).2]
  · intro hnone
    exact .inr ⟨c, ⟨hc, hnone⟩, rfl⟩

namespace Store

variable {s : Store} {m : Descriptor} {live : List (String × List LiveColumn)} {c : LiveColumn}

/-- Every model has a symbol table and type names are distinct, so a catalog has one list for each
model. -/
theorem Sound.listsUnbacked_iff (hs : s.Sound) (hm : m ∈ s.models)
    (hc : c ∈ (live.lookup m.table).getD []) :
    ListsUnbacked (s.symbolCatalog live) m.typeName c.name
      ↔ ∀ f ∈ m.storedFields, f.column ≠ c.name := by
  have hlist : ListsUnbacked (s.symbolCatalog live) m.typeName c.name
      ↔ ("-" ++ c.name, c.name)
        ∈ (m.catalog (.ofModel m s.namespaceName) s.namespaceName
          ((live.lookup m.table).getD [])).symbols := by
    simp only [ListsUnbacked, symbolCatalog, List.mem_mergeSort, List.mem_filterMap,
      Option.map_eq_some_iff]
    constructor
    · rintro ⟨symbols, ⟨m', hm', t, ht, rfl⟩, hname, hmem⟩
      cases List.inj_on_of_nodup_map hs.distinct hm' hm hname
      cases (hs.table?_of_mem hm).symm.trans ht
      exact hmem
    · intro hmem
      exact ⟨_, ⟨m, hm, _, hs.table?_of_mem hm, rfl⟩, rfl, hmem⟩
  rw [hlist, Descriptor.mem_symbols_catalog_iff hc]

/-- A live column is found for no desired column exactly when no field has its name up to case. -/
theorem findLiveColumn?_eq_none_iff {r : Relation} (hr : s.desired m = .ok r) :
    (∀ d ∈ r.columns, findLiveColumn? [c] d.name = none)
      ↔ ∀ f ∈ m.storedFields, sameFold f.column c.name = false := by
  have hnames := (asks_of_desired hr).columnNames
  simp only [findLiveColumn?_singleton, sameFold_comm c.name]
  calc (∀ d ∈ r.columns, sameFold d.name c.name = false)
      ↔ ∀ name ∈ r.columns.map (·.name), sameFold name c.name = false := by
        rw [List.forall_mem_map]
    _ ↔ ∀ name ∈ m.storedFields.map (·.column), sameFold name c.name = false := by
        simp only [hnames.mem_iff]
    _ ↔ ∀ f ∈ m.storedFields, sameFold f.column c.name = false := by
        rw [List.forall_mem_map]

/-- The catalog lists a live column as one that no field stands for exactly when no stored field has
a column that is written like it, while a plan finds it for no desired column exactly when no stored
field has its name up to case. So a column that no plan finds is always listed. The two agree on a
column exactly when some field has it as it is written whenever one has its name up to case. -/
theorem unbacked_listed_iff (hbuilt : s.IsBuilt) (hm : m ∈ s.models)
    (hc : c ∈ (live.lookup m.table).getD []) :
    (ListsUnbacked (s.symbolCatalog live) m.typeName c.name
        ↔ ∀ f ∈ m.storedFields, f.column ≠ c.name)
      ∧ (∀ r, s.desired m = .ok r →
        ((∀ d ∈ r.columns, findLiveColumn? [c] d.name = none)
          ↔ ∀ f ∈ m.storedFields, sameFold f.column c.name = false))
      ∧ ((∀ f ∈ m.storedFields, sameFold f.column c.name = false) →
        ListsUnbacked (s.symbolCatalog live) m.typeName c.name)
      ∧ ((ListsUnbacked (s.symbolCatalog live) m.typeName c.name
          ↔ ∀ f ∈ m.storedFields, sameFold f.column c.name = false)
        ↔ ((∃ f ∈ m.storedFields, sameFold f.column c.name = true) →
          ∃ f ∈ m.storedFields, f.column = c.name)) := by
  have hlists := hbuilt.sound.listsUnbacked_iff hm hc
  have hwritten : (∀ f ∈ m.storedFields, sameFold f.column c.name = false) →
      ∀ f ∈ m.storedFields, f.column ≠ c.name := by
    intro hnone f hf heq
    have hfold := hnone f hf
    rw [heq, sameFold_refl] at hfold
    cases hfold
  refine ⟨hlists, fun r hr => findLiveColumn?_eq_none_iff hr, fun hnone => ?_, ?_⟩
  · exact hlists.mpr (hwritten hnone)
  · rw [hlists]
    constructor
    · intro hagree hfold
      by_contra hnot
      obtain ⟨f, hf, hsame⟩ := hfold
      have hnone := hagree.mp (fun g hg heq => hnot ⟨g, hg, heq⟩) f hf
      rw [hsame] at hnone
      cases hnone
    · intro hexact
      refine ⟨fun hne f hf => ?_, hwritten⟩
      rw [Bool.eq_false_iff]
      intro hsame
      obtain ⟨g, hg, heq⟩ := hexact ⟨f, hf, hsame⟩
      exact hne g hg heq

/-- A store of accounts, whose one field is stored in the column `id`. -/
def accountStore : Store := registerEach { namespaceName := "shop" } [(0, accountDeclaration)]

/-- A live column of an integer type. -/
def integerColumn (name : String) : LiveColumn := { name, typeName := "int8", isNullable := "NO" }

/-- Live columns of the table of accounts. -/
def accountColumns (names : List String) : List (String × List LiveColumn) :=
  [("account", names.map integerColumn)]

theorem accountStore_isBuilt : accountStore.IsBuilt := ⟨{}, "shop", false, _, by simp, rfl⟩

theorem unbacked_listed_accounts :
    ¬ ListsUnbacked (accountStore.symbolCatalog (accountColumns ["id", "legacy"])) "Account" "id"
      ∧ ListsUnbacked (accountStore.symbolCatalog (accountColumns ["id", "legacy"])) "Account"
        "legacy" := by
  have hm : accountModel ∈ accountStore.models := by decide +kernel
  have hlive : ((accountColumns ["id", "legacy"]).lookup accountModel.table).getD []
      = [integerColumn "id", integerColumn "legacy"] := by decide +kernel
  obtain ⟨hid, -, -, -⟩ :=
    unbacked_listed_iff accountStore_isBuilt hm (hlive ▸ List.mem_cons_self)
  obtain ⟨-, -, hlegacy, -⟩ :=
    unbacked_listed_iff accountStore_isBuilt hm (hlive ▸ List.mem_cons_of_mem _ (.head _))
  exact ⟨fun hlisted => absurd (hid.mp hlisted) (by decide +kernel), hlegacy (by decide +kernel)⟩

/-- A live column `ID` is listed as one that no field stands for, although a plan finds it for the
column `id`. -/
theorem unbacked_listed_although_found :
    ListsUnbacked (accountStore.symbolCatalog (accountColumns ["ID"])) "Account" "ID"
      ∧ ∃ r, accountStore.desired accountModel = .ok r
        ∧ ∃ d ∈ r.columns, (findLiveColumn? [integerColumn "ID"] d.name).isSome = true := by
  have hm : accountModel ∈ accountStore.models := by decide +kernel
  have hc : integerColumn "ID"
      ∈ ((accountColumns ["ID"]).lookup accountModel.table).getD [] := by decide +kernel
  have hlists := accountStore_isBuilt.sound.listsUnbacked_iff hm hc
  obtain ⟨r, hr⟩ : ∃ r, accountStore.desired accountModel = .ok r := ⟨_, rfl⟩
  have hfound := (findLiveColumn?_eq_none_iff (c := integerColumn "ID") hr).not.mpr
    (by decide +kernel)
  exact ⟨hlists.mpr (by decide +kernel), r, hr,
    by simpa [Option.isSome_iff_ne_none] using hfound⟩

end Store

end SchemaEvolution
