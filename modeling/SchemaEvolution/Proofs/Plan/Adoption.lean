import SchemaEvolution.Proofs.Model.Description
import SchemaEvolution.Proofs.Plan.ColumnConvergence
import SchemaEvolution.Proofs.Plan.PrimaryKey
import SchemaEvolution.Proofs.Relation.Desired

set_option autoImplicit false

/-! # Adopting a table that was made by a plan

The catalog has names of its own for types. `LiveColumn.dataType` brings some of them into the
spelling of models, but not those of integers, and it leaves out the size of a decimal
(`LiveColumn.ReportsType.sameAsciiFold_dataType`). So when a table is adopted that was made with the
columns of a model, its integer and decimal columns are altered to the type that they have, and
nothing else is (`Plan.adoption_clauses_iff`).
-/

namespace SchemaEvolution

open Text

/-! ## Types as the catalog reports them -/

/-- How the catalog reports the type of a column that was made with an SQL type. -/
inductive LiveColumn.ReportsType (e : LiveColumn) : String → Prop
  | boolean (name : e.typeName = "bool") : e.ReportsType "BOOLEAN"
  | smallint (name : e.typeName = "int2") : e.ReportsType "SMALLINT"
  | int (name : e.typeName = "int4") : e.ReportsType "INT"
  | bigint (name : e.typeName = "int8") : e.ReportsType "BIGINT"
  | float4 (name : e.typeName = "float4") : e.ReportsType "FLOAT4"
  | float8 (name : e.typeName = "float8") : e.ReportsType "FLOAT8"
  | numeric (length precision : Nat) (name : e.typeName = "numeric") :
    e.ReportsType ("NUMERIC(" ++ toString length ++ "," ++ toString precision ++ ")")
  | varchar (length : Nat) (name : e.typeName = "varchar") (size : e.charLength = some ↑length) :
    e.ReportsType ("VARCHAR(" ++ toString length ++ ")")
  | bytea (name : e.typeName = "bytea") : e.ReportsType "BYTEA"
  | jsonb (name : e.typeName = "jsonb") : e.ReportsType "jsonb"

/-- Whether a type is not read back from the catalog as it was written: an integer or a decimal. -/
def isMisread (dataType : String) : Bool :=
  ["SMALLINT", "INT", "BIGINT"].contains dataType
    || "NUMERIC(".toList.isPrefixOf dataType.toList

/-- Whether the types of a kind are not read back from the catalog. -/
def Kind.isMisread : Kind → Bool
  | int8 | int16 | int32 | int64 | uint8 | uint16 | uint32 | uint64 | decimal => true
  | bool | float32 | float64 | string | bytes | json | other => false

theorem isMisread_numeric (length precision : Nat) :
    isMisread ("NUMERIC(" ++ toString length ++ "," ++ toString precision ++ ")") = true := by
  simp [isMisread]

theorem isMisread_varchar (length : Nat) :
    isMisread ("VARCHAR(" ++ toString length ++ ")") = false := by
  have hhead : ("VARCHAR(" ++ toString length ++ ")").toList.head? = some 'V' := by simp
  have hne : ∀ ty ∈ ["SMALLINT", "INT", "BIGINT"], "VARCHAR(" ++ toString length ++ ")" ≠ ty := by
    intro ty hty heq
    rw [heq] at hhead
    have hnone : ∀ ty ∈ ["SMALLINT", "INT", "BIGINT"], ty.toList.head? ≠ some 'V' := by decide
    exact hnone ty hty hhead
  have hprefix : "NUMERIC(".toList.isPrefixOf ("VARCHAR(" ++ toString length ++ ")").toList
      = false := by
    rw [String.append_assoc, String.toList_append]
    rfl
  rw [isMisread, hprefix, Bool.or_false, Bool.eq_false_iff, Ne, List.contains_iff_mem]
  exact fun hmem => hne _ hmem rfl

/-- The sizes of a type do not count. -/
theorem Kind.isMisread_of_sqlType {k : Kind} {length precision : Nat} {ty : String}
    (h : k.sqlType length precision = some ty) : SchemaEvolution.isMisread ty = k.isMisread := by
  cases k with
  | decimal =>
      cases h
      exact isMisread_numeric length precision
  | string =>
      cases h
      exact isMisread_varchar length
  | other => cases h
  | _ =>
      cases h
      decide

namespace LiveColumn

/-- Other types than these are in capitals. -/
theorem dataType_eq_uppercase {e : LiveColumn}
    (h : uppercase e.typeName ∉ ["VARCHAR", "JSONB", "BOOL"]) :
    e.dataType = uppercase e.typeName := by
  simp only [List.mem_cons, List.not_mem_nil, or_false, not_or] at h
  simp [dataType, h]

/-- A type is read back from the catalog, up to the case of ASCII letters, unless it is misread. -/
theorem ReportsType.sameAsciiFold_dataType {e : LiveColumn} {ty : String} (h : e.ReportsType ty) :
    sameAsciiFold ty e.dataType = !isMisread ty := by
  cases h with
  | boolean name =>
      have hupper : uppercase "bool" = "BOOL" := by decide +kernel
      simp only [dataType, name, hupper]
      rfl
  | jsonb name =>
      have hupper : uppercase "jsonb" = "JSONB" := by decide +kernel
      simp only [dataType, name, hupper]
      rfl
  | varchar length name size =>
      have hupper : uppercase "varchar" = "VARCHAR" := by decide +kernel
      have hty : e.dataType = "VARCHAR(" ++ toString length ++ ")" := by
        simp only [dataType, name, size, hupper]
        rfl
      rw [hty, isMisread_varchar, sameAsciiFold, beq_self_eq_true, Bool.not_false]
  | numeric length precision name =>
      have hty : e.dataType = uppercase "numeric" := by
        rw [dataType_eq_uppercase (by rw [name]; decide +kernel), name]
      have hupper : uppercase "numeric" = "NUMERIC" := by decide +kernel
      rw [hty, hupper, isMisread_numeric, Bool.not_true, sameAsciiFold, beq_eq_false_iff_ne]
      intro heq
      have hlength := congrArg List.length heq
      simp at hlength
  | _ name =>
      rw [dataType_eq_uppercase (by rw [name]; decide +kernel), name]
      decide +kernel

/-- A live column is what the catalog says of a column that was made. -/
structure Reports (e : LiveColumn) (c : Column) : Prop where
  name : sameFold e.name c.name = true
  type : e.ReportsType c.dataType
  isNullable : e.isNullable = if c.notNull then "NO" else "YES"

theorem Reports.notNull {e : LiveColumn} {c : Column} (h : e.Reports c) :
    e.notNull = c.notNull := by
  rw [LiveColumn.notNull, h.isNullable]
  cases c.notNull <;> decide

end LiveColumn

/-- The live columns of a table that was made with these columns. -/
structure ReportsAll (live : List LiveColumn) (columns : List Column) : Prop where
  each : ∀ c ∈ columns, ∃ e ∈ live, e.Reports c
  only : ∀ e ∈ live, ∃ c ∈ columns, e.Reports c

/-- The catalog lists the columns in an order of its own. -/
theorem ReportsAll.of_forall₂ {live : List LiveColumn} {columns columns' : List Column}
    (h : List.Forall₂ LiveColumn.Reports live columns) (hperm : columns.Perm columns') :
    ReportsAll live columns' := by
  constructor
  · intro c hc
    obtain ⟨n, hn, rfl⟩ := List.mem_iff_getElem.mp (hperm.mem_iff.mpr hc)
    have hn' : n < live.length := h.length_eq ▸ hn
    exact ⟨live[n], List.getElem_mem _, h.get hn' hn⟩
  · intro e he
    obtain ⟨n, hn, rfl⟩ := List.mem_iff_getElem.mp he
    have hn' : n < columns.length := h.length_eq ▸ hn
    exact ⟨columns[n], hperm.mem_iff.mp (List.getElem_mem _), h.get hn hn'⟩

/-- The live column that is found for a column is the one that reports it. -/
theorem ReportsAll.exists_found {live : List LiveColumn} {columns : List Column}
    (h : ReportsAll live columns) (hnames : DistinctNames (columns.map (·.name))) {c : Column}
    (hc : c ∈ columns) : ∃ e, findLiveColumn? live c.name = some e ∧ e.Reports c := by
  cases hfind : findLiveColumn? live c.name with
  | none =>
      obtain ⟨e, he, hreports⟩ := h.each c hc
      exact absurd hreports.name (List.find?_eq_none.mp hfind e he)
  | some e =>
      obtain ⟨d, hd, hreports⟩ := h.only e (List.mem_of_find?_eq_some hfind)
      have hfound : sameFold e.name c.name = true :=
        List.find?_some (p := fun e : LiveColumn => sameFold e.name c.name) hfind
      have hfold := sameFold_trans (sameFold_symm hreports.name) hfound
      cases hnames.eq_of_sameFold hd hc hfold
      exact ⟨e, rfl, hreports⟩

/-- Fields that take their types from their kinds have columns that are misread by kind. -/
theorem Field.isMisread_toColumn {model : String} {f : Field} {c : Column}
    (hkind : f.sqlType = none ∧ f.element.ownSqlType = none) (h : f.toColumn model = .ok c) :
    isMisread c.dataType = f.element.kind.isMisread := by
  have htype : f.resolvedSqlType = f.element.kind.sqlType f.length f.precision := by
    rw [resolvedSqlType, ElementType.sqlType, hkind.1, hkind.2]
    rfl
  rw [toColumn, htype] at h
  split at h
  · cases h
  · next ty hty =>
    cases h
    exact Kind.isMisread_of_sqlType hty

namespace Plan

/-! ## The plan that adopts a table -/

theorem createTables_create {schema : String} {r : Relation} (h : r.isView = false) :
    (create schema r).createTables = [.createTable schema r.table r.columns] := by
  have hindexes : ∀ (indexes : List Index) (p : Plan),
      (indexes.foldl createIndex p).createTables = p.createTables := by
    intro indexes p
    induction indexes generalizing p with
    | nil => rfl
    | cons i rest ih => exact ih (p.createIndex i)
  rw [create, make, h, if_neg Bool.false_ne_true, makeTable, hindexes]
  rfl

section Adoption

variable {schema : String} {last desired : Relation} {live : List LiveColumn}
  {indexes : List LiveIndex} (hempty : last.columns = [])
  (hnames : DistinctNames (desired.columns.map (·.name)))
  (hlive : ReportsAll live desired.columns)

include hempty hnames hlive in
/-- An adopted column is compared with what the catalog says of it. -/
theorem exists_base_of_reports {c : Column} (hc : c ∈ desired.columns) :
    ∃ e : LiveColumn, e.Reports c ∧ baseColumn? last live c = some (e.toColumn c) := by
  obtain ⟨e, hfind, hreports⟩ := hlive.exists_found hnames hc
  refine ⟨e, hreports, ?_⟩
  rw [baseColumn?, Relation.column?, hempty, List.find?_nil, hfind]
  rfl

/-- Between what the catalog says of a column and the column itself at most the type changes. -/
theorem changes_of_reports {table : String} {e : LiveColumn} {c : Column} (h : e.Reports c) :
    (e.toColumn c).changes schema table c
      = if isMisread c.dataType then [.alterColumnType c] else [] := by
  have hnull : (e.toColumn c).notNull = c.notNull := h.notNull
  have htype : sameAsciiFold c.dataType (e.toColumn c).dataType = !isMisread c.dataType :=
    h.type.sameAsciiFold_dataType
  have hdefault : (e.toColumn c).defaultValue = c.defaultValue := rfl
  rw [Column.changes, hnull, htype, hdefault]
  cases isMisread c.dataType <;> simp

include hempty hnames hlive in
theorem mapM_columnPatches_of_reports {table : String} :
    desired.columns.mapM (columnPatches schema table last live)
      = .ok (desired.columns.map fun c =>
        if isMisread c.dataType then [.alterColumnType c] else []) := by
  rw [mapM_eq_ok_iff, List.forall₂_map_right_iff, List.forall₂_same]
  intro c hc
  obtain ⟨e, hreports, hbase⟩ := exists_base_of_reports hempty hnames hlive hc
  have hkey : (e.toColumn c).primaryKey = c.primaryKey := rfl
  rw [columnPatches, hbase]
  dsimp only
  rw [hkey, if_pos (beq_self_eq_true _), changes_of_reports hreports]

include hempty hnames hlive in
/-- The plan that adopts a table alters the types that are misread. -/
theorem exists_adoption (hlast : last.isView = false) (hdesired : desired.isView = false) :
    ∃ p, alter schema last desired live indexes = .ok p ∧ p.updateNulls = []
      ∧ p.columnClauses
        = (desired.columns.filter fun c => isMisread c.dataType).map .alterColumnType := by
  obtain ⟨p, hp⟩ : ∃ p, alter schema last desired live indexes = .ok p := by
    refine (alter_ok_iff hlast hdesired).mpr fun c _ old hold => ?_
    rw [Relation.column?, hempty] at hold
    cases hold
  obtain ⟨patches, hpatches, hplan⟩ := alter_table hlast hdesired hp
  rw [mapM_columnPatches_of_reports hempty hnames hlive, Except.ok.injEq] at hpatches
  have hflatten : patches.flatten
      = (desired.columns.filter fun c => isMisread c.dataType).map .alterColumnType := by
    rw [← hpatches, ← List.flatMap_def, flatMap_ite_singleton]
  have hnulls := queue_alter_table (.inl rfl) hplan
  have hclauses := queue_alter_table (.inr rfl) hplan
  rw [hflatten, Patch.ofRank_map_alterColumnType] at hnulls hclauses
  exact ⟨p, hp, hnulls, hclauses⟩

end Adoption

/-- A table that was made with the columns of a model, which take their types from the kinds of its
fields, is adopted without NULL updates, and its column clauses alter the types of the columns that
are misread. So there are none exactly when no stored field is an integer or a decimal. -/
theorem adoption_clauses_iff {m : Descriptor} {r last : Relation} {schema : String}
    {columns : List Column} {live : List LiveColumn} {indexes : List LiveIndex}
    (hr : m.desired none = .ok r)
    (hkinds : ∀ f ∈ m.storedFields, f.sqlType = none ∧ f.element.ownSqlType = none)
    (hnames : DistinctNames (m.storedFields.map (·.column)))
    (hempty : last.isEmpty = true) (hlast : last.isView = false)
    (hcreate : (create schema r).createTables = [.createTable schema r.table columns])
    (hlive : ReportsAll live columns) :
    ∃ p, alter schema last r live indexes = .ok p ∧ p.updateNulls = []
      ∧ p.columnClauses = (columns.filter fun c => isMisread c.dataType).map .alterColumnType
      ∧ (p.columnClauses = [] ↔ ∀ f ∈ m.storedFields, f.element.kind.isMisread = false) := by
  obtain ⟨made, hmade, -, hshape⟩ := Descriptor.desired_eq_ok hr
  have hview : r.isView = false := by rw [hshape]; rfl
  have hperm : r.columns.Perm made := by
    rw [hshape]
    exact Relation.columns_normalized_perm _
  rw [createTables_create hview] at hcreate
  cases hcreate
  have hlastColumns : last.columns = [] := by
    rw [Relation.isEmpty, Bool.and_eq_true] at hempty
    exact List.isEmpty_iff.mp hempty.1
  have hdistinct := (Descriptor.asks_of_desired hr).distinctColumns hnames
  obtain ⟨p, hp, hnulls, hclauses⟩ : ∃ p, alter schema last r live indexes = .ok p ∧ _ ∧ _ :=
    exists_adoption hlastColumns hdistinct hlive hlast hview
  refine ⟨p, hp, hnulls, hclauses, ?_⟩
  have hmisread : ∀ f ∈ m.storedFields, ∀ c, f.toColumn m.typeName = .ok c →
      isMisread c.dataType = f.element.kind.isMisread :=
    fun f hf c hc => Field.isMisread_toColumn (hkinds f hf) hc
  rw [hclauses, List.map_eq_nil_iff, List.filter_eq_nil_iff]
  constructor
  · intro hnone f hf
    obtain ⟨c, hc, hcolumn⟩ := exists_result_of_mapM hmade hf
    rw [← hmisread f hf c hcolumn, Bool.eq_false_iff]
    exact hnone c (hperm.mem_iff.mpr hc)
  · intro hnone c hc
    obtain ⟨f, hf, hcolumn⟩ := exists_arg_of_mapM hmade (hperm.mem_iff.mp hc)
    rw [hmisread f hf c hcolumn, hnone f hf]
    exact Bool.false_ne_true

/-- Settings, with a name and a switch. -/
def settingDeclaration : Declaration where
  typeName := "Setting"
  parts := [
    .field { name := "Name", element := { tag := "String", kind := .string }, length := 64 },
    .field { name := "Enabled", element := { tag := "bool", kind := .bool } }]

/-- What the catalog says of the table of settings. -/
def settingColumns : List LiveColumn :=
  [{ name := "name", typeName := "varchar", isNullable := "NO", charLength := some 64 },
    { name := "enabled", typeName := "bool", isNullable := "NO" }]

theorem adoption_clauses_iff_settings :
    ∃ m r p, Descriptor.ofDeclaration settingDeclaration = .ok m ∧ m.desired none = .ok r
      ∧ ReportsAll settingColumns r.columns
      ∧ alter "app" { table := "setting" } r settingColumns [] = .ok p
      ∧ p.updateNulls = [] ∧ p.columnClauses = [] := by
  have hm : Descriptor.ofDeclaration settingDeclaration = .ok (.ofFields settingDeclaration) := by
    rfl
  obtain ⟨r, hr, hview⟩ : ∃ r, (Descriptor.ofFields settingDeclaration).desired none = .ok r
      ∧ r.isView = false := ⟨_, rfl, rfl⟩
  have hlive : ReportsAll settingColumns r.columns := by
    obtain ⟨made, hmade, -, rfl⟩ := Descriptor.desired_eq_ok hr
    cases hmade
    refine .of_forall₂ ?_ (Relation.columns_normalized_perm _).symm
    exact .cons ⟨by decide +kernel, .varchar 64 rfl rfl, rfl⟩
      (.cons ⟨by decide +kernel, .boolean rfl, rfl⟩ .nil)
  have hempty : ({ table := "setting" } : Relation).isEmpty = true := rfl
  obtain ⟨p, hp, hnulls, -, hnone⟩ := adoption_clauses_iff hr (by decide +kernel)
    (by decide +kernel) hempty rfl (createTables_create hview) hlive
  exact ⟨_, r, p, hm, hr, hlive, hp, hnulls, hnone.mpr (by decide +kernel)⟩

/-- Visits, with a number. -/
def visitDeclaration : Declaration where
  typeName := "Visit"
  parts := [.field { name := "ID", element := { tag := "i64", kind := .int64 } }]

/-- What the catalog says of the table of visits. -/
def visitColumns : List LiveColumn := [{ name := "id", typeName := "int8", isNullable := "NO" }]

/-- An integer column is altered to the type that it has. -/
theorem adoption_alters_integer :
    ∃ m r p c, Descriptor.ofDeclaration visitDeclaration = .ok m ∧ m.desired none = .ok r
      ∧ (create "app" r).createTables = [.createTable "app" "visit" [c]] ∧ c.dataType = "BIGINT"
      ∧ ReportsAll visitColumns [c]
      ∧ alter "app" { table := "visit" } r visitColumns [] = .ok p
      ∧ p.columnClauses = [.alterColumnType c] := by
  have hm : Descriptor.ofDeclaration visitDeclaration = .ok (.ofFields visitDeclaration) := by rfl
  obtain ⟨r, hr, hview, hcolumns⟩ : ∃ r, (Descriptor.ofFields visitDeclaration).desired none = .ok r
      ∧ r.isView = false ∧ r.columns = [⟨"id", "BIGINT", "", true, true⟩] :=
    ⟨_, rfl, rfl, by decide +kernel⟩
  have hlive : ReportsAll visitColumns r.columns := by
    rw [hcolumns]
    refine .of_forall₂ ?_ (.refl _)
    exact .cons ⟨by decide +kernel, .bigint rfl, rfl⟩ .nil
  have hlast : ({ table := "visit" } : Relation).columns = [] := rfl
  have hdistinct : DistinctNames (r.columns.map (·.name)) := by
    rw [hcolumns]
    decide +kernel
  obtain ⟨p, hp, -, hclauses⟩ := exists_adoption hlast hdistinct hlive rfl hview
  have hcreate : (create "app" r).createTables = [.createTable "app" "visit" r.columns] := by
    rw [createTables_create hview]
    cases hr
    rfl
  rw [hcolumns] at hclauses hcreate hlive
  exact ⟨_, r, p, _, hm, hr, hcreate, rfl, hlive, hp, hclauses⟩

end Plan

end SchemaEvolution
