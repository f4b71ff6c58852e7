import SchemaEvolution.Proofs.Model.Description
import SchemaEvolution.Proofs.Relation.Desired
import SchemaEvolution.Proofs.Text.SnakeCase

set_option autoImplicit false

/-! # Columns that differ in case only

The columns of an accepted model are pairwise different as they are written, while relations look
columns up to case. So two columns of one accepted model are taken for one exactly when they differ
in case only (`Descriptor.columns_distinct_iff`), and then the shape that the model asks for has a
column that is not found by its own name. Columns that are named after ASCII field names are in
lower case, and no two of them are taken for one.
-/

namespace SchemaEvolution

open Text

/-- The columns of a relation are pairwise different up to case exactly when each is the one that is
found by its name, provided that they are written differently. -/
theorem Relation.distinctNames_iff_column? {r : Relation} (h : (r.columns.map (·.name)).Nodup) :
    DistinctNames (r.columns.map (·.name)) ↔ ∀ c ∈ r.columns, r.column? c.name = some c := by
  constructor
  · intro hdistinct c hc
    exact hdistinct.find?_eq_some hc (sameFold_refl c.name)
  · intro hfound
    rw [DistinctNames, List.pairwise_map]
    refine (List.Nodup.of_map _ h).pairwise_of_forall_ne fun c hc c' hc' hne => ?_
    rw [Bool.eq_false_iff]
    intro hfold
    have hsame := r.column?_congr hfold
    rw [hfound c hc, hfound c' hc'] at hsame
    exact hne (Option.some.inj hsame)

namespace Descriptor

variable {m : Descriptor}

/-- A column that is named after an ASCII field name is in lower case. -/
theorem lowercase_column_describe {d : FieldDecl} (hcolumn : d.column = none)
    (hname : d.name.toList.all isAscii = true) (hstored : d.describe.isStored = true) :
    lowercase d.describe.column = d.describe.column := by
  have hskip : d.isSkipped = false := by
    simpa [FieldDecl.describe, Field.isStored] using hstored
  have hdescribed : d.describe.column = Naming.snakeCase d.name := by
    rw [FieldDecl.describe, hskip]
    simp [FieldDecl.columnName, hcolumn]
  rw [hdescribed, Naming.lowercase_snakeCase hname]

/-- Columns that are written differently are taken for one when they differ in case only. -/
theorem WellFormed.distinctNames_iff (h : WellFormed m.fields) :
    DistinctNames (m.storedFields.map (·.column)) ↔
      ∀ f ∈ m.storedFields, ∀ g ∈ m.storedFields,
        sameFold f.column g.column = true → f.column = g.column := by
  constructor
  · intro hdistinct f hf g hg hfold
    rw [hdistinct.eq_of_sameFold hf hg hfold]
  · intro hcase
    rw [DistinctNames, List.pairwise_map]
    refine (List.Nodup.of_map _ h.columns).pairwise_of_forall_ne fun f hf g hg hne => ?_
    rw [Bool.eq_false_iff]
    intro hfold
    exact hne (List.inj_on_of_nodup_map h.columns hf hg (hcase f hf g hg hfold))

/-- The shape that a model asks for has the columns of its stored fields. -/
theorem Asks.distinctNames_iff {r : Relation} (h : m.Asks r) :
    DistinctNames (r.columns.map (·.name)) ↔ DistinctNames (m.storedFields.map (·.column)) :=
  ⟨fun hdistinct => hdistinct.perm h.columnNames, h.distinctColumns⟩

/-- The columns of a model that is described are pairwise different as they are written. Up to case
they are so exactly when no two of them differ in case only, and exactly when, in the shape that the
model asks for, each column is the one that its name finds. Columns in lower case and columns that
are named after ASCII field names are pairwise different up to case. -/
theorem columns_distinct_iff {d : Declaration} (h : ofDeclaration d = .ok m) :
    (m.storedFields.map (·.column)).Nodup
      ∧ (DistinctNames (m.storedFields.map (·.column)) ↔
        ∀ f ∈ m.storedFields, ∀ g ∈ m.storedFields,
          sameFold f.column g.column = true → f.column = g.column)
      ∧ (∀ query r, m.desired query = .ok r →
        (DistinctNames (m.storedFields.map (·.column)) ↔
          ∀ c ∈ r.columns, r.column? c.name = some c))
      ∧ ((∀ f ∈ m.storedFields, lowercase f.column = f.column
          ∨ ∃ decl : FieldDecl, f = decl.describe ∧ decl.column = none
            ∧ decl.name.toList.all isAscii = true) →
        DistinctNames (m.storedFields.map (·.column))) := by
  have hwell : WellFormed m.fields := IsDescribed.wellFormed ⟨d, h⟩
  refine ⟨hwell.columns, hwell.distinctNames_iff, fun query r hr => ?_, fun hlower => ?_⟩
  · have hasks := asks_of_desired hr
    have hnodup : (r.columns.map (·.name)).Nodup := hasks.columnNames.nodup_iff.mpr hwell.columns
    rw [← hasks.distinctNames_iff, Relation.distinctNames_iff_column? hnodup]
  · have hcolumn : ∀ f ∈ m.storedFields, lowercase f.column = f.column := by
      intro f hf
      rcases hlower f hf with hf' | ⟨decl, rfl, hnone, hascii⟩
      · exact hf'
      · exact lowercase_column_describe hnone hascii (mem_storedFields.mp hf).2
    rw [hwell.distinctNames_iff]
    intro f hf g hg hfold
    rw [← hcolumn f hf, ← hcolumn g hg, sameFold_iff.mp hfold]

/-- A declaration of accounts with a login name and a login, for which a column is named. -/
def loginDeclaration (column : String) : Declaration where
  typeName := "Account"
  parts :=
    [.field { name := "LoginName", element := { tag := "String", kind := .string } },
      .field { name := "Login", element := { tag := "String", kind := .string }, column }]

/-- The model of accounts. -/
def loginModel (column : String) : Descriptor := ofFields (loginDeclaration column)

/-- With the column `login` the columns of accounts are told apart. -/
theorem columns_distinct_login :
    ∃ m r, ofDeclaration (loginDeclaration "login") = .ok m ∧ m.desired none = .ok r
      ∧ m.storedFields.map (·.column) = ["login_name", "login"]
      ∧ DistinctNames (m.storedFields.map (·.column))
      ∧ ∀ c ∈ r.columns, r.column? c.name = some c := by
  have hm : ofDeclaration (loginDeclaration "login") = .ok (loginModel "login") := by
    rfl
  obtain ⟨-, -, hfound, hlower⟩ := columns_distinct_iff hm
  have hcolumns : ∀ f ∈ (loginModel "login").storedFields, lowercase f.column = f.column := by
    decide +kernel
  have hdistinct := hlower fun f hf => .inl (hcolumns f hf)
  obtain ⟨r, hr⟩ : ∃ r, (loginModel "login").desired none = .ok r := ⟨_, rfl⟩
  exact ⟨_, r, hm, hr, by decide +kernel, hdistinct, (hfound none r hr).mp hdistinct⟩

/-- A model with two columns that differ in case only is accepted, and in the shape that it asks for
some column is not the one that its name finds. -/
theorem columns_not_distinct :
    ∃ m r, ofDeclaration (loginDeclaration "LOGIN_NAME") = .ok m ∧ m.desired none = .ok r
      ∧ m.storedFields.map (·.column) = ["login_name", "LOGIN_NAME"]
      ∧ ¬ DistinctNames (m.storedFields.map (·.column))
      ∧ ∃ c ∈ r.columns, r.column? c.name ≠ some c := by
  have hm : ofDeclaration (loginDeclaration "LOGIN_NAME") = .ok (loginModel "LOGIN_NAME") := by
    rfl
  have hcolumns : (loginModel "LOGIN_NAME").storedFields.map (·.column)
      = ["login_name", "LOGIN_NAME"] := by
    decide +kernel
  have hnot : ¬ DistinctNames ((loginModel "LOGIN_NAME").storedFields.map (·.column)) := by
    rw [hcolumns]
    decide +kernel
  obtain ⟨r, hr⟩ : ∃ r, (loginModel "LOGIN_NAME").desired none = .ok r := ⟨_, rfl⟩
  refine ⟨_, r, hm, hr, hcolumns, hnot, ?_⟩
  have hasks := asks_of_desired hr
  have hnodup : (r.columns.map (·.name)).Nodup := by
    rw [hasks.columnNames.nodup_iff, hcolumns]
    decide +kernel
  rw [← hasks.distinctNames_iff, Relation.distinctNames_iff_column? hnodup] at hnot
  simpa using hnot

end Descriptor

end SchemaEvolution
