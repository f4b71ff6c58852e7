import SchemaEvolution.Proofs.Model.Description
import SchemaEvolution.Proofs.Relation.Derivation
import SchemaEvolution.Proofs.Relation.Equality

set_option autoImplicit false

/-! # The order of fields

Two declarations that differ in the order of their fields are accepted alike. They ask for the same
shape, unless the order decides something: which of two columns of one name up to case an index
names, which field without a type is reported, or which of several specs of an index gives its
attributes. `Descriptor.OrderFree` excludes these three, and then the shapes are identical
(`Descriptor.desired_of_reordered`).
-/

namespace SchemaEvolution

open Text

/-- What an index says beside its name and its columns. -/
def Index.attributes (i : Index) : Index := { i with name := "", columns := [] }

theorem Index.eq_of_attributes {i j : Index} (hname : i.name = j.name)
    (h : i.attributes = j.attributes) : j = { i with columns := j.columns } := by
  cases i
  cases j
  simp_all [attributes]

/-- The declaration with its fields in another order. -/
structure Declaration.Reordered (d d' : Declaration) : Prop where
  fields : d.fields.Perm d'.fields
  rest : d' = { d with parts := d'.parts }

namespace Descriptor

/-- The model with its fields in another order. -/
structure Reordered (m m' : Descriptor) : Prop where
  fields : m.fields.Perm m'.fields
  rest : m' = { m with fields := m'.fields }

/-- The order of fields decides nothing. -/
structure OrderFree (m : Descriptor) : Prop where
  columns : DistinctNames (m.storedFields.map Field.column)
  typed : ∀ f ∈ m.storedFields, f.resolvedSqlType ≠ none
  /-- All specs of an index name give the index the same attributes. -/
  attributes : ∀ s ∈ m.indexSpecs, ∀ t ∈ m.indexSpecs, ∀ i ∈ s.fragment?, ∀ j ∈ t.fragment?,
    sameFold i.name j.name = true → i.attributes = j.attributes

/-! ## Acceptance -/

theorem WellFormed.perm {as bs : List Field} (h : WellFormed as) (hperm : as.Perm bs) :
    WellFormed bs where
  names := (hperm.map _).nodup_iff.mp h.names
  columns := ((hperm.filter _).map _).nodup_iff.mp h.columns
  key := (hperm.filter Field.isKey).length_eq ▸ h.key

theorem accepted_iff {d : Declaration} :
    (∃ m, ofDeclaration d = .ok m) ↔ d.typeName ≠ "" ∧ WellFormed d.fields := by
  simp only [ofDeclaration_eq_ok_iff, exists_and_left, exists_eq, and_true]

theorem reordered_of_declarations {d d' : Declaration} {m m' : Descriptor} (h : d.Reordered d')
    (hm : ofDeclaration d = .ok m) (hm' : ofDeclaration d' = .ok m') : m.Reordered m' := by
  obtain ⟨-, -, rfl⟩ := ofDeclaration_eq_ok_iff.mp hm
  obtain ⟨-, -, rfl⟩ := ofDeclaration_eq_ok_iff.mp hm'
  refine ⟨h.fields, ?_⟩
  rw [ofFields, ofFields, h.rest]

/-! ## Indexes -/

section Indexes

variable {m m' : Descriptor}

theorem Reordered.symm (h : m.Reordered m') : m'.Reordered m where
  fields := h.fields.symm
  rest := by rw [h.rest]

theorem Reordered.storedFields (h : m.Reordered m') : m.storedFields.Perm m'.storedFields :=
  h.fields.filter Field.isStored

theorem Reordered.indexSpecs (h : m.Reordered m') : m.indexSpecs.Perm m'.indexSpecs :=
  h.storedFields.flatMap_right _

theorem OrderFree.reordered (hfree : m.OrderFree) (h : m.Reordered m') : m'.OrderFree where
  columns := hfree.columns.perm (h.storedFields.map Field.column)
  typed f hf := hfree.typed f (h.storedFields.mem_iff.mpr hf)
  attributes s hs t ht := hfree.attributes s (h.indexSpecs.mem_iff.mpr hs) t
    (h.indexSpecs.mem_iff.mpr ht)

theorem lowercase_name_of_fragment? {s : IndexSpec} {i : Index} (h : s.fragment? = some i) :
    lowercase i.name = i.name := by
  rw [IndexSpec.fragment?, indexOfSpec?] at h
  split at h
  · cases h
  · cases h
    exact lowercase_lowercase _

/-- An index has exactly the columns of the fields that declare it. -/
theorem Merges.mem_columns_iff {i : Index} (h : m.Merges i)
    (hcolumns : DistinctNames (m.storedFields.map Field.column)) {c : String} :
    c ∈ i.columns ↔ ∃ f ∈ m.storedFields, f.declaresIndex i.name = true ∧ f.column = c := by
  constructor
  · exact h.field_of_column c
  · rintro ⟨f, hf, hdeclares, rfl⟩
    obtain ⟨c, hc, hfold⟩ := h.column_of_field f hf hdeclares
    obtain ⟨g, hg, -, rfl⟩ := h.field_of_column c hc
    rwa [← hcolumns.eq_of_sameFold hg hf hfold]

/-- The indexes of one name of two models differ in the order of their columns only. -/
theorem Merges.rearranged {i j : Index} (h : m.Reordered m') (hfree : m.OrderFree)
    (hi : m.Merges i) (hj : m'.Merges j) (hname : sameFold j.name i.name = true) :
    i.Rearranged j := by
  -- the specs that come first may be others, but they say the same of the index
  obtain ⟨s, first, hs, hfirst, heq⟩ := hi.first
  obtain ⟨t, first', ht, hfirst', heq'⟩ := hj.first
  have hsmem : s ∈ m.indexSpecs := List.mem_of_find?_eq_some hs
  have htmem : t ∈ m.indexSpecs := h.indexSpecs.mem_iff.mpr (List.mem_of_find?_eq_some ht)
  have hiname : i.name = first.name := by rw [heq]
  have hjname : j.name = first'.name := by rw [heq']
  rw [hiname, hjname] at hname
  have hnames : first.name = first'.name := by
    rw [← lowercase_name_of_fragment? hfirst, ← lowercase_name_of_fragment? hfirst']
    exact (sameFold_iff.mp hname).symm
  have hattributes :=
    hfree.attributes s hsmem t htmem first hfirst first' hfirst' (sameFold_symm hname)
  have hcolumns (c : String) : c ∈ j.columns ↔ c ∈ i.columns := by
    rw [hj.mem_columns_iff (hfree.reordered h).columns, hi.mem_columns_iff hfree.columns,
      hiname, hjname, hnames]
    simp only [h.storedFields.mem_iff]
  refine ⟨j.columns, ?_, ?_⟩
  · exact (List.perm_ext_iff_of_nodup hj.columns_distinct.nodup hi.columns_distinct.nodup).mpr
      hcolumns
  · rw [heq', Index.eq_of_attributes hnames hattributes, heq]

theorem declaredIndexes_found (h : m.Reordered m') (hfree : m.OrderFree) :
    ∀ i ∈ m.declaredIndexes, ∃ j ∈ m'.declaredIndexes, i.Rearranged j := by
  intro i hi
  obtain ⟨f, hf, hdeclares⟩ := exists_declaredIndexes_iff.mp ⟨i, hi, sameFold_refl i.name⟩
  obtain ⟨j, hj, hname⟩ :=
    exists_declaredIndexes_iff.mpr ⟨f, h.storedFields.mem_iff.mp hf, hdeclares⟩
  exact ⟨j, hj, (merges_of_mem_declaredIndexes hi).rearranged h hfree
    (merges_of_mem_declaredIndexes hj) hname⟩

theorem declaredIndexes_paired (h : m.Reordered m') (hfree : m.OrderFree) :
    Paired Index.Rearranged m.declaredIndexes m'.declaredIndexes := by
  have hname : ∀ i j : Index, i.Rearranged j → i.name = j.name := by
    rintro i j ⟨columns, -, rfl⟩
    rfl
  -- each index is found on the other side, so there are as many on both
  have hlength : m'.declaredIndexes.length ≤ m.declaredIndexes.length :=
    length_le_of_keys (declaredIndexes_found h.symm (hfree.reordered h)) hname
      m'.declaredIndexes_distinct.nodup
  exact paired_of_keys (declaredIndexes_found h hfree) hname m.declaredIndexes_distinct.nodup
    hlength

end Indexes

/-! ## Shapes -/

section Shapes

variable {m m' : Descriptor} {query : Option String}

theorem Reordered.exists_columns (h : m.Reordered m') {columns : List Column}
    (hcolumns : m.storedFields.mapM (Field.toColumn m.typeName) = .ok columns) :
    ∃ columns', m'.storedFields.mapM (Field.toColumn m'.typeName) = .ok columns'
      ∧ columns'.Perm columns := by
  rw [mapM_eq_ok_iff] at hcolumns
  obtain ⟨columns', hcolumns', hperm⟩ :=
    List.perm_comp_forall₂ h.storedFields.symm hcolumns
  refine ⟨columns', ?_, hperm⟩
  rw [mapM_eq_ok_iff, h.rest]
  exact hcolumns'

/-- The shapes before they are sorted differ in order only. -/
theorem Reordered.shape (h : m.Reordered m') (hfree : m.OrderFree) (query : Option String)
    {columns columns' : List Column} (hperm : columns'.Perm columns) :
    (m.shape query columns).Rearranged (m'.shape query columns') where
  columns := hperm.symm
  indexes := by
    have hmaterialized : m'.isMaterialized = m.isMaterialized := by rw [h.rest]
    unfold Descriptor.shape
    rw [hmaterialized]
    split
    · exact ⟨[], .nil, .nil⟩
    · exact declaredIndexes_paired h hfree
  rest := by
    unfold Descriptor.shape
    rw [h.rest]

theorem shape_unambiguous {columns : List Column}
    (hcolumns : m.storedFields.mapM (Field.toColumn m.typeName) = .ok columns)
    (hdistinct : DistinctNames (m.storedFields.map Field.column)) :
    (m.shape query columns).Unambiguous where
  columns := by
    show DistinctNames (columns.map (·.name))
    rwa [mapM_toColumn_names hcolumns]
  indexes := by
    unfold shape
    split
    · exact List.Pairwise.nil
    · exact m.declaredIndexes_distinct

/-- A model that stores something asks for a shape, and so does it in another order of its fields:
for the same one. -/
theorem Reordered.desired_eq_ok (h : m.Reordered m') (hfree : m.OrderFree)
    (hstored : m.storedFields ≠ []) (query : Option String) :
    ∃ r, m.desired query = .ok r ∧ m'.desired query = .ok r := by
  have hcolumn : ∀ f ∈ m.storedFields, ∃ c, f.toColumn m.typeName = .ok c := fun f hf =>
    toColumn_eq_ok_iff.mpr (hfree.typed f hf)
  obtain ⟨columns, hcolumns⟩ := mapM_ok_of_forall hcolumn
  obtain ⟨columns', hcolumns', hperm⟩ := h.exists_columns hcolumns
  have hne : columns ≠ [] := by
    rintro rfl
    exact hstored (List.forall₂_nil_right_iff.mp (mapM_eq_ok_iff.mp hcolumns))
  have hne' : columns' ≠ [] := by
    rintro rfl
    exact hne hperm.nil_eq.symm
  have hnormal :=
    (h.shape hfree query hperm).normalized_eq (shape_unambiguous hcolumns hfree.columns)
  exact ⟨_, desired_eq_ok_iff.mpr ⟨columns, hcolumns, hne, rfl⟩,
    desired_eq_ok_iff.mpr ⟨columns', hcolumns', hne', hnormal⟩⟩

end Shapes

/-- Moving fields around. Two declarations that differ in the order of their flat fields only are
both accepted or both refused. The two models ask for the same shape as a table and as a view of any
query, or fail alike, when no two columns have one name up to case, every stored field has a type
and the specs of each index name agree on its attributes. If they store something there is a shape,
and as a record of the table it equals the desired one, so nothing is changed. -/
theorem desired_of_reordered {d d' : Declaration} (h : d.Reordered d') :
    ((∃ m, ofDeclaration d = .ok m) ↔ ∃ m', ofDeclaration d' = .ok m')
      ∧ ∀ m m', ofDeclaration d = .ok m → ofDeclaration d' = .ok m' → m.OrderFree → ∀ query,
        m'.desired query = m.desired query
          ∧ (m.storedFields ≠ [] → ∃ r, m.desired query = .ok r ∧ m'.desired query = .ok r
            ∧ r.sameAs r = true) := by
  refine ⟨?_, fun m m' hm hm' hfree query => ?_⟩
  · have hname : d'.typeName = d.typeName := by rw [h.rest]
    rw [accepted_iff, accepted_iff, hname]
    exact and_congr_right fun _ => ⟨fun hwell => hwell.perm h.fields,
      fun hwell => hwell.perm h.fields.symm⟩
  · have hmodels := reordered_of_declarations h hm hm'
    have hshape := fun hstored => hmodels.desired_eq_ok hfree hstored query
    refine ⟨?_, fun hstored => ?_⟩
    · by_cases hstored : m.storedFields = []
      · have hstored' : m'.storedFields = [] :=
          (hstored ▸ hmodels.storedFields).nil_eq.symm
        have herror : m.desired query = .error (.noStoredColumns m.typeName) :=
          desired_eq_error_iff.mpr (.inr ⟨hstored, rfl⟩)
        rw [herror, desired_eq_error_iff, hmodels.rest]
        exact .inr ⟨by rwa [← hmodels.rest], rfl⟩
      · obtain ⟨r, hr, hr'⟩ := hshape hstored
        rw [hr, hr']
    · obtain ⟨r, hr, hr'⟩ := hshape hstored
      have hasks := asks_of_desired hr
      exact ⟨r, hr, hr', Relation.sameAs_self (hasks.distinctColumns hfree.columns)
        hasks.distinctIndexes⟩

/-- Events with an index over two columns, of which one comes from an embedded part, and a field
that is not stored. -/
def eventDeclaration : Declaration where
  typeName := "Event"
  parts :=
    [.field { name := "Zone", element, indexes := ["ByZoneKind gin"] },
      .embedded [.field { name := "Kind", element, indexes := ["byzonekind gin", "Kind"] },
        .field { name := "Draft", element, skip := true }],
      .field { name := "Code", element, uniqueIndexes := ["code"] }]
where
  element : ElementType := { tag := "String", kind := .string }

/-- The index is declared by other fields first, and with its columns in another order. -/
theorem desired_of_reordered_events :
    ∃ m m' r, ofDeclaration eventDeclaration = .ok m
      ∧ ofDeclaration { eventDeclaration with parts := eventDeclaration.parts.reverse } = .ok m'
      ∧ m.OrderFree
      ∧ m.declaredIndexes.map (·.columns) = [["zone", "kind"], ["kind"], ["code"]]
      ∧ m'.declaredIndexes.map (·.columns) = [["code"], ["kind", "zone"], ["kind"]]
      ∧ m.desired none = .ok r ∧ m'.desired none = .ok r ∧ r.sameAs r = true := by
  have hreordered : eventDeclaration.Reordered
      { eventDeclaration with parts := eventDeclaration.parts.reverse } :=
    ⟨by decide +kernel, rfl⟩
  have hok : ofDeclaration eventDeclaration = .ok (ofFields eventDeclaration) := by rfl
  have hfree : (ofFields eventDeclaration).OrderFree :=
    ⟨by decide +kernel, by decide +kernel, by decide +kernel⟩
  obtain ⟨haccepted, hshapes⟩ := desired_of_reordered hreordered
  obtain ⟨m', hm'⟩ := haccepted.mp ⟨_, hok⟩
  obtain ⟨r, hr, hr', hsame⟩ := (hshapes _ m' hok hm' hfree none).2 (by decide +kernel)
  refine ⟨_, m', r, hok, hm', hfree, by decide +kernel, ?_, hr, hr', hsame⟩
  obtain ⟨-, -, rfl⟩ := ofDeclaration_eq_ok_iff.mp hm'
  decide +kernel

end Descriptor

end SchemaEvolution
