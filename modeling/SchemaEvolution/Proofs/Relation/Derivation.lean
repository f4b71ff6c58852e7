import SchemaEvolution.Proofs.Relation.Desired
import SchemaEvolution.Proofs.Relation.IndexSpecs

set_option autoImplicit false

/-! # Columns and indexes derived from fields

A shape that a model asks for has one column for each stored field. Its indexes come from the index
specs of the stored fields, read in the order of `Descriptor.indexSpecs`: what an index of a name
becomes depends only on the specs that declare this name up to case
(`Descriptor.find?_declaredIndexes`). The first of them gives the index, and the columns of the
others are added to it.

`Descriptor.Derives` collects what this says of a shape, and `Descriptor.desired_derives` adds when
there is none.
-/

namespace SchemaEvolution

open Text

/-! ## Index specs -/

/-- An index spec of a stored field. -/
structure IndexSpec where
  group : IndexGroup
  /-- The column of the field. -/
  column : String
  text : String
  deriving DecidableEq, Repr

namespace IndexSpec

/-- The fragment of an index that a spec declares; a blank spec declares none. -/
def fragment? (s : IndexSpec) : Option Index := indexOfSpec? s.group s.column s.text

/-- Whether a spec declares the index of a name: its first word is the name up to case. -/
def declares (s : IndexSpec) (name : String) : Bool :=
  (wordsOn ' ' s.text).head?.any (sameFold · name)

theorem any_fragment? (s : IndexSpec) (name : String) :
    s.fragment?.any (sameFold ·.name name) = s.declares name := by
  rw [fragment?, indexOfSpec?, declares]
  cases wordsOn ' ' s.text with
  | nil => rfl
  | cons word words =>
      rw [List.head?_cons, Option.any_some, Option.any_some, sameFold_comm,
        sameFold_lowercase_right, sameFold_comm]

theorem columns_of_fragment? {s : IndexSpec} {fragment : Index} (h : s.fragment? = some fragment) :
    fragment.columns = [s.column] := by
  obtain ⟨name, words, -, rfl⟩ := indexOfSpec?_eq_some_iff.mp h
  exact fragmentOf_columns s.group s.column name words

end IndexSpec

/-- The index specs of a field: plain ones, then GIN ones, then unique ones. -/
def Field.indexSpecs (f : Field) : List IndexSpec :=
  f.indexes.map (.mk .plain f.column) ++ f.ginIndexes.map (.mk .gin f.column)
    ++ f.uniqueIndexes.map (.mk .unique f.column)

theorem Field.column_of_mem_indexSpecs {f : Field} {s : IndexSpec} (h : s ∈ f.indexSpecs) :
    s.column = f.column := by
  simp only [indexSpecs, List.mem_append, List.mem_map] at h
  rcases h with (⟨_, -, rfl⟩ | ⟨_, -, rfl⟩) | ⟨_, -, rfl⟩ <;> rfl

theorem Field.indexFragments_eq (f : Field) :
    f.indexFragments = f.indexSpecs.filterMap IndexSpec.fragment? := by
  simp only [indexFragments, indexSpecs, List.filterMap_append, List.filterMap_map]
  rfl

/-- Whether a spec of a field declares the index of a name. -/
def Field.declaresIndex (f : Field) (name : String) : Bool := f.indexSpecs.any (·.declares name)

/-- The index specs of a model, field by field. -/
def Descriptor.indexSpecs (m : Descriptor) : List IndexSpec :=
  m.storedFields.flatMap Field.indexSpecs

/-! ## Column names without repetitions -/

section ColumnNames

variable {columns names : List String}

theorem foldl_addColumnName_distinct (h : DistinctNames columns) (names : List String) :
    DistinctNames (names.foldl addColumnName columns) := by
  induction names generalizing columns with
  | nil => exact h
  | cons name names ih => exact ih (addColumnName_distinct h name)

theorem mem_addColumnName {name c : String} (h : c ∈ addColumnName columns name) :
    c ∈ columns ∨ c = name := by
  rw [addColumnName] at h
  split at h
  · exact .inl h
  · simpa using h

theorem mem_foldl_addColumnName {c : String} (h : c ∈ names.foldl addColumnName columns) :
    c ∈ columns ++ names := by
  induction names generalizing columns with
  | nil => simpa using h
  | cons name names ih =>
      have hmem := ih h
      rw [List.mem_append] at hmem
      rcases hmem with hc | hc
      · rcases mem_addColumnName hc with hc | rfl <;> simp [hc]
      · simp [hc]

theorem exists_mem_addColumnName {name c : String} (h : c ∈ columns ∨ c = name) :
    ∃ c' ∈ addColumnName columns name, sameFold c' c = true := by
  rw [addColumnName]
  split
  · next hany =>
    rcases h with hc | rfl
    · exact ⟨c, hc, sameFold_refl c⟩
    · exact List.any_eq_true.mp hany
  · refine ⟨c, ?_, sameFold_refl c⟩
    simpa using h

/-- No name is lost, up to case. -/
theorem exists_mem_foldl_addColumnName {c : String} (h : c ∈ columns ++ names) :
    ∃ c' ∈ names.foldl addColumnName columns, sameFold c' c = true := by
  induction names generalizing columns c with
  | nil => exact ⟨c, by simpa using h, sameFold_refl c⟩
  | cons name names ih =>
      have hc : (c ∈ columns ∨ c = name) ∨ c ∈ names := by
        simpa [or_assoc] using h
      rcases hc with hc | hc
      · obtain ⟨c', hc', hfold⟩ := exists_mem_addColumnName hc
        obtain ⟨c'', hc'', hfold'⟩ := ih (List.mem_append_left names hc')
        exact ⟨c'', hc'', sameFold_trans hfold' hfold⟩
      · exact ih (List.mem_append_right _ hc)

end ColumnNames

/-! ## Merging fragments by name -/

namespace Index

/-- An index with the names of more columns. -/
def addColumns (i : Index) (names : List String) : Index :=
  { i with columns := names.foldl addColumnName i.columns }

theorem addColumns_addColumns (i : Index) (names names' : List String) :
    (i.addColumns names).addColumns names' = i.addColumns (names ++ names') := by
  rw [addColumns, addColumns, addColumns, List.foldl_append]

/-- The index that fragments of one name give: the first one, with the columns of the others. -/
def merge? : List Index → Option Index
  | [] => none
  | first :: rest => some (first.addColumns (rest.flatMap (·.columns)))

theorem merge?_addColumns_cons (first second : Index) (rest : List Index) :
    merge? (first.addColumns second.columns :: rest) = merge? (first :: second :: rest) := by
  rw [merge?, merge?, addColumns_addColumns, List.flatMap_cons]

end Index

/-- Adding a fragment changes the index of its name and no other one. -/
theorem find?_addFragment (indexes : List Index) (fragment : Index) (name : String) :
    (addFragment indexes fragment).find? (sameFold ·.name name)
      = if sameFold fragment.name name then
          some ((indexes.find? (sameFold ·.name name)).elim fragment
            (·.addColumns fragment.columns))
        else indexes.find? (sameFold ·.name name) := by
  induction indexes with
  | nil =>
      rw [addFragment, List.find?_singleton, List.find?_nil]
      rfl
  | cons i rest ih =>
      rw [addFragment]
      by_cases hi : sameFold i.name fragment.name = true
      · -- the fragment goes to this index, which a name finds when it finds the fragment
        have hname : sameFold i.name name = sameFold fragment.name name := by
          rw [Bool.eq_iff_iff, sameFold_iff, sameFold_iff, sameFold_iff.mp hi]
        rw [if_pos hi, List.find?_cons, List.find?_cons, hname]
        cases sameFold fragment.name name <;> rfl
      · rw [if_neg hi, List.find?_cons, List.find?_cons, ih]
        cases hname : sameFold i.name name with
        | false => rfl
        | true =>
            have hother : ¬ sameFold fragment.name name = true := fun h =>
              hi (sameFold_trans hname (sameFold_symm h))
            exact (if_neg hother).symm

/-- A name finds what the fragments of this name give. -/
theorem find?_foldl_addFragment (fragments indexes : List Index) (name : String) :
    (fragments.foldl addFragment indexes).find? (sameFold ·.name name)
      = Index.merge? ((indexes.find? (sameFold ·.name name)).toList
          ++ fragments.filter (sameFold ·.name name)) := by
  induction fragments generalizing indexes with
  | nil =>
      rw [List.foldl_nil, List.filter_nil, List.append_nil]
      cases indexes.find? (sameFold ·.name name) <;> rfl
  | cons fragment fragments ih =>
      rw [List.foldl_cons, ih, find?_addFragment, List.filter_cons]
      by_cases hname : sameFold fragment.name name = true
      · rw [if_pos hname, if_pos hname]
        cases indexes.find? (sameFold ·.name name) with
        | none => rfl
        | some i => exact i.merge?_addColumns_cons fragment _
      · rw [if_neg hname, if_neg hname]

namespace Descriptor

variable {m : Descriptor}

/-- The fragments that the specs of a model declare for the index of a name. -/
def fragmentsOf (m : Descriptor) (name : String) : List Index :=
  (m.indexSpecs.filterMap IndexSpec.fragment?).filter (sameFold ·.name name)

/-- The declared index of a name depends on the fragments of this name only. -/
theorem find?_declaredIndexes (m : Descriptor) (name : String) :
    m.declaredIndexes.find? (sameFold ·.name name) = Index.merge? (m.fragmentsOf name) := by
  have hfragments : m.storedFields.flatMap Field.indexFragments
      = m.indexSpecs.filterMap IndexSpec.fragment? := by
    rw [indexSpecs, List.filterMap_flatMap]
    exact List.flatMap_congr fun f _ => f.indexFragments_eq
  rw [declaredIndexes, hfragments, find?_foldl_addFragment, fragmentsOf]
  rfl

theorem mem_fragmentsOf {name : String} {fragment : Index} :
    fragment ∈ m.fragmentsOf name ↔ ∃ f ∈ m.storedFields, ∃ s ∈ f.indexSpecs,
      s.declares name = true ∧ s.fragment? = some fragment := by
  simp only [fragmentsOf, indexSpecs, List.mem_filter, List.mem_filterMap, List.mem_flatMap]
  constructor
  · rintro ⟨⟨s, ⟨f, hf, hs⟩, hfragment⟩, hname⟩
    refine ⟨f, hf, s, hs, ?_, hfragment⟩
    rwa [← s.any_fragment?, hfragment]
  · rintro ⟨f, hf, s, hs, hdeclares, hfragment⟩
    refine ⟨⟨s, ⟨f, hf, hs⟩, hfragment⟩, ?_⟩
    rwa [← s.any_fragment?, hfragment] at hdeclares

theorem head?_fragmentsOf (m : Descriptor) (name : String) :
    (m.fragmentsOf name).head?
      = (m.indexSpecs.find? (·.declares name)).bind IndexSpec.fragment? := by
  rw [fragmentsOf, List.head?_filter, List.find?_filterMap]
  simp only [IndexSpec.any_fragment?]

/-- The columns of the fragments of a name are those of the fields that declare it. -/
theorem exists_fragmentsOf_column {name c : String} :
    (∃ fragment ∈ m.fragmentsOf name, c ∈ fragment.columns) ↔
      ∃ f ∈ m.storedFields, f.declaresIndex name = true ∧ f.column = c := by
  constructor
  · rintro ⟨fragment, hmem, hc⟩
    obtain ⟨f, hf, s, hs, hdeclares, hfragment⟩ := mem_fragmentsOf.mp hmem
    rw [IndexSpec.columns_of_fragment? hfragment, List.mem_singleton] at hc
    refine ⟨f, hf, List.any_eq_true.mpr ⟨s, hs, hdeclares⟩, ?_⟩
    rw [hc, Field.column_of_mem_indexSpecs hs]
  · rintro ⟨f, hf, hdeclares, rfl⟩
    obtain ⟨s, hs, hname⟩ := List.any_eq_true.mp hdeclares
    have hsome := hname
    rw [← s.any_fragment?, Option.any_eq_true] at hsome
    obtain ⟨fragment, hfragment, -⟩ := hsome
    refine ⟨fragment, mem_fragmentsOf.mpr ⟨f, hf, s, hs, hname, hfragment⟩, ?_⟩
    rw [IndexSpec.columns_of_fragment? hfragment, Field.column_of_mem_indexSpecs hs]
    exact List.mem_singleton_self f.column

/-- There is an index of each name that a stored field declares, and of no other name. -/
theorem exists_declaredIndexes_iff {name : String} :
    (∃ i ∈ m.declaredIndexes, sameFold i.name name = true) ↔
      ∃ f ∈ m.storedFields, f.declaresIndex name = true := by
  have hsome : (Index.merge? (m.fragmentsOf name)).isSome = true
      ↔ (m.fragmentsOf name).isEmpty = false := by
    cases m.fragmentsOf name <;> simp [Index.merge?]
  rw [← List.find?_isSome, find?_declaredIndexes, hsome, List.isEmpty_eq_false_iff_exists_mem]
  constructor
  · rintro ⟨fragment, hfragment⟩
    obtain ⟨f, hf, s, hs, hdeclares, -⟩ := mem_fragmentsOf.mp hfragment
    exact ⟨f, hf, List.any_eq_true.mpr ⟨s, hs, hdeclares⟩⟩
  · rintro ⟨f, hf, hdeclares⟩
    obtain ⟨fragment, hfragment, -⟩ := exists_fragmentsOf_column.mpr ⟨f, hf, hdeclares, rfl⟩
    exact ⟨fragment, hfragment⟩

/-- How an index comes out of the specs of a model. -/
structure Merges (m : Descriptor) (i : Index) : Prop where
  /-- All but the columns is as the first spec of the name says. -/
  first : ∃ s fragment, m.indexSpecs.find? (·.declares i.name) = some s
    ∧ s.fragment? = some fragment ∧ i = { fragment with columns := i.columns }
  columns_distinct : DistinctNames i.columns
  field_of_column : ∀ c ∈ i.columns, ∃ f ∈ m.storedFields,
    f.declaresIndex i.name = true ∧ f.column = c
  column_of_field : ∀ f ∈ m.storedFields, f.declaresIndex i.name = true →
    ∃ c ∈ i.columns, sameFold c f.column = true

/-- The order of its columns is not part of what an index comes from. -/
theorem Merges.perm {i : Index} {columns : List String} (h : m.Merges i)
    (hperm : columns.Perm i.columns) : m.Merges { i with columns } where
  first := by
    obtain ⟨s, fragment, hs, hfragment, hi⟩ := h.first
    exact ⟨s, fragment, hs, hfragment, by rw [hi]⟩
  columns_distinct := h.columns_distinct.perm hperm.symm
  field_of_column c hc := h.field_of_column c (hperm.mem_iff.mp hc)
  column_of_field f hf hdeclares := by
    obtain ⟨c, hc, hfold⟩ := h.column_of_field f hf hdeclares
    exact ⟨c, hperm.mem_iff.mpr hc, hfold⟩

theorem merges_of_mem_declaredIndexes {i : Index} (hi : i ∈ m.declaredIndexes) : m.Merges i := by
  have hfind := m.declaredIndexes_distinct.find?_eq_some hi (sameFold_refl i.name)
  rw [find?_declaredIndexes] at hfind
  cases hfragments : m.fragmentsOf i.name with
  | nil =>
      rw [hfragments] at hfind
      cases hfind
  | cons first rest =>
      have hmerge : first.addColumns (rest.flatMap (·.columns)) = i := by
        rw [hfragments] at hfind
        exact Option.some.inj hfind
      have hcolumns : i.columns = (rest.flatMap (·.columns)).foldl addColumnName first.columns := by
        rw [← hmerge, Index.addColumns]
      have hfield (c : String) : c ∈ first.columns ++ rest.flatMap (·.columns) ↔
          ∃ f ∈ m.storedFields, f.declaresIndex i.name = true ∧ f.column = c := by
        rw [← exists_fragmentsOf_column, hfragments]
        simp
      have hhead := m.head?_fragmentsOf i.name
      rw [hfragments, List.head?_cons, eq_comm, Option.bind_eq_some_iff] at hhead
      obtain ⟨s, hs, hfragment⟩ := hhead
      refine ⟨⟨s, first, hs, hfragment, ?_⟩, ?_, fun c hc => ?_, fun f hf hdeclares => ?_⟩
      · rw [← hmerge, Index.addColumns]
      · rw [hcolumns, IndexSpec.columns_of_fragment? hfragment]
        exact foldl_addColumnName_distinct (List.pairwise_singleton _ s.column) _
      · rw [hcolumns] at hc
        exact (hfield c).mp (mem_foldl_addColumnName hc)
      · rw [hcolumns]
        exact exists_mem_foldl_addColumnName ((hfield f.column).mpr ⟨f, hf, hdeclares, rfl⟩)

/-! ## Shapes -/

/-- What a shape of a model is made of. -/
structure Derives (m : Descriptor) (query : Option String) (r : Relation) : Prop where
  table : r.table = m.table
  viewQuery : r.viewQuery = query.getD ""
  isView : r.isView = query.isSome
  isMaterialized : r.isMaterialized = (query.isSome && m.isMaterialized)
  /-- One column for each stored field. -/
  columns : ∃ columns,
    List.Forall₂ (fun f c => f.toColumn m.typeName = .ok c) m.storedFields columns
      ∧ r.columns.Perm columns
  columns_sorted : r.columns.Pairwise fun a b => a.name ≤ b.name
  /-- A plain view has no indexes. -/
  plain_view : query.isSome = true → m.isMaterialized = false → r.indexes = []
  /-- Any other shape has an index of each name that a stored field declares, and no other one. -/
  index_iff : query = none ∨ m.isMaterialized = true → ∀ name,
    (∃ i ∈ r.indexes, sameFold i.name name = true)
      ↔ ∃ f ∈ m.storedFields, f.declaresIndex name = true
  indexes_distinct : DistinctNames (r.indexes.map (·.name))
  indexes_sorted : r.indexes.Pairwise fun a b => a.name ≤ b.name
  index_columns_sorted : ∀ i ∈ r.indexes, i.columns.Pairwise (· ≤ ·)
  merges : ∀ i ∈ r.indexes, m.Merges i

/-- A shape comes from the columns of the stored fields, when there are any. -/
theorem desired_eq_ok_iff {query : Option String} {r : Relation} :
    m.desired query = .ok r ↔ ∃ columns,
      m.storedFields.mapM (Field.toColumn m.typeName) = .ok columns
        ∧ columns ≠ [] ∧ r = (m.shape query columns).normalized := by
  constructor
  · exact desired_eq_ok
  · rintro ⟨columns, hcolumns, hne, rfl⟩
    unfold desired
    rw [hcolumns]
    show (if columns.isEmpty = true then _ else _) = _
    rw [if_neg (by simpa using hne)]
    rfl

theorem desired_eq_error_iff {query : Option String} {e : SchemaError} :
    m.desired query = .error e ↔ m.storedFields.mapM (Field.toColumn m.typeName) = .error e
      ∨ m.storedFields = [] ∧ e = .noStoredColumns m.typeName := by
  unfold desired
  cases hcolumns : m.storedFields.mapM (Field.toColumn m.typeName) with
  | error e' =>
      have hne : m.storedFields ≠ [] := by
        intro hnil
        rw [hnil] at hcolumns
        cases hcolumns
      show Except.error e' = _ ↔ _
      simp [hne]
  | ok columns =>
      have hnil : m.storedFields = [] ↔ columns = [] := by
        have hlength := (mapM_eq_ok_iff.mp hcolumns).length_eq
        rw [← List.length_eq_zero_iff, hlength, List.length_eq_zero_iff]
      show (if columns.isEmpty = true then _ else _) = _ ↔ _
      by_cases hempty : columns = []
      · rw [if_pos (by simpa using hempty), hnil]
        show Except.error _ = Except.error e ↔ _
        simp [hempty, eq_comm]
      · rw [if_neg (by simpa using hempty), hnil]
        show Except.ok _ = Except.error e ↔ _
        simp [hempty]

end Descriptor

theorem Relation.mem_indexes_normalized {r : Relation} {i : Index} :
    i ∈ r.normalized.indexes ↔ ∃ j ∈ r.indexes, i = { j with columns := sorted j.columns } := by
  simp [normalized, eq_comm]

namespace Descriptor

variable {m : Descriptor}

theorem derives_of_desired {query : Option String} {r : Relation} (h : m.desired query = .ok r) :
    m.Derives query r := by
  have hasks := asks_of_desired h
  obtain ⟨columns, hcolumns, -, rfl⟩ := desired_eq_ok h
  have hdeclared : ∀ i ∈ (m.shape query columns).indexes, i ∈ m.declaredIndexes := by
    intro i hi
    rw [shape] at hi
    split at hi
    · cases hi
    · exact hi
  refine
    { table := rfl, viewQuery := rfl, isView := rfl, isMaterialized := rfl
      columns := ⟨columns, mapM_eq_ok_iff.mp hcolumns, Relation.columns_normalized_perm _⟩
      columns_sorted := ?_, plain_view := ?_, index_iff := ?_
      indexes_distinct := hasks.distinctIndexes
      indexes_sorted := ?_, index_columns_sorted := ?_, merges := ?_ }
  · exact (pairwise_mergeSort_name Column.name columns).imp of_decide_eq_true
  · intro hview hplain
    simp [Relation.normalized, shape, hview, hplain]
  · intro hkept name
    have hall : (m.shape query columns).indexes = m.declaredIndexes := by
      rw [shape]
      rcases hkept with rfl | hmaterialized
      · rfl
      · simp [hmaterialized]
    rw [← exists_declaredIndexes_iff, ← hall]
    simp [Relation.mem_indexes_normalized]
  · rw [Relation.normalized, List.pairwise_map]
    exact (pairwise_mergeSort_name Index.name _).imp of_decide_eq_true
  · intro i hi
    obtain ⟨j, -, rfl⟩ := Relation.mem_indexes_normalized.mp hi
    exact (pairwise_mergeSort_name id j.columns).imp of_decide_eq_true
  · intro i hi
    obtain ⟨j, hj, rfl⟩ := Relation.mem_indexes_normalized.mp hi
    exact (merges_of_mem_declaredIndexes (hdeclared j hj)).perm (List.mergeSort_perm j.columns _)

theorem toColumn_eq_ok_iff {model : String} {f : Field} :
    (∃ c, f.toColumn model = .ok c) ↔ f.resolvedSqlType ≠ none := by
  rw [Field.toColumn]
  cases f.resolvedSqlType <;> simp

theorem toColumn_eq_error_iff {model : String} {f : Field} {e : SchemaError} :
    f.toColumn model = .error e ↔
      f.resolvedSqlType = none ∧ e = .sqlTypeUndefined model f.name f.element.tag := by
  rw [Field.toColumn]
  cases f.resolvedSqlType <;> simp [eq_comm]

/-- Deriving the shape of a model. When every stored field has a type and there is one, there is a
shape, which is made of these fields. It has the same columns as a table and as a view. Otherwise
the error is the first stored field that has no type, or that nothing is stored. -/
theorem desired_derives (m : Descriptor) (query : Option String) :
    ((∀ f ∈ m.storedFields, f.resolvedSqlType ≠ none) → m.storedFields ≠ [] →
        ∃ r, m.desired query = .ok r ∧ m.Derives query r)
      ∧ (∀ r query' r', m.desired query = .ok r → m.desired query' = .ok r' →
        r.columns = r'.columns)
      ∧ ∀ e, m.desired query = .error e ↔
        (∃ before f after, m.storedFields = before ++ f :: after
          ∧ (∀ g ∈ before, g.resolvedSqlType ≠ none) ∧ f.resolvedSqlType = none
          ∧ e = .sqlTypeUndefined m.typeName f.name f.element.tag)
        ∨ m.storedFields = [] ∧ e = .noStoredColumns m.typeName := by
  refine ⟨fun htyped hstored => ?_, fun r query' r' hr hr' => ?_, fun e => ?_⟩
  · have hcolumn : ∀ f ∈ m.storedFields, ∃ c, f.toColumn m.typeName = .ok c := fun f hf =>
      toColumn_eq_ok_iff.mpr (htyped f hf)
    obtain ⟨columns, hcolumns⟩ := mapM_ok_of_forall hcolumn
    have hne : columns ≠ [] := by
      rintro rfl
      exact hstored (List.forall₂_nil_right_iff.mp (mapM_eq_ok_iff.mp hcolumns))
    have hr : m.desired query = .ok (m.shape query columns).normalized :=
      desired_eq_ok_iff.mpr ⟨columns, hcolumns, hne, rfl⟩
    exact ⟨_, hr, derives_of_desired hr⟩
  · obtain ⟨columns, hcolumns, -, rfl⟩ := desired_eq_ok hr
    obtain ⟨columns', hcolumns', -, rfl⟩ := desired_eq_ok hr'
    rw [hcolumns] at hcolumns'
    cases hcolumns'
    rfl
  · rw [desired_eq_error_iff, mapM_eq_error_iff]
    simp only [toColumn_eq_ok_iff, toColumn_eq_error_iff]

/-- A table of events. -/
def events (fields : List FieldDecl) : Descriptor where
  typeName := "Event"
  table := "event"
  fields := fields.map FieldDecl.describe
  viewQuery := none
  isMaterialized := false

/-- Fields of events, with an index over two columns that three specs declare, the first of them
with a word of each kind. -/
def eventFields : List FieldDecl :=
  [{ name := "Zone", element,
      indexes := ["ByZoneKind Unique btree NULLS concurrently LAST Hash", "ByZoneKind"] },
    { name := "Kind", element, indexes := ["byzonekind gist DESC"] },
    { name := "Code", element, uniqueIndexes := ["code"] },
    { name := "Tags", element, ginIndexes := ["tags jsonb_path_ops unique"] }]
where
  element : ElementType := { tag := "String", kind := .string }

/-- The index over two columns is one index, with what the words of its first spec say and nothing
of the others. A field that has no type is refused. -/
theorem desired_derives_events :
    (∃ r, (events eventFields).desired none = .ok r ∧ (events eventFields).Derives none r
        ∧ r.indexes =
          [{ name := "byzonekind", isUnique := true, method := "Hash", columns := ["kind", "zone"],
              options := "NULLS LAST", concurrently := true },
            { name := "code", isUnique := true, columns := ["code"] },
            { name := "tags", method := "gin", columns := ["tags"],
              options := "jsonb_path_ops unique" }])
      ∧ (events [{ name := "Blob", element := { tag := "Blob", kind := .other } }]).desired none
        = .error (.sqlTypeUndefined "Event" "Blob" "Blob") := by
  have htyped : ∀ f ∈ (events eventFields).storedFields, f.resolvedSqlType ≠ none := by
    decide +kernel
  have hstored : (events eventFields).storedFields ≠ [] := by decide +kernel
  obtain ⟨r, hr, hderives⟩ := (desired_derives (events eventFields) none).1 htyped hstored
  refine ⟨⟨r, hr, hderives, ?_⟩, ?_⟩
  · have hdeclared : (events eventFields).declaredIndexes =
        [{ name := "byzonekind", isUnique := true, method := "Hash", columns := ["zone", "kind"],
            options := "NULLS LAST", concurrently := true },
          { name := "code", isUnique := true, columns := ["code"] },
          { name := "tags", method := "gin", columns := ["tags"],
            options := "jsonb_path_ops unique" }] := by
      decide +kernel
    obtain ⟨columns, -, -, rfl⟩ := desired_eq_ok hr
    simp [Relation.normalized, shape, hdeclared, sorted, List.mergeSort]
  · rw [(desired_derives _ none).2.2]
    exact .inl ⟨[], _, [], rfl, by simp, rfl, rfl⟩

end Descriptor

end SchemaEvolution
