import SchemaEvolution.Proofs.Lists
import SchemaEvolution.Proofs.Relation.Normal
import SchemaEvolution.Store.Basic

set_option autoImplicit false

/-! # The shape a model asks for

The shape is in normal form and has at least one column. Its columns are those of the stored fields
and its indexes the declared ones, both up to order; a plain view has no indexes. Fragments of
indexes are merged as they are added, so declared indexes have distinct names whatever the specs say
(`Descriptor.declaredIndexes_distinct`).
-/

namespace SchemaEvolution

open Text

/-! ## Merging fragments -/

theorem addColumnName_distinct {names : List String} (h : DistinctNames names) (name : String) :
    DistinctNames (addColumnName names name) := by
  unfold addColumnName
  split
  · exact h
  · next hnone =>
    rw [Bool.not_eq_true, List.any_eq_false] at hnone
    refine List.pairwise_append.mpr ⟨h, List.pairwise_singleton _ name, ?_⟩
    intro a ha b hb
    rw [List.mem_singleton.mp hb]
    exact Bool.eq_false_iff.mpr (hnone a ha)

/-- Adding a fragment adds its name unless an index of that name is there. -/
theorem addFragment_names (indexes : List Index) (fragment : Index) :
    (addFragment indexes fragment).map (·.name)
      = addColumnName (indexes.map (·.name)) fragment.name := by
  induction indexes with
  | nil => rfl
  | cons i rest ih =>
      by_cases h : sameFold i.name fragment.name = true
      · simp [addFragment, addColumnName, h]
      · rw [addFragment, if_neg h, List.map_cons, ih]
        simp only [addColumnName, List.map_cons, List.any_cons, Bool.not_eq_true _ |>.mp h,
          Bool.false_or]
        split <;> rfl

theorem foldl_addFragment_distinct {indexes : List Index} (fragments : List Index)
    (h : DistinctNames (indexes.map (·.name))) :
    DistinctNames ((fragments.foldl addFragment indexes).map (·.name)) := by
  induction fragments generalizing indexes with
  | nil => exact h
  | cons fragment rest ih =>
      refine ih ?_
      rw [addFragment_names]
      exact addColumnName_distinct h fragment.name

/-- The indexes that a model declares. -/
def Descriptor.declaredIndexes (m : Descriptor) : List Index :=
  (m.storedFields.flatMap Field.indexFragments).foldl addFragment []

theorem Descriptor.declaredIndexes_distinct (m : Descriptor) :
    DistinctNames (m.declaredIndexes.map (·.name)) :=
  foldl_addFragment_distinct _ List.Pairwise.nil

/-! ## The desired shape -/

theorem toColumn_name {model : String} {f : Field} {c : Column}
    (h : f.toColumn model = .ok c) : c.name = f.column := by
  unfold Field.toColumn at h
  split at h
  · cases h
  · cases h
    rfl

theorem mapM_toColumn_names {model : String} {fields : List Field} {columns : List Column}
    (h : fields.mapM (Field.toColumn model) = .ok columns) :
    columns.map (·.name) = fields.map Field.column := by
  rw [mapM_eq_ok_iff] at h
  induction h with
  | nil => rfl
  | cons hc _ ih => rw [List.map_cons, List.map_cons, ih, toColumn_name hc]

/-- The shape that a model asks for as it is before it is sorted. -/
def Descriptor.shape (m : Descriptor) (query : Option String) (columns : List Column) :
    Relation where
  table := m.table
  columns := columns
  indexes := if query.isSome && !m.isMaterialized then [] else m.declaredIndexes
  viewQuery := query.getD ""
  isView := query.isSome
  isMaterialized := query.isSome && m.isMaterialized

/-- A shape is asked for only when every stored field has a type and there is one. -/
theorem Descriptor.desired_eq_ok {m : Descriptor} {query : Option String} {r : Relation}
    (h : m.desired query = .ok r) :
    ∃ columns, m.storedFields.mapM (Field.toColumn m.typeName) = .ok columns ∧ columns ≠ []
      ∧ r = (m.shape query columns).normalized := by
  unfold desired at h
  cases hcolumns : m.storedFields.mapM (Field.toColumn m.typeName) with
  | error e =>
      rw [hcolumns] at h
      cases h
  | ok columns =>
      rw [hcolumns] at h
      by_cases hempty : columns.isEmpty = true
      · rw [List.isEmpty_iff.mp hempty] at h
        cases h
      · refine ⟨columns, rfl, fun hnil => hempty (List.isEmpty_iff.mpr hnil), ?_⟩
        change (if columns.isEmpty = true then _ else _) = _ at h
        rw [if_neg hempty] at h
        cases h
        rfl

/-- What is known of a shape that a model asks for. -/
structure Descriptor.Asks (m : Descriptor) (r : Relation) : Prop where
  table : r.table = m.table
  normal : r.normalized = r
  columns_ne_nil : r.columns ≠ []
  columnNames : (r.columns.map (·.name)).Perm (m.storedFields.map Field.column)
  /-- A plain view has no indexes, any other shape has the declared ones. -/
  indexNames : if r.isView && !r.isMaterialized then r.indexes = []
    else (r.indexes.map (·.name)).Perm (m.declaredIndexes.map (·.name))

theorem Descriptor.asks_of_desired {m : Descriptor} {query : Option String} {r : Relation}
    (h : m.desired query = .ok r) : m.Asks r := by
  obtain ⟨columns, hcolumns, hne, rfl⟩ := desired_eq_ok h
  have hperm := (m.shape query columns).columns_normalized_perm
  refine ⟨rfl, Relation.normalized_normalized _, ?_, ?_, ?_⟩
  · intro hnil
    rw [hnil] at hperm
    exact hne hperm.nil_eq.symm
  · rw [← mapM_toColumn_names hcolumns]
    exact hperm.map (·.name)
  · have hnames := (m.shape query columns).indexNames_normalized_perm
    show if (query.isSome && !(query.isSome && m.isMaterialized)) = true then _ else _
    -- `shape` asks in its own words whether the shape is a plain view
    cases hplain : query.isSome && !m.isMaterialized with
    | true =>
        rw [if_pos (by grind)]
        simp [Relation.normalized, shape, hplain]
    | false =>
        rw [if_neg (by grind)]
        simpa [shape, hplain] using hnames

theorem Store.asks_of_desired {s : Store} {m : Descriptor} {r : Relation}
    (h : s.desired m = .ok r) : m.Asks r := by
  unfold desired at h
  split at h
  · exact Descriptor.asks_of_desired h
  · next query _ =>
    cases hquery : s.resolve query none with
    | error e =>
        rw [hquery] at h
        cases h
    | ok text =>
        rw [hquery] at h
        exact Descriptor.asks_of_desired h

namespace Descriptor.Asks

variable {m : Descriptor} {r : Relation}

theorem distinctIndexes (h : m.Asks r) : DistinctNames (r.indexes.map (·.name)) := by
  have hnames := h.indexNames
  split at hnames
  · rw [hnames]
    exact List.Pairwise.nil
  · exact m.declaredIndexes_distinct.perm hnames.symm

theorem distinctColumns (h : m.Asks r)
    (hdistinct : DistinctNames (m.storedFields.map Field.column)) :
    DistinctNames (r.columns.map (·.name)) :=
  hdistinct.perm h.columnNames.symm

theorem nodup_physicalNames (h : m.Asks r)
    (hnodup : (m.declaredIndexes.map fun i => physicalIndexName m.table i.name).Nodup) :
    r.physicalNames.Nodup := by
  have hnames := h.indexNames
  split at hnames
  · simp [Relation.physicalNames, hnames]
  · have hperm := hnames.map (physicalIndexName m.table)
    rw [List.map_map, List.map_map, ← h.table] at hperm
    rw [← h.table] at hnodup
    exact hperm.nodup_iff.mpr hnodup

end Descriptor.Asks

end SchemaEvolution
