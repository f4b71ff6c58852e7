import SchemaEvolution.Catalog.Live
import SchemaEvolution.Proofs.Lists
import SchemaEvolution.Proofs.Text.Fold

set_option autoImplicit false

/-! # Names, equality and normal form of relations

When names are pairwise different up to case, looking a name up finds the one entry of that name.
So a relation of such names is equal to itself (`Relation.sameAs_self`), which is not true of a
relation that has two columns of one name. The normal form of a relation is its own normal form,
and only the order of columns and indexes differs from the relation it comes from.
-/

namespace SchemaEvolution

open Text

/-! ## Distinct names -/

/-- Names that are pairwise different up to case. -/
def DistinctNames (names : List String) : Prop := names.Pairwise fun a b => sameFold a b = false

instance (names : List String) : Decidable (DistinctNames names) :=
  inferInstanceAs (Decidable (names.Pairwise fun a b => sameFold a b = false))

theorem distinctNames_iff {names : List String} :
    DistinctNames names ↔ (names.map lowercase).Nodup := by
  rw [List.Nodup, List.pairwise_map]
  constructor
  · intro h
    refine h.imp fun {a b} hab heq => ?_
    rw [sameFold_iff.mpr heq] at hab
    exact absurd hab (by decide)
  · intro h
    exact h.imp fun {a b} hne => Bool.eq_false_iff.mpr fun hab => hne (sameFold_iff.mp hab)

theorem DistinctNames.perm {as bs : List String} (h : DistinctNames as) (hperm : as.Perm bs) :
    DistinctNames bs := by
  rw [distinctNames_iff] at h ⊢
  exact (hperm.map lowercase).nodup_iff.mp h

section Lookup

variable {α : Type} {name : α → String} {items : List α}

theorem DistinctNames.eq_of_sameFold (h : DistinctNames (items.map name)) {a b : α}
    (ha : a ∈ items) (hb : b ∈ items) (hab : sameFold (name a) (name b) = true) : a = b := by
  have hnodup : (items.map (lowercase ∘ name)).Nodup := by
    rw [← List.map_map]
    exact distinctNames_iff.mp h
  exact List.inj_on_of_nodup_map hnodup ha hb (sameFold_iff.mp hab)

/-- The first entry of a name is the one entry of that name. -/
theorem DistinctNames.find?_eq_some (h : DistinctNames (items.map name)) {a : α} {n : String}
    (ha : a ∈ items) (hfold : sameFold (name a) n = true) :
    items.find? (fun b => sameFold (name b) n) = some a := by
  cases hfind : items.find? (fun b => sameFold (name b) n) with
  | none => exact absurd hfold (List.find?_eq_none.mp hfind a ha)
  | some b =>
      have hb := List.find?_some hfind
      have hab : sameFold (name b) (name a) = true := sameFold_trans hb (sameFold_symm hfold)
      rw [h.eq_of_sameFold (List.mem_of_find?_eq_some hfind) ha hab]

/-- The entries of a name are the one entry of that name. -/
theorem DistinctNames.filter_eq_singleton (h : DistinctNames (items.map name)) {a : α} {n : String}
    (ha : a ∈ items) (hfold : sameFold (name a) n = true) :
    items.filter (fun b => sameFold (name b) n) = [a] := by
  induction items with
  | nil => cases ha
  | cons b rest ih =>
      obtain ⟨hb, hrest⟩ := List.pairwise_cons.mp h
      rcases List.mem_cons.mp ha with rfl | ha
      · rw [List.filter_cons, if_pos hfold, List.filter_eq_nil_iff.mpr]
        intro c hc hcn
        have hac := hb (name c) (List.mem_map_of_mem hc)
        rw [sameFold_trans hfold (sameFold_symm hcn)] at hac
        cases hac
      · have hba := hb (name a) (List.mem_map_of_mem ha)
        rw [List.filter_cons_of_neg, ih hrest ha]
        intro hbn
        rw [sameFold_trans hbn (sameFold_symm hfold)] at hba
        cases hba

end Lookup

namespace Relation

variable {r : Relation} {name : String}

theorem mem_of_column? {c : Column} (h : r.column? name = some c) :
    c ∈ r.columns ∧ sameFold c.name name = true := by
  have hfold := List.find?_some h
  exact ⟨List.mem_of_find?_eq_some h, hfold⟩

theorem column?_isSome_iff :
    (r.column? name).isSome = true ↔ ∃ c ∈ r.columns, sameFold c.name name = true := by
  rw [column?, List.find?_isSome]

theorem column?_eq_none_iff :
    r.column? name = none ↔ ∀ c ∈ r.columns, sameFold c.name name = false := by
  simp [column?]

/-- A lookup depends on the name up to case. -/
theorem column?_congr (r : Relation) {a b : String} (h : sameFold a b = true) :
    r.column? a = r.column? b := by
  rw [column?, column?]
  refine List.find?_congr fun c _ => ?_
  rw [Bool.eq_iff_iff, sameFold_iff, sameFold_iff, sameFold_iff.mp h]

end Relation

/-! ## Equality -/

theorem Column.sameAs_self (c : Column) : c.sameAs c = true := by
  simp [sameAs]

theorem sameColumns_self (columns : List String) : sameColumns columns columns = true := by
  have hany : columns.all (fun l => columns.any fun r => sameFold l r) = true := by
    rw [List.all_eq_true]
    intro l hl
    exact List.any_eq_true.mpr ⟨l, hl, sameFold_refl l⟩
  have hany' : columns.all (fun r => columns.any fun l => sameFold l r) = true := by
    rw [List.all_eq_true]
    intro r hr
    exact List.any_eq_true.mpr ⟨r, hr, sameFold_refl r⟩
  rw [sameColumns, hany, hany', beq_self_eq_true]
  rfl

theorem Index.sameAs_self (i : Index) : i.sameAs i = true := by
  simp [sameAs, sameColumns_self]

namespace Relation

theorem sameAs_self {r : Relation} (hcolumns : DistinctNames (r.columns.map (·.name)))
    (hindexes : DistinctNames (r.indexes.map (·.name))) : r.sameAs r = true := by
  have hc : r.columns.all (fun c => (r.column? c.name).any c.sameAs) = true := by
    rw [List.all_eq_true]
    intro c hc
    rw [column?, hcolumns.find?_eq_some hc (sameFold_refl c.name)]
    exact c.sameAs_self
  have hi : r.indexes.all (fun i => (r.index? i.name).any i.sameAs) = true := by
    rw [List.all_eq_true]
    intro i hi
    rw [index?, hindexes.find?_eq_some hi (sameFold_refl i.name)]
    exact i.sameAs_self
  simp [sameAs, hc, hi]

end Relation

/-! ## Normal form -/

theorem pairwise_mergeSort_name {α : Type} (name : α → String) (items : List α) :
    (items.mergeSort fun a b => decide (name a ≤ name b)).Pairwise
      fun a b => decide (name a ≤ name b) = true := by
  refine List.pairwise_mergeSort ?_ ?_ items
  · intro a b c hab hbc
    rw [decide_eq_true_eq] at hab hbc ⊢
    exact String.le_trans hab hbc
  · intro a b
    rw [Bool.or_eq_true, decide_eq_true_eq, decide_eq_true_eq]
    exact String.le_total (name a) (name b)

@[simp]
theorem sorted_sorted (texts : List String) : sorted (sorted texts) = sorted texts :=
  List.mergeSort_of_pairwise (pairwise_mergeSort_name id texts)

namespace Relation

/-- The normal form of a relation is its own normal form. -/
@[simp]
theorem normalized_normalized (r : Relation) : r.normalized.normalized = r.normalized := by
  have hcolumns : r.normalized.columns.mergeSort (fun a b => decide (a.name ≤ b.name))
      = r.normalized.columns :=
    List.mergeSort_of_pairwise (pairwise_mergeSort_name Column.name r.columns)
  have hindexes : r.normalized.indexes.mergeSort (fun a b => decide (a.name ≤ b.name))
      = r.normalized.indexes := by
    refine List.mergeSort_of_pairwise ?_
    rw [normalized, List.pairwise_map]
    exact pairwise_mergeSort_name Index.name r.indexes
  have hsorted : r.normalized.indexes.map (fun i => { i with columns := sorted i.columns })
      = r.normalized.indexes := by
    simp [normalized]
  rw [normalized, hcolumns, hindexes, hsorted]

theorem columns_normalized_perm (r : Relation) : r.normalized.columns.Perm r.columns :=
  List.mergeSort_perm r.columns _

theorem indexNames_normalized_perm (r : Relation) :
    (r.normalized.indexes.map (·.name)).Perm (r.indexes.map (·.name)) := by
  rw [normalized, List.map_map]
  exact (List.mergeSort_perm r.indexes _).map (·.name)

end Relation

/-! ## Indexes in the database -/

@[simp]
theorem lowercase_physicalIndexName (table index : String) :
    lowercase (physicalIndexName table index) = physicalIndexName table index :=
  lowercase_lowercase (table ++ index)

theorem LiveIndex.isIndex_iff {live : LiveIndex} {table : String} {i : Index} :
    live.isIndex table i = true ↔
      lowercase live.name = physicalIndexName table i.name
        ∧ sameColumns live.columns i.columns = true := by
  rw [isIndex, Bool.and_eq_true, sameFold_iff, lowercase_physicalIndexName, eq_comm]

namespace Relation

variable {r : Relation}

theorem mem_of_physicalIndex? {name : String} {i : Index} (h : r.physicalIndex? name = some i) :
    i ∈ r.indexes ∧ name = physicalIndexName r.table i.name := by
  rw [physicalIndex?] at h
  obtain ⟨j, hj, heq⟩ := List.mem_map.mp (List.mem_reverse.mp (mem_of_lookup h))
  cases heq
  exact ⟨hj, rfl⟩

/-- The names that the indexes of a relation have in the database. -/
def physicalNames (r : Relation) : List String :=
  r.indexes.map fun i => physicalIndexName r.table i.name

theorem physicalIndex?_of_mem (h : r.physicalNames.Nodup) {i : Index} (hi : i ∈ r.indexes) :
    r.physicalIndex? (physicalIndexName r.table i.name) = some i := by
  have hmem : (physicalIndexName r.table i.name, i) ∈ r.physicalIndexes :=
    List.mem_map.mpr ⟨i, hi, rfl⟩
  rw [physicalIndex?]
  refine lookup_of_mem ?_ (List.mem_reverse.mpr hmem)
  rw [List.map_reverse, List.nodup_reverse, physicalIndexes, List.map_map]
  exact h

/-- Live indexes that are as many as those of a relation, and each of which is one of them, match
the relation. -/
theorem indexesMatch_of (h : r.physicalNames.Nodup) {live : List LiveIndex}
    (hlength : r.indexes.length = live.length)
    (hlive : ∀ e ∈ live, ∃ i ∈ r.indexes, e.isIndex r.table i = true) :
    r.indexesMatch live = true := by
  rw [indexesMatch, hlength, beq_self_eq_true, Bool.true_and, List.all_eq_true]
  intro e he
  obtain ⟨i, hi, hindex⟩ := hlive e he
  rw [(LiveIndex.isIndex_iff.mp hindex).1, physicalIndex?_of_mem h hi]
  exact hindex

end Relation

end SchemaEvolution
