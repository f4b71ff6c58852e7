import SchemaEvolution.Proofs.Plan.IndexConvergence
import SchemaEvolution.Proofs.Plan.PrimaryKey
import SchemaEvolution.Proofs.Relation.Equality

set_option autoImplicit false

/-! # Plans for tables that are up to date

A table is up to date when its record equals the desired shape and its live indexes are the desired
ones. Planning a change of such a table succeeds, and the plan is empty but for two things that
equality does not see (`Plan.alter_of_isUpToDate`). Equality takes types up to case, a plan up to
the case of ASCII letters, so a type that differs in the case of another letter is altered. And a
recorded index that repeats a name is compared with the first desired one of its name, a desired
index with the first recorded one; these agree when recorded names are distinct.
-/

namespace SchemaEvolution

open Text

/-- Whether a desired column is recorded with another type, up to the case of ASCII letters. -/
def Relation.retypes (last : Relation) (c : Column) : Bool :=
  !(last.column? c.name).any fun recorded => sameAsciiFold c.dataType recorded.dataType

/-- Whether a desired index differs from the one recorded under its name. -/
def Relation.redefines (last : Relation) (i : Index) : Bool := !(last.index? i.name).any i.sameAs

/-! ## Live indexes that match -/

namespace Relation

variable {r : Relation} {live : List LiveIndex}

/-- The name of a live index that matches is the name of an index. -/
theorem exists_index_of_indexesMatch (h : r.indexesMatch live = true) {e : LiveIndex}
    (he : e ∈ live) : ∃ i ∈ r.indexes, e.isIndex r.table i = true := by
  rw [indexesMatch, Bool.and_eq_true, List.all_eq_true] at h
  obtain ⟨i, hfind, hindex⟩ := (Option.any_eq_true _ _).mp (h.2 e he)
  exact ⟨i, (mem_of_physicalIndex? hfind).1, hindex⟩

/-- Live indexes of distinct names that match are all the indexes there are. -/
theorem exists_live_of_indexesMatch (h : r.indexesMatch live = true)
    (hnames : r.physicalNames.Nodup) (hlive : (live.map fun e => lowercase e.name).Nodup)
    {i : Index} (hi : i ∈ r.indexes) : ∃ e ∈ live, e.isIndex r.table i = true := by
  have hsub : (live.map fun e => lowercase e.name) ⊆ r.physicalNames := by
    intro name hname
    obtain ⟨e, he, rfl⟩ := List.mem_map.mp hname
    obtain ⟨j, hj, hindex⟩ := exists_index_of_indexesMatch h he
    exact List.mem_map.mpr ⟨j, hj, (LiveIndex.isIndex_iff.mp hindex).1.symm⟩
  have hlength : r.physicalNames.length ≤ (live.map fun e => lowercase e.name).length := by
    rw [indexesMatch, Bool.and_eq_true, beq_iff_eq] at h
    rw [physicalNames, List.length_map, List.length_map, h.1]
  have hperm := (hlive.subperm hsub).perm_of_length_le hlength
  have hname : physicalIndexName r.table i.name ∈ live.map fun e => lowercase e.name :=
    hperm.mem_iff.mpr (List.mem_map.mpr ⟨i, hi, rfl⟩)
  obtain ⟨e, he, heq⟩ := List.mem_map.mp hname
  obtain ⟨j, hj, hindex⟩ := exists_index_of_indexesMatch h he
  -- the index that `e` is has the name of `i`
  have hji : j = i := List.inj_on_of_nodup_map hnames hj hi
    ((LiveIndex.isIndex_iff.mp hindex).1.symm.trans heq)
  exact ⟨e, he, hji ▸ hindex⟩

end Relation

namespace Plan

variable {schema : String} {last desired : Relation} {columns : List LiveColumn}
  {live : List LiveIndex}

/-! ## Columns -/

/-- A desired column of a table that is up to date is recorded under its name as an equal one. -/
theorem exists_recorded_of_sameAs (hcolumns : DistinctNames (last.columns.map (·.name)))
    (h : last.sameAs desired = true) {c : Column} (hc : c ∈ desired.columns) :
    ∃ recorded, last.column? c.name = some recorded ∧ recorded.sameAs c = true := by
  obtain ⟨-, ⟨hlength, hfound⟩, -⟩ := Relation.sameAs_iff_foundIn.mp h
  exact hfound.exists_found hcolumns hlength hc

/-- Between equal forms of a column at most the type changes. -/
theorem changes_of_sameAs {table : String} {old new : Column} (h : old.sameAs new = true) :
    old.changes schema table new
      = if sameAsciiFold new.dataType old.dataType then [] else [.alterColumnType new] := by
  obtain ⟨-, -, hdefault, hnull, -⟩ := Column.sameAs_iff.mp h
  simp [Column.changes, hdefault, hnull]

theorem columnPatches_of_sameAs {table : String} {c recorded : Column}
    (hfind : last.column? c.name = some recorded) (h : recorded.sameAs c = true) :
    columnPatches schema table last columns c
      = .ok (if last.retypes c then [.alterColumnType c] else []) := by
  obtain ⟨-, -, -, -, hkey⟩ := Column.sameAs_iff.mp h
  rw [columnPatches, baseColumn?, hfind]
  dsimp only
  rw [if_pos (beq_iff_eq.mpr hkey.symm), changes_of_sameAs h, Relation.retypes, hfind,
    Option.any_some]
  cases sameAsciiFold c.dataType recorded.dataType <;> rfl

/-- For a table that is up to date, column patches alter types only. -/
theorem mapM_columnPatches (hcolumns : DistinctNames (last.columns.map (·.name)))
    (h : last.sameAs desired = true) :
    desired.columns.mapM (columnPatches schema desired.table last columns)
      = .ok (desired.columns.map fun c => if last.retypes c then [.alterColumnType c] else []) := by
  rw [mapM_eq_ok_iff, List.forall₂_map_right_iff, List.forall₂_same]
  intro c hc
  obtain ⟨recorded, hfind, hsame⟩ := exists_recorded_of_sameAs hcolumns h hc
  exact columnPatches_of_sameAs hfind hsame

/-! ## Indexes -/

section Indexes

variable (hmatch : desired.indexesMatch live = true) (hnames : desired.physicalNames.Nodup)
  (hlive : (live.map fun e => lowercase e.name).Nodup)

include hmatch in
theorem orphans_of_indexesMatch : orphans desired live = [] := by
  rw [List.eq_nil_iff_forall_not_mem]
  intro e he
  obtain ⟨hmem, hnot⟩ := mem_orphans.mp he
  obtain ⟨i, hi, hindex⟩ := Relation.exists_index_of_indexesMatch hmatch hmem
  exact hnot i hi (LiveIndex.isIndex_iff.mp hindex).1.symm

include hmatch hnames hlive

/-- A desired index that is live is dropped and created again when its record differs. -/
theorem dropsIndex_of_indexesMatch {i : Index} (hi : i ∈ desired.indexes) :
    dropsIndex desired.table last live i = last.redefines i
      ∧ createsIndex desired.table last live i = last.redefines i := by
  obtain ⟨e, he, hindex⟩ := Relation.exists_live_of_indexesMatch hmatch hnames hlive hi
  have hfind := findLiveIndex?_eq_some hlive he hindex
  have hdrops : dropsIndex desired.table last live i = last.redefines i := by
    rw [dropsIndex, hfind, Relation.redefines]
    cases last.index? i.name with
    | none => rfl
    | some recorded =>
        rw [recreatesIndex, hindex, Bool.and_true]
        rfl
  refine ⟨hdrops, ?_⟩
  rw [createsIndex, hfind, hdrops]
  exact Bool.or_false _

end Indexes

/-- A desired index of a table that is up to date equals its record, when recorded names are
distinct. -/
theorem redefines_of_sameAs (hindexes : DistinctNames (last.indexes.map (·.name)))
    (h : last.sameAs desired = true) {i : Index} (hi : i ∈ desired.indexes) :
    last.redefines i = false := by
  obtain ⟨-, -, hlength, hfound⟩ := Relation.sameAs_iff_foundIn.mp h
  obtain ⟨recorded, hfind, hsame⟩ := hfound.exists_found hindexes hlength hi
  have hfind : last.index? i.name = some recorded := hfind
  have hback : i.sameAs recorded = true := Index.comparison.symm hsame
  rw [Relation.redefines, hfind, Option.any_some, hback, Bool.not_true]

/-! ## Plans -/

/-- The changes that equality does not see: columns recorded with another type up to the case of
ASCII letters, and indexes that differ from the one recorded under their name. -/
def unseenChanges (schema : String) (last desired : Relation) : List Patch :=
  (desired.indexes.filter last.redefines).map
      (fun i => .dropIndex schema desired.table i.name false)
    ++ (desired.columns.filter last.retypes).map .alterColumnType
    ++ (desired.indexes.filter last.redefines).map (.createIndex schema desired.table)

theorem unseenChanges_eq_nil_iff : unseenChanges schema last desired = [] ↔
    (∀ c ∈ desired.columns, last.retypes c = false)
      ∧ ∀ i ∈ desired.indexes, last.redefines i = false := by
  simp only [unseenChanges, List.append_eq_nil_iff, List.map_eq_nil_iff, List.filter_eq_nil_iff,
    Bool.not_eq_true]
  tauto

/-- The plan for a table that is up to date. -/
theorem patches_of_isUpToDate (hlast : last.isView = false) (hdesired : desired.isView = false)
    (hcolumns : DistinctNames (last.columns.map (·.name))) (hnames : desired.physicalNames.Nodup)
    (hlive : (live.map fun e => lowercase e.name).Nodup) (hsame : last.sameAs desired = true)
    (hmatch : desired.indexesMatch live = true) {p : Plan}
    (h : alter schema last desired columns live = .ok p) :
    p.patches = unseenChanges schema last desired := by
  obtain ⟨patches, hpatches, horder⟩ := patches_alter_table hlast hdesired h
  rw [mapM_columnPatches hcolumns hsame, Except.ok.injEq] at hpatches
  have hflatten : patches.flatten
      = (desired.columns.filter last.retypes).map .alterColumnType := by
    rw [← hpatches, ← List.flatMap_def, flatMap_ite_singleton]
  have hdrops : desired.indexes.filter (dropsIndex desired.table last live)
      = desired.indexes.filter last.redefines :=
    List.filter_congr fun i hi => (dropsIndex_of_indexesMatch hmatch hnames hlive hi).1
  have hcreates : desired.indexes.filter (createsIndex desired.table last live)
      = desired.indexes.filter last.redefines :=
    List.filter_congr fun i hi => (dropsIndex_of_indexesMatch hmatch hnames hlive hi).2
  rw [horder, drops_eq, creates_eq, hdrops, hcreates, orphans_of_indexesMatch hmatch, hflatten,
    Patch.ofRank_map_alterColumnType, if_neg (by decide), Patch.ofRank_map_alterColumnType,
    if_pos rfl, List.map_nil, List.append_nil, List.append_nil, unseenChanges]

/-- Change detection and planning: a change of a table that is up to date is planned, and its plan
holds only the changes that equality does not see. It is empty exactly when there are none. No index
is changed when recorded index names are distinct. -/
theorem alter_of_isUpToDate (hlast : last.isView = false) (hdesired : desired.isView = false)
    (hcolumns : DistinctNames (last.columns.map (·.name)))
    (hnames : (desired.indexes.map fun i => physicalIndexName desired.table i.name).Nodup)
    (hlive : (live.map fun e => lowercase e.name).Nodup)
    (hup : isUpToDate last desired live = true) :
    ∃ p, alter schema last desired columns live = .ok p
      ∧ p.patches = unseenChanges schema last desired
      ∧ (p.isEmpty = true ↔ (∀ c ∈ desired.columns, last.retypes c = false)
        ∧ ∀ i ∈ desired.indexes, last.redefines i = false)
      ∧ (DistinctNames (last.indexes.map (·.name)) →
        ∀ i ∈ desired.indexes, last.redefines i = false) := by
  obtain ⟨hsame, hmatch⟩ := (Bool.and_eq_true _ _).mp hup
  have hsucceeds : ∃ p, alter schema last desired columns live = .ok p := by
    refine (alter_ok_iff hlast hdesired).mpr fun c hc old hold => ?_
    obtain ⟨recorded, hfind, hrecorded⟩ := exists_recorded_of_sameAs hcolumns hsame hc
    rw [hfind, Option.some.injEq] at hold
    obtain ⟨-, -, -, -, hkey⟩ := Column.sameAs_iff.mp hrecorded
    rw [← hold, hkey]
  obtain ⟨p, hp⟩ := hsucceeds
  have hpatches := patches_of_isUpToDate hlast hdesired hcolumns hnames hlive hsame hmatch hp
  refine ⟨p, hp, hpatches, ?_, fun hindexes i hi => redefines_of_sameAs hindexes hsame hi⟩
  rw [isEmpty, hpatches, List.isEmpty_iff, unseenChanges_eq_nil_iff]

/-- A table with a column and the indexes of `sampleDesired`. -/
def sampleShape : Relation :=
  { sampleDesired with columns := [{ name := "a", dataType := "INT", notNull := true }] }

/-- Its record, in another order and another case. -/
def sampleRecord : Relation where
  table := "T"
  columns := [{ name := "A", dataType := "int", notNull := true }]
  indexes := [{ name := "_C", columns := ["C"] }, { name := "_b", columns := ["B"] },
    { name := "_a", isUnique := true, columns := ["a"] }]

/-- Its live indexes. -/
def sampleCatalog : List LiveIndex :=
  [⟨"t_a", "s.t", "s", ["a"]⟩, ⟨"T_B", "s.t", "s", ["b"]⟩, ⟨"t_c", "s.t", "s", ["c"]⟩]

theorem alter_of_isUpToDate_sample :
    isUpToDate sampleRecord sampleShape sampleCatalog = true
      ∧ ∃ p, alter "s" sampleRecord sampleShape [] sampleCatalog = .ok p ∧ p.isEmpty = true := by
  have hup : isUpToDate sampleRecord sampleShape sampleCatalog = true := by decide +kernel
  obtain ⟨p, hp, -, hempty, -⟩ := @alter_of_isUpToDate "s" sampleRecord sampleShape []
    sampleCatalog rfl rfl (by decide +kernel) (by decide +kernel) (by decide +kernel) hup
  exact ⟨hup, p, hp, hempty.mpr ⟨by decide +kernel, by decide +kernel⟩⟩

/-- A table with one column of a type that is written with another letter than ASCII ones. -/
def accentedTable (dataType : String) : Relation where
  table := "t"
  columns := [{ name := "a", dataType }]

/-- A type that is recorded in another case is up to date, and altered. -/
theorem alter_upToDate_not_empty :
    (accentedTable "ÉTAT").isView = false ∧ (accentedTable "état").isView = false
      ∧ DistinctNames ((accentedTable "ÉTAT").columns.map (·.name))
      ∧ DistinctNames ((accentedTable "état").columns.map (·.name))
      ∧ (accentedTable "ÉTAT").physicalNames.Nodup ∧ (accentedTable "état").physicalNames.Nodup
      ∧ isUpToDate (accentedTable "ÉTAT") (accentedTable "état") [] = true
      ∧ alter "s" (accentedTable "ÉTAT") (accentedTable "état") [] []
        = .ok { schema := "s", table := "t"
                columnClauses := [.alterColumnType { name := "a", dataType := "état" }] } := by
  decide +kernel

end Plan

end SchemaEvolution
