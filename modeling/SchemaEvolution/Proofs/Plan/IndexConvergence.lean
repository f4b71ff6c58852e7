import SchemaEvolution.Migration.Memory
import SchemaEvolution.Proofs.Plan.Queues
import SchemaEvolution.Proofs.Relation.Normal

set_option autoImplicit false

/-! # Executing the index patches of a plan

The live indexes of a table are a catalog that drops and creations change (`Patch.onCatalog`). All
drops of a plan run before all creations. The drops have pairwise distinct names, all of them in the
catalog, so each finds its index; after them only the live indexes that are desired and unchanged
are left, and the creations add the others. The final catalog is the desired one
(`Plan.alter_indexes_converge`).
-/

namespace SchemaEvolution

open Text

/-! ## Patches on a catalog -/

namespace Patch

/-- The name in the database of the index that a patch drops or creates. -/
def indexName? : Patch → Option String
  | .dropIndex _ table index _ => some (physicalIndexName table index)
  | .createIndex _ table i => some (physicalIndexName table i.name)
  | _ => none

/-- What executing a patch does to the indexes in the database. -/
def onCatalog (catalog : List LiveIndex) : Patch → List LiveIndex
  | .dropIndex _ table index _ =>
    catalog.filter fun e => lowercase e.name != physicalIndexName table index
  | .createIndex schema table i => catalog ++ [Memory.indexOf schema table i]
  | _ => catalog

/-- Whether a patch can be executed: a drop, forced or not, finds an index of its name, and a
creation finds none. -/
def FitsCatalog (catalog : List LiveIndex) : Patch → Prop
  | .dropIndex _ table index _ =>
    ∃ e ∈ catalog, lowercase e.name = physicalIndexName table index
  | .createIndex _ table i => ∀ e ∈ catalog, lowercase e.name ≠ physicalIndexName table i.name
  | _ => True

theorem onCatalog_of_column {patch : Patch} (h : patch.rank = 2 ∨ patch.rank = 3)
    (catalog : List LiveIndex) :
    patch.onCatalog catalog = catalog ∧ patch.FitsCatalog catalog ∧ patch.indexName? = none := by
  cases patch <;> simp_all [rank, onCatalog, FitsCatalog, indexName?]

theorem exists_drop_of_rank {patch : Patch} (h : patch.rank = 0) :
    ∃ name, patch.indexName? = some name
      ∧ (∀ catalog, patch.onCatalog catalog = catalog.filter fun e => lowercase e.name != name)
      ∧ ∀ catalog, patch.FitsCatalog catalog ↔ ∃ e ∈ catalog, lowercase e.name = name := by
  cases patch with
  | dropIndex schema table index force =>
      exact ⟨physicalIndexName table index, rfl, fun _ => rfl, fun _ => Iff.rfl⟩
  | _ => cases h

/-- Drops leave the indexes of other names. -/
theorem foldl_drops {drops : List Patch} (hdrops : ∀ patch ∈ drops, patch.rank = 0)
    (catalog : List LiveIndex) :
    drops.foldl onCatalog catalog
      = catalog.filter fun e => !(drops.filterMap indexName?).contains (lowercase e.name) := by
  induction drops generalizing catalog with
  | nil => simp
  | cons patch rest ih =>
      obtain ⟨name, hname, hstep, -⟩ := exists_drop_of_rank (hdrops patch List.mem_cons_self)
      rw [List.foldl_cons, hstep, ih fun q hq => hdrops q (List.mem_cons_of_mem patch hq),
        List.filter_filter, List.filterMap_cons_some hname]
      refine List.filter_congr fun e _ => ?_
      rw [List.contains_cons, Bool.not_or, Bool.and_comm]
      rfl

/-- Drops of distinct names that are in the catalog find their indexes. -/
theorem safeRun_drops {drops : List Patch} (hdrops : ∀ patch ∈ drops, patch.rank = 0)
    {catalog : List LiveIndex} (hnodup : (drops.filterMap indexName?).Nodup)
    (hfound : ∀ name ∈ drops.filterMap indexName?, ∃ e ∈ catalog, lowercase e.name = name) :
    SafeRun onCatalog FitsCatalog catalog drops := by
  induction drops generalizing catalog with
  | nil => exact safeRun_nil catalog
  | cons patch rest ih =>
      obtain ⟨name, hname, hstep, hfits⟩ := exists_drop_of_rank (hdrops patch List.mem_cons_self)
      rw [List.filterMap_cons_some hname] at hnodup hfound
      obtain ⟨hnot, hnodup⟩ := List.nodup_cons.mp hnodup
      refine safeRun_cons.mpr ⟨(hfits catalog).mpr (hfound name List.mem_cons_self), ?_⟩
      refine ih (fun q hq => hdrops q (List.mem_cons_of_mem patch hq)) hnodup ?_
      -- the index that a later drop is to find has another name than this one
      intro other hother
      obtain ⟨e, he, heq⟩ := hfound other (List.mem_cons_of_mem name hother)
      refine ⟨e, ?_, heq⟩
      rw [hstep, List.mem_filter, bne_iff_ne]
      refine ⟨he, fun hsame => hnot ?_⟩
      rw [← hsame, heq]
      exact hother

theorem foldl_creates (schema table : String) (indexes : List Index)
    (catalog : List LiveIndex) :
    (indexes.map (createIndex schema table)).foldl onCatalog catalog
      = catalog ++ indexes.map (Memory.indexOf schema table) := by
  induction indexes generalizing catalog with
  | nil => exact (List.append_nil catalog).symm
  | cons i rest ih => rw [List.map_cons, List.foldl_cons, ih, onCatalog, List.append_assoc,
      List.singleton_append, List.map_cons]

/-- Creations of distinct names that are not in the catalog meet no index of their names. -/
theorem safeRun_creates {schema table : String} {indexes : List Index}
    {catalog : List LiveIndex}
    (hnodup : (indexes.map fun i => physicalIndexName table i.name).Nodup)
    (habsent : ∀ i ∈ indexes, ∀ e ∈ catalog, lowercase e.name ≠ physicalIndexName table i.name) :
    SafeRun onCatalog FitsCatalog catalog (indexes.map (createIndex schema table)) := by
  induction indexes generalizing catalog with
  | nil => exact safeRun_nil catalog
  | cons i rest ih =>
      obtain ⟨hnot, hnodup⟩ := List.nodup_cons.mp hnodup
      refine safeRun_cons.mpr ⟨habsent i List.mem_cons_self, ih hnodup ?_⟩
      intro j hj e he
      rcases List.mem_append.mp he with he | he
      · exact habsent j (List.mem_cons_of_mem i hj) e he
      · rw [List.mem_singleton.mp he]
        intro hsame
        refine hnot (List.mem_map.mpr ⟨j, hj, ?_⟩)
        rw [← hsame]
        exact lowercase_physicalIndexName table i.name

end Patch

/-! ## The drops and creations of a plan -/

namespace Plan

section Changes

variable {schema : String} {last desired : Relation} {live : List LiveIndex}

theorem ofRank_zero_indexPatches (table : String) (i : Index) :
    Patch.ofRank 0 (indexPatches schema table last live i)
      = if dropsIndex table last live i then [.dropIndex schema table i.name false] else [] := by
  rw [indexPatches, Patch.ofRank_append]
  split <;> split <;> rfl

theorem ofRank_six_indexPatches (table : String) (i : Index) :
    Patch.ofRank 6 (indexPatches schema table last live i)
      = if createsIndex table last live i then [.createIndex schema table i] else [] := by
  rw [indexPatches, Patch.ofRank_append]
  split <;> split <;> rfl

/-- The drops of a plan: desired indexes that are created again, and live ones not desired. -/
theorem drops_eq : Patch.ofRank 0 (indexChanges schema last desired live)
    = (desired.indexes.filter (dropsIndex desired.table last live)).map
        (fun i => Patch.dropIndex schema desired.table i.name false)
      ++ (orphans desired live).map fun e => Patch.dropIndex schema "" e.name true := by
  have horphans : ∀ es : List LiveIndex,
      Patch.ofRank 0 (es.map fun e => .dropIndex schema "" e.name true)
        = es.map fun e => .dropIndex schema "" e.name true := by
    intro es
    rw [Patch.ofRank, List.filter_eq_self]
    intro patch hpatch
    obtain ⟨e, -, rfl⟩ := List.mem_map.mp hpatch
    rfl
  rw [indexChanges, Patch.ofRank_append, horphans, ← flatMap_ite_singleton]
  simp only [← ofRank_zero_indexPatches]
  rw [Patch.ofRank, List.filter_flatMap]
  rfl

theorem creates_eq : Patch.ofRank 6 (indexChanges schema last desired live)
    = (desired.indexes.filter (createsIndex desired.table last live)).map
        (.createIndex schema desired.table) := by
  have horphans : ∀ es : List LiveIndex,
      Patch.ofRank 6 (es.map fun e => .dropIndex schema "" e.name true) = [] := by
    intro es
    refine Patch.ofRank_eq_nil fun patch hpatch => ?_
    obtain ⟨e, -, rfl⟩ := List.mem_map.mp hpatch
    exact Nat.zero_ne_add_one 5
  rw [indexChanges, Patch.ofRank_append, horphans, List.append_nil, ← flatMap_ite_singleton]
  simp only [← ofRank_six_indexPatches]
  rw [Patch.ofRank, List.filter_flatMap]
  rfl

/-- The names of the indexes that a plan drops. -/
def droppedNames (last desired : Relation) (live : List LiveIndex) : List String :=
  (desired.indexes.filter (dropsIndex desired.table last live)).map
      (fun i => physicalIndexName desired.table i.name)
    ++ (orphans desired live).map fun e => lowercase e.name

theorem indexNames_drops :
    (Patch.ofRank 0 (indexChanges schema last desired live)).filterMap Patch.indexName?
      = droppedNames last desired live := by
  have hforced : (fun e : LiveIndex => physicalIndexName "" e.name)
      = fun e => lowercase e.name := by
    funext e
    rw [physicalIndexName, String.empty_append]
  rw [drops_eq, List.filterMap_append, List.filterMap_map, List.filterMap_map, droppedNames,
    ← hforced, ← List.filterMap_eq_map, ← List.filterMap_eq_map]
  rfl

/-- The live indexes that a plan leaves. -/
def keptIndexes (last desired : Relation) (live : List LiveIndex) : List LiveIndex :=
  live.filter fun e => !(droppedNames last desired live).contains (lowercase e.name)

theorem mem_keptIndexes {e : LiveIndex} : e ∈ keptIndexes last desired live
    ↔ e ∈ live ∧ lowercase e.name ∉ droppedNames last desired live := by
  rw [keptIndexes, List.mem_filter, Bool.not_eq_true', ← Bool.not_eq_true, List.contains_iff_mem]

theorem mem_of_findLiveIndex? {table name : String} {e : LiveIndex}
    (h : findLiveIndex? live (physicalIndexName table name) = some e) :
    e ∈ live ∧ lowercase e.name = physicalIndexName table name := by
  refine ⟨List.mem_of_find?_eq_some h, ?_⟩
  have hfold := List.find?_some h
  rwa [sameFold_iff, lowercase_physicalIndexName] at hfold

/-- A live index is an orphan when no desired index has its name. -/
theorem mem_orphans {e : LiveIndex} : e ∈ orphans desired live
    ↔ e ∈ live ∧ ∀ i ∈ desired.indexes, physicalIndexName desired.table i.name
      ≠ lowercase e.name := by
  rw [orphans, List.mem_filter, Bool.not_eq_true', ← Bool.not_eq_true, List.contains_iff_mem,
    knownIndexes, List.mem_filter, List.mem_map]
  refine and_congr_right fun he => ?_
  constructor
  · intro h i hi heq
    refine h ⟨⟨i, hi, heq⟩, ?_⟩
    -- the index itself is found under its name
    rw [findLiveIndex?, List.find?_isSome]
    refine ⟨e, he, ?_⟩
    rw [sameFold_lowercase_right, sameFold_refl]
  · rintro h ⟨⟨i, hi, heq⟩, -⟩
    exact h i hi heq

theorem exists_live_of_dropsIndex {table : String} {i : Index}
    (h : dropsIndex table last live i = true) :
    ∃ e ∈ live, lowercase e.name = physicalIndexName table i.name := by
  cases hfind : findLiveIndex? live (physicalIndexName table i.name) with
  | some e => exact ⟨e, mem_of_findLiveIndex? hfind⟩
  | none =>
      rw [dropsIndex, hfind] at h
      cases hrecorded : last.index? i.name with
      | none => rw [hrecorded] at h; cases h
      | some r => rw [hrecorded] at h; cases h

/-- An index that is not created is live in the desired form. -/
theorem isIndex_of_not_createsIndex {table : String} {i : Index}
    (h : createsIndex table last live i = false) :
    ∃ e, findLiveIndex? live (physicalIndexName table i.name) = some e
      ∧ e.isIndex table i = true := by
  rw [createsIndex, Bool.or_eq_false_iff] at h
  obtain ⟨hdrops, hfound⟩ := h
  cases hfind : findLiveIndex? live (physicalIndexName table i.name) with
  | none => rw [hfind] at hfound; cases hfound
  | some e =>
      refine ⟨e, rfl, ?_⟩
      rw [dropsIndex, hfind] at hdrops
      cases hrecorded : last.index? i.name with
      | none => rw [hrecorded] at hdrops; cases hdrops
      | some r =>
          rw [hrecorded] at hdrops
          simp only [recreatesIndex, Bool.not_eq_false', Bool.and_eq_true] at hdrops
          exact hdrops.2

/-! ## What is left and what is created -/

section Distinct

variable (hnames : desired.physicalNames.Nodup)
  (hlive : (live.map fun e => lowercase e.name).Nodup)

include hlive in
theorem eq_of_lowercase_eq {e e' : LiveIndex} (he : e ∈ live) (he' : e' ∈ live)
    (h : lowercase e.name = lowercase e'.name) : e = e' :=
  List.inj_on_of_nodup_map hlive he he' h

include hnames in
theorem eq_of_physicalIndexName_eq {i j : Index} (hi : i ∈ desired.indexes)
    (hj : j ∈ desired.indexes)
    (h : physicalIndexName desired.table i.name = physicalIndexName desired.table j.name) :
    i = j :=
  List.inj_on_of_nodup_map hnames hi hj h

include hnames hlive in
theorem nodup_droppedNames : (droppedNames last desired live).Nodup := by
  refine List.nodup_append.mpr ⟨?_, ?_, ?_⟩
  · exact hnames.sublist (List.filter_sublist.map _)
  · exact hlive.sublist (List.filter_sublist.map _)
  · rintro name hname other hother rfl
    obtain ⟨i, hi, rfl⟩ := List.mem_map.mp hname
    obtain ⟨e, he, heq⟩ := List.mem_map.mp hother
    exact (mem_orphans.mp he).2 i (List.mem_filter.mp hi).1 heq.symm

theorem exists_live_of_droppedNames {name : String}
    (h : name ∈ droppedNames last desired live) : ∃ e ∈ live, lowercase e.name = name := by
  rcases List.mem_append.mp h with h | h
  · obtain ⟨i, hi, rfl⟩ := List.mem_map.mp h
    exact exists_live_of_dropsIndex (List.mem_filter.mp hi).2
  · obtain ⟨e, he, rfl⟩ := List.mem_map.mp h
    exact ⟨e, (mem_orphans.mp he).1, rfl⟩

include hnames in
/-- The name of a desired index is dropped only when the index is created again. -/
theorem dropsIndex_of_droppedNames {i : Index} (hi : i ∈ desired.indexes)
    (h : physicalIndexName desired.table i.name ∈ droppedNames last desired live) :
    dropsIndex desired.table last live i = true := by
  rcases List.mem_append.mp h with h | h
  · obtain ⟨j, hj, heq⟩ := List.mem_map.mp h
    obtain ⟨hj, hdrops⟩ := List.mem_filter.mp hj
    rwa [eq_of_physicalIndexName_eq hnames hj hi heq] at hdrops
  · obtain ⟨e, he, heq⟩ := List.mem_map.mp h
    exact absurd heq.symm ((mem_orphans.mp he).2 i hi)

include hlive in
/-- What is left is desired and live in the desired form. -/
theorem exists_desired_of_kept {e : LiveIndex} (h : e ∈ keptIndexes last desired live) :
    ∃ i ∈ desired.indexes, createsIndex desired.table last live i = false
      ∧ e.isIndex desired.table i = true := by
  obtain ⟨he, hkept⟩ := mem_keptIndexes.mp h
  have hdesired : ∃ i ∈ desired.indexes,
      physicalIndexName desired.table i.name = lowercase e.name := by
    by_contra hnone
    -- it would be an orphan and its name dropped
    simp only [not_exists, not_and] at hnone
    exact hkept (List.mem_append_right _
      (List.mem_map.mpr ⟨e, mem_orphans.mpr ⟨he, hnone⟩, rfl⟩))
  obtain ⟨i, hi, hname⟩ := hdesired
  have hdrops : dropsIndex desired.table last live i = false := by
    refine Bool.eq_false_iff.mpr fun hdrops => hkept ?_
    rw [← hname]
    exact List.mem_append_left _ (List.mem_map.mpr ⟨i, List.mem_filter.mpr ⟨hi, hdrops⟩, rfl⟩)
  have hfind : ∃ e', findLiveIndex? live (physicalIndexName desired.table i.name) = some e' := by
    rw [← Option.isSome_iff_exists, findLiveIndex?, List.find?_isSome]
    exact ⟨e, he, by rw [hname, sameFold_lowercase_right]; exact sameFold_refl e.name⟩
  obtain ⟨e', hfind⟩ := hfind
  have hcreates : createsIndex desired.table last live i = false := by
    rw [createsIndex, hdrops, hfind]
    rfl
  obtain ⟨e'', hfind', hindex⟩ := isIndex_of_not_createsIndex hcreates
  obtain ⟨he'', hname''⟩ := mem_of_findLiveIndex? hfind'
  rw [eq_of_lowercase_eq hlive he'' he (hname''.trans hname)] at hindex
  exact ⟨i, hi, hcreates, hindex⟩

include hnames in
theorem exists_kept_of_not_createsIndex {i : Index} (hi : i ∈ desired.indexes)
    (h : createsIndex desired.table last live i = false) :
    ∃ e ∈ keptIndexes last desired live,
      lowercase e.name = physicalIndexName desired.table i.name := by
  obtain ⟨e, hfind, -⟩ := isIndex_of_not_createsIndex h
  obtain ⟨he, hname⟩ := mem_of_findLiveIndex? hfind
  refine ⟨e, mem_keptIndexes.mpr ⟨he, fun hdropped => ?_⟩, hname⟩
  rw [hname] at hdropped
  rw [createsIndex, dropsIndex_of_droppedNames hnames hi hdropped] at h
  cases h

/-- An index that is created has a name that nothing that is left has. -/
theorem kept_ne_created {i : Index} (hi : i ∈ desired.indexes)
    (h : createsIndex desired.table last live i = true) {e : LiveIndex}
    (he : e ∈ keptIndexes last desired live) :
    lowercase e.name ≠ physicalIndexName desired.table i.name := by
  intro hname
  obtain ⟨he, hkept⟩ := mem_keptIndexes.mp he
  rw [createsIndex, Bool.or_eq_true] at h
  rcases h with h | h
  · refine hkept (List.mem_append_left _ (List.mem_map.mpr ⟨i, ?_, hname.symm⟩))
    exact List.mem_filter.mpr ⟨hi, h⟩
  · rw [Option.isNone_iff_eq_none, findLiveIndex?, List.find?_eq_none] at h
    refine h e he ?_
    rw [sameFold_iff, hname, lowercase_physicalIndexName]

include hnames hlive in
/-- As many indexes are left as are desired and not created. -/
theorem length_keptIndexes : (keptIndexes last desired live).length
    = (desired.indexes.filter fun i => !createsIndex desired.table last live i).length := by
  have hkept : ((keptIndexes last desired live).map fun e => lowercase e.name).Nodup :=
    hlive.sublist (List.filter_sublist.map _)
  have hothers : ((desired.indexes.filter fun i => !createsIndex desired.table last live i).map
      fun i => physicalIndexName desired.table i.name).Nodup :=
    hnames.sublist (List.filter_sublist.map _)
  -- names are distinct on both sides, so it is enough that the same names occur
  have hperm := (List.perm_ext_iff_of_nodup hkept hothers).mpr fun name => by
    constructor
    · intro hname
      obtain ⟨e, he, rfl⟩ := List.mem_map.mp hname
      obtain ⟨i, hi, hcreates, hindex⟩ := exists_desired_of_kept hlive he
      rw [(LiveIndex.isIndex_iff.mp hindex).1]
      refine List.mem_map.mpr ⟨i, List.mem_filter.mpr ⟨hi, ?_⟩, rfl⟩
      rw [hcreates]
      rfl
    · intro hname
      obtain ⟨i, hi, rfl⟩ := List.mem_map.mp hname
      obtain ⟨hi, hcreates⟩ := List.mem_filter.mp hi
      rw [Bool.not_eq_true'] at hcreates
      obtain ⟨e, he, heq⟩ := exists_kept_of_not_createsIndex hnames hi hcreates
      exact List.mem_map.mpr ⟨e, he, heq⟩
  have hlength := hperm.length_eq
  rwa [List.length_map, List.length_map] at hlength

end Distinct

end Changes

/-! ## Convergence -/

theorem isIndex_indexOf (schema table : String) (i : Index) :
    (Memory.indexOf schema table i).isIndex table i = true :=
  LiveIndex.isIndex_iff.mpr ⟨lowercase_physicalIndexName table i.name, sameColumns_self i.columns⟩

section Convergence

variable {schema : String} {last desired : Relation} {columns : List LiveColumn}
  {live : List LiveIndex} {p : Plan}

/-- The patches for a table: drops, then patches that concern no index, then creations. -/
theorem patches_for_indexes (hlast : last.isView = false) (hdesired : desired.isView = false)
    (h : alter schema last desired columns live = .ok p) :
    ∃ others, (∀ patch ∈ others, patch.rank = 2 ∨ patch.rank = 3)
      ∧ p.patches = Patch.ofRank 0 (indexChanges schema last desired live)
        ++ (others ++ (desired.indexes.filter (createsIndex desired.table last live)).map
          (Patch.createIndex schema desired.table)) := by
  obtain ⟨patches, -, horder⟩ := patches_alter_table hlast hdesired h
  refine ⟨Patch.ofRank 2 patches.flatten ++ Patch.ofRank 3 patches.flatten, ?_, ?_⟩
  · intro patch hpatch
    rcases List.mem_append.mp hpatch with hpatch | hpatch
    · exact .inl (Patch.mem_ofRank.mp hpatch).2
    · exact .inr (Patch.mem_ofRank.mp hpatch).2
  · rw [horder, creates_eq, List.append_assoc, List.append_assoc, List.append_assoc]

theorem foldl_drops_of_plan :
    (Patch.ofRank 0 (indexChanges schema last desired live)).foldl Patch.onCatalog live
      = keptIndexes last desired live := by
  have hdrops : ∀ patch ∈ Patch.ofRank 0 (indexChanges schema last desired live),
      patch.rank = 0 := fun patch hpatch => (Patch.mem_ofRank.mp hpatch).2
  rw [Patch.foldl_drops hdrops live, indexNames_drops, keptIndexes]

theorem foldl_others {others : List Patch}
    (hothers : ∀ patch ∈ others, patch.rank = 2 ∨ patch.rank = 3) (catalog : List LiveIndex) :
    others.foldl Patch.onCatalog catalog = catalog :=
  foldl_eq_self catalog fun patch hpatch catalog =>
    (Patch.onCatalog_of_column (hothers patch hpatch) catalog).1

/-- Executing the patches for a table leaves the kept indexes and adds the created ones. -/
theorem foldl_onCatalog (hlast : last.isView = false) (hdesired : desired.isView = false)
    (h : alter schema last desired columns live = .ok p) :
    p.patches.foldl Patch.onCatalog live = keptIndexes last desired live
      ++ (desired.indexes.filter (createsIndex desired.table last live)).map
        (Memory.indexOf schema desired.table) := by
  obtain ⟨others, hothers, horder⟩ := patches_for_indexes hlast hdesired h
  calc p.patches.foldl Patch.onCatalog live
      = ((desired.indexes.filter (createsIndex desired.table last live)).map
          (Patch.createIndex schema desired.table)).foldl Patch.onCatalog
          (others.foldl Patch.onCatalog
            ((Patch.ofRank 0 (indexChanges schema last desired live)).foldl Patch.onCatalog
              live)) := by
        rw [horder, List.foldl_append, List.foldl_append]
    _ = ((desired.indexes.filter (createsIndex desired.table last live)).map
          (Patch.createIndex schema desired.table)).foldl Patch.onCatalog
          (keptIndexes last desired live) := by
        rw [foldl_others hothers, foldl_drops_of_plan]
    _ = _ := Patch.foldl_creates schema desired.table _ _

theorem safeRun_onCatalog (hlast : last.isView = false) (hdesired : desired.isView = false)
    (hnames : desired.physicalNames.Nodup) (hlive : (live.map fun e => lowercase e.name).Nodup)
    (h : alter schema last desired columns live = .ok p) :
    SafeRun Patch.onCatalog Patch.FitsCatalog live p.patches := by
  obtain ⟨others, hothers, horder⟩ := patches_for_indexes hlast hdesired h
  rw [horder]
  -- drops, patches that concern no index, creations
  refine safeRun_append.mpr ⟨?_, safeRun_append.mpr ⟨?_, ?_⟩⟩
  · refine Patch.safeRun_drops (fun patch hpatch => (Patch.mem_ofRank.mp hpatch).2) ?_ ?_
    · rw [indexNames_drops]
      exact nodup_droppedNames hnames hlive
    · rw [indexNames_drops]
      exact fun name hname => exists_live_of_droppedNames hname
  · exact safeRun_of_forall _ fun patch hpatch catalog =>
      (Patch.onCatalog_of_column (hothers patch hpatch) catalog).2.1
  · rw [foldl_others hothers, foldl_drops_of_plan]
    refine Patch.safeRun_creates (hnames.sublist (List.filter_sublist.map _)) ?_
    intro i hi e he
    obtain ⟨hi, hcreates⟩ := List.mem_filter.mp hi
    exact kept_ne_created hi hcreates he

/-- Among live indexes of distinct names, the one that is an index is found under its name. -/
theorem findLiveIndex?_eq_some (hlive : (live.map fun e => lowercase e.name).Nodup)
    {table : String} {i : Index} {e : LiveIndex} (he : e ∈ live)
    (hindex : e.isIndex table i = true) :
    findLiveIndex? live (physicalIndexName table i.name) = some e := by
  refine DistinctNames.find?_eq_some ?_ he ?_
  · rw [distinctNames_iff, List.map_map]
    exact hlive
  · rw [sameFold_iff, (LiveIndex.isIndex_iff.mp hindex).1, lowercase_physicalIndexName]

/-- An index that is recorded and live in its desired form is not created. -/
theorem createsIndex_of_same (hlive : (live.map fun e => lowercase e.name).Nodup) {i : Index}
    (hrecorded : (last.index? i.name).any i.sameAs = true) {e : LiveIndex} (he : e ∈ live)
    (hindex : e.isIndex desired.table i = true) :
    createsIndex desired.table last live i = false := by
  have hfind := findLiveIndex?_eq_some hlive he hindex
  cases hlast : last.index? i.name with
  | none =>
      rw [hlast] at hrecorded
      cases hrecorded
  | some r =>
      rw [hlast, Option.any_some] at hrecorded
      simp [createsIndex, dropsIndex, recreatesIndex, hfind, hlast, hrecorded, hindex]

/-- A patch that names a desired index creates it, or drops it and another patch creates it. -/
theorem createsIndex_of_patch (hlast : last.isView = false) (hdesired : desired.isView = false)
    (hnames : desired.physicalNames.Nodup)
    (h : alter schema last desired columns live = .ok p) {patch : Patch}
    (hpatch : patch ∈ p.patches) {i : Index} (hi : i ∈ desired.indexes)
    (hname : patch.indexName? = some (physicalIndexName desired.table i.name)) :
    createsIndex desired.table last live i = true := by
  obtain ⟨others, hothers, horder⟩ := patches_for_indexes hlast hdesired h
  rw [horder, List.mem_append, List.mem_append] at hpatch
  rcases hpatch with hpatch | hpatch | hpatch
  · have hdropped : physicalIndexName desired.table i.name ∈ droppedNames last desired live := by
      rw [← indexNames_drops, List.mem_filterMap]
      exact ⟨patch, hpatch, hname⟩
    rw [createsIndex, dropsIndex_of_droppedNames hnames hi hdropped, Bool.true_or]
  · rw [(Patch.onCatalog_of_column (hothers patch hpatch) live).2.2] at hname
    cases hname
  · obtain ⟨j, hj, rfl⟩ := List.mem_map.mp hpatch
    obtain ⟨hj, hcreates⟩ := List.mem_filter.mp hj
    rwa [eq_of_physicalIndexName_eq hnames hj hi (Option.some.inj hname)] at hcreates

/-- Index convergence: over a catalog of the live indexes, each drop of a plan finds its index and
each creation a free name, an index that is recorded and live in its desired form is not touched,
and the catalog that remains matches the desired indexes. -/
theorem alter_indexes_converge (hlast : last.isView = false) (hdesired : desired.isView = false)
    (hnames : (desired.indexes.map fun i => physicalIndexName desired.table i.name).Nodup)
    (hlive : (live.map fun e => lowercase e.name).Nodup)
    (h : alter schema last desired columns live = .ok p) :
    SafeRun Patch.onCatalog Patch.FitsCatalog live p.patches
      ∧ (∀ i ∈ desired.indexes, (last.index? i.name).any i.sameAs = true →
        (∃ e ∈ live, e.isIndex desired.table i = true) → ∀ patch ∈ p.patches,
          patch.indexName? ≠ some (physicalIndexName desired.table i.name))
      ∧ desired.indexesMatch (p.patches.foldl Patch.onCatalog live) = true := by
  refine ⟨safeRun_onCatalog hlast hdesired hnames hlive h, ?_, ?_⟩
  · rintro i hi hrecorded ⟨e, he, hindex⟩ patch hpatch hname
    have hcreates := createsIndex_of_patch hlast hdesired hnames h hpatch hi hname
    rw [createsIndex_of_same hlive hrecorded he hindex] at hcreates
    cases hcreates
  · rw [foldl_onCatalog hlast hdesired h]
    refine Relation.indexesMatch_of hnames ?_ ?_
    · calc desired.indexes.length
          = (desired.indexes.filter (createsIndex desired.table last live)).length
            + (desired.indexes.filter fun i => !createsIndex desired.table last live i).length :=
            List.length_eq_length_filter_add _
        _ = (desired.indexes.filter (createsIndex desired.table last live)).length
            + (keptIndexes last desired live).length := by
            rw [length_keptIndexes hnames hlive]
        _ = _ := by rw [List.length_append, List.length_map, Nat.add_comm]
    · intro e he
      rcases List.mem_append.mp he with he | he
      · obtain ⟨i, hi, -, hindex⟩ := exists_desired_of_kept hlive he
        exact ⟨i, hi, hindex⟩
      · obtain ⟨i, hi, rfl⟩ := List.mem_map.mp he
        exact ⟨i, (List.mem_filter.mp hi).1, isIndex_indexOf schema desired.table i⟩

/-- A table with an index `_a` that is recorded, an index `_b` and no index `_c`. -/
def sampleLast : Relation where
  table := "t"
  indexes := [{ name := "_a", columns := ["a"] }, { name := "_b", columns := ["b"] }]

/-- The same table with `_a` made unique, `_b` as it was and `_c` added. -/
def sampleDesired : Relation where
  table := "t"
  indexes := [{ name := "_a", isUnique := true, columns := ["a"] },
    { name := "_b", columns := ["b"] }, { name := "_c", columns := ["c"] }]

/-- The live indexes: `_a`, `_b` and one that is not desired. -/
def sampleLive : List LiveIndex :=
  [⟨"t_a", "s.t", "s", ["a"]⟩, ⟨"T_B", "s.t", "s", ["b"]⟩, ⟨"t_old", "s.t", "s", ["a"]⟩]

/-- The plan for the table: `_a` is created again, the index that is not desired dropped. -/
def samplePlan : Plan where
  schema := "s"
  table := "t"
  dropIndexes := [.dropIndex "s" "t" "_a" false, .dropIndex "s" "" "t_old" true]
  createIndexes := [
    .createIndex "s" "t" { name := "_a", isUnique := true, columns := ["a"] },
    .createIndex "s" "t" { name := "_c", columns := ["c"] }]

theorem alter_indexes_converge_sample :
    alter "s" sampleLast sampleDesired [] sampleLive = .ok samplePlan
      ∧ SafeRun Patch.onCatalog Patch.FitsCatalog sampleLive samplePlan.patches
      ∧ sampleDesired.indexesMatch (samplePlan.patches.foldl Patch.onCatalog sampleLive)
        = true := by
  have hplan : alter "s" sampleLast sampleDesired [] sampleLive = .ok samplePlan := by
    decide +kernel
  have hconverge := alter_indexes_converge rfl rfl (by decide +kernel) (by decide +kernel) hplan
  exact ⟨hplan, hconverge.1, hconverge.2.2⟩

end Convergence

end Plan

end SchemaEvolution
