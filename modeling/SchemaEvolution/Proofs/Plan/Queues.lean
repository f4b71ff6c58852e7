import SchemaEvolution.Plan.Differ
import SchemaEvolution.Proofs.Lists

set_option autoImplicit false

/-! # The order of execution

A plan is filled patch by patch and executed queue by queue. So the patches of a filled plan are the
pushed ones, stably ordered by the queue of each (`Plan.patches_pushAll`). The plan for a table is
filled with the patches of its columns and then with those of its indexes (`Plan.alter_table`), and
of these two families each fills queues that the other leaves alone.
-/

namespace SchemaEvolution

/-! ## Queues -/

/-- The place of a patch's queue in the order of execution. -/
def Patch.rank : Patch → Nat
  | .dropIndex .. => 0
  | .dropView .. => 1
  | .updateNulls .. => 2
  | .addColumn _ | .alterColumnType _ | .alterColumnNullable _ | .alterColumnDefault _ => 3
  | .createTable .. => 4
  | .createView .. => 5
  | .createIndex .. => 6

/-- The patches of one queue, in the order in which they were planned. -/
def Patch.ofRank (n : Nat) (patches : List Patch) : List Patch := patches.filter (·.rank == n)

theorem Patch.mem_ofRank {n : Nat} {patches : List Patch} {patch : Patch} :
    patch ∈ ofRank n patches ↔ patch ∈ patches ∧ patch.rank = n := by
  rw [ofRank, List.mem_filter, beq_iff_eq]

theorem Patch.ofRank_append (n : Nat) (as bs : List Patch) :
    ofRank n (as ++ bs) = ofRank n as ++ ofRank n bs :=
  List.filter_append ..

theorem Patch.ofRank_eq_nil {n : Nat} {patches : List Patch}
    (h : ∀ patch ∈ patches, patch.rank ≠ n) : ofRank n patches = [] := by
  rw [ofRank, List.filter_eq_nil_iff]
  intro patch hpatch
  rw [beq_iff_eq]
  exact h patch hpatch

theorem Patch.ofRank_map_alterColumnType (n : Nat) (columns : List Column) :
    ofRank n (columns.map .alterColumnType)
      = if n = 3 then columns.map .alterColumnType else [] := by
  have hrank : ∀ patch ∈ columns.map alterColumnType, patch.rank = 3 := by
    intro patch hpatch
    obtain ⟨c, -, rfl⟩ := List.mem_map.mp hpatch
    rfl
  split
  · next h => exact List.filter_eq_self.mpr fun patch hpatch => by simp [hrank patch hpatch, h]
  · next h => exact ofRank_eq_nil fun patch hpatch heq => h (heq.symm.trans (hrank patch hpatch))

namespace Plan

/-- The queue at a place of the order of execution. -/
def queue (p : Plan) : Nat → List Patch
  | 0 => p.dropIndexes
  | 1 => p.dropViews
  | 2 => p.updateNulls
  | 3 => p.columnClauses
  | 4 => p.createTables
  | 5 => p.createViews
  | 6 => p.createIndexes
  | _ => []

theorem patches_eq_queues (p : Plan) : p.patches = (List.range 7).flatMap p.queue := by
  simp [patches, queue, List.range, List.range.loop, List.append_assoc]

theorem queue_push (p : Plan) (patch : Patch) (n : Nat) :
    (p.push patch).queue n = p.queue n ++ Patch.ofRank n [patch] := by
  cases patch <;> rcases n with _ | _ | _ | _ | _ | _ | _ | n <;>
    simp [push, queue, Patch.ofRank, Patch.rank]

@[simp]
theorem push_schema (p : Plan) (patch : Patch) : (p.push patch).schema = p.schema := by
  cases patch <;> rfl

@[simp]
theorem push_table (p : Plan) (patch : Patch) : (p.push patch).table = p.table := by
  cases patch <;> rfl

theorem pushAll_cons (p : Plan) (patch : Patch) (patches : List Patch) :
    p.pushAll (patch :: patches) = (p.push patch).pushAll patches := rfl

theorem pushAll_append (p : Plan) (as bs : List Patch) :
    p.pushAll (as ++ bs) = (p.pushAll as).pushAll bs :=
  List.foldl_append ..

@[simp]
theorem pushAll_schema (p : Plan) (patches : List Patch) :
    (p.pushAll patches).schema = p.schema := by
  induction patches generalizing p with
  | nil => rfl
  | cons patch rest ih => rw [pushAll_cons, ih, push_schema]

@[simp]
theorem pushAll_table (p : Plan) (patches : List Patch) :
    (p.pushAll patches).table = p.table := by
  induction patches generalizing p with
  | nil => rfl
  | cons patch rest ih => rw [pushAll_cons, ih, push_table]

theorem queue_pushAll (p : Plan) (patches : List Patch) (n : Nat) :
    (p.pushAll patches).queue n = p.queue n ++ Patch.ofRank n patches := by
  induction patches generalizing p with
  | nil => exact (List.append_nil _).symm
  | cons patch rest ih =>
      rw [pushAll_cons, ih, queue_push, List.append_assoc, ← Patch.ofRank_append,
        List.singleton_append]

/-- The patches of a plan that was empty before are executed by queue, and within a queue in the
order in which they were pushed. -/
theorem patches_pushAll (schema table : String) (patches : List Patch) :
    (pushAll { schema, table } patches).patches
      = (List.range 7).flatMap fun n => Patch.ofRank n patches := by
  have hqueue : (pushAll { schema, table } patches).queue
      = fun n => Patch.ofRank n patches := by
    funext n
    rw [queue_pushAll]
    rcases n with _ | _ | _ | _ | _ | _ | _ | n <;> rfl
  rw [patches_eq_queues, hqueue]

/-! ## The plan for a table -/

/-- Whether a desired index is dropped. -/
def dropsIndex (table : String) (last : Relation) (live : List LiveIndex) (i : Index) : Bool :=
  recreatesIndex table (last.index? i.name)
    (findLiveIndex? live (physicalIndexName table i.name)) i

/-- Whether a desired index is created. -/
def createsIndex (table : String) (last : Relation) (live : List LiveIndex) (i : Index) : Bool :=
  dropsIndex table last live i
    || (findLiveIndex? live (physicalIndexName table i.name)).isNone

/-- The patches of one desired index, in the order in which they are planned. -/
def indexPatches (schema table : String) (last : Relation) (live : List LiveIndex) (i : Index) :
    List Patch :=
  (if dropsIndex table last live i then [.dropIndex schema table i.name false] else [])
    ++ if createsIndex table last live i then [.createIndex schema table i] else []

/-- The live indexes that are not desired. -/
def orphans (desired : Relation) (live : List LiveIndex) : List LiveIndex :=
  live.filter fun e => !(knownIndexes desired live).contains (Text.lowercase e.name)

/-- The patches of all indexes of a table, in the order in which they are planned. -/
def indexChanges (schema : String) (last desired : Relation) (live : List LiveIndex) :
    List Patch :=
  desired.indexes.flatMap (indexPatches schema desired.table last live)
    ++ (orphans desired live).map fun e => .dropIndex schema "" e.name true

theorem alterIndex_eq (last : Relation) (live : List LiveIndex) (p : Plan) (i : Index) :
    alterIndex last live p i = p.pushAll (indexPatches p.schema p.table last live i) := by
  have hstep : alterIndex last live p i = if dropsIndex p.table last live i = true then
      (p.dropIndex i.name).createIndex i
    else if (findLiveIndex? live (physicalIndexName p.table i.name)).isNone = true then
      p.createIndex i
    else p := rfl
  rw [hstep, indexPatches, createsIndex]
  by_cases hdrop : dropsIndex p.table last live i = true
  · rw [if_pos hdrop, if_pos hdrop, hdrop, Bool.true_or, if_pos rfl, pushAll_append]
    simp [dropIndex, createIndex, pushAll]
  · rw [if_neg hdrop, if_neg hdrop, Bool.eq_false_iff.mpr hdrop, Bool.false_or]
    split <;> rfl

theorem foldl_alterIndex (last : Relation) (live : List LiveIndex) (indexes : List Index)
    (p : Plan) :
    indexes.foldl (alterIndex last live) p
      = p.pushAll (indexes.flatMap (indexPatches p.schema p.table last live)) := by
  induction indexes generalizing p with
  | nil => rfl
  | cons i rest ih =>
      rw [List.foldl_cons, ih, alterIndex_eq, pushAll_schema, pushAll_table, List.flatMap_cons,
        pushAll_append]

theorem foldl_forceDropIndex (names : List String) (p : Plan) :
    names.foldl forceDropIndex p
      = p.pushAll (names.map fun name => .dropIndex p.schema "" name true) := by
  induction names generalizing p with
  | nil => rfl
  | cons name rest ih =>
      rw [List.foldl_cons, ih, forceDropIndex, push_schema, List.map_cons, pushAll_cons]

theorem alterIndexes_eq (p : Plan) (last desired : Relation) (live : List LiveIndex)
    (htable : p.table = desired.table) :
    p.alterIndexes last desired live = p.pushAll (indexChanges p.schema last desired live) := by
  rw [alterIndexes, foldl_alterIndex, foldl_forceDropIndex, pushAll_schema, List.map_map,
    ← pushAll_append, htable]
  rfl

/-- The plan for a table holds the patches of its columns and those of its indexes. -/
theorem alter_table {schema : String} {last desired : Relation} {columns : List LiveColumn}
    {indexes : List LiveIndex} {p : Plan} (hlast : last.isView = false)
    (hdesired : desired.isView = false)
    (h : alter schema last desired columns indexes = .ok p) :
    ∃ patches,
      desired.columns.mapM (columnPatches schema desired.table last columns) = .ok patches
        ∧ p = pushAll { schema, table := desired.table }
          (patches.flatten ++ indexChanges schema last desired indexes) := by
  rw [alter, hlast, hdesired, Bool.or_self, if_neg Bool.false_ne_true, alterTableShape] at h
  cases hpatches : desired.columns.mapM (columnPatches schema desired.table last columns) with
  | error e =>
      rw [hpatches] at h
      cases h
  | ok patches =>
      rw [hpatches] at h
      cases h
      refine ⟨patches, rfl, ?_⟩
      rw [alterIndexes_eq _ _ _ _ (pushAll_table _ _), pushAll_schema, pushAll_append]

theorem rank_changes {schema table : String} {old new : Column} :
    ∀ patch ∈ old.changes schema table new, patch.rank = 2 ∨ patch.rank = 3 := by
  intro patch hpatch
  simp only [Column.changes, List.mem_append, List.mem_ite_nil_left, List.mem_ite_nil_right,
    List.mem_singleton] at hpatch
  rcases hpatch with ((⟨-, rfl⟩ | ⟨-, rfl⟩) | ⟨-, rfl⟩) | ⟨-, rfl⟩
  · exact .inl rfl
  · exact .inr rfl
  · exact .inr rfl
  · exact .inr rfl

/-- A desired column is added, or compared with a column that is in the primary key when it is. -/
theorem columnPatches_eq_ok {schema table : String} {last : Relation} {live : List LiveColumn}
    {c : Column} {patches : List Patch}
    (h : columnPatches schema table last live c = .ok patches) :
    (baseColumn? last live c = none ∧ patches = [.addColumn c])
      ∨ ∃ old, baseColumn? last live c = some old ∧ c.primaryKey = old.primaryKey
        ∧ patches = old.changes schema table c := by
  unfold columnPatches at h
  split at h
  · next hnone =>
    cases h
    exact .inl ⟨hnone, rfl⟩
  · next old hold =>
    split at h
    · next hkey =>
      cases h
      exact .inr ⟨old, hold, beq_iff_eq.mp hkey, rfl⟩
    · cases h

/-- A planned change keeps the primary-key flag of every column that it compares. -/
theorem primaryKey_eq_of_alter {schema : String} {last desired : Relation}
    {columns : List LiveColumn} {indexes : List LiveIndex} {p : Plan}
    (hlast : last.isView = false) (hdesired : desired.isView = false)
    (h : alter schema last desired columns indexes = .ok p) :
    ∀ c ∈ desired.columns, ∀ old, baseColumn? last columns c = some old →
      c.primaryKey = old.primaryKey := by
  obtain ⟨patches, hpatches, -⟩ := alter_table hlast hdesired h
  intro c hc old hold
  obtain ⟨ps, -, hps⟩ := exists_result_of_mapM hpatches hc
  rcases columnPatches_eq_ok hps with ⟨hnone, -⟩ | ⟨old', hold', hkey, -⟩
  · rw [hold] at hnone
    cases hnone
  · rw [hold] at hold'
    cases hold'
    exact hkey

theorem rank_columnPatches {schema table : String} {last : Relation} {live : List LiveColumn}
    {c : Column} {patches : List Patch}
    (h : columnPatches schema table last live c = .ok patches) :
    ∀ patch ∈ patches, patch.rank = 2 ∨ patch.rank = 3 := by
  rcases columnPatches_eq_ok h with ⟨-, rfl⟩ | ⟨old, -, -, rfl⟩
  · intro patch hpatch
    rw [List.mem_singleton.mp hpatch]
    exact .inr rfl
  · exact rank_changes

theorem rank_indexPatches {schema table : String} {last : Relation} {live : List LiveIndex}
    {i : Index} : ∀ patch ∈ indexPatches schema table last live i,
      patch.rank = 0 ∨ patch.rank = 6 := by
  intro patch hpatch
  rw [indexPatches, List.mem_append, List.mem_ite_nil_right, List.mem_ite_nil_right,
    List.mem_singleton, List.mem_singleton] at hpatch
  rcases hpatch with ⟨-, rfl⟩ | ⟨-, rfl⟩
  · exact .inl rfl
  · exact .inr rfl

theorem rank_indexChanges {schema : String} {last desired : Relation} {live : List LiveIndex} :
    ∀ patch ∈ indexChanges schema last desired live, patch.rank = 0 ∨ patch.rank = 6 := by
  intro patch hpatch
  rw [indexChanges, List.mem_append, List.mem_flatMap, List.mem_map] at hpatch
  rcases hpatch with ⟨i, -, hpatch⟩ | ⟨e, -, rfl⟩
  · exact rank_indexPatches patch hpatch
  · exact .inl rfl

/-- The patches for a table in the order of execution: index drops, NULL updates, column clauses,
index creations. -/
theorem patches_alter_table {schema : String} {last desired : Relation}
    {columns : List LiveColumn} {indexes : List LiveIndex} {p : Plan}
    (hlast : last.isView = false) (hdesired : desired.isView = false)
    (h : alter schema last desired columns indexes = .ok p) :
    ∃ patches,
      desired.columns.mapM (columnPatches schema desired.table last columns) = .ok patches
        ∧ p.patches = Patch.ofRank 0 (indexChanges schema last desired indexes)
          ++ Patch.ofRank 2 patches.flatten ++ Patch.ofRank 3 patches.flatten
          ++ Patch.ofRank 6 (indexChanges schema last desired indexes) := by
  obtain ⟨patches, hpatches, rfl⟩ := alter_table hlast hdesired h
  -- columns and indexes fill different queues, so no queue mixes the two
  have hcolumns : ∀ n, n ≠ 2 → n ≠ 3 → Patch.ofRank n patches.flatten = [] := by
    intro n h2 h3
    refine Patch.ofRank_eq_nil fun patch hpatch => ?_
    obtain ⟨ps, hps, hmem⟩ := List.mem_flatten.mp hpatch
    obtain ⟨c, -, hc⟩ := exists_arg_of_mapM hpatches hps
    have hrank := rank_columnPatches hc patch hmem
    omega
  have hindexes : ∀ n, n ≠ 0 → n ≠ 6 →
      Patch.ofRank n (indexChanges schema last desired indexes) = [] := by
    intro n h0 h6
    refine Patch.ofRank_eq_nil fun patch hpatch => ?_
    have hrank := rank_indexChanges patch hpatch
    omega
  refine ⟨patches, hpatches, ?_⟩
  simp [patches_pushAll, List.range, List.range.loop, Patch.ofRank_append, hcolumns, hindexes]

/-! ## The table of a plan -/

theorem foldl_push_table {α : Type} (patch : Plan → α → Patch) (p : Plan) (items : List α) :
    (items.foldl (fun p a => p.push (patch p a)) p).table = p.table := by
  induction items generalizing p with
  | nil => rfl
  | cons a rest ih => rw [List.foldl_cons, ih, push_table]

theorem make_table (p : Plan) (r : Relation) : (p.make r).table = p.table := by
  have hindexes : ∀ q : Plan, (r.indexes.foldl createIndex q).table = q.table := fun q =>
    foldl_push_table (fun p i => .createIndex p.schema p.table i) q r.indexes
  unfold make makeView makeTable
  split
  · dsimp only
    split
    · rw [hindexes, push_table]
    · rw [push_table]
  · rw [hindexes, push_table]

theorem create_table (schema : String) (desired : Relation) :
    (create schema desired).table = desired.table :=
  make_table _ desired

theorem unmakeView_table (p : Plan) (last : Relation) : (p.unmakeView last).table = p.table := by
  unfold unmakeView
  split
  · rw [push_table]
    exact foldl_push_table (fun p (i : Index) => .dropIndex p.schema p.table i.name false) p _
  · rfl

theorem table_of_alter {schema : String} {last desired : Relation} {columns : List LiveColumn}
    {indexes : List LiveIndex} {p : Plan}
    (h : alter schema last desired columns indexes = .ok p) : p.table = desired.table := by
  by_cases hview : (desired.isView || last.isView) = true
  · rw [alter, if_pos hview] at h
    cases h
    rw [replaceView, make_table, unmakeView_table]
  · rw [Bool.or_eq_true, not_or, Bool.not_eq_true, Bool.not_eq_true] at hview
    obtain ⟨patches, -, rfl⟩ := alter_table hview.2 hview.1 h
    exact pushAll_table _ _

end Plan

end SchemaEvolution
