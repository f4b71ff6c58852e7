import SchemaEvolution.Proofs.Plan.Queues

set_option autoImplicit false

/-! # What a filled plan says

A plan is filled by calls, each of which puts one patch into the queue of its kind. The queues are
chained twice: once for the patches, once for the statements. So the patches of a filled plan are
the ones that were put in, stably sorted by kind, and its statements are those patches written one
after the other, except that the column clauses are one statement (`Plan.filled_in_order`).
-/

namespace SchemaEvolution

namespace Patch

theorem rank_lt (patch : Patch) : patch.rank < 7 := by
  cases patch <;> simp [rank]

theorem isColumnClause_iff {patch : Patch} : patch.isColumnClause = true ↔ patch.rank = 3 := by
  cases patch <;> simp [isColumnClause, rank]

end Patch

namespace Plan

/-! ## Calls -/

/-- A call that puts a patch into a plan. -/
inductive Call where
  | push (patch : Patch)
  | createIndex (i : Index)
  | dropIndex (name : String)
  | forceDropIndex (name : String)
  deriving DecidableEq, Repr

/-- Makes a call. -/
def call (p : Plan) : Call → Plan
  | .push patch => p.push patch
  | .createIndex i => p.createIndex i
  | .dropIndex name => p.dropIndex name
  | .forceDropIndex name => p.forceDropIndex name

/-- The patch that a call puts into the plan of a table. -/
def Call.patch (schema table : String) : Call → Patch
  | .push patch => patch
  | .createIndex i => .createIndex schema table i
  | .dropIndex name => .dropIndex schema table name false
  | .forceDropIndex name => .dropIndex schema "" name true

/-- The plan of a table after a sequence of calls. -/
def filled (schema table : String) (calls : List Call) : Plan := calls.foldl call { schema, table }

theorem call_eq_push (p : Plan) (c : Call) : p.call c = p.push (c.patch p.schema p.table) := by
  cases c <;> rfl

theorem foldl_call (p : Plan) (calls : List Call) :
    calls.foldl call p = p.pushAll (calls.map (Call.patch p.schema p.table)) := by
  induction calls generalizing p with
  | nil => rfl
  | cons c rest ih =>
      rw [List.foldl_cons, ih, call_eq_push, push_schema, push_table, List.map_cons, pushAll_cons]

theorem filled_eq (schema table : String) (calls : List Call) :
    filled schema table calls
      = pushAll { schema, table } (calls.map (Call.patch schema table)) :=
  foldl_call { schema, table } calls

@[simp]
theorem filled_schema (schema table : String) (calls : List Call) :
    (filled schema table calls).schema = schema := by
  rw [filled_eq, pushAll_schema]

@[simp]
theorem filled_table (schema table : String) (calls : List Call) :
    (filled schema table calls).table = table := by
  rw [filled_eq, pushAll_table]

/-! ## Patches -/

theorem queue_filled (schema table : String) (calls : List Call) (n : Nat) :
    (filled schema table calls).queue n
      = Patch.ofRank n (calls.map (Call.patch schema table)) := by
  rw [filled_eq, queue_pushAll]
  rcases n with _ | _ | _ | _ | _ | _ | _ | n <;> rfl

/-- The patches are the ones that were put in, stably sorted by kind. -/
theorem patches_filled (schema table : String) (calls : List Call) :
    (filled schema table calls).patches
      = (calls.map (Call.patch schema table)).mergeSort fun a b => decide (a.rank ≤ b.rank) := by
  rw [filled_eq, patches_pushAll]
  exact (mergeSort_key_eq_flatMap fun patch _ => patch.rank_lt).symm

theorem size_filled (schema table : String) (calls : List Call) :
    (filled schema table calls).size = calls.length := by
  rw [size, patches_filled, List.length_mergeSort, List.length_map]

/-! ## Statements -/

theorem statements_eq (p : Plan) :
    p.statements = (p.dropIndexes ++ p.dropViews ++ p.updateNulls).map Patch.render
      ++ p.alterTable
      ++ (p.createTables ++ p.createViews ++ p.createIndexes).map Patch.render := by
  simp [statements]

/-- Nothing is written only when nothing is planned: the clauses of columns are written as well. -/
theorem statements_eq_nil_iff (p : Plan) : p.statements = [] ↔ p.patches = [] := by
  have hclauses : p.alterTable = [] ↔ p.columnClauses = [] := by
    unfold alterTable
    split
    · next hnone => exact iff_of_true rfl (List.isEmpty_iff.mp hnone)
    · next hsome => exact iff_of_false (by simp) fun hnil => hsome (List.isEmpty_iff.mpr hnil)
  simp [statements_eq, patches, hclauses]

/-- The fourth queue holds the column clauses, and no other one does. -/
theorem isColumnClause_of_mem_queue {schema table : String} {calls : List Call} {n : Nat}
    {patch : Patch} (h : patch ∈ (filled schema table calls).queue n) :
    patch.isColumnClause = decide (n = 3) := by
  rw [queue_filled, Patch.mem_ofRank] at h
  rw [← h.2, Bool.eq_iff_iff, Patch.isColumnClause_iff, decide_eq_true_iff]

/-- Each patch is written as one statement, but all column clauses together as one. -/
theorem exists_statements_split {p : Plan}
    (hqueue : ∀ n, ∀ patch ∈ p.queue n, patch.isColumnClause = decide (n = 3)) :
    ∃ before clauses after, p.patches = before ++ clauses ++ after
      ∧ (∀ patch ∈ before ++ after, patch.isColumnClause = false)
      ∧ (∀ patch ∈ clauses, patch.isColumnClause = true)
      ∧ p.statements = before.map Patch.render
        ++ (if clauses = [] then [] else
          ["ALTER TABLE " ++ p.schema ++ "." ++ p.table ++ " "
            ++ ", ".intercalate (clauses.map Patch.render)])
        ++ after.map Patch.render := by
  refine ⟨p.dropIndexes ++ p.dropViews ++ p.updateNulls, p.columnClauses,
    p.createTables ++ p.createViews ++ p.createIndexes, ?_, ?_, hqueue 3, ?_⟩
  · simp [patches]
  · intro patch hpatch
    simp only [List.mem_append] at hpatch
    rcases hpatch with ((h | h) | h) | ((h | h) | h)
    · exact hqueue 0 patch h
    · exact hqueue 1 patch h
    · exact hqueue 2 patch h
    · exact hqueue 4 patch h
    · exact hqueue 5 patch h
    · exact hqueue 6 patch h
  · rw [statements_eq, alterTable]
    simp only [List.isEmpty_iff]

/-- A plan that is filled by calls holds the patches of the calls, stably sorted by kind: index
drops, view drops, NULL updates, column clauses, table creations, view creations, index creations.
So it has one patch for each call, and it is empty, and writes nothing, exactly when there was no
call. It writes one statement for each patch, in order, but one for all column clauses together. -/
theorem filled_in_order (schema table : String) (calls : List Call) :
    (filled schema table calls).patches
        = (calls.map (Call.patch schema table)).mergeSort (fun a b => decide (a.rank ≤ b.rank))
      ∧ (∀ n, Patch.ofRank n (filled schema table calls).patches
        = Patch.ofRank n (calls.map (Call.patch schema table)))
      ∧ (filled schema table calls).size = calls.length
      ∧ ((filled schema table calls).isEmpty = true ↔ calls = [])
      ∧ ((filled schema table calls).isEmpty = true
        ↔ (filled schema table calls).statements = [])
      ∧ ∃ before clauses after,
        (filled schema table calls).patches = before ++ clauses ++ after
          ∧ (∀ patch ∈ before ++ after, patch.isColumnClause = false)
          ∧ (∀ patch ∈ clauses, patch.isColumnClause = true)
          ∧ (filled schema table calls).statements
            = before.map Patch.render
              ++ (if clauses = [] then [] else
                ["ALTER TABLE " ++ schema ++ "." ++ table ++ " "
                  ++ ", ".intercalate (clauses.map Patch.render)])
              ++ after.map Patch.render := by
  have hsorted := patches_filled schema table calls
  have hempty : (filled schema table calls).isEmpty = true
      ↔ (filled schema table calls).patches = [] := List.isEmpty_iff
  have hcalls : (filled schema table calls).patches = [] ↔ calls = [] := by
    rw [← List.length_eq_zero_iff, ← List.length_eq_zero_iff, ← size_filled schema table calls]
    rfl
  refine ⟨hsorted, fun n => ?_, size_filled schema table calls, hempty.trans hcalls,
    hempty.trans (statements_eq_nil_iff _).symm, ?_⟩
  · rw [hsorted]
    exact filter_mergeSort_key _ n
  · have hsplit := exists_statements_split (p := filled schema table calls)
      fun n patch => isColumnClause_of_mem_queue
    simpa only [filled_schema, filled_table] using hsplit

/-- An index with everything that its statement can say. -/
def fullIndex : Index where
  name := "_a"
  isUnique := true
  method := "GIN"
  columns := ["a", "b"]
  options := "DESC"
  concurrently := true
  storage := "(fillfactor=70)"
  condition := "a > 0"

/-- Calls for patches of every kind. What is called for first is executed last. -/
def everyKind : List Call :=
  [.createIndex fullIndex, .push (.createView "s" "v" "SELECT 1" true),
    .push (.createTable "s" "u" [
      { name := "id", dataType := "INT", notNull := true, primaryKey := true },
      { name := "a", dataType := "TEXT", defaultValue := "''" }]),
    .push (.addColumn { name := "a", dataType := "INT", notNull := true, defaultValue := "0" }),
    .push (.alterColumnType { name := "b", dataType := "TEXT" }),
    .push (.alterColumnNullable { name := "c", dataType := "INT", notNull := true }),
    .push (.alterColumnDefault { name := "d", dataType := "INT" }),
    .push (.updateNulls "s" "t" { name := "c", dataType := "INT", defaultValue := "0" }),
    .push (.dropView "s" "v" true), .dropIndex "_e", .forceDropIndex "t_f"]

theorem filled_in_order_everyKind :
    (filled "s" "t" everyKind).size = 11 ∧ (filled "s" "t" everyKind).isEmpty = false
      ∧ Patch.ofRank 0 (filled "s" "t" everyKind).patches
        = [.dropIndex "s" "t" "_e" false, .dropIndex "s" "" "t_f" true]
      ∧ (filled "s" "t" everyKind).statements
        = ["DROP INDEX IF EXISTS s.t_e", "DROP INDEX s.t_f",
          "DROP MATERIALIZED VIEW IF EXISTS s.v", "UPDATE s.t SET c = 0 WHERE c IS NULL",
          "ALTER TABLE s.t ADD COLUMN a INT NOT NULL DEFAULT 0, ALTER COLUMN b TYPE TEXT, "
            ++ "ALTER COLUMN c SET NOT NULL, ALTER COLUMN d DROP DEFAULT",
          "CREATE TABLE s.u (id INT NOT NULL,a TEXT DEFAULT '',PRIMARY KEY (id))",
          "CREATE MATERIALIZED VIEW s.v AS SELECT 1",
          "CREATE UNIQUE INDEX CONCURRENTLY t_a ON s.t USING GIN(a, b DESC) "
            ++ "WITH (fillfactor=70) WHERE a > 0"] := by
  obtain ⟨-, hqueues, hsize, hempty, -⟩ := filled_in_order "s" "t" everyKind
  have hcalls : everyKind ≠ [] := List.cons_ne_nil _ _
  exact ⟨hsize, Bool.eq_false_iff.mpr (mt hempty.mp hcalls), (hqueues 0).trans (by decide +kernel),
    by decide +kernel⟩

end Plan

end SchemaEvolution
