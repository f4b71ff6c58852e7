import SchemaEvolution.Proofs.Plan.Queues
import SchemaEvolution.Proofs.Relation.Normal

set_option autoImplicit false

/-! # Executing the column clauses of a plan

The recorded columns of a table, and the live ones that a plan adopts, are the baseline that column
clauses change (`Patch.onColumns`). The clauses of one desired column turn the column of its name
into it, or add it when there is none, and leave columns of other names (`Settles`); the clauses of
a plan do so for every desired column (`Plan.alter_columns_converge`).
-/

namespace SchemaEvolution

open Text

/-! ## Patches on columns -/

/-- Changes the columns of a name up to case. -/
def updateNamed (name : String) (f : Column → Column) (columns : List Column) : List Column :=
  columns.map fun o => if sameFold o.name name then f o else o

namespace Patch

/-- What executing a patch does to the columns of its table. -/
def onColumns (columns : List Column) : Patch → List Column
  | .addColumn c => columns ++ [c]
  | .alterColumnType c => updateNamed c.name (fun o => { o with dataType := c.dataType }) columns
  | .alterColumnNullable c => updateNamed c.name (fun o => { o with notNull := c.notNull }) columns
  | .alterColumnDefault c =>
    updateNamed c.name (fun o => { o with defaultValue := c.defaultValue }) columns
  | _ => columns

/-- Whether a patch has something to do: a column that is added is new, and an attribute that is
altered differs. -/
def ChangesColumns (columns : List Column) : Patch → Prop
  | .addColumn c => ∀ o ∈ columns, sameFold o.name c.name = false
  | .alterColumnType c =>
    ∃ o ∈ columns, sameFold o.name c.name = true ∧ sameAsciiFold c.dataType o.dataType = false
  | .alterColumnNullable c =>
    ∃ o ∈ columns, sameFold o.name c.name = true ∧ c.notNull ≠ o.notNull
  | .alterColumnDefault c =>
    ∃ o ∈ columns, sameFold o.name c.name = true ∧ c.defaultValue ≠ o.defaultValue
  | _ => True

end Patch

section UpdateNamed

variable {name : String} {f : Column → Column} {columns : List Column}

theorem filter_updateNamed (hf : ∀ o, (f o).name = o.name) (q : String → Bool) :
    (updateNamed name f columns).filter (fun o => q o.name)
      = updateNamed name f (columns.filter fun o => q o.name) := by
  rw [updateNamed, List.filter_map, updateNamed]
  refine congrArg _ (List.filter_congr fun o _ => ?_)
  show q (if sameFold o.name name = true then f o else o).name = q o.name
  split
  · rw [hf]
  · rfl

theorem updateNamed_of_ne (h : ∀ o ∈ columns, sameFold o.name name = false) :
    updateNamed name f columns = columns := by
  refine (List.map_congr_left fun o ho => ?_).trans (List.map_id columns)
  rw [h o ho]
  rfl

end UpdateNamed

/-! ## Clauses that settle one column -/

/-- Clauses that can be executed on `columns`, leave `settled` as the only column of a name, and do
not touch columns of other names. -/
structure Settles (name : String) (columns : List Column) (clauses : List Patch)
    (settled : Column) : Prop where
  safe : SafeRun Patch.onColumns Patch.ChangesColumns columns clauses
  found : (clauses.foldl Patch.onColumns columns).filter (fun o => sameFold o.name name)
    = [settled]
  frame : ∀ q : String → Bool, (∀ n, sameFold n name = true → q n = false) →
    (clauses.foldl Patch.onColumns columns).filter (fun o => q o.name)
      = columns.filter fun o => q o.name

theorem Settles.append {name : String} {columns : List Column} {as bs : List Patch}
    {o o' : Column} (ha : Settles name columns as o)
    (hb : Settles name (as.foldl Patch.onColumns columns) bs o') :
    Settles name columns (as ++ bs) o' where
  safe := safeRun_append.mpr ⟨ha.safe, hb.safe⟩
  found := by rw [List.foldl_append, hb.found]
  frame q hq := by rw [List.foldl_append, hb.frame q hq, ha.frame q hq]

theorem settles_nil {name : String} {columns : List Column} {o : Column}
    (h : columns.filter (fun o => sameFold o.name name) = [o]) : Settles name columns [] o where
  safe := safeRun_nil columns
  found := h
  frame _ _ := rfl

theorem mem_of_filter_eq_singleton {name : String} {columns : List Column} {o : Column}
    (h : columns.filter (fun o => sameFold o.name name) = [o]) :
    o ∈ columns ∧ sameFold o.name name = true := by
  have hmem : o ∈ columns.filter fun o => sameFold o.name name := by
    rw [h]
    exact List.mem_singleton_self o
  exact List.mem_filter.mp hmem

/-- A clause that is left out when it would change nothing, and otherwise changes the column. -/
theorem settles_clause {name : String} {columns : List Column} {o settled : Column}
    {clause : Patch} {f : Column → Column} {skip : Bool}
    (h : columns.filter (fun o => sameFold o.name name) = [o])
    (hstep : clause.onColumns columns = updateNamed name f columns)
    (hf : ∀ o, (f o).name = o.name)
    (hchanges : skip = false → clause.ChangesColumns columns)
    (hsettled : (if skip then o else f o) = settled) :
    Settles name columns (if skip then [] else [clause]) settled := by
  cases skip with
  | true =>
      rw [← hsettled]
      exact settles_nil h
  | false =>
      have hname := (mem_of_filter_eq_singleton h).2
      refine ⟨safeRun_cons.mpr ⟨hchanges rfl, safeRun_nil _⟩, ?_, ?_⟩
      · show (clause.onColumns columns).filter _ = [settled]
        rw [hstep, filter_updateNamed hf fun n => sameFold n name, h, ← hsettled]
        simp [updateNamed, hname]
      · intro q hq
        show (clause.onColumns columns).filter _ = _
        rw [hstep, filter_updateNamed hf]
        -- a column that `q` selects has another name
        refine updateNamed_of_ne fun o' ho' => ?_
        refine Bool.eq_false_iff.mpr fun hsame => ?_
        have hq' := (List.mem_filter.mp ho').2
        rw [hq o'.name hsame] at hq'
        cases hq'

theorem settles_addColumn {columns : List Column} {c : Column}
    (h : columns.filter (fun o => sameFold o.name c.name) = []) :
    Settles c.name columns [.addColumn c] c where
  safe := by
    refine safeRun_cons.mpr ⟨?_, safeRun_nil _⟩
    intro o ho
    exact Bool.eq_false_iff.mpr (List.filter_eq_nil_iff.mp h o ho)
  found := by
    show (columns ++ [c]).filter _ = [c]
    rw [List.filter_append, h]
    simp
  frame q hq := by
    show (columns ++ [c]).filter _ = _
    rw [List.filter_append]
    simp [hq c.name (sameFold_refl c.name)]

/-- The column clauses among the changes from one form of a column to another. -/
def Column.clauses (old new : Column) : List Patch :=
  (if sameAsciiFold new.dataType old.dataType then [] else [.alterColumnType new])
    ++ (if new.notNull == old.notNull then [] else [.alterColumnNullable new])
    ++ (if new.defaultValue == old.defaultValue then [] else [.alterColumnDefault new])

/-- The old form of a column with the attributes of the new one; a type that is the same up to the
case of ASCII letters is left. -/
def Column.settled (old new : Column) : Column :=
  { old with
    dataType := if sameAsciiFold new.dataType old.dataType then old.dataType else new.dataType
    notNull := new.notNull
    defaultValue := new.defaultValue }

theorem Column.settled_sameAs {old new : Column} (hname : sameFold old.name new.name = true)
    (hkey : new.primaryKey = old.primaryKey) : (old.settled new).sameAs new = true := by
  have htype : sameFold (old.settled new).dataType new.dataType = true := by
    unfold settled
    split
    · next hsame => exact sameFold_symm (sameFold_of_sameAsciiFold hsame)
    · exact sameFold_refl new.dataType
  simp only [sameAs, htype, Bool.and_true]
  simp [settled, hname, hkey]

/-- The clauses from the old form of a column to the new one, executed where the old form is the
only column of its name. -/
theorem settles_clauses {columns : List Column} {old c : Column}
    (h : columns.filter (fun o => sameFold o.name c.name) = [old]) :
    Settles c.name columns (old.clauses c) (old.settled c) := by
  -- the three attributes are settled one after the other
  let typed : Column := { old with dataType := (old.settled c).dataType }
  let nulled : Column := { typed with notNull := c.notNull }
  have htype : Settles c.name columns
      (if sameAsciiFold c.dataType old.dataType then [] else [.alterColumnType c]) typed := by
    obtain ⟨hmem, hname⟩ := mem_of_filter_eq_singleton h
    refine settles_clause h rfl (fun _ => rfl) (fun hskip => ⟨old, hmem, hname, hskip⟩) ?_
    simp only [typed, Column.settled]
    split <;> rfl
  have hnull : ∀ columns, columns.filter (fun o => sameFold o.name c.name) = [typed] →
      Settles c.name columns
        (if c.notNull == old.notNull then [] else [.alterColumnNullable c]) nulled := by
    intro columns h
    obtain ⟨hmem, hname⟩ := mem_of_filter_eq_singleton h
    refine settles_clause h rfl (fun _ => rfl)
      (fun hskip => ⟨typed, hmem, hname, beq_eq_false_iff_ne.mp hskip⟩) ?_
    split
    · next hsame =>
      simp only [nulled, beq_iff_eq.mp hsame]
      rfl
    · rfl
  have hdefault : ∀ columns, columns.filter (fun o => sameFold o.name c.name) = [nulled] →
      Settles c.name columns
        (if c.defaultValue == old.defaultValue then [] else [.alterColumnDefault c])
        (old.settled c) := by
    intro columns h
    obtain ⟨hmem, hname⟩ := mem_of_filter_eq_singleton h
    refine settles_clause h rfl (fun _ => rfl)
      (fun hskip => ⟨nulled, hmem, hname, beq_eq_false_iff_ne.mp hskip⟩) ?_
    split
    · next hsame =>
      rw [Column.settled, beq_iff_eq.mp hsame]
      rfl
    · rfl
  have htwo := htype.append (hnull _ htype.found)
  exact htwo.append (hdefault _ htwo.found)

/-! ## Clauses that settle every desired column -/

section Run

variable {last : Relation} {live : List LiveColumn}

/-- The column clauses of a plan for one desired column. -/
def clausesFor (last : Relation) (live : List LiveColumn) (c : Column) : List Patch :=
  match baseColumn? last live c with
  | none => [.addColumn c]
  | some old => old.clauses c

theorem settles_clausesFor {columns : List Column} {c : Column}
    (h : columns.filter (fun o => sameFold o.name c.name) = (baseColumn? last live c).toList)
    (hkey : ∀ old, baseColumn? last live c = some old → c.primaryKey = old.primaryKey) :
    ∃ o, Settles c.name columns (clausesFor last live c) o ∧ o.sameAs c = true := by
  unfold clausesFor
  cases hbase : baseColumn? last live c with
  | none =>
      rw [hbase] at h
      exact ⟨c, settles_addColumn h, c.sameAs_self⟩
  | some old =>
      rw [hbase] at h
      exact ⟨old.settled c, settles_clauses h,
        Column.settled_sameAs (mem_of_filter_eq_singleton h).2 (hkey old hbase)⟩

/-- Column by column, the clauses of a plan can be executed, leave each desired column as the only
one of its name, and do not touch columns of names that are not desired. -/
theorem settles_all {desired columns : List Column}
    (hnames : DistinctNames (desired.map (·.name)))
    (h : ∀ c ∈ desired, columns.filter (fun o => sameFold o.name c.name)
      = (baseColumn? last live c).toList)
    (hkeys : ∀ c ∈ desired, ∀ old, baseColumn? last live c = some old →
      c.primaryKey = old.primaryKey) :
    SafeRun Patch.onColumns Patch.ChangesColumns columns (desired.flatMap (clausesFor last live))
      ∧ (∀ c ∈ desired, ∃ o,
        ((desired.flatMap (clausesFor last live)).foldl Patch.onColumns columns).filter
          (fun o => sameFold o.name c.name) = [o] ∧ o.sameAs c = true)
      ∧ ∀ q : String → Bool, (∀ c ∈ desired, ∀ n, sameFold n c.name = true → q n = false) →
        ((desired.flatMap (clausesFor last live)).foldl Patch.onColumns columns).filter
          (fun o => q o.name) = columns.filter fun o => q o.name := by
  induction desired generalizing columns with
  | nil => exact ⟨safeRun_nil columns, by simp, fun _ _ => rfl⟩
  | cons c rest ih =>
      obtain ⟨hc, hrest⟩ := List.pairwise_cons.mp hnames
      obtain ⟨o, hsettles, hsame⟩ :=
        settles_clausesFor (h c List.mem_cons_self) (hkeys c List.mem_cons_self)
      -- the clauses of `c` leave the columns of the other desired names
      have hother : ∀ d ∈ rest, ∀ n, sameFold n c.name = true → sameFold n d.name = false := by
        intro d hd n hn
        refine Bool.eq_false_iff.mpr fun hnd => ?_
        have hcd := hc d.name (List.mem_map_of_mem hd)
        rw [sameFold_trans (sameFold_symm hn) hnd] at hcd
        cases hcd
      have hnext : ∀ d ∈ rest,
          ((clausesFor last live c).foldl Patch.onColumns columns).filter
            (fun o => sameFold o.name d.name) = (baseColumn? last live d).toList := by
        intro d hd
        rw [hsettles.frame (fun n => sameFold n d.name) (hother d hd)]
        exact h d (List.mem_cons_of_mem c hd)
      obtain ⟨hsafe, hfound, hframe⟩ :=
        ih hrest hnext fun d hd => hkeys d (List.mem_cons_of_mem c hd)
      rw [List.flatMap_cons, List.foldl_append]
      refine ⟨safeRun_append.mpr ⟨hsettles.safe, hsafe⟩, ?_, ?_⟩
      · intro d hd
        rcases List.mem_cons.mp hd with rfl | hd
        · refine ⟨o, ?_, hsame⟩
          rw [hframe (fun n => sameFold n d.name), hsettles.found]
          intro e he n hne
          refine Bool.eq_false_iff.mpr fun hnd => ?_
          rw [hother e he n hnd] at hne
          cases hne
        · exact hfound d hd
      · intro q hq
        rw [hframe q fun d hd => hq d (List.mem_cons_of_mem c hd),
          hsettles.frame q (hq c List.mem_cons_self)]

end Run

/-! ## The baseline -/

/-- The column that a plan adopts for a desired one: a live column that is not recorded. -/
def adopted? (last : Relation) (live : List LiveColumn) (c : Column) : Option Column :=
  match last.column? c.name with
  | some _ => none
  | none => (findLiveColumn? live c.name).map (·.toColumn c)

/-- The columns that a plan starts from: the recorded and the adopted ones. -/
def baseline (last desired : Relation) (live : List LiveColumn) : List Column :=
  last.columns ++ desired.columns.filterMap (adopted? last live)

theorem adopted?_name {last : Relation} {live : List LiveColumn} {c o : Column}
    (h : adopted? last live c = some o) : o.name = c.name := by
  unfold adopted? at h
  split at h
  · cases h
  · obtain ⟨e, -, rfl⟩ := Option.map_eq_some_iff.mp h
    rfl

/-- The baseline has the column that a desired one is compared with, and no other of its name. -/
theorem filter_baseline {last desired : Relation} {live : List LiveColumn}
    (hrecorded : DistinctNames (last.columns.map (·.name)))
    (hnames : DistinctNames (desired.columns.map (·.name))) {c : Column}
    (hc : c ∈ desired.columns) :
    (baseline last desired live).filter (fun o => sameFold o.name c.name)
      = (baseColumn? last live c).toList := by
  -- only the desired column itself adopts a column of its name
  have hadopted : (desired.columns.filterMap (adopted? last live)).filter
      (fun o => sameFold o.name c.name) = (adopted? last live c).toList := by
    have hfilter : (desired.columns.filterMap (adopted? last live)).filter
          (fun o => sameFold o.name c.name)
        = (desired.columns.filter fun d => sameFold d.name c.name).filterMap
          (adopted? last live) := by
      rw [List.filter_filterMap, List.filterMap_filter]
      refine List.filterMap_congr fun d _ => ?_
      cases had : adopted? last live d with
      | none => simp
      | some o => simp [adopted?_name had, Option.filter]
    rw [hfilter, hnames.filter_eq_singleton hc (sameFold_refl c.name), List.filterMap_cons,
      List.filterMap_nil]
    cases adopted? last live c <;> rfl
  rw [baseline, List.filter_append, hadopted, baseColumn?, adopted?]
  cases hfind : last.column? c.name with
  | none =>
      rw [List.filter_eq_nil_iff.mpr]
      · rfl
      · intro o ho
        rw [Relation.column?_eq_none_iff.mp hfind o ho]
        exact Bool.false_ne_true
  | some old =>
      obtain ⟨hmem, hname⟩ := Relation.mem_of_column? hfind
      rw [hrecorded.filter_eq_singleton hmem hname]
      rfl

/-! ## Convergence -/

/-- Whether a desired column refuses NULL, has a default, and is nullable in the given columns. -/
def losesNulls (columns : List Column) (c : Column) : Bool :=
  c.notNull && !c.defaultValue.isEmpty
    && columns.any fun o => sameFold o.name c.name && !o.notNull

namespace Plan

section Queues

variable {schema table : String} {last desired : Relation} {live : List LiveColumn}

theorem ofRank_three_columnPatches {c : Column} {patches : List Patch}
    (h : columnPatches schema table last live c = .ok patches) :
    Patch.ofRank 3 patches = clausesFor last live c := by
  rcases columnPatches_eq_ok h with ⟨hbase, rfl⟩ | ⟨old, hbase, -, rfl⟩
  · rw [clausesFor, hbase]
    rfl
  · rw [clausesFor, hbase]
    simp only [Column.changes, Column.clauses, Patch.ofRank_append]
    split <;> split <;> split <;> split <;> rfl

theorem ofRank_two_columnPatches {c : Column} {patches : List Patch}
    (hrecorded : DistinctNames (last.columns.map (·.name)))
    (hnames : DistinctNames (desired.columns.map (·.name))) (hc : c ∈ desired.columns)
    (h : columnPatches schema table last live c = .ok patches) :
    Patch.ofRank 2 patches
      = if losesNulls (baseline last desired live) c then [.updateNulls schema table c]
        else [] := by
  have hloses : losesNulls (baseline last desired live) c
      = (c.notNull && !c.defaultValue.isEmpty && (baseColumn? last live c).any (!·.notNull)) := by
    rw [losesNulls, ← List.any_filter, filter_baseline hrecorded hnames hc]
    cases baseColumn? last live c <;> simp
  rw [hloses]
  rcases columnPatches_eq_ok h with ⟨hbase, rfl⟩ | ⟨old, hbase, -, rfl⟩
  · rw [hbase, Option.any_none, Bool.and_false]
    rfl
  · rw [hbase, Option.any_some, Bool.and_assoc, Bool.and_comm (!_), ← Bool.and_assoc]
    simp only [Column.changes, Patch.ofRank_append]
    split <;> split <;> split <;> split <;> rfl

theorem ofRank_flatten {n : Nat} {columns : List Column} {patches : List (List Patch)}
    {f : Column → Except SchemaError (List Patch)} {g : Column → List Patch}
    (h : columns.mapM f = .ok patches)
    (hg : ∀ c ∈ columns, ∀ ps, f c = .ok ps → Patch.ofRank n ps = g c) :
    Patch.ofRank n patches.flatten = columns.flatMap g := by
  rw [mapM_eq_ok_iff] at h
  induction h with
  | nil => rfl
  | @cons c ps columns patches hc _ ih =>
      rw [List.flatten_cons, Patch.ofRank_append, hg c List.mem_cons_self ps hc,
        ih fun d hd => hg d (List.mem_cons_of_mem c hd), List.flatMap_cons]

end Queues

section Convergence

variable {schema : String} {last desired : Relation} {live : List LiveColumn}
  {indexes : List LiveIndex} {p : Plan}

theorem queue_alter_table {n : Nat} (hn : n = 2 ∨ n = 3) {patches : List (List Patch)}
    (hplan : p = pushAll { schema, table := desired.table }
      (patches.flatten ++ indexChanges schema last desired indexes)) :
    p.queue n = Patch.ofRank n patches.flatten := by
  have hnil : ({ schema, table := desired.table } : Plan).queue n = [] := by
    rcases hn with rfl | rfl <;> rfl
  have hindexes : Patch.ofRank n (indexChanges schema last desired indexes) = [] := by
    refine Patch.ofRank_eq_nil fun patch hpatch => ?_
    have hrank := rank_indexChanges patch hpatch
    omega
  rw [hplan, queue_pushAll, hnil, List.nil_append, Patch.ofRank_append, hindexes, List.append_nil]

/-- The column clauses of a plan are those of the desired columns, in order. -/
theorem columnClauses_eq (hlast : last.isView = false) (hdesired : desired.isView = false)
    (h : alter schema last desired live indexes = .ok p) :
    p.columnClauses = desired.columns.flatMap (clausesFor last live) := by
  obtain ⟨patches, hpatches, hplan⟩ := alter_table hlast hdesired h
  have hqueue := queue_alter_table (.inr rfl) hplan
  rw [ofRank_flatten hpatches fun _ _ _ => ofRank_three_columnPatches] at hqueue
  exact hqueue

/-- The NULL updates of a plan are those of the desired columns that lose NULLs, in order. -/
theorem updateNulls_eq (hlast : last.isView = false) (hdesired : desired.isView = false)
    (hrecorded : DistinctNames (last.columns.map (·.name)))
    (hnames : DistinctNames (desired.columns.map (·.name)))
    (h : alter schema last desired live indexes = .ok p) :
    p.updateNulls = (desired.columns.filter (losesNulls (baseline last desired live))).map
      (.updateNulls schema desired.table) := by
  obtain ⟨patches, hpatches, hplan⟩ := alter_table hlast hdesired h
  have hqueue := queue_alter_table (.inl rfl) hplan
  rw [ofRank_flatten hpatches fun _ hc _ => ofRank_two_columnPatches hrecorded hnames hc,
    flatMap_ite_singleton] at hqueue
  exact hqueue

theorem addColumn_mem_clausesFor {c d : Column} :
    .addColumn c ∈ clausesFor last live d ↔ c = d ∧ baseColumn? last live d = none := by
  unfold clausesFor
  cases baseColumn? last live d with
  | none => simp
  | some old =>
      simp only [Column.clauses, List.mem_append, List.mem_ite_nil_left, List.mem_singleton]
      simp

/-- Column convergence: over the baseline, each column clause of a plan can be executed and changes
what it alters, the columns that remain have exactly one of each desired name, equal to the desired
one, and columns of other names stay. A column is added exactly when the baseline has none of its
name, and NULLs are updated exactly for the columns that lose them. -/
theorem alter_columns_converge (hlast : last.isView = false) (hdesired : desired.isView = false)
    (hrecorded : DistinctNames (last.columns.map (·.name)))
    (hnames : DistinctNames (desired.columns.map (·.name)))
    (h : alter schema last desired live indexes = .ok p) :
    (∀ c ∈ desired.columns, ∃ o,
        (p.columnClauses.foldl Patch.onColumns (baseline last desired live)).filter
          (fun o => sameFold o.name c.name) = [o] ∧ o.sameAs c = true)
      ∧ (p.columnClauses.foldl Patch.onColumns (baseline last desired live)).filter
          (fun o => !desired.columns.any fun c => sameFold o.name c.name)
        = (baseline last desired live).filter
          (fun o => !desired.columns.any fun c => sameFold o.name c.name)
      ∧ SafeRun Patch.onColumns Patch.ChangesColumns (baseline last desired live) p.columnClauses
      ∧ (∀ c, .addColumn c ∈ p.columnClauses
        ↔ c ∈ desired.columns ∧ ∀ o ∈ baseline last desired live, sameFold o.name c.name = false)
      ∧ p.updateNulls = (desired.columns.filter (losesNulls (baseline last desired live))).map
        (.updateNulls schema desired.table) := by
  have hclauses := columnClauses_eq hlast hdesired h
  have hbase : ∀ c ∈ desired.columns, (baseline last desired live).filter
      (fun o => sameFold o.name c.name) = (baseColumn? last live c).toList :=
    fun c hc => filter_baseline hrecorded hnames hc
  obtain ⟨hsafe, hfound, hframe⟩ :=
    settles_all hnames hbase (primaryKey_eq_of_alter hlast hdesired h)
  rw [← hclauses] at hsafe hfound hframe
  refine ⟨hfound, ?_, hsafe, ?_, updateNulls_eq hlast hdesired hrecorded hnames h⟩
  · refine hframe (fun n => !desired.columns.any fun c => sameFold n c.name) fun c hc n hn => ?_
    rw [Bool.not_eq_false', List.any_eq_true]
    exact ⟨c, hc, hn⟩
  · intro c
    have habsent : ∀ d ∈ desired.columns, baseColumn? last live d = none
        ↔ ∀ o ∈ baseline last desired live, sameFold o.name d.name = false := by
      intro d hd
      rw [← Option.toList_eq_nil_iff, ← hbase d hd, List.filter_eq_nil_iff]
      simp
    rw [hclauses, List.mem_flatMap]
    constructor
    · rintro ⟨d, hd, hmem⟩
      obtain ⟨rfl, hnone⟩ := addColumn_mem_clausesFor.mp hmem
      exact ⟨hd, (habsent c hd).mp hnone⟩
    · rintro ⟨hc, hnone⟩
      exact ⟨c, hc, addColumn_mem_clausesFor.mpr ⟨rfl, (habsent c hc).mpr hnone⟩⟩

/-- A table with a key, a column to widen and a column that is not desired any more. -/
def recordedTable : Relation where
  table := "t"
  columns := [{ name := "id", dataType := "UUID", notNull := true, primaryKey := true },
    { name := "size", dataType := "INT" }, { name := "spare", dataType := "TEXT" }]

/-- The table with `size` widened and without NULLs, a live column `note` and a new one. -/
def widenedTable : Relation where
  table := "t"
  columns := [{ name := "ID", dataType := "uuid", notNull := true, primaryKey := true },
    { name := "size", dataType := "BIGINT", defaultValue := "0", notNull := true },
    { name := "note", dataType := "TEXT" }, { name := "added", dataType := "TEXT" }]

/-- The plan that widens the table. -/
def wideningPlan : Plan where
  schema := "s"
  table := "t"
  updateNulls := [.updateNulls "s" "t"
    { name := "size", dataType := "BIGINT", defaultValue := "0", notNull := true }]
  columnClauses := [
    .alterColumnType
      { name := "size", dataType := "BIGINT", defaultValue := "0", notNull := true },
    .alterColumnNullable
      { name := "size", dataType := "BIGINT", defaultValue := "0", notNull := true },
    .alterColumnDefault
      { name := "size", dataType := "BIGINT", defaultValue := "0", notNull := true },
    .alterColumnNullable { name := "note", dataType := "TEXT" },
    .addColumn { name := "added", dataType := "TEXT" }]

theorem alter_columns_converge_widened :
    alter "s" recordedTable widenedTable [⟨"note", "text", "NO", none, none, none⟩] []
        = .ok wideningPlan
      ∧ ∀ c ∈ widenedTable.columns, ∃ o,
        (wideningPlan.columnClauses.foldl Patch.onColumns (baseline recordedTable widenedTable
          [⟨"note", "text", "NO", none, none, none⟩])).filter
            (fun o => sameFold o.name c.name) = [o] ∧ o.sameAs c = true := by
  have hplan : alter "s" recordedTable widenedTable
      [⟨"note", "text", "NO", none, none, none⟩] [] = .ok wideningPlan := by
    decide +kernel
  have hconverge := alter_columns_converge rfl rfl (by decide +kernel) (by decide +kernel) hplan
  exact ⟨hplan, hconverge.1⟩

end Convergence

end Plan

end SchemaEvolution
