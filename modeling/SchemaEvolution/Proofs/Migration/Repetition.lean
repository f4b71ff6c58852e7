import SchemaEvolution.Proofs.Migration.Atomicity
import SchemaEvolution.Proofs.Plan.IndexConvergence
import SchemaEvolution.Proofs.Relation.Desired

set_option autoImplicit false

/-! # Running a migration again

A run of the backend in memory that succeeds leaves every table of the store settled: its snapshot
equals the shape that the model asks for, and the indexes that mirror the snapshot are its indexes
(`Migrator.Settled`). A table is settled either because it was so before or because its desired
shape was saved, and no later table touches it. A run on settled tables executes nothing and changes
nothing (`Migrator.run_repeated`). Snapshots are saved through a codec, of which no more is used
than its laws.
-/

namespace SchemaEvolution

open Memory

namespace Memory

variable {s : Memory}

theorem Faultless.withCalls (hs : s.Faultless) (calls : List String) :
    (s.withCalls calls).Faultless := hs

theorem Faultless.noted (hs : s.Faultless) (parts : List String) : (s.noted parts).Faultless := hs

/-- The live indexes that mirror a snapshot. -/
def mirror (schema table : String) (r : Relation) : List LiveIndex :=
  if r.isView && !r.isMaterialized then [] else r.indexes.map (indexOf schema table)

/-- Without indexes of its own a table has those that mirror its committed snapshot. -/
theorem indexesOf_eq_mirror {schema table : String} {r : Relation}
    (hr : s.committed.snapshots.lookup table = some r)
    (hextra : (s.extraIndexes.lookup table).getD [] = []) :
    s.indexesOf schema table = mirror schema table r := by
  rw [indexesOf, hr, hextra, List.append_nil]
  rfl

/-- The live indexes that mirror a desired shape match it. -/
theorem indexesMatch_mirror {schema : String} {model : Descriptor} {r : Relation}
    (hasks : model.Asks r) (hnodup : r.physicalNames.Nodup) :
    r.indexesMatch (mirror schema model.table r) = true := by
  have hmirror : mirror schema model.table r = r.indexes.map (indexOf schema r.table) := by
    have hnames := hasks.indexNames
    rw [mirror, hasks.table]
    split at hnames
    · next hplain => rw [if_pos hplain, hnames, List.map_nil]
    · next hplain => rw [if_neg hplain]
  rw [hmirror]
  refine Relation.indexesMatch_of hnodup (List.length_map _).symm ?_
  intro e he
  obtain ⟨i, hi, rfl⟩ := List.mem_map.mp he
  exact ⟨i, hi, Plan.isIndex_indexOf schema r.table i⟩

end Memory

namespace Migrator

section Steps

variable [Json.Codec] {m : Migrator Memory} (hreal : m.dryRun = false)
  {s t : Memory} (hs : s.Faultless)

include hs in
theorem execute_all_run (phase : Phase) (table : String) (statements : List String) :
    ∃ units calls, (Work.forEach (fun sql => (backend.execute sql).inPhase phase table)
      statements).run s = (.ok units, s.withCalls calls) := by
  induction statements generalizing s with
  | nil => exact ⟨[], s.calls, rfl⟩
  | cons sql rest ih =>
      obtain ⟨units, calls, hrest⟩ := ih (hs.noted ["execute", sql])
      refine ⟨() :: units, calls, ?_⟩
      rw [Work.forEach, Work.bind_inPhase_run_ok (execute_run hs sql),
        Work.bind_run_ok hrest]
      rfl

include hreal hs in
theorem apply_run (phase : Phase) (p : Plan) :
    ∃ calls, (m.apply backend phase p).run s = (.ok p.statements, s.withCalls calls) := by
  obtain ⟨units, calls, hall⟩ := execute_all_run hs phase p.table p.statements
  refine ⟨calls, ?_⟩
  have hunit : (do
      let _ ← Work.forEach (fun sql => (backend.execute sql).inPhase phase p.table) p.statements
      : Work Memory Unit).run s = (.ok (), s.withCalls calls) := by
    rw [Work.bind_run_ok hall]
    rfl
  rw [apply, really_eq hreal, Work.bind_run_ok hunit]
  rfl

include hreal hs in
theorem save_run [Json.LawfulCodec] {desired : Relation} (hnormal : desired.normalized = desired) :
    ∃ calls, (m.save backend desired).run s = (.ok (), (s.withCalls calls).record desired) := by
  rw [save, really_eq hreal]
  exact ⟨_, Work.inPhase_eq_ok.mpr (saveSnapshot_run hs m.schema hnormal)⟩

include hs in
theorem isNew_run (m : Migrator Memory) (last desired : Relation) :
    ∃ isNew calls, (m.isNew backend last desired).run s = (.ok isNew, s.withCalls calls) := by
  unfold isNew
  split
  · exact ⟨false, s.calls, rfl⟩
  · split
    · exact ⟨true, s.calls, rfl⟩
    · rw [Work.bind_inPhase_run_ok (liveColumns_run hs m.schema desired.table)]
      exact ⟨_, _, rfl⟩

/-- A table with a snapshot is not new. -/
theorem isNew_of_recorded (m : Migrator Memory) {last : Relation} (hlast : last.isEmpty = false)
    (desired : Relation) :
    m.isNew backend last desired = pure false := by
  rw [isNew, hlast]
  rfl

/-! ## What a table is left with -/

include hreal hs in
/-- Creating a table saves its shape. -/
theorem create_run [Json.LawfulCodec] (hhooks : m.hooks = .none) (c : HookContext)
    (hnormal : c.desired.normalized = c.desired) :
    ∃ report calls,
      (m.create backend c).run s = (.ok report, (s.withCalls calls).record c.desired) := by
  obtain ⟨calls, happly⟩ := apply_run hreal hs .create (Plan.create m.schema c.desired)
  obtain ⟨calls', hsave⟩ := save_run hreal (hs.withCalls calls) hnormal
  rw [create, Work.bind_run_ok happly, Work.bind_run_ok hsave, really_eq hreal, hhooks]
  exact ⟨_, calls', rfl⟩

include hs in
theorem columnsOf_run (m : Migrator Memory) (desired : Relation) :
    ∃ columns calls, (m.columnsOf backend desired).run s = (.ok columns, s.withCalls calls) := by
  unfold columnsOf
  split
  · exact ⟨[], s.calls, rfl⟩
  · exact ⟨_, _, Work.inPhase_eq_ok.mpr (liveColumns_run hs m.schema desired.table)⟩

include hreal hs in
/-- Changing a table, when it succeeds, saves the desired shape. -/
theorem alter_saves [Json.LawfulCodec] {last desired : Relation} {live : List LiveIndex}
    {statements : List String} (hnormal : desired.normalized = desired)
    (h : (m.alter backend last desired live).run s = (.ok statements, t)) :
    ∃ calls, t = (s.withCalls calls).record desired := by
  obtain ⟨columns, calls, hcolumns⟩ := columnsOf_run hs m desired
  rw [alter_eq, Work.bind_run_ok hcolumns] at h
  obtain ⟨p, u, hplan, h⟩ := Work.bind_eq_ok.mp h
  obtain ⟨-, rfl⟩ := Work.ofExcept_eq_ok.mp (Work.inPhase_eq_ok.mp hplan)
  obtain ⟨calls', happly⟩ := apply_run hreal (hs.withCalls calls) .alter p
  obtain ⟨calls'', hsave⟩ := save_run hreal ((hs.withCalls calls).withCalls calls') hnormal
  rw [Work.bind_run_ok happly, Work.bind_run_ok hsave] at h
  obtain ⟨-, rfl⟩ := Work.pure_eq_ok.mp h
  exact ⟨calls'', rfl⟩

include hreal hs in
theorem alterIfNeeded_saves [Json.LawfulCodec] (hhooks : m.hooks = .none) {c : HookContext}
    {live : List LiveIndex} {report : TableReport} (hnormal : c.desired.normalized = c.desired)
    (h : (m.alterIfNeeded backend c live).run s = (.ok report, t)) :
    (isUpToDate c.last c.desired live = true ∧ t = s)
      ∨ ∃ calls, t = (s.withCalls calls).record c.desired := by
  unfold alterIfNeeded at h
  split at h
  · next hup =>
    obtain ⟨-, rfl⟩ := Work.pure_eq_ok.mp h
    exact .inl ⟨hup, rfl⟩
  · obtain ⟨r, u, halter, h⟩ := Work.bind_eq_ok.mp h
    rw [Work.attempt_eq_ok] at halter
    cases r with
    | ok statements =>
        obtain ⟨-, rfl⟩ := Work.pure_eq_ok.mp h
        exact .inr (alter_saves hreal hs hnormal halter)
    | error e =>
        -- without a hook the error stops the run
        rw [hreal, hhooks] at h
        cases h

/-- The state in which a table has been looked up. -/
def lookedUp (m : Migrator Memory) (s : Memory) (model : Descriptor) : Memory :=
  (s.noted ["live_indexes", m.schema, model.table]).noted ["load_snapshot", m.schema, model.table]

include hs in
/-- Migrating a model looks its table up and goes on with what it found. -/
theorem migrateModel_run (m : Migrator Memory) (model : Descriptor) :
    (m.migrateModel backend model).run s = (do
      let desired ← (Work.ofExcept (m.store.desired model)).inPhase
        (if (s.loaded model.table).isEmpty then .create else .alter) model.table
      let c : HookContext := ⟨m.schema, model, s.loaded model.table, desired⟩
      if ← m.isNew backend (s.loaded model.table) desired then m.create backend c
      else
        let report ← m.alterIfNeeded backend c (s.indexesOf m.schema model.table)
        m.really ((m.hooks.afterMigrate c).inPhase .hook desired.table)
        return report : Work Memory TableReport).run (m.lookedUp s model) := by
  unfold migrateModel
  rw [Work.bind_inPhase_run_ok (liveIndexes_run hs m.schema model.table)]
  replace hs := hs.noted ["live_indexes", m.schema, model.table]
  rw [Work.bind_inPhase_run_ok (loadSnapshot_run hs m.schema model.table), loaded_noted]
  rfl

include hreal hs in
/-- Migrating a model, when it succeeds, finds its table up to date or saves the desired shape. -/
theorem migrateModel_ok [Json.LawfulCodec] (hhooks : m.hooks = .none) {model : Descriptor}
    {report : TableReport} (h : (m.migrateModel backend model).run s = (.ok report, t)) :
    ∃ desired, m.store.desired model = .ok desired
      ∧ ((isUpToDate (s.loaded model.table) desired (s.indexesOf m.schema model.table) = true
          ∧ ∃ calls, t = s.withCalls calls)
        ∨ ∃ calls, t = (s.withCalls calls).record desired) := by
  rw [migrateModel_run hs] at h
  cases hdesired : m.store.desired model with
  | error e =>
      rw [hdesired] at h
      cases h
  | ok desired =>
      refine ⟨desired, rfl, ?_⟩
      have hnormal := (Store.asks_of_desired hdesired).normal
      have hlooked : (m.lookedUp s model).Faultless := hs
      obtain ⟨isNew, calls, hisNew⟩ := isNew_run hlooked m (s.loaded model.table) desired
      rw [Work.bind_inPhase_run_ok (Work.ofExcept_eq_ok.mpr ⟨hdesired, rfl⟩)] at h
      dsimp only at h
      rw [Work.bind_run_ok hisNew] at h
      -- a new table is created, any other one changed unless it is up to date
      split at h
      · obtain ⟨report', calls', hcreate⟩ := create_run hreal (hlooked.withCalls calls) hhooks
          ⟨m.schema, model, s.loaded model.table, desired⟩ hnormal
        rw [hcreate] at h
        cases h
        exact .inr ⟨calls', rfl⟩
      · obtain ⟨report', u, hneeded, h⟩ := Work.bind_eq_ok.mp h
        rw [really_eq hreal, hhooks] at h
        obtain ⟨-, rfl⟩ := Work.pure_eq_ok.mp h
        rcases alterIfNeeded_saves hreal (hlooked.withCalls calls) hhooks hnormal hneeded with
          ⟨hup, rfl⟩ | ⟨calls', rfl⟩
        · exact .inl ⟨hup, calls, rfl⟩
        · exact .inr ⟨calls', rfl⟩

include hs in
/-- Migrating a model whose table is recorded and up to date calls for the lookups only. -/
theorem migrateModel_unchanged (hhooks : m.hooks = .none) (hreal : m.dryRun = false)
    {model : Descriptor} {desired : Relation} (hdesired : m.store.desired model = .ok desired)
    (hrecorded : (s.loaded model.table).isEmpty = false)
    (hup : isUpToDate (s.loaded model.table) desired (s.indexesOf m.schema model.table) = true) :
    (m.migrateModel backend model).run s
      = (.ok ⟨desired.table, .unchanged, []⟩, m.lookedUp s model) := by
  rw [migrateModel_run hs, Work.bind_inPhase_run_ok (Work.ofExcept_eq_ok.mpr ⟨hdesired, rfl⟩),
    isNew_of_recorded m hrecorded]
  dsimp only
  rw [Work.bind_run_ok (Work.pure_run false _), if_neg Bool.false_ne_true, alterIfNeeded]
  dsimp only
  rw [if_pos hup, Work.bind_run_ok (Work.pure_run _ _), really_eq hreal, hhooks]
  rfl

end Steps

/-! ## Settled tables -/

/-- The staged snapshot of the model's table equals the desired shape, whose indexes are those that
mirror the snapshot. -/
def Settled (m : Migrator Memory) (s : Memory) (model : Descriptor) : Prop :=
  ∃ desired r, m.store.desired model = .ok desired
    ∧ s.staged.snapshots.lookup model.table = some r
    ∧ isUpToDate r.normalized desired (mirror m.schema model.table r) = true

/-- The models of a store have what a settled table needs: stored columns of distinct names, and
declared indexes of distinct names in the database. -/
structure WellNamed (model : Descriptor) : Prop where
  columns : DistinctNames (model.storedFields.map Field.column)
  indexes : (model.declaredIndexes.map fun i => physicalIndexName model.table i.name).Nodup

section Tables

variable {m : Migrator Memory} {s t : Memory} {model : Descriptor}

/-- A table whose desired shape has been saved is settled. -/
theorem settled_of_record (hnames : WellNamed model) {desired : Relation}
    (hdesired : m.store.desired model = .ok desired) (calls : List String) :
    m.Settled ((s.withCalls calls).record desired) model := by
  have hasks := Store.asks_of_desired hdesired
  refine ⟨desired, desired, hdesired, ?_, ?_⟩
  · show (put desired.table desired s.staged.snapshots).lookup model.table = some desired
    rw [lookup_put, hasks.table, if_pos rfl]
  · rw [hasks.normal, isUpToDate,
      Relation.sameAs_self (hasks.distinctColumns hnames.columns) hasks.distinctIndexes,
      indexesMatch_mirror hasks (hasks.nodup_physicalNames hnames.indexes)]
    rfl

/-- A shape with columns is not up to date with one without. -/
theorem columns_ne_nil_of_isUpToDate {last desired : Relation} {live : List LiveIndex}
    (h : isUpToDate last desired live = true) (hdesired : desired.columns ≠ []) :
    last.columns ≠ [] := by
  intro hnil
  simp only [isUpToDate, Relation.sameAs, Bool.and_eq_true, beq_iff_eq, hnil, List.length_nil] at h
  exact hdesired (List.length_eq_zero_iff.mp h.1.1.1.1.1.1.1.1.symm)

/-- A table that is found up to date in a fresh unit of work is settled. -/
theorem settled_of_isUpToDate {desired : Relation} (hdesired : m.store.desired model = .ok desired)
    (hfresh : s.staged.snapshots.lookup model.table = s.committed.snapshots.lookup model.table)
    (hextra : (s.extraIndexes.lookup model.table).getD [] = [])
    (hup : isUpToDate (s.loaded model.table) desired (s.indexesOf m.schema model.table) = true)
    (calls : List String) : m.Settled (s.withCalls calls) model := by
  have hcolumns := columns_ne_nil_of_isUpToDate hup (Store.asks_of_desired hdesired).columns_ne_nil
  cases hr : s.staged.snapshots.lookup model.table with
  | none =>
      -- a table without a snapshot is loaded without columns
      rw [loaded, hr] at hcolumns
      exact absurd rfl hcolumns
  | some r =>
      refine ⟨desired, r, hdesired, hr, ?_⟩
      rw [loaded, hr, indexesOf_eq_mirror (hfresh.symm.trans hr) hextra] at hup
      exact hup

end Tables

/-! ## The first run -/

/-- What migrating some tables keeps: everything but calls and the staged snapshots of the
tables. -/
structure Keeps (tables : List String) (s t : Memory) : Prop where
  fault : t.fault = s.fault
  committed : t.committed = s.committed
  extraIndexes : t.extraIndexes = s.extraIndexes
  schemas : t.staged.schemas = s.staged.schemas
  snapshots : ∀ table, table ∉ tables →
    t.staged.snapshots.lookup table = s.staged.snapshots.lookup table

theorem keeps_withCalls (tables : List String) (s : Memory) (calls : List String) :
    Keeps tables s (s.withCalls calls) :=
  ⟨rfl, rfl, rfl, rfl, fun _ _ => rfl⟩

theorem keeps_record (s : Memory) (calls : List String) (r : Relation) :
    Keeps [r.table] s ((s.withCalls calls).record r) := by
  refine ⟨rfl, rfl, rfl, rfl, fun table htable => ?_⟩
  show (put r.table r s.staged.snapshots).lookup table = _
  rw [lookup_put, if_neg (fun heq => htable (List.mem_singleton.mpr heq))]

theorem Keeps.trans {tables tables' : List String} {s t u : Memory} (hst : Keeps tables s t)
    (htu : Keeps tables' t u) : Keeps (tables ++ tables') s u where
  fault := htu.fault.trans hst.fault
  committed := htu.committed.trans hst.committed
  extraIndexes := htu.extraIndexes.trans hst.extraIndexes
  schemas := htu.schemas.trans hst.schemas
  snapshots table htable := by
    rw [List.mem_append, not_or] at htable
    rw [htu.snapshots table htable.2, hst.snapshots table htable.1]

theorem Settled.of_keeps {m : Migrator Memory} {tables : List String} {s t : Memory}
    {model : Descriptor} (h : m.Settled s model) (hkeeps : Keeps tables s t)
    (hnot : model.table ∉ tables) : m.Settled t model := by
  obtain ⟨desired, r, hdesired, hr, hup⟩ := h
  exact ⟨desired, r, hdesired, (hkeeps.snapshots _ hnot).trans hr, hup⟩

/-- A table in a fresh unit of work, without indexes that belong to no snapshot. -/
structure Clean (s : Memory) (model : Descriptor) : Prop where
  fresh : s.staged.snapshots.lookup model.table = s.committed.snapshots.lookup model.table
  own : (s.extraIndexes.lookup model.table).getD [] = []

theorem Clean.withCalls {s : Memory} {model : Descriptor} (h : Clean s model)
    (calls : List String) : Clean (s.withCalls calls) model :=
  ⟨h.fresh, h.own⟩

theorem Clean.of_keeps {tables : List String} {s t : Memory} {model : Descriptor}
    (h : Clean s model) (hkeeps : Keeps tables s t) (hnot : model.table ∉ tables) :
    Clean t model where
  fresh := by rw [hkeeps.snapshots _ hnot, hkeeps.committed, h.fresh]
  own := by rw [hkeeps.extraIndexes, h.own]

section FirstRun

variable [Json.Codec] [Json.LawfulCodec]
  {m : Migrator Memory} (hhooks : m.hooks = .none) (hreal : m.dryRun = false)

include hhooks hreal

theorem migrateModel_settles {s t : Memory} (hs : s.Faultless) {model : Descriptor}
    (hnames : WellNamed model) (hclean : Clean s model) {report : TableReport}
    (h : (m.migrateModel backend model).run s = (.ok report, t)) :
    m.Settled t model ∧ Keeps [model.table] s t := by
  obtain ⟨desired, hdesired, hcases⟩ := migrateModel_ok hreal hs hhooks h
  rcases hcases with ⟨hup, calls, rfl⟩ | ⟨calls, rfl⟩
  · exact ⟨settled_of_isUpToDate hdesired hclean.fresh hclean.own hup calls,
      keeps_withCalls _ s calls⟩
  · refine ⟨settled_of_record hnames hdesired calls, ?_⟩
    rw [← (Store.asks_of_desired hdesired).table]
    exact keeps_record s calls desired

/-- Table after table, a run that succeeds settles every table, and touches no other. -/
theorem forEach_settles {models : List Descriptor} (htables : (models.map (·.table)).Nodup)
    {s t : Memory} (hs : s.Faultless) (hnames : ∀ model ∈ models, WellNamed model)
    (hclean : ∀ model ∈ models, Clean s model) {reports : List TableReport}
    (h : (Work.forEach (m.migrateModel backend) models).run s = (.ok reports, t)) :
    (∀ model ∈ models, m.Settled t model) ∧ Keeps (models.map (·.table)) s t := by
  induction models generalizing s reports with
  | nil =>
      obtain ⟨-, rfl⟩ := Work.pure_eq_ok.mp h
      exact ⟨by simp, keeps_withCalls [] s s.calls⟩
  | cons model rest ih =>
      obtain ⟨hnot, hrest⟩ := List.nodup_cons.mp htables
      obtain ⟨report, u, hmodel, h⟩ := Work.bind_eq_ok.mp h
      obtain ⟨reports, v, hothers, h⟩ := Work.bind_eq_ok.mp h
      obtain ⟨-, rfl⟩ := Work.pure_eq_ok.mp h
      obtain ⟨hsettled, hkeeps⟩ := migrateModel_settles hhooks hreal hs
        (hnames model List.mem_cons_self) (hclean model List.mem_cons_self) hmodel
      -- the tables are distinct: the first model leaves the others as clean as it found them, and
      -- they leave it settled
      have hu : u.Faultless := fun calls => by rw [hkeeps.fault, hs]
      have hother : ∀ other ∈ rest, other.table ∉ [model.table] := by
        intro other hother heq
        exact hnot (List.mem_map.mpr ⟨other, hother, List.mem_singleton.mp heq⟩)
      obtain ⟨hsettles, hkeeps'⟩ := ih hrest hu
        (fun other h => hnames other (List.mem_cons_of_mem model h))
        (fun other h => (hclean other (List.mem_cons_of_mem model h)).of_keeps hkeeps
          (hother other h)) hothers
      refine ⟨?_, hkeeps.trans hkeeps'⟩
      intro other hmem
      rcases List.mem_cons.mp hmem with rfl | hmem
      · exact hsettled.of_keeps hkeeps' hnot
      · exact hsettles other hmem

/-- A run that succeeds commits settled tables. -/
theorem run_settles (htables : (m.store.models.map (·.table)).Nodup) {s t : Memory}
    (hs : s.Faultless) (hnames : ∀ model ∈ m.store.models, WellNamed model)
    (hclean : ∀ model ∈ m.store.models, Clean s model) {report : Report}
    (h : (m.run backend).run s = (.ok report, t)) :
    t.Faultless ∧ t.committed = t.staged ∧ t.staged.schemas.contains m.schema = true
      ∧ ∀ model ∈ m.store.models, m.Settled t model ∧ Clean t model := by
  unfold run at h
  obtain ⟨report', u, hall, h⟩ := Work.bind_eq_ok.mp h
  rw [Work.orCleanUp_eq_ok] at hall
  unfold migrateAll at hall
  rw [Work.bind_inPhase_run_ok (ensureSchema_run hs m.schema)] at hall
  obtain ⟨reports, v, hmodels, hall⟩ := Work.bind_eq_ok.mp hall
  obtain ⟨-, rfl⟩ := Work.pure_eq_ok.mp hall
  have hensured : (s.ensured m.schema).Faultless := hs
  obtain ⟨hsettled, hkeeps⟩ := forEach_settles hhooks hreal htables hensured hnames
    (fun model hmodel => ⟨(hclean model hmodel).fresh, (hclean model hmodel).own⟩) hmodels
  have hv : v.Faultless := fun calls => by rw [hkeeps.fault, hensured]
  rw [hreal, if_neg Bool.false_ne_true, Work.bind_run_ok (commit_run hv), hhooks] at h
  obtain ⟨-, rfl⟩ : report' = report ∧ v.published = t := by
    cases h
    exact ⟨rfl, rfl⟩
  refine ⟨hv, rfl, ?_, fun model hmodel => ⟨hsettled model hmodel, rfl, ?_⟩⟩
  · show v.staged.schemas.contains m.schema = true
    rw [hkeeps.schemas]
    exact contains_insertName m.schema s.staged.schemas
  · show (v.extraIndexes.lookup model.table).getD [] = []
    rw [hkeeps.extraIndexes]
    exact (hclean model hmodel).own

end FirstRun

/-! ## The second run -/

/-- A note that a statement was executed. -/
def NotesExecution (call : String) : Prop := ∃ sql, call = " ".intercalate ["execute", sql]

/-- Two characters of its name tell an operation from the others. -/
theorem take_two_call (name : String) (args : List String) (hname : 2 ≤ name.toList.length) :
    (" ".intercalate (name :: args)).toList.take 2 = name.toList.take 2 := by
  have hprefix : ∃ rest, " ".intercalate (name :: args) = name ++ rest := by
    cases args with
    | nil => exact ⟨"", by rw [String.intercalate_singleton, String.append_empty]⟩
    | cons arg args => exact ⟨_, by rw [String.intercalate_cons_cons, String.append_assoc]⟩
  obtain ⟨rest, hrest⟩ := hprefix
  rw [hrest, String.toList_append, List.take_append_of_le_length hname]

theorem not_notesExecution (name : String) (args : List String)
    (hname : 2 ≤ name.toList.length ∧ name.toList.take 2 ≠ ['e', 'x']) :
    ¬ NotesExecution (" ".intercalate (name :: args)) := by
  rintro ⟨sql, heq⟩
  have htake := take_two_call name args hname.1
  rw [heq, take_two_call "execute" [sql] (by decide)] at htake
  exact hname.2 htake.symm

section SecondRun

variable [Json.Codec] {m : Migrator Memory} (hhooks : m.hooks = .none) (hreal : m.dryRun = false)

include hhooks hreal

theorem migrateModel_of_settled {s : Memory} (hs : s.Faultless) {model : Descriptor}
    (hsettled : m.Settled s model) (hclean : Clean s model) :
    (m.migrateModel backend model).run s
      = (.ok ⟨model.table, .unchanged, []⟩, m.lookedUp s model) := by
  obtain ⟨desired, r, hdesired, hr, hup⟩ := hsettled
  have hasks := Store.asks_of_desired hdesired
  have hloaded : s.loaded model.table = r.normalized := by
    rw [loaded, hr]
    rfl
  rw [← hloaded, ← indexesOf_eq_mirror (hclean.fresh.symm.trans hr) hclean.own] at hup
  have hrecorded : (s.loaded model.table).isEmpty = false := by
    have hcolumns := columns_ne_nil_of_isUpToDate hup hasks.columns_ne_nil
    rw [Relation.isEmpty, Bool.eq_false_iff.mpr fun h => hcolumns (List.isEmpty_iff.mp h)]
    rfl
  rw [migrateModel_unchanged hs hhooks hreal hdesired hrecorded hup, hasks.table]

/-- Over settled tables, every table is reported as unchanged and nothing is executed. -/
theorem forEach_of_settled {models : List Descriptor} {s : Memory} (hs : s.Faultless)
    (hsettled : ∀ model ∈ models, m.Settled s model ∧ Clean s model) :
    ∃ calls, (Work.forEach (m.migrateModel backend) models).run s
        = (.ok (models.map fun model => ⟨model.table, .unchanged, []⟩),
          s.withCalls (calls ++ s.calls))
      ∧ ∀ call ∈ calls, ¬ NotesExecution call := by
  induction models generalizing s with
  | nil => exact ⟨[], rfl, by simp⟩
  | cons model rest ih =>
      obtain ⟨hmodel, hclean⟩ := hsettled model List.mem_cons_self
      -- a lookup notes calls only, so the other tables are still settled
      have hlooked : (m.lookedUp s model).Faultless := hs
      obtain ⟨calls, hrest, hnone⟩ := ih hlooked fun other hother =>
        have hother := hsettled other (List.mem_cons_of_mem model hother)
        ⟨hother.1, hother.2.withCalls (m.lookedUp s model).calls⟩
      refine ⟨calls ++ [" ".intercalate ["load_snapshot", m.schema, model.table],
        " ".intercalate ["live_indexes", m.schema, model.table]], ?_, ?_⟩
      · rw [Work.forEach,
          Work.bind_run_ok (migrateModel_of_settled hhooks hreal hs hmodel hclean),
          Work.bind_run_ok hrest, List.append_assoc]
        rfl
      · intro call hcall
        rw [List.mem_append, List.mem_pair] at hcall
        rcases hcall with hcall | rfl | rfl
        · exact hnone call hcall
        · exact not_notesExecution "load_snapshot" _ (by decide)
        · exact not_notesExecution "live_indexes" _ (by decide)

/-- A run over settled and committed tables executes nothing and changes nothing. -/
theorem run_of_settled {s : Memory} (hs : s.Faultless) (hcommitted : s.committed = s.staged)
    (hschema : s.staged.schemas.contains m.schema = true)
    (hsettled : ∀ model ∈ m.store.models, m.Settled s model ∧ Clean s model) :
    ∃ calls, (m.run backend).run s
        = (.ok ⟨m.schema, false, m.store.models.map fun model => ⟨model.table, .unchanged, []⟩⟩,
          s.withCalls (calls ++ s.calls))
      ∧ ∀ call ∈ calls, ¬ NotesExecution call := by
  have hnoted : (s.noted ["ensure_schema", m.schema]).Faultless := hs
  obtain ⟨calls, hmodels, hnone⟩ := forEach_of_settled hhooks hreal hnoted
    fun model hmodel => ⟨(hsettled model hmodel).1, (hsettled model hmodel).2.withCalls _⟩
  have hall : ((m.migrateAll backend).orCleanUp backend.rollback).run s
      = (.ok ⟨m.schema, false, m.store.models.map fun model => ⟨model.table, .unchanged, []⟩⟩,
        s.withCalls (calls ++ [" ".intercalate ["ensure_schema", m.schema]] ++ s.calls)) := by
    rw [Work.orCleanUp_eq_ok, migrateAll,
      Work.bind_inPhase_run_ok (ensureSchema_run hs m.schema),
      ensured_of_contains hschema, Work.bind_run_ok hmodels, hreal, List.append_assoc]
    rfl
  refine ⟨" ".intercalate ["commit"]
    :: (calls ++ [" ".intercalate ["ensure_schema", m.schema]]), ?_, ?_⟩
  · -- what is committed is what was committed before
    have hcalls := hs.withCalls
      (calls ++ [" ".intercalate ["ensure_schema", m.schema]] ++ s.calls)
    rw [run, Work.bind_run_ok hall, hreal, if_neg Bool.false_ne_true,
      Work.bind_run_ok (commit_run hcalls), hhooks, published_withCalls hcommitted]
    rfl
  · intro call hcall
    rw [List.mem_cons, List.mem_append, List.mem_singleton] at hcall
    rcases hcall with rfl | hcall | rfl
    · exact not_notesExecution "commit" [] (by decide)
    · exact hnone call hcall
    · exact not_notesExecution "ensure_schema" _ (by decide)

end SecondRun

/-- Runs are idempotent: when a run without hooks succeeds on a database in memory, a second run of
the same store succeeds, executes no statement, reports every table as unchanged, and leaves the
committed snapshots as they were. -/
theorem run_repeated [Json.Codec] [Json.LawfulCodec] {m : Migrator Memory}
    (hhooks : m.hooks = .none) (hreal : m.dryRun = false)
    (htables : (m.store.models.map (·.table)).Nodup)
    (hcolumns : ∀ model ∈ m.store.models, DistinctNames (model.storedFields.map Field.column))
    (hindexes : ∀ model ∈ m.store.models,
      (model.declaredIndexes.map fun i => physicalIndexName model.table i.name).Nodup)
    {s t : Memory} (hfault : ∀ calls, s.fault calls = none)
    (hfresh : ∀ model ∈ m.store.models,
      s.staged.snapshots.lookup model.table = s.committed.snapshots.lookup model.table)
    (hforeign : ∀ model ∈ m.store.models, (s.extraIndexes.lookup model.table).getD [] = [])
    {report : Report} (h : (m.run backend).run s = (.ok report, t)) :
    ∃ report' u, (m.run backend).run t = (.ok report', u)
      ∧ report'.tables = m.store.models.map (fun model => ⟨model.table, .unchanged, []⟩)
      ∧ u.committed = t.committed
      ∧ ∃ calls, u.calls = calls ++ t.calls ∧ ∀ call ∈ calls, ¬ NotesExecution call := by
  obtain ⟨ht, hcommitted, hschema, hsettled⟩ := run_settles hhooks hreal htables hfault
    (fun model hmodel => ⟨hcolumns model hmodel, hindexes model hmodel⟩)
    (fun model hmodel => ⟨hfresh model hmodel, hforeign model hmodel⟩) h
  obtain ⟨calls, hrun, hnone⟩ := run_of_settled hhooks hreal ht hcommitted hschema hsettled
  exact ⟨_, _, hrun, rfl, rfl, calls, rfl, hnone⟩

/-- A model of notes with an indexed title. -/
def noteModel : Descriptor where
  typeName := "Note"
  table := "note"
  fields := [FieldDecl.describe
    { name := "Title", element := { tag := "String", kind := .string }, indexes := ["_title"] }]
  viewQuery := none
  isMaterialized := false

/-- The migration of the notes. -/
def noteMigrator : Migrator Memory where
  store := Store.add { namespaceName := "s" } 0 noteModel

/-- Notes as they were: the title is nullable text without an index. -/
def oldNotes : Content where
  snapshots := [("note", { table := "note", columns := [{ name := "title", dataType := "TEXT" }] })]

/-- The report of the first migration of the notes. -/
def noteReport : Report where
  namespaceName := "s"
  dryRun := false
  tables := [⟨"note", .altered, ["UPDATE s.note SET title = '' WHERE title IS NULL",
    "ALTER TABLE s.note ALTER COLUMN title TYPE VARCHAR(19), ALTER COLUMN title SET NOT NULL, "
      ++ "ALTER COLUMN title SET DEFAULT ''", "CREATE INDEX note_title ON s.note(title)"]⟩]

theorem run_repeated_notes :
    ((noteMigrator.run backend).run { committed := oldNotes, staged := oldNotes }).1
        = .ok noteReport
      ∧ ∃ report' u, (noteMigrator.run backend).run
            ((noteMigrator.run backend).run { committed := oldNotes, staged := oldNotes }).2
          = (.ok report', u)
        ∧ report'.tables = [⟨"note", .unchanged, []⟩] := by
  have hfirst : ((noteMigrator.run backend).run
      { committed := oldNotes, staged := oldNotes }).1 = .ok noteReport := by
    decide +kernel
  obtain ⟨report', u, hsecond, htables, -⟩ := run_repeated rfl rfl (by decide +kernel)
    (by decide +kernel) (by decide +kernel) (fun _ => rfl) (fun _ _ => rfl) (fun _ _ => rfl)
    (Work.run_eq_ok hfirst)
  exact ⟨hfirst, report', u, hsecond, htables⟩

end Migrator

end SchemaEvolution
