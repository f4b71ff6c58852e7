import SchemaEvolution.Migration.Run
import SchemaEvolution.Proofs.Migration.Transactional

set_option autoImplicit false

/-! # A run is atomic

A run processes the models of a store one after the other. Either all of them are processed
(`Migrator.Completes`), or the run stops at the first that fails (`Migrator.FailsWith`). In a
transactional backend the first ends with one commit, the second with one rollback that leaves
nothing of the run behind (`Migrator.run_atomic`).

What a run does before it ends is put together from operations of the backend (`migrateAll_within`),
so where it fails, and at which operation, makes no difference.
-/

namespace SchemaEvolution

variable {σ : Type}

/-- Hooks that leave it to the migration to end the unit of work, and keep nothing of their own. -/
structure Hooks.Within (h : Hooks σ) (b : Backend σ) : Prop where
  afterCreate : ∀ c, b.Within (h.afterCreate c)
  afterAlterError : ∀ c e, b.Within (h.afterAlterError c e)
  afterMigrate : ∀ c, b.Within (h.afterMigrate c)
  /-- After the commit a hook is given the report only. -/
  afterCommit : ∀ report, ∃ outcome, ∀ s, (h.afterCommit report).run s = (outcome, s)

namespace Migrator

variable (m : Migrator σ) (b : Backend σ)

/-! ## Processing models -/

/-- A table has been looked up for a model, with this outcome. -/
structure LookedUp (model : Descriptor) (s : σ) (c : HookContext) (live : List LiveIndex)
    (isNew : Bool) (t : σ) : Prop where
  inSchema : c.schema = m.schema
  ofModel : c.model = model
  desired : m.store.desired model = .ok c.desired
  found : ∃ u v, (b.liveIndexes m.schema model.table).run s = (.ok live, u)
    ∧ (b.loadSnapshot m.schema model.table).run u = (.ok c.last, v)
    ∧ (m.isNew b c.last c.desired).run v = (.ok isNew, t)

/-- A model has been processed without an error, or with one that a hook suppressed. -/
inductive Processed (model : Descriptor) (s : σ) : TableReport → σ → Prop where
  | created {c : HookContext} {live : List LiveIndex} {u t : σ} {report : TableReport}
    (hlooked : m.LookedUp b model s c live true u)
    (hcreate : (m.create b c).run u = (.ok report, t)) : Processed model s report t
  | unchanged {c : HookContext} {live : List LiveIndex} {u t : σ}
    (hlooked : m.LookedUp b model s c live false u)
    (hup : isUpToDate c.last c.desired live = true)
    (hhook : (m.really (m.hooks.afterMigrate c)).run u = (.ok (), t)) :
    Processed model s ⟨c.desired.table, .unchanged, []⟩ t
  | altered {c : HookContext} {live : List LiveIndex} {u v t : σ} {statements : List String}
    (hlooked : m.LookedUp b model s c live false u)
    (hup : isUpToDate c.last c.desired live = false)
    (halter : (m.alter b c.last c.desired live).run u = (.ok statements, v))
    (hhook : (m.really (m.hooks.afterMigrate c)).run v = (.ok (), t)) :
    Processed model s ⟨c.desired.table, .altered, statements⟩ t
  | suppressed {c : HookContext} {live : List LiveIndex} {u v w t : σ} {e : MigrationError}
    (hlooked : m.LookedUp b model s c live false u)
    (hup : isUpToDate c.last c.desired live = false)
    (halter : (m.alter b c.last c.desired live).run u = (.error e, v))
    (hreal : m.dryRun = false)
    (hsuppress : (m.hooks.afterAlterError c e).run v = (.ok (), w))
    (hhook : (m.really (m.hooks.afterMigrate c)).run w = (.ok (), t)) :
    Processed model s ⟨c.desired.table, .suppressed, []⟩ t

/-- Models have been processed one after the other. -/
inductive ProcessedAll : List Descriptor → σ → List TableReport → σ → Prop where
  | nil (s : σ) : ProcessedAll [] s [] s
  | cons {model : Descriptor} {models : List Descriptor} {s u t : σ} {report : TableReport}
    {reports : List TableReport} (hmodel : m.Processed b model s report u)
    (hmodels : ProcessedAll models u reports t) :
    ProcessedAll (model :: models) s (report :: reports) t

/-- The namespace has been ensured and every model of the store processed. -/
def Completes (s : σ) (report : Report) (t : σ) : Prop :=
  ∃ u tables, (b.ensureSchema m.schema).run s = (.ok (), u)
    ∧ m.ProcessedAll b m.store.models u tables t ∧ report = ⟨m.schema, m.dryRun, tables⟩

/-- The namespace could not be ensured, or a model failed after those before it were processed. -/
inductive FailsWith (s : σ) : MigrationError → σ → Prop where
  | ensureSchema {e : MigrationError} {t : σ}
    (hschema : (b.ensureSchema m.schema).run s = (.error e, t)) :
    FailsWith s (.inPhase .ensureSchema m.schema e) t
  | model {u v t : σ} {before after : List Descriptor} {model : Descriptor}
    {reports : List TableReport} {e : MigrationError}
    (hschema : (b.ensureSchema m.schema).run s = (.ok (), u))
    (hmodels : m.store.models = before ++ model :: after)
    (hbefore : m.ProcessedAll b before u reports v)
    (hmodel : (m.migrateModel b model).run v = (.error e, t)) : FailsWith s e t

/-- The live columns that a change of a table goes by. -/
def columnsOf (desired : Relation) : Work σ (List LiveColumn) :=
  if desired.isView then pure []
  else (b.liveColumns m.schema desired.table).inPhase .introspect desired.table

/-- Changes a table whose live columns are known. -/
def alterWith (last desired : Relation) (live : List LiveIndex) (columns : List LiveColumn) :
    Work σ (List String) := do
  let plan ← (Work.ofExcept (Plan.alter m.schema last desired columns live)).inPhase
    .alter desired.table
  let statements ← m.apply b .alter plan
  m.save b desired
  return statements

theorem alter_eq (last desired : Relation) (live : List LiveIndex) :
    m.alter b last desired live = m.columnsOf b desired >>= m.alterWith b last desired live := by
  unfold alter columnsOf
  split <;> rfl

variable {m b} {s t : σ}

/-- What changing a table does when it succeeds. -/
theorem alter_eq_ok {last desired : Relation} {live : List LiveIndex} {statements : List String} :
    (m.alter b last desired live).run s = (.ok statements, t) ↔ ∃ columns u plan v,
      (m.columnsOf b desired).run s = (.ok columns, u)
        ∧ Plan.alter m.schema last desired columns live = .ok plan
        ∧ (m.apply b .alter plan).run u = (.ok statements, v)
        ∧ (m.save b desired).run v = (.ok (), t) := by
  rw [alter_eq]
  unfold alterWith
  simp only [Work.bind_eq_ok, Work.inPhase_eq_ok, Work.ofExcept_eq_ok, Work.pure_eq_ok]
  constructor
  · rintro ⟨columns, u, hcolumns, plan, _, ⟨hplan, rfl⟩, _, v, happly, _, _, hsave, rfl, rfl⟩
    exact ⟨columns, u, plan, v, hcolumns, hplan, happly, hsave⟩
  · rintro ⟨columns, u, plan, v, hcolumns, hplan, happly, hsave⟩
    exact ⟨columns, u, hcolumns, plan, u, ⟨hplan, rfl⟩, statements, v, happly, (), t, hsave, rfl,
      rfl⟩

/-- Where changing a table can stop. -/
inductive StopsAltering (m : Migrator σ) (b : Backend σ) (last desired : Relation)
    (live : List LiveIndex) (s : σ) : σ → Prop where
  | columns {t : σ} {e : MigrationError}
    (hcolumns : (m.columnsOf b desired).run s = (.error e, t)) :
    StopsAltering m b last desired live s t
  | plan {t : σ} {columns : List LiveColumn} {e : SchemaError}
    (hcolumns : (m.columnsOf b desired).run s = (.ok columns, t))
    (hplan : Plan.alter m.schema last desired columns live = .error e) :
    StopsAltering m b last desired live s t
  | statement {t u : σ} {columns : List LiveColumn} {plan : Plan} {e : MigrationError}
    (hcolumns : (m.columnsOf b desired).run s = (.ok columns, u))
    (hplan : Plan.alter m.schema last desired columns live = .ok plan)
    (happly : (m.apply b .alter plan).run u = (.error e, t)) :
    StopsAltering m b last desired live s t
  | snapshot {t u v : σ} {columns : List LiveColumn} {plan : Plan} {statements : List String}
    {e : MigrationError} (hcolumns : (m.columnsOf b desired).run s = (.ok columns, u))
    (hplan : Plan.alter m.schema last desired columns live = .ok plan)
    (happly : (m.apply b .alter plan).run u = (.ok statements, v))
    (hsave : (m.save b desired).run v = (.error e, t)) :
    StopsAltering m b last desired live s t

theorem stopsAltering_of_error {last desired : Relation} {live : List LiveIndex}
    {e : MigrationError} (h : (m.alter b last desired live).run s = (.error e, t)) :
    m.StopsAltering b last desired live s t := by
  rw [alter_eq] at h
  rcases Work.bind_eq_error.mp h with hcolumns | ⟨columns, u, hcolumns, h⟩
  · exact .columns hcolumns
  unfold alterWith at h
  cases hplan : Plan.alter m.schema last desired columns live with
  | error e' =>
      rw [hplan] at h
      cases h
      exact .plan hcolumns hplan
  | ok plan =>
      have hplanned := Work.ofExcept_eq_ok (s := u) (t := u).mpr ⟨hplan, rfl⟩
      rw [Work.bind_inPhase_run_ok hplanned] at h
      rcases Work.bind_eq_error.mp h with happly | ⟨statements, v, happly, h⟩
      · exact .statement hcolumns hplan happly
      rcases Work.bind_eq_error.mp h with hsave | ⟨_, w, -, h⟩
      · exact .snapshot hcolumns hplan happly hsave
      · cases h

theorem really_eq (hreal : m.dryRun = false) (w : Work σ Unit) : m.really w = w := by
  rw [really, hreal]
  rfl

theorem really_inPhase_eq_ok {w : Work σ Unit} {phase : Phase} {table : String} :
    (m.really (w.inPhase phase table)).run s = (.ok (), t)
      ↔ (m.really w).run s = (.ok (), t) := by
  unfold really
  split
  · exact Iff.rfl
  · exact Work.inPhase_eq_ok

/-- What creating a table does when it succeeds. -/
theorem create_eq_ok {c : HookContext} {report : TableReport} :
    (m.create b c).run s = (.ok report, t) ↔ ∃ statements u v,
      (m.apply b .create (Plan.create m.schema c.desired)).run s = (.ok statements, u)
        ∧ (m.save b c.desired).run u = (.ok (), v)
        ∧ (m.really (m.hooks.afterCreate c)).run v = (.ok (), t)
        ∧ ⟨c.desired.table, .created, statements⟩ = report := by
  unfold create
  simp only [Work.bind_eq_ok, Work.pure_eq_ok]
  constructor
  · rintro ⟨statements, u, happly, _, v, hsave, _, _, hhook, rfl, rfl⟩
    exact ⟨statements, u, v, happly, hsave, really_inPhase_eq_ok.mp hhook, rfl⟩
  · rintro ⟨statements, u, v, happly, hsave, hhook, rfl⟩
    exact ⟨statements, u, happly, (), v, hsave, (), t, really_inPhase_eq_ok.mpr hhook, rfl, rfl⟩

theorem alterIfNeeded_eq_ok {c : HookContext} {live : List LiveIndex} {report : TableReport} :
    (m.alterIfNeeded b c live).run s = (.ok report, t) ↔
      (isUpToDate c.last c.desired live = true ∧ ⟨c.desired.table, .unchanged, []⟩ = report ∧ s = t)
      ∨ (isUpToDate c.last c.desired live = false
        ∧ ((∃ statements, (m.alter b c.last c.desired live).run s = (.ok statements, t)
            ∧ ⟨c.desired.table, .altered, statements⟩ = report)
          ∨ ∃ e v, (m.alter b c.last c.desired live).run s = (.error e, v) ∧ m.dryRun = false
            ∧ (m.hooks.afterAlterError c e).run v = (.ok (), t)
            ∧ ⟨c.desired.table, .suppressed, []⟩ = report)) := by
  unfold alterIfNeeded
  cases hup : isUpToDate c.last c.desired live with
  | true => simp only [if_true, Work.pure_eq_ok, true_and, Bool.true_eq_false, false_and, or_false]
  | false =>
      simp only [Bool.false_eq_true, if_false, false_and, false_or, true_and, Work.bind_eq_ok,
        Work.attempt_eq_ok]
      constructor
      · rintro ⟨r, v, halter, h⟩
        cases r with
        | ok statements =>
            obtain ⟨rfl, rfl⟩ := Work.pure_eq_ok.mp h
            exact .inl ⟨statements, halter, rfl⟩
        | error e =>
            cases hreal : m.dryRun with
            | true =>
                rw [hreal] at h
                cases h
            | false =>
                rw [hreal] at h
                obtain ⟨_, w, hsuppress, h⟩ := Work.bind_eq_ok.mp h
                obtain ⟨rfl, rfl⟩ := Work.pure_eq_ok.mp h
                exact .inr ⟨e, v, halter, rfl, hsuppress, rfl⟩
      · rintro (⟨statements, halter, rfl⟩ | ⟨e, v, halter, hreal, hsuppress, rfl⟩)
        · exact ⟨.ok statements, t, halter, rfl⟩
        · refine ⟨.error e, v, halter, ?_⟩
          rw [hreal]
          exact Work.bind_eq_ok.mpr ⟨(), t, hsuppress, rfl⟩

/-- What processing a model does once its table is looked up. -/
theorem migrateModel_eq_ok {model : Descriptor} {report : TableReport} :
    (m.migrateModel b model).run s = (.ok report, t) ↔ ∃ c live u,
      (m.LookedUp b model s c live true u ∧ (m.create b c).run u = (.ok report, t))
      ∨ (m.LookedUp b model s c live false u ∧ ∃ v,
        (m.alterIfNeeded b c live).run u = (.ok report, v)
          ∧ (m.really (m.hooks.afterMigrate c)).run v = (.ok (), t)) := by
  unfold migrateModel
  simp only [Work.bind_eq_ok, Work.inPhase_eq_ok, Work.ofExcept_eq_ok]
  constructor
  · rintro ⟨live, u, hlive, last, v, hlast, desired, w, ⟨hdesired, rfl⟩, isNew, x, hisNew, h⟩
    have hlooked : m.LookedUp b model s ⟨m.schema, model, last, desired⟩ live isNew x :=
      ⟨rfl, rfl, hdesired, u, v, hlive, hlast, hisNew⟩
    refine ⟨⟨m.schema, model, last, desired⟩, live, x, ?_⟩
    cases isNew with
    | true => exact .inl ⟨hlooked, h⟩
    | false =>
        obtain ⟨report, y, hneeded, h⟩ := Work.bind_eq_ok.mp h
        obtain ⟨_, z, hhook, h⟩ := Work.bind_eq_ok.mp h
        obtain ⟨rfl, rfl⟩ := Work.pure_eq_ok.mp h
        exact .inr ⟨hlooked, y, hneeded, really_inPhase_eq_ok.mp hhook⟩
  · rintro ⟨⟨schema, model', last, desired⟩, live, x, h⟩
    rcases h with ⟨⟨rfl, rfl, hdesired, u, v, hlive, hlast, hisNew⟩, hcreate⟩
      | ⟨⟨rfl, rfl, hdesired, u, v, hlive, hlast, hisNew⟩, y, hneeded, hhook⟩
    · exact ⟨live, u, hlive, last, v, hlast, desired, v, ⟨hdesired, rfl⟩, true, x, hisNew, hcreate⟩
    · refine ⟨live, u, hlive, last, v, hlast, desired, v, ⟨hdesired, rfl⟩, false, x, hisNew, ?_⟩
      refine Work.bind_eq_ok.mpr ⟨report, y, hneeded, ?_⟩
      exact Work.bind_eq_ok.mpr ⟨(), t, really_inPhase_eq_ok.mpr hhook, rfl⟩

theorem processed_iff {model : Descriptor} {report : TableReport} :
    m.Processed b model s report t ↔ (m.migrateModel b model).run s = (.ok report, t) := by
  rw [migrateModel_eq_ok]
  constructor
  · intro h
    cases h with
    | @created c live u _ _ hlooked hcreate => exact ⟨c, live, u, .inl ⟨hlooked, hcreate⟩⟩
    | @unchanged c live u _ hlooked hup hhook =>
        refine ⟨c, live, u, .inr ⟨hlooked, u, ?_, hhook⟩⟩
        exact alterIfNeeded_eq_ok.mpr (.inl ⟨hup, rfl, rfl⟩)
    | @altered c live u v _ statements hlooked hup halter hhook =>
        refine ⟨c, live, u, .inr ⟨hlooked, v, ?_, hhook⟩⟩
        exact alterIfNeeded_eq_ok.mpr (.inr ⟨hup, .inl ⟨statements, halter, rfl⟩⟩)
    | @suppressed c live u v w _ e hlooked hup halter hreal hsuppress hhook =>
        refine ⟨c, live, u, .inr ⟨hlooked, w, ?_, hhook⟩⟩
        exact alterIfNeeded_eq_ok.mpr (.inr ⟨hup, .inr ⟨e, v, halter, hreal, hsuppress, rfl⟩⟩)
  · rintro ⟨c, live, u, ⟨hlooked, hcreate⟩ | ⟨hlooked, v, hneeded, hhook⟩⟩
    · exact .created hlooked hcreate
    · rcases alterIfNeeded_eq_ok.mp hneeded with ⟨hup, rfl, rfl⟩ | ⟨hup, hcases⟩
      · exact .unchanged hlooked hup hhook
      · rcases hcases with ⟨statements, halter, rfl⟩ | ⟨e, w, halter, hreal, hsuppress, rfl⟩
        · exact .altered hlooked hup halter hhook
        · exact .suppressed hlooked hup halter hreal hsuppress hhook

theorem processedAll_iff {models : List Descriptor} {reports : List TableReport} :
    m.ProcessedAll b models s reports t
      ↔ (Work.forEach (m.migrateModel b) models).run s = (.ok reports, t) := by
  constructor
  · intro h
    induction h with
    | nil s => rfl
    | cons hmodel _ ih =>
        rw [Work.forEach, Work.bind_run_ok (processed_iff.mp hmodel), Work.bind_run_ok ih]
        rfl
  · intro h
    induction models generalizing s reports with
    | nil =>
        obtain ⟨rfl, rfl⟩ := Work.pure_eq_ok.mp h
        exact .nil s
    | cons model models ih =>
        obtain ⟨report, u, hmodel, h⟩ := Work.bind_eq_ok.mp h
        obtain ⟨reports, v, hmodels, h⟩ := Work.bind_eq_ok.mp h
        obtain ⟨rfl, rfl⟩ := Work.pure_eq_ok.mp h
        exact .cons (processed_iff.mpr hmodel) (ih hmodels)

theorem forEach_eq_error {models : List Descriptor} {e : MigrationError} :
    (Work.forEach (m.migrateModel b) models).run s = (.error e, t) ↔
      ∃ before model after reports u, models = before ++ model :: after
        ∧ m.ProcessedAll b before s reports u ∧ (m.migrateModel b model).run u = (.error e, t) := by
  constructor
  · intro h
    induction models generalizing s with
    | nil => cases h
    | cons model models ih =>
        rcases Work.bind_eq_error.mp h with hmodel | ⟨report, u, hmodel, h⟩
        · exact ⟨[], model, models, [], s, rfl, .nil s, hmodel⟩
        · rcases Work.bind_eq_error.mp h with hmodels | ⟨reports, v, -, h⟩
          · obtain ⟨before, failing, after, reports, v, rfl, hbefore, hfailing⟩ := ih hmodels
            exact ⟨model :: before, failing, after, report :: reports, v, rfl,
              .cons (processed_iff.mpr hmodel) hbefore, hfailing⟩
          · cases h
  · rintro ⟨before, model, after, reports, u, rfl, hbefore, hmodel⟩
    induction hbefore with
    | nil s => exact Work.bind_eq_error.mpr (.inl hmodel)
    | @cons _ _ _ v _ _ _ hfirst _ ih =>
        refine Work.bind_eq_error.mpr (.inr ⟨_, v, processed_iff.mp hfirst, ?_⟩)
        exact Work.bind_eq_error.mpr (.inl (ih hmodel))

theorem completes_iff {report : Report} :
    m.Completes b s report t ↔ (m.migrateAll b).run s = (.ok report, t) := by
  constructor
  · rintro ⟨u, tables, hschema, hmodels, rfl⟩
    rw [migrateAll, Work.bind_inPhase_run_ok hschema,
      Work.bind_run_ok (processedAll_iff.mp hmodels)]
    rfl
  · intro h
    obtain ⟨_, u, hschema, h⟩ := Work.bind_eq_ok.mp h
    obtain ⟨tables, v, hmodels, h⟩ := Work.bind_eq_ok.mp h
    obtain ⟨rfl, rfl⟩ := Work.pure_eq_ok.mp h
    exact ⟨u, tables, Work.inPhase_eq_ok.mp hschema, processedAll_iff.mpr hmodels, rfl⟩

/-- A real run that succeeds completes, commits and calls the hook after the commit. -/
theorem run_eq_ok (hreal : m.dryRun = false) {report : Report} :
    (m.run b).run s = (.ok report, t) ↔ ∃ u v, m.Completes b s report u
      ∧ b.commit.run u = (.ok (), v) ∧ (m.hooks.afterCommit report).run v = (.ok (), t) := by
  unfold run
  simp only [hreal, Bool.false_eq_true, if_false, Work.bind_eq_ok, Work.orCleanUp_eq_ok,
    Work.pure_eq_ok, ← completes_iff]
  constructor
  · rintro ⟨_, u, hcompletes, _, v, hcommit, _, _, hhook, rfl, rfl⟩
    exact ⟨u, v, hcompletes, hcommit, hhook⟩
  · rintro ⟨u, v, hcompletes, hcommit, hhook⟩
    exact ⟨report, u, hcompletes, (), v, hcommit, (), t, hhook, rfl, rfl⟩

theorem failsWith_iff {e : MigrationError} :
    m.FailsWith b s e t ↔ (m.migrateAll b).run s = (.error e, t) := by
  constructor
  · intro h
    cases h with
    | ensureSchema hschema =>
        refine Work.bind_eq_error.mpr (.inl ?_)
        rw [Work.inPhase_run, hschema]
    | model hschema hmodels hbefore hmodel =>
        rw [migrateAll, Work.bind_inPhase_run_ok hschema]
        refine Work.bind_eq_error.mpr (.inl (forEach_eq_error.mpr ?_))
        exact ⟨_, _, _, _, _, hmodels, hbefore, hmodel⟩
  · intro h
    rcases Work.bind_eq_error.mp h with hschema | ⟨_, u, hschema, h⟩
    · rw [Work.inPhase_run] at hschema
      split at hschema
      · cases hschema
      · next hfailed =>
        cases hschema
        exact .ensureSchema hfailed
    · rw [Work.inPhase_eq_ok] at hschema
      rcases Work.bind_eq_error.mp h with hall | ⟨tables, v, -, h⟩
      · obtain ⟨before, model, after, reports, v, hmodels, hbefore, hmodel⟩ :=
          forEach_eq_error.mp hall
        exact .model hschema hmodels hbefore hmodel
      · cases h

/-- Processing fails in one way. -/
theorem FailsWith.unique {e e' : MigrationError} {u u' : σ} (h : m.FailsWith b s e u)
    (h' : m.FailsWith b s e' u') : e = e' ∧ u = u' := by
  have hall := failsWith_iff.mp h
  rw [failsWith_iff.mp h', Prod.mk.injEq, Except.error.injEq] at hall
  exact ⟨hall.1.symm, hall.2.symm⟩

/-- Processing does not both complete and fail. -/
theorem Completes.not_failsWith {report : Report} {e : MigrationError} {u u' : σ}
    (h : m.Completes b s report u) : ¬ m.FailsWith b s e u' := by
  intro hfails
  have hall := completes_iff.mp h
  rw [failsWith_iff.mp hfails] at hall
  cases hall

/-! ## Work within the unit of work -/

section Within

variable (hm : m.hooks.Within b)

theorem really_within {w : Work σ Unit} (hw : b.Within w) : b.Within (m.really w) := by
  unfold really
  split
  · exact .pure ()
  · exact hw

theorem apply_within (phase : Phase) (p : Plan) : b.Within (m.apply b phase p) := by
  refine .bind (really_within (.bind ?_ fun _ => .pure ())) fun _ => .pure _
  exact .forEach (fun sql => (Backend.Within.operation (.execute sql)).inPhase _ _) _

theorem save_within (desired : Relation) : b.Within (m.save b desired) :=
  really_within ((Backend.Within.operation (.saveSnapshot _ _)).inPhase _ _)

theorem isNew_within (last desired : Relation) : b.Within (m.isNew b last desired) := by
  unfold isNew
  split
  · exact .pure false
  · split
    · exact .pure true
    · exact .bind ((Backend.Within.operation (.liveColumns _ _)).inPhase _ _) fun _ => .pure _

theorem columnsOf_within (desired : Relation) : b.Within (m.columnsOf b desired) := by
  unfold columnsOf
  split
  · exact .pure []
  · exact (Backend.Within.operation (.liveColumns _ _)).inPhase _ _

theorem alter_within (last desired : Relation) (live : List LiveIndex) :
    b.Within (m.alter b last desired live) := by
  rw [alter_eq]
  refine .bind (columnsOf_within desired) fun columns => ?_
  refine .bind ((Backend.Within.ofExcept _).inPhase _ _) fun plan => ?_
  refine .bind (apply_within _ plan) fun statements => ?_
  exact .bind (save_within desired) fun _ => .pure statements

include hm

theorem create_within (c : HookContext) : b.Within (m.create b c) := by
  refine .bind (apply_within _ _) fun statements => .bind (save_within _) fun _ => ?_
  exact .bind (really_within ((hm.afterCreate c).inPhase _ _)) fun _ => .pure _

theorem alterIfNeeded_within (c : HookContext) (live : List LiveIndex) :
    b.Within (m.alterIfNeeded b c live) := by
  unfold alterIfNeeded
  split
  · exact .pure _
  · refine .bind (alter_within _ _ live).attempt fun r => ?_
    cases r with
    | ok statements => exact .pure _
    | error e =>
        have hsuppress := Backend.Within.bind (hm.afterAlterError c e) fun _ =>
          .pure (⟨c.desired.table, .suppressed, []⟩ : TableReport)
        dsimp only
        split
        · exact .bind (.fail e) fun _ => hsuppress
        · exact hsuppress

theorem migrateModel_within (model : Descriptor) : b.Within (m.migrateModel b model) := by
  refine .bind ((Backend.Within.operation (.liveIndexes _ _)).inPhase _ _) fun live => ?_
  refine .bind ((Backend.Within.operation (.loadSnapshot _ _)).inPhase _ _) fun last => ?_
  refine .bind ((Backend.Within.ofExcept _).inPhase _ _) fun desired => ?_
  refine .bind (isNew_within last desired) fun isNew => ?_
  split
  · exact create_within hm _
  · refine .bind (alterIfNeeded_within hm _ live) fun report => ?_
    exact .bind (really_within ((hm.afterMigrate _).inPhase _ _)) fun _ => .pure report

theorem migrateAll_within : b.Within (m.migrateAll b) := by
  refine .bind ((Backend.Within.operation (.ensureSchema _)).inPhase _ _) fun _ => ?_
  exact .bind (.forEach (migrateModel_within hm) _) fun tables => .pure _

end Within

/-! ## The end of a run -/

section End

variable {Content : Type} {o : Observation σ Content} (hb : b.Transactional o)
  (hm : m.hooks.Within b)

include hb hm

theorem kept_migrateAll (hs : o.Ends s) {result : Except MigrationError Report} {u : σ}
    (h : (m.migrateAll b).run s = (result, u)) : o.Kept s u := by
  have hkept := ((migrateAll_within hm).inner hb).kept s hs
  rw [h] at hkept
  exact hkept

/-- A run that fails ends with one rollback. -/
theorem FailsWith.run {e : MigrationError} {u : σ} (hs : o.Ends s) (h : m.FailsWith b s e u) :
    ∃ t, (m.run b).run s = (.error e, t) ∧ b.rollback.run u = (.ok (), t)
      ∧ o.commits t = o.commits s ∧ o.rollbacks t = o.rollbacks s + 1
      ∧ o.committed t = o.committed s ∧ o.staged t = o.committed s := by
  have hall := failsWith_iff.mp h
  have hkept := kept_migrateAll hb hm hs hall
  obtain ⟨t, hrollback, hdiscarded⟩ := hb.rollback u hkept.ends
  refine ⟨t, Work.bind_eq_error.mpr (.inl ?_), hrollback, ?_, ?_, ?_, ?_⟩
  · rw [Work.orCleanUp_run, hall]
    dsimp only
    rw [hrollback]
  · rw [hdiscarded.commits, hkept.commits]
  · rw [hdiscarded.rollbacks, hkept.rollbacks]
  · rw [hdiscarded.committed, hkept.committed]
  · rw [hdiscarded.staged, hkept.committed]

/-- A dry run that completes does not commit. -/
theorem Completes.run_dry {report : Report} {u : σ} (hs : o.Ends s)
    (h : m.Completes b s report u) (hdry : m.dryRun = true) :
    ∃ t, (m.run b).run s = (.ok report, t) ∧ o.commits t = o.commits s := by
  have hall := completes_iff.mp h
  have hkept := kept_migrateAll hb hm hs hall
  obtain ⟨t, hrollback, hdiscarded⟩ := hb.rollback u hkept.ends
  refine ⟨t, ?_, by rw [hdiscarded.commits, hkept.commits]⟩
  rw [Migrator.run, Work.bind_run_ok (Work.orCleanUp_eq_ok.mpr hall), hdry]
  exact Work.bind_eq_ok.mpr ⟨(), t, hrollback, rfl⟩

/-- A real run that completes commits once, and fails only if the hook after the commit does. -/
theorem Completes.run {report : Report} {u : σ} (hs : o.Ends s) (h : m.Completes b s report u)
    (hreal : m.dryRun = false) :
    ∃ t outcome, (m.run b).run s = (outcome.map fun _ => report, t)
      ∧ (∀ v, (m.hooks.afterCommit report).run v = (outcome, v))
      ∧ o.commits t = o.commits s + 1 := by
  have hall := completes_iff.mp h
  have hkept := kept_migrateAll hb hm hs hall
  obtain ⟨t, hcommit, hpublished⟩ := hb.commit u hkept.ends
  obtain ⟨outcome, houtcome⟩ := hm.afterCommit report
  refine ⟨t, outcome, ?_, houtcome, by rw [hpublished.commits, hkept.commits]⟩
  rw [Migrator.run, Work.bind_run_ok (Work.orCleanUp_eq_ok.mpr hall), hreal]
  show (b.commit >>= _).run u = _
  rw [Work.bind_run_ok hcommit, Work.bind_run, houtcome]
  cases outcome <;> rfl

/-- Without faults, what a run gives and leaves depends on the content that it finds only. -/
theorem run_determined : o.Determined (m.run b) := by
  have hall := ((migrateAll_within hm).inner hb).determined
  refine .bind (hall.orCleanUp hb.rollback_determined) fun report => ?_
  split
  · exact .bind hb.rollback_determined fun _ => .of_outcome fun _ => rfl
  · obtain ⟨outcome, houtcome⟩ := hm.afterCommit report
    refine .bind hb.commit_determined fun _ => ?_
    exact .bind (.of_outcome houtcome) fun _ => .of_outcome fun _ => rfl

end End

/-- A run is atomic, whatever operation of the backend fails at whatever call. It completes, or it
fails with an error. It commits at most once, and exactly when it completes and is not dry. After a
failure no further model is processed: there is one rollback of what was reached, which leaves the
committed content as it was before the run, so a run without faults on what is left gives the same
result and the same content as one in a fresh unit of work on the content before. An error after a
commit is that of the hook after the commit. -/
theorem run_atomic {Content : Type} {o : Observation σ Content} (hb : b.Transactional o)
    (hm : m.hooks.Within b) (hs : o.Ends s) (ht : ((m.run b).run s).2 = t) :
    ((∃ report u, m.Completes b s report u) ∨ ∃ e u, m.FailsWith b s e u)
      ∧ (o.commits t = o.commits s ∨ o.commits t = o.commits s + 1)
      ∧ (o.commits t = o.commits s + 1
        ↔ m.dryRun = false ∧ ∃ report u, m.Completes b s report u)
      ∧ (∀ e u, m.FailsWith b s e u →
        (m.run b).run s = (.error e, t) ∧ b.rollback.run u = (.ok (), t)
          ∧ o.rollbacks t = o.rollbacks s + 1 ∧ o.committed t = o.committed s
          ∧ ∀ again never, o.Faultless again → o.committed again = o.committed t →
            o.staged again = o.staged t → o.Faultless never → o.committed never = o.committed s →
            o.staged never = o.committed s →
            ((m.run b).run again).1 = ((m.run b).run never).1
              ∧ o.committed ((m.run b).run again).2 = o.committed ((m.run b).run never).2
              ∧ o.staged ((m.run b).run again).2 = o.staged ((m.run b).run never).2)
      ∧ ∀ e, o.commits t = o.commits s + 1 → ((m.run b).run s).1 = .error e →
        ∃ report u, m.Completes b s report u
          ∧ ∀ v, (m.hooks.afterCommit report).run v = (.error e, v) := by
  subst ht
  rcases hall : (m.migrateAll b).run s with ⟨_ | report, u⟩
  · next e =>
    have hfails := failsWith_iff.mpr hall
    obtain ⟨t, hrun, hrollback, hcommits, hrollbacks, hcommitted, hstaged⟩ :=
      hfails.run hb hm hs
    rw [hrun]
    dsimp only
    refine ⟨.inr ⟨e, u, hfails⟩, .inl hcommits, iff_of_false (by omega) ?_, ?_, fun _ _ => ?_⟩
    · rintro ⟨-, report, v, hcompletes⟩
      exact hcompletes.not_failsWith hfails
    · intro e' u' hfails'
      obtain ⟨rfl, rfl⟩ := hfails.unique hfails'
      refine ⟨rfl, hrollback, hrollbacks, hcommitted, ?_⟩
      intro again never hagain hcagain hsagain hnever hcnever hsnever
      -- after the rollback the unit of work sees the committed content, as a fresh one does
      have halike : o.Alike again never := {
        left := hagain
        right := hnever
        committed := by rw [hcagain, hcommitted, hcnever]
        staged := by rw [hsagain, hstaged, hsnever] }
      obtain ⟨hresult, hleft⟩ := run_determined hb hm again never halike
      exact ⟨hresult, hleft.committed, hleft.staged⟩
    · omega
  · have hcompletes := completes_iff.mpr hall
    have hnot : ∀ e v, ¬ m.FailsWith b s e v := fun e v => hcompletes.not_failsWith
    cases hdry : m.dryRun with
    | true =>
        obtain ⟨t, hrun, hcommits⟩ := hcompletes.run_dry hb hm hs hdry
        rw [hrun]
        dsimp only
        refine ⟨.inl ⟨report, u, hcompletes⟩, .inl hcommits, iff_of_false (by omega) ?_,
          fun e v hfails => absurd hfails (hnot e v), fun _ _ => by omega⟩
        rintro ⟨⟨⟩, -⟩
    | false =>
        obtain ⟨t, outcome, hrun, houtcome, hcommits⟩ := hcompletes.run hb hm hs hdry
        rw [hrun]
        dsimp only
        refine ⟨.inl ⟨report, u, hcompletes⟩, .inr hcommits,
          iff_of_true hcommits ⟨rfl, report, u, hcompletes⟩,
          fun e v hfails => absurd hfails (hnot e v), ?_⟩
        -- the only error that a run gives after its commit is that of the last hook
        intro e _ herror
        cases outcome with
        | ok _ => cases herror
        | error e' =>
            cases herror
            exact ⟨report, u, hcompletes, houtcome⟩

/-- The migration of a table of tasks, with a hook that marks the table as created. -/
def taskMigrator : Migrator Memory where
  store := Store.add { namespaceName := "s" } 0 taskModel
  hooks := { afterCreate := fun c => Memory.backend.startStep c.schema c.model.table }
where
  /-- A model of tasks with a title. -/
  taskModel : Descriptor := {
    typeName := "Task"
    table := "task"
    fields := [FieldDecl.describe
      { name := "Title", element := { tag := "String", kind := .string } }]
    viewQuery := none
    isMaterialized := false }

/-- A database in which no step can be marked. -/
def stepless : Memory where
  fault calls := if calls.head? = some "start_step s task" then some .noTransaction else none

/-- A database whose faults are over. -/
def repaired (s : Memory) : Memory := { s with fault := fun _ => none }

/-- The hook of a new table fails after its snapshot was saved, and nothing of the table is left. -/
theorem run_atomic_tasks :
    taskMigrator.hooks.Within Memory.backend ∧ Memory.observation.Ends stepless
      ∧ ∃ t, (taskMigrator.run Memory.backend).run stepless
          = (.error (.inPhase .hook "task" .noTransaction), t)
        ∧ t.calls.count "save_snapshot s task" = 1 ∧ t.calls.count "rollback" = 1
        ∧ t.committed.snapshots = []
        ∧ ((taskMigrator.run Memory.backend).run (repaired t)).1
          = ((taskMigrator.run Memory.backend).run {}).1 := by
  have hm : taskMigrator.hooks.Within Memory.backend := {
    afterCreate c := .operation (.startStep _ _)
    afterAlterError c e := .fail e
    afterMigrate c := .pure ()
    afterCommit report := ⟨.ok (), fun _ => rfl⟩ }
  have hs : Memory.observation.Ends stepless := fun _ => ⟨rfl, rfl⟩
  obtain ⟨hends, -, hcommits, hfails, -⟩ := run_atomic Memory.transactional hm hs rfl
  obtain ⟨hresult, hcalls⟩ : ((taskMigrator.run Memory.backend).run stepless).1
        = .error (.inPhase .hook "task" .noTransaction)
      ∧ ((taskMigrator.run Memory.backend).run stepless).2.calls.count "commit" = 0
      ∧ ((taskMigrator.run Memory.backend).run stepless).2.calls.count "save_snapshot s task"
        = 1 := by
    decide +kernel
  have hnot : ¬ ∃ report u, taskMigrator.Completes Memory.backend stepless report u := by
    intro hcompletes
    have hcommit := hcommits.mpr ⟨rfl, hcompletes⟩
    exact absurd (hcalls.1.symm.trans hcommit) (by decide)
  obtain ⟨e, u, hfailed⟩ := hends.resolve_left hnot
  obtain ⟨-, -, hrollbacks, hcommitted, hagain⟩ := hfails e u hfailed
  refine ⟨hm, hs, _, Prod.ext hresult rfl, hcalls.2, hrollbacks, ?_, ?_⟩
  · exact congrArg (fun c => c.1.snapshots) hcommitted
  · exact (hagain (repaired _) {} (fun _ => rfl) rfl rfl (fun _ => rfl) rfl rfl).1

end Migrator

end SchemaEvolution
