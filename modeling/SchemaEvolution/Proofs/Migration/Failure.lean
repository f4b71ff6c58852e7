import SchemaEvolution.Proofs.Migration.Lookup
import SchemaEvolution.Proofs.Migration.Repetition

set_option autoImplicit false

/-! # What a failed run says

Processing a model can stop at each of its steps (`Migrator.StopsMigrating`). Whatever fails there
is wrapped with a phase and the table of the model (`MigrationError.Names`), with one exception: a
hook that is told of a failed change may give an error of its own, and the run fails with that one,
as it is (`Migrator.RefusedByHook`). The hook is told an error that names the table, so a hook that
gives back what it is told keeps the name.

Wrappers nest to any depth, and it is the error at the bottom that makes it pointless to run again
(`MigrationError.isRetryable_iff`).
-/

namespace SchemaEvolution

namespace MigrationError

/-- The outermost wrapper names this table. -/
def Names (e : MigrationError) (table : String) : Prop :=
  ∃ phase cause, e = .inPhase phase table cause

/-- What is left without the wrappers. -/
def bottom : MigrationError → MigrationError
  | inPhase _ _ cause => cause.bottom
  | e => e

theorem names_inPhase (phase : Phase) (table : String) (cause : MigrationError) :
    (inPhase phase table cause).Names table :=
  ⟨phase, cause, rfl⟩

/-- Only a change of a primary key at the bottom makes it pointless to run again. -/
theorem isRetryable_iff {e : MigrationError} :
    e.isRetryable = true
      ↔ ∀ table column, e.bottom ≠ .model (.primaryKeyChange table column) := by
  induction e with
  | inPhase phase table cause ih => exact ih
  | model cause =>
      cases cause <;> simp [isRetryable, isPrimaryKeyChange, SchemaError.isPrimaryKeyChange, bottom]
  | _ => simp [isRetryable, isPrimaryKeyChange, bottom]

end MigrationError

namespace Migrator

variable {σ : Type}

/-! ## Where processing stops -/

/-- Processing has come to a model in the state `t`. The reports are of the models before it. -/
def Reaches (m : Migrator σ) (b : Backend σ) (s : σ) (reports : List TableReport)
    (model : Descriptor) (t : σ) : Prop :=
  ∃ before after u, m.store.models = before ++ model :: after
    ∧ (b.ensureSchema m.schema).run s = (.ok (), u) ∧ m.ProcessedAll b before u reports t

/-- The table of a model could not be changed, and the hook that was told so gave an error. -/
def RefusedByHook (m : Migrator σ) (b : Backend σ) (model : Descriptor) (s : σ)
    (e : MigrationError) (t : σ) : Prop :=
  ∃ c live u failure v, m.LookedUp b model s c live false u
    ∧ (m.alter b c.last c.desired live).run u = (.error failure, v) ∧ failure.Names model.table
    ∧ m.dryRun = false ∧ (m.hooks.afterAlterError c failure).run v = (.error e, t)

/-- Where migrating a model can stop. -/
inductive StopsMigrating (m : Migrator σ) (b : Backend σ) (model : Descriptor) (s : σ) :
    MigrationError → σ → Prop where
  | lookUp {e : MigrationError} {t : σ} (hlookUp : (m.lookUp b model).run s = (.error e, t)) :
    StopsMigrating m b model s e t
  | create {c : HookContext} {live : List LiveIndex} {u t : σ} {e : MigrationError}
    (hlooked : m.LookedUp b model s c live true u)
    (hcreate : (m.create b c).run u = (.error e, t)) : StopsMigrating m b model s e t
  | alter {c : HookContext} {live : List LiveIndex} {u t : σ} {e : MigrationError}
    (hlooked : m.LookedUp b model s c live false u) (hdry : m.dryRun = true)
    (halter : (m.alter b c.last c.desired live).run u = (.error e, t)) :
    StopsMigrating m b model s e t
  /-- The hook that was told of a failed change did not let the run go on. -/
  | refused {c : HookContext} {live : List LiveIndex} {u v t : σ} {failure e : MigrationError}
    (hlooked : m.LookedUp b model s c live false u) (hreal : m.dryRun = false)
    (halter : (m.alter b c.last c.desired live).run u = (.error failure, v))
    (hhook : (m.hooks.afterAlterError c failure).run v = (.error e, t)) :
    StopsMigrating m b model s e t
  | hook {c : HookContext} {live : List LiveIndex} {u v t : σ} {e : MigrationError}
    {report : TableReport} (hlooked : m.LookedUp b model s c live false u)
    (hneeded : (m.alterIfNeeded b c live).run u = (.ok report, v))
    (hhook : (m.really ((m.hooks.afterMigrate c).inPhase .hook c.desired.table)).run v
      = (.error e, t)) : StopsMigrating m b model s e t

variable {m : Migrator σ} {b : Backend σ} {s t u : σ} {e : MigrationError} {model : Descriptor}
  {reports : List TableReport}

/-- A run whose processing fails gives that error and rolls back what was reached. -/
theorem FailsWith.run_eq (h : m.FailsWith b s e t) :
    (m.run b).run s = (.error e, (b.rollback.run t).2) := by
  refine Work.bind_eq_error.mpr (.inl ?_)
  rw [Work.orCleanUp_run, failsWith_iff.mp h]

/-- A run stops at a model that fails. -/
theorem Reaches.failsWith (h : m.Reaches b s reports model u)
    (hmodel : (m.migrateModel b model).run u = (.error e, t)) : m.FailsWith b s e t := by
  obtain ⟨before, after, v, hmodels, hschema, hbefore⟩ := h
  exact .model hschema hmodels hbefore hmodel

/-- Where the table of a model is left alone or changed, it is a change that fails. In a real run
the hook has failed as well that was told so. -/
theorem alterIfNeeded_eq_error {c : HookContext} {live : List LiveIndex}
    (h : (m.alterIfNeeded b c live).run s = (.error e, t)) : ∃ failure u,
      (m.alter b c.last c.desired live).run s = (.error failure, u)
        ∧ ((m.dryRun = true ∧ failure = e ∧ u = t)
          ∨ (m.dryRun = false ∧ (m.hooks.afterAlterError c failure).run u = (.error e, t))) := by
  unfold alterIfNeeded at h
  split at h
  · cases h
  · rcases halter : (m.alter b c.last c.desired live).run s with ⟨result, u⟩
    rw [Work.bind_run_ok (Work.attempt_eq_ok.mpr halter)] at h
    cases result with
    | ok statements => cases h
    | error failure =>
        refine ⟨failure, u, rfl, ?_⟩
        cases hreal : m.dryRun with
        | true =>
            rw [hreal] at h
            cases h
            exact .inl ⟨rfl, rfl, rfl⟩
        | false =>
            rw [hreal] at h
            rcases Work.bind_eq_error.mp h with hhook | ⟨_, v, -, h⟩
            · exact .inr ⟨rfl, hhook⟩
            · cases h

theorem migrateModel_eq_error (h : (m.migrateModel b model).run s = (.error e, t)) :
    m.StopsMigrating b model s e t := by
  rw [migrateModel_eq] at h
  rcases Work.bind_eq_error.mp h with hlookUp | ⟨⟨c, live, isNew⟩, u, hlookUp, h⟩
  · exact .lookUp hlookUp
  rw [lookUp_eq_ok] at hlookUp
  cases isNew with
  | true => exact .create hlookUp h
  | false =>
      rcases Work.bind_eq_error.mp h with hneeded | ⟨report, v, hneeded, h⟩
      · obtain ⟨failure, v, halter, ⟨hdry, rfl, rfl⟩ | ⟨hreal, hhook⟩⟩ :=
          alterIfNeeded_eq_error hneeded
        · exact .alter hlookUp hdry halter
        · exact .refused hlookUp hreal halter hhook
      · rcases Work.bind_eq_error.mp h with hhook | ⟨_, w, -, h⟩
        · exact .hook hlookUp hneeded hhook
        · cases h

/-! ## The errors of the steps -/

section Steps

variable {table : String}

theorem really_names {w : Work σ Unit} (hw : w.FailsAs (·.Names table)) :
    (m.really w).FailsAs (·.Names table) := by
  unfold really
  split
  · exact .pure ()
  · exact hw

theorem apply_names (phase : Phase) (p : Plan) :
    (m.apply b phase p).FailsAs (·.Names p.table) := by
  refine .bind (really_names (.bind ?_ fun _ => .pure ())) fun _ => .pure _
  exact .forEach (fun sql => .inPhase (MigrationError.names_inPhase phase p.table) _) _

theorem save_names (desired : Relation) :
    (m.save b desired).FailsAs (·.Names desired.table) :=
  really_names (.inPhase (MigrationError.names_inPhase _ _) _)

theorem isNew_names (last desired : Relation) :
    (m.isNew b last desired).FailsAs (·.Names desired.table) := by
  unfold isNew
  split
  · exact .pure false
  · split
    · exact .pure true
    · exact .bind (.inPhase (MigrationError.names_inPhase _ _) _) fun live => .pure _

theorem lookUp_names : (m.lookUp b model).FailsAs (·.Names model.table) := by
  refine .bind (.inPhase (MigrationError.names_inPhase _ _) _) fun live => ?_
  refine .bind (.inPhase (MigrationError.names_inPhase _ _) _) fun last => ?_
  refine .bind_of (.inPhase (MigrationError.names_inPhase _ _) _) fun desired u v hdesired => ?_
  have hderived := (Work.ofExcept_eq_ok.mp (Work.inPhase_eq_ok.mp hdesired)).1
  have hisNew := isNew_names (m := m) (b := b) last desired
  rw [(Store.asks_of_desired hderived).table] at hisNew
  exact .bind hisNew fun isNew => .pure _

theorem columnsOf_names (desired : Relation) :
    (m.columnsOf b desired).FailsAs (·.Names desired.table) := by
  unfold columnsOf
  split
  · exact .pure []
  · exact .inPhase (MigrationError.names_inPhase _ _) _

theorem hook_names (w : Work σ Unit) :
    (m.really (w.inPhase .hook table)).FailsAs (·.Names table) :=
  really_names (.inPhase (MigrationError.names_inPhase _ _) w)

theorem create_names (c : HookContext) :
    (m.create b c).FailsAs (·.Names c.desired.table) := by
  refine .bind ?_ fun statements => .bind (save_names c.desired) fun _ => ?_
  · have happly := apply_names (m := m) (b := b) .create (Plan.create m.schema c.desired)
    rwa [Plan.create_table] at happly
  · exact .bind (hook_names _) fun _ => .pure _

theorem alter_names (last desired : Relation) (live : List LiveIndex) :
    (m.alter b last desired live).FailsAs (·.Names desired.table) := by
  rw [alter_eq]
  refine .bind (columnsOf_names desired) fun columns => ?_
  refine .bind_of (.inPhase (MigrationError.names_inPhase _ _) _) fun plan u v hplan => ?_
  have htable : plan.table = desired.table :=
    Plan.table_of_alter (Work.ofExcept_eq_ok.mp (Work.inPhase_eq_ok.mp hplan)).1
  have happly := apply_names (m := m) (b := b) .alter plan
  rw [htable] at happly
  exact .bind happly fun statements => .bind (save_names desired) fun _ => .pure statements

end Steps

/-! ## The error of a model -/

theorem LookedUp.table_eq {c : HookContext} {live : List LiveIndex} {isNew : Bool}
    (h : m.LookedUp b model s c live isNew t) : c.desired.table = model.table :=
  (Store.asks_of_desired h.desired).table

/-- Whatever fails while a model is processed names its table, or is what the hook gave that was
told of a failed change. -/
theorem StopsMigrating.names (h : m.StopsMigrating b model s e t) :
    e.Names model.table ∨ m.RefusedByHook b model s e t := by
  cases h with
  | lookUp hlookUp => exact .inl (lookUp_names.of_run hlookUp)
  | create hlooked hcreate => exact .inl (hlooked.table_eq ▸ (create_names _).of_run hcreate)
  | alter hlooked _ halter => exact .inl (hlooked.table_eq ▸ (alter_names _ _ _).of_run halter)
  | hook hlooked _ hhook => exact .inl (hlooked.table_eq ▸ (hook_names _).of_run hhook)
  | @refused c live u v _ failure _ hlooked hreal halter hhook =>
      have hnames := (alter_names _ _ _).of_run halter
      rw [hlooked.table_eq] at hnames
      exact .inr ⟨c, live, u, failure, v, hlooked, halter, hnames, hreal, hhook⟩

/-- When a model fails, whatever operation, derivation or hook it was and with whatever error, the
run fails with an error whose outermost wrapper names the table of the model, or with the error
that the hook gave which was told of a failed change. A hook that gives back what it is told leaves
the first only. Running again may succeed exactly when no change of a primary key is at the bottom
of the wrappers. -/
theorem error_names_table (hreach : m.Reaches b s reports model u)
    (hmodel : (m.migrateModel b model).run u = (.error e, t)) :
    ((m.run b).run s).1 = .error e
      ∧ (e.Names model.table ∨ m.RefusedByHook b model u e t)
      ∧ ((∀ c failure v e' w, (m.hooks.afterAlterError c failure).run v = (.error e', w) →
        e' = failure) → e.Names model.table)
      ∧ (e.isRetryable = true
        ↔ ∀ table column, e.bottom ≠ .model (.primaryKeyChange table column)) := by
  have herror := (migrateModel_eq_error hmodel).names
  refine ⟨?_, herror, fun hgives => ?_, MigrationError.isRetryable_iff⟩
  · rw [(hreach.failsWith hmodel).run_eq]
  · rcases herror with hnames | ⟨c, live, v, failure, w, -, -, hnames, -, hhook⟩
    · exact hnames
    · rwa [hgives c failure w e t hhook]

/-- The migration of the notes, with a hook that fails once they are migrated: it has tried to
migrate the parts of the notes, whose primary key has changed. -/
def partedNotes : Migrator Memory where
  store := noteMigrator.store
  hooks := {
    afterMigrate := fun _ =>
      .fail (.inPhase .alter "part" (.model (.primaryKeyChange "part" "id"))) }

/-- Old notes in a database that saves no snapshot. -/
def unsaved : Memory where
  committed := oldNotes
  staged := oldNotes
  fault calls := if calls.head? = some "save_snapshot s note" then some .noTransaction else none

theorem reaches_notes {m : Migrator σ} (hstore : m.store = noteMigrator.store)
    (hschema : (b.ensureSchema "s").run s = (.ok (), t)) : m.Reaches b s [] noteModel t := by
  refine ⟨[], [], t, ?_, ?_, .nil t⟩
  · rw [hstore]
    rfl
  · rw [schema, hstore]
    exact hschema

/-- The table that the run was at is named first, and the error at the bottom says that running
again is pointless. -/
theorem error_names_table_notes :
    ∃ u e t, partedNotes.Reaches Memory.backend { staged := oldNotes } [] noteModel u
      ∧ (partedNotes.migrateModel Memory.backend noteModel).run u = (.error e, t)
      ∧ ((partedNotes.run Memory.backend).run { staged := oldNotes }).1 = .error e
      ∧ e.Names "note" ∧ e.phase? = some .hook ∧ e.isRetryable = false := by
  have hreach : partedNotes.Reaches Memory.backend { staged := oldNotes } [] noteModel
      ((Memory.backend.ensureSchema "s").run { staged := oldNotes }).2 :=
    reaches_notes rfl (Work.run_eq_ok rfl)
  have hmodel : ((partedNotes.migrateModel Memory.backend noteModel).run
      ((Memory.backend.ensureSchema "s").run { staged := oldNotes }).2).1
      = .error (.inPhase .hook "note"
        (.inPhase .alter "part" (.model (.primaryKeyChange "part" "id")))) := by
    decide +kernel
  obtain ⟨hrun, -, hnames, hretry⟩ := error_names_table hreach (Prod.ext hmodel rfl)
  have hname := hnames fun c failure v e w h => by
    cases h
    rfl
  refine ⟨_, _, _, hreach, Prod.ext hmodel rfl, hrun, hname, rfl, ?_⟩
  rw [Bool.eq_false_iff, ne_eq, hretry]
  exact fun hnone => hnone "part" "id" rfl

/-- The migration of the notes, with a hook that gives an error of its own when they could not be
changed. -/
def refusedNotes : Migrator Memory where
  store := noteMigrator.store
  hooks := { afterAlterError := fun _ _ => .fail (.hook "replaced") }

/-- The error of a hook that is told of a failed change names no table. -/
theorem error_names_no_table :
    ∃ u e t, refusedNotes.Reaches Memory.backend unsaved [] noteModel u
      ∧ (refusedNotes.migrateModel Memory.backend noteModel).run u = (.error e, t)
      ∧ ((refusedNotes.run Memory.backend).run unsaved).1 = .error e
      ∧ ¬ e.Names "note" := by
  have hmodel : ((refusedNotes.migrateModel Memory.backend noteModel).run
        ((Memory.backend.ensureSchema "s").run unsaved).2).1 = .error (.hook "replaced")
      ∧ ((refusedNotes.run Memory.backend).run unsaved).1 = .error (.hook "replaced") := by
    decide +kernel
  refine ⟨_, _, _, reaches_notes rfl (Work.run_eq_ok rfl), Prod.ext hmodel.1 rfl, hmodel.2, ?_⟩
  rintro ⟨phase, cause, ⟨⟩⟩

end Migrator

end SchemaEvolution
