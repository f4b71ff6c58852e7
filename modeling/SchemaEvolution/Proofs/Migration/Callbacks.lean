import SchemaEvolution.Proofs.Migration.DryRun
import SchemaEvolution.Proofs.Migration.Failure

set_option autoImplicit false

/-! # The calls of the hooks

Which hooks a run has called, and in which order, can be read off its report (`Report.events`). The
calls are noted beside the state, with the commit among them, whatever else the hooks do
(`Migrator.recorded`).

The operations of the backend note nothing. So what is noted while a model is processed is what its
own hooks note, and after all of its models a run has noted what the tables of its report tell
(`Migrator.ProcessedAll.events`). A run that stops has noted what the tables before tell, and at
most that the last table could not be changed (`Migrator.StopsMigrating.events`).
-/

namespace SchemaEvolution

/-- A call of a hook, with the table or the report it is told of, or the commit of a run. -/
inductive Event where
  | afterCreate (table : String)
  | afterAlterError (table : String)
  | afterMigrate (table : String)
  | commit
  | afterCommit (report : Report)
  deriving DecidableEq, Repr

/-- What happens for a table that is reported so. -/
def TableReport.events (report : TableReport) : List Event :=
  match report.action with
  | .created => [.afterCreate report.table]
  | .altered | .unchanged => [.afterMigrate report.table]
  | .suppressed => [.afterAlterError report.table, .afterMigrate report.table]

/-- What happens in a run that is reported so. -/
def Report.events (report : Report) : List Event :=
  report.tables.flatMap TableReport.events ++ [.commit, .afterCommit report]

variable {σ α : Type}

/-! ## Recording -/

/-- A computation beside which an event is noted. -/
def Work.noted (w : Work σ α) (event : Event) : Work (σ × List Event) α := fun s =>
  ((w.run s.1).1, (w.run s.1).2, s.2 ++ [event])

/-- The hooks, with every call noted. -/
def Hooks.recorded (h : Hooks σ) : Hooks (σ × List Event) where
  afterCreate c := (h.afterCreate c).noted (.afterCreate c.desired.table)
  afterAlterError c e := (h.afterAlterError c e).noted (.afterAlterError c.desired.table)
  afterMigrate c := (h.afterMigrate c).noted (.afterMigrate c.desired.table)
  afterCommit report := (h.afterCommit report).noted (.afterCommit report)

/-- The backend, with every commit noted that succeeds. -/
def Backend.recorded (b : Backend σ) : Backend (σ × List Event) :=
  { b.beside (List Event) with
    commit := do
      b.commit.onFirst
      (pure () : Work σ Unit).noted .commit }

/-- The migration with recording hooks. -/
def Migrator.recorded (m : Migrator σ) : Migrator (σ × List Event) where
  store := m.store
  hooks := m.hooks.recorded
  dryRun := m.dryRun

/-- Hooks that succeed, except that the one that is told of a failed change may fail. -/
structure Hooks.Succeed (h : Hooks σ) : Prop where
  afterCreate : ∀ c s, ((h.afterCreate c).run s).1 = .ok ()
  afterMigrate : ∀ c s, ((h.afterMigrate c).run s).1 = .ok ()
  afterCommit : ∀ report s, ((h.afterCommit report).run s).1 = .ok ()

/-- Nothing was noted between two states. -/
def SameEvents (s t : σ × List Event) : Prop := t.2 = s.2

instance : IsPreorder (σ × List Event) SameEvents where
  refl _ := rfl
  trans _ _ _ hst htu := htu.trans hst

variable {w : Work σ α} {event : Event} {s t : σ × List Event} {r : Except MigrationError α}

theorem Work.noted_eq (h : (w.noted event).run s = (r, t)) :
    (w.run s.1).1 = r ∧ t.2 = s.2 ++ [event] := by
  cases h
  exact ⟨rfl, rfl⟩

/-- What is done on the first part of a state notes nothing. -/
theorem Work.onFirst_sameEvents (w : Work σ α) : w.onFirst.Moves SameEvents := fun _ => rfl

namespace Backend

variable {b : Backend σ}

theorem recorded_looks : b.recorded.LooksAlong SameEvents where
  ensureSchema schema := (b.ensureSchema schema).onFirst_sameEvents
  loadSnapshot schema table := (b.loadSnapshot schema table).onFirst_sameEvents
  liveColumns schema table := (b.liveColumns schema table).onFirst_sameEvents
  liveIndexes schema table := (b.liveIndexes schema table).onFirst_sameEvents

theorem recorded_commit (h : b.recorded.commit.run s = (.ok (), t)) : t.2 = s.2 ++ [.commit] := by
  obtain ⟨_, u, hcommit, hnoted⟩ := Work.bind_eq_ok.mp h
  have hu : u.2 = s.2 := b.commit.onFirst_sameEvents.of_run hcommit
  rw [(Work.noted_eq hnoted).2, hu]

/-- Work that leaves the hooks and the commit to the migration notes nothing. -/
theorem Within.sameEvents {w : Work (σ × List Event) α} (hw : b.recorded.Within w) :
    w.Moves SameEvents := by
  induction hw with
  | pure a => exact .pure a
  | fail e => exact .fail e
  | operation h => cases h <;> exact Work.onFirst_sameEvents _
  | bind _ _ ihw ihk => exact .bind ihw ihk
  | attempt _ ih => exact ih.attempt

end Backend

namespace Migrator

variable {m : Migrator σ} {b : Backend σ} {model : Descriptor} {report : TableReport}
  {reports : List TableReport} {e : MigrationError} (hreal : m.recorded.dryRun = false)

/-! ## What is noted for a table -/

theorem LookedUp.sameEvents {c : HookContext} {live : List LiveIndex} {isNew : Bool}
    (h : m.recorded.LookedUp b.recorded model s c live isNew t) : SameEvents s t :=
  h.along Backend.recorded_looks

theorem alter_sameEvents {last desired : Relation} {live : List LiveIndex}
    {r : Except MigrationError (List String)}
    (h : (m.recorded.alter b.recorded last desired live).run s = (r, t)) : SameEvents s t :=
  (alter_within last desired live).sameEvents.of_run h

/-- A hook that succeeds does not stop a run. -/
theorem hook_ne_error {w : Work σ Unit} (hw : ∀ s, (w.run s).1 = .ok ()) {table : String} :
    (m.recorded.really ((w.noted event).inPhase .hook table)).run s ≠ (.error e, t) := by
  unfold really
  split
  · rintro ⟨⟩
  · intro h
    obtain ⟨cause, hcause, -⟩ := Work.inPhase_eq_error.mp h
    have hfails := (Work.noted_eq hcause).1
    rw [hw] at hfails
    cases hfails

/-- A table that cannot be created has no hook called. -/
theorem create_stops (hhooks : m.hooks.Succeed) {c : HookContext}
    (h : (m.recorded.create b.recorded c).run s = (.error e, t)) : t.2 = s.2 := by
  rcases Work.bind_eq_error.mp h with happly | ⟨statements, u, happly, h⟩
  · exact (apply_within _ _).sameEvents.of_run happly
  have hu : u.2 = s.2 := (apply_within _ _).sameEvents.of_run happly
  rcases Work.bind_eq_error.mp h with hsave | ⟨_, v, -, h⟩
  · have ht : t.2 = u.2 := (save_within _).sameEvents.of_run hsave
    exact ht.trans hu
  rcases Work.bind_eq_error.mp h with hhook | ⟨_, w, -, h⟩
  · exact absurd hhook (hook_ne_error (hhooks.afterCreate c))
  · cases h

include hreal

/-- What is noted for a table is what its report tells. -/
theorem Processed.events (h : m.recorded.Processed b.recorded model s report t) :
    t.2 = s.2 ++ report.events := by
  have hmigrate : ∀ {c : HookContext} {u : σ × List Event},
      (m.recorded.really (m.recorded.hooks.afterMigrate c)).run u = (.ok (), t) →
        t.2 = u.2 ++ [.afterMigrate c.desired.table] := by
    intro c u hhook
    rw [really_eq hreal] at hhook
    exact (Work.noted_eq hhook).2
  cases h with
  | @created c live u _ _ hlooked hcreate =>
      obtain ⟨statements, v, w, happly, hsave, hhook, rfl⟩ := create_eq_ok.mp hcreate
      rw [really_eq hreal] at hhook
      have hw : w.2 = s.2 := calc
        w.2 = v.2 := (save_within _).sameEvents.of_run hsave
        _ = u.2 := (apply_within _ _).sameEvents.of_run happly
        _ = s.2 := hlooked.sameEvents
      rw [(Work.noted_eq hhook).2, hw]
      rfl
  | unchanged hlooked _ hhook =>
      rw [hmigrate hhook, hlooked.sameEvents]
      rfl
  | altered hlooked _ halter hhook =>
      rw [hmigrate hhook, alter_sameEvents halter, hlooked.sameEvents]
      rfl
  | @suppressed c live u v w _ e hlooked _ halter _ hsuppress hhook =>
      have hv : v.2 = s.2 := calc
        v.2 = u.2 := alter_sameEvents halter
        _ = s.2 := hlooked.sameEvents
      calc t.2 = w.2 ++ [.afterMigrate c.desired.table] := hmigrate hhook
        _ = v.2 ++ [.afterAlterError c.desired.table] ++ [.afterMigrate c.desired.table] := by
          rw [(Work.noted_eq hsuppress).2]
        _ = s.2 ++ TableReport.events ⟨c.desired.table, .suppressed, []⟩ := by
          rw [hv, List.append_assoc]
          rfl

/-- Processing models notes what their reports tell, one after the other. -/
theorem ProcessedAll.events {models : List Descriptor}
    (h : m.recorded.ProcessedAll b.recorded models s reports t) :
    t.2 = s.2 ++ reports.flatMap TableReport.events := by
  induction h with
  | nil s => simp
  | @cons _ _ s u t report reports hmodel _ ih =>
      calc t.2 = u.2 ++ reports.flatMap TableReport.events := ih
        _ = s.2 ++ report.events ++ reports.flatMap TableReport.events := by
          rw [hmodel.events hreal]
        _ = s.2 ++ (report :: reports).flatMap TableReport.events := by
          rw [List.append_assoc, List.flatMap_cons]

/-- A table that stops the run has no hook called but the one that is told of a failed change. -/
theorem StopsMigrating.events (hhooks : m.hooks.Succeed)
    (h : m.recorded.StopsMigrating b.recorded model s e t) :
    t.2 = s.2 ∨ t.2 = s.2 ++ [.afterAlterError model.table] := by
  cases h with
  | lookUp hlookUp => exact .inl ((lookUp_moves Backend.recorded_looks model).of_run hlookUp)
  | create hlooked hcreate =>
      have hu := hlooked.sameEvents
      exact .inl ((create_stops hhooks hcreate).trans hu)
  | alter _ hdry _ => exact absurd hreal (by rw [hdry]; decide)
  | refused hlooked _ halter hhook =>
      have hu := hlooked.sameEvents
      rw [(Work.noted_eq hhook).2, alter_sameEvents halter, hu, hlooked.table_eq]
      exact .inr rfl
  | hook _ _ hhook => exact absurd hhook (hook_ne_error (hhooks.afterMigrate _))

omit hreal

/-! ## What is noted in a run -/

/-- With hooks that succeed, except that the one that is told of a failed change may suppress it or
not: a dry run calls no hook. In a real run that succeeds the report tells the calls: for each table
in order the hook after its creation, or the one for every other table, with the one for a failed
change before it when that was suppressed; and in the end, after the commit, the hook for it, once.
A run that a table stops has made the calls for the tables before it, and at most the one for its
failed change. -/
theorem run_events (hhooks : m.hooks.Succeed) {result : Except MigrationError Report}
    (h : (m.recorded.run b.recorded).run s = (result, t)) :
    (m.dryRun = true → t.2 = s.2)
      ∧ (m.dryRun = false → ∀ report, result = .ok report → t.2 = s.2 ++ report.events)
      ∧ (m.dryRun = false → ∀ reports model u e v, m.recorded.Reaches b.recorded s reports model u →
        (m.recorded.migrateModel b.recorded model).run u = (.error e, v) →
          result = .error e
            ∧ (t.2 = s.2 ++ reports.flatMap TableReport.events
              ∨ t.2 = s.2 ++ reports.flatMap TableReport.events
                ++ [.afterAlterError model.table])) := by
  refine ⟨fun hdry => ?_, fun hreal report hok => ?_, ?_⟩
  · exact (run_dry_moves (m := m.recorded) hdry Backend.recorded_looks
      b.rollback.onFirst_sameEvents).of_run h
  · rw [hok] at h
    obtain ⟨u, v, ⟨x, tables, hschema, hmodels, rfl⟩, hcommit, hhook⟩ :=
      (run_eq_ok (m := m.recorded) hreal).mp h
    have hx : x.2 = s.2 := (Backend.recorded_looks.ensureSchema _).of_run hschema
    calc t.2 = v.2 ++ [.afterCommit _] := (Work.noted_eq hhook).2
      _ = u.2 ++ [.commit] ++ [.afterCommit _] := by rw [Backend.recorded_commit hcommit]
      _ = s.2 ++ tables.flatMap TableReport.events ++ [.commit] ++ [.afterCommit _] := by
        rw [hmodels.events hreal, hx]
      _ = s.2 ++ Report.events ⟨m.recorded.schema, m.recorded.dryRun, tables⟩ := by
        simp [Report.events]
  · intro hreal reports model u e v hreach hmodel
    obtain ⟨hresult, ht⟩ := Prod.mk.inj (h.symm.trans (hreach.failsWith hmodel).run_eq)
    obtain ⟨before, after, x, -, hschema, hbefore⟩ := hreach
    have hx : x.2 = s.2 := (Backend.recorded_looks.ensureSchema _).of_run hschema
    have hu : u.2 = s.2 ++ reports.flatMap TableReport.events := by
      rw [hbefore.events hreal, hx]
    -- what is noted is not rolled back
    have hrolledBack : t.2 = v.2 := by
      rw [ht]
      exact b.rollback.onFirst_sameEvents v
    rw [hrolledBack, ← hu]
    exact ⟨hresult, (migrateModel_eq_error hmodel).events hreal hhooks⟩

/-- The migration of the notes, with a hook that lets the run go on when they could not be
changed. -/
def suppressedNotes : Migrator Memory where
  store := noteMigrator.store
  hooks := { afterAlterError := fun _ _ => pure () }

/-- The snapshot of the notes cannot be saved. With one hook the run goes on and ends with a commit,
with the other it stops. -/
theorem run_events_notes :
    (∃ report t, (suppressedNotes.recorded.run Memory.backend.recorded).run (unsaved, [])
        = (.ok report, t)
      ∧ t.2 = [.afterAlterError "note", .afterMigrate "note", .commit, .afterCommit report])
    ∧ ∃ e t, (refusedNotes.recorded.run Memory.backend.recorded).run (unsaved, []) = (.error e, t)
      ∧ (t.2 = [] ∨ t.2 = [.afterAlterError "note"]) := by
  constructor
  · have hrun : ((suppressedNotes.recorded.run Memory.backend.recorded).run (unsaved, [])).1
        = .ok ⟨"s", false, [⟨"note", .suppressed, []⟩]⟩ := by
      decide +kernel
    have hhooks : suppressedNotes.hooks.Succeed :=
      ⟨fun _ _ => rfl, fun _ _ => rfl, fun _ _ => rfl⟩
    have hevents := (run_events hhooks rfl).2.1 rfl _ hrun
    exact ⟨_, _, Work.run_eq_ok hrun, hevents⟩
  · have hmodel : ((refusedNotes.recorded.migrateModel Memory.backend.recorded noteModel).run
        ((Memory.backend.recorded.ensureSchema "s").run (unsaved, [])).2).1
        = .error (.hook "replaced") := by
      decide +kernel
    have hhooks : refusedNotes.hooks.Succeed := ⟨fun _ _ => rfl, fun _ _ => rfl, fun _ _ => rfl⟩
    obtain ⟨hresult, hevents⟩ := (run_events hhooks rfl).2.2 rfl [] noteModel _ _ _
      (reaches_notes rfl (Work.run_eq_ok rfl)) (Prod.ext hmodel rfl)
    exact ⟨_, _, Prod.ext hresult rfl, hevents⟩

end Migrator

end SchemaEvolution
