import SchemaEvolution.Proofs.Migration.Lookup
import SchemaEvolution.Proofs.Migration.Repetition
import SchemaEvolution.Proofs.Relation.Equality

set_option autoImplicit false

/-! # What a committed run leaves

A run that succeeds leaves a snapshot of every table of its models: the desired shape, or one that
equals it, unless the table is reported as suppressed (`Migrator.Leaves`). Every other snapshot is
as it was (`Migrator.run_commits_desired`).

Snapshots are read off a state by an archive (`Archive`). Which of them an operation of the backend
changes is all that is asked of it (`Backend.Archives`): one that fails changes none, so statements
and saves may fail at any call.
-/

namespace SchemaEvolution

variable {σ : Type}

/-- What a state tells of the snapshots, by table. -/
structure Archive (σ : Type) where
  /-- The snapshots that the unit of work sees. -/
  staged : σ → String → Option Relation
  /-- The snapshots that others see. -/
  committed : σ → String → Option Relation

namespace Archive

variable (a : Archive σ)

/-- No snapshot of the unit of work changed. -/
def SameStaged (s t : σ) : Prop := a.staged t = a.staged s

/-- No committed snapshot changed. -/
def SameCommitted (s t : σ) : Prop := a.committed t = a.committed s

/-- The snapshot of a relation's table became the relation, and no other one changed. -/
def Saved (r : Relation) (s t : σ) : Prop :=
  a.staged t = Function.update (a.staged s) r.table (some r)

/-- The snapshot of a table as it is loaded: in normal form, and empty when none is stored. -/
def loaded (s : σ) (table : String) : Relation :=
  ((a.staged s table).map Relation.normalized).getD { table }

/-- The archive of a state with a companion. -/
def beside (τ : Type) : Archive (σ × τ) where
  staged s := a.staged s.1
  committed s := a.committed s.1

instance : IsPreorder σ a.SameStaged where
  refl _ := rfl
  trans _ _ _ hst htu := htu.trans hst

variable {a} {r : Relation} {s t u : σ}

theorem SameStaged.trans_saved (hst : a.SameStaged s t) (htu : a.Saved r t u) : a.Saved r s u := by
  rw [Saved, htu, hst]

theorem Saved.trans_same (hst : a.Saved r s t) (htu : a.SameStaged t u) : a.Saved r s u :=
  htu.trans hst

end Archive

/-- The operations of a backend keep an archive of one namespace. An operation that fails changes no
snapshot. -/
structure Backend.Archives (b : Backend σ) (schema : String) (a : Archive σ) : Prop where
  looks : b.LooksAlong a.SameStaged
  execute : ∀ sql, (b.execute sql).Moves a.SameStaged
  loaded : ∀ {table s r t}, (b.loadSnapshot schema table).run s = (.ok r, t) →
    r = a.loaded s table
  saved : ∀ {r s t}, (b.saveSnapshot schema r).run s = (.ok (), t) → a.Saved r.normalized s t
  notSaved : ∀ {r s e t}, (b.saveSnapshot schema r).run s = (.error e, t) → a.SameStaged s t
  published : ∀ {s t}, b.commit.run s = (.ok (), t) → a.committed t = a.staged s

/-- Hooks that change no snapshot: in the unit of work none that it sees, and none at all after
it. -/
structure Hooks.KeepArchive (h : Hooks σ) (a : Archive σ) : Prop where
  afterCreate : ∀ c, (h.afterCreate c).Moves a.SameStaged
  afterAlterError : ∀ c e, (h.afterAlterError c e).Moves a.SameStaged
  afterMigrate : ∀ c, (h.afterMigrate c).Moves a.SameStaged
  afterCommit : ∀ report, (h.afterCommit report).Moves a.SameCommitted

/-! ## The archive of the backend in memory -/

namespace Memory

/-- The snapshots of the two contents. -/
def archive : Archive Memory where
  staged s table := s.staged.snapshots.lookup table
  committed s table := s.committed.snapshots.lookup table

theorem call_sameStaged (parts : List String) : (call parts).Moves archive.SameStaged := by
  intro s
  rw [call_state]
  rfl

/-- The archive of the backend in memory, whatever fault its operations ask. -/
theorem archives [Json.Codec] [Json.LawfulCodec] (schema : String) :
    backend.Archives schema archive where
  looks := looksAlong (fun name args _ => call_sameStaged (name :: args)) fun _ _ => rfl
  execute sql := call_sameStaged ["execute", sql]
  loaded {table s r t} h := by
    obtain ⟨_, u, hcall, h⟩ := Work.bind_eq_ok.mp h
    have hsame : archive.SameStaged s u := (call_sameStaged _).of_run hcall
    cases h
    rw [Archive.loaded, ← hsame]
    rfl
  saved {r s t} h := by
    obtain ⟨_, u, hcall, h⟩ := Work.bind_eq_ok.mp h
    have hsame : archive.SameStaged s u := (call_sameStaged _).of_run hcall
    rw [Relation.ofSnapshot?_snapshot] at h
    cases h
    refine hsame.trans_saved (funext fun table => ?_)
    show (put r.table r.normalized u.staged.snapshots).lookup table = _
    rw [lookup_put, Function.update_apply]
    rfl
  notSaved {r s e t} h := by
    rcases Work.bind_eq_error.mp h with hcall | ⟨_, u, hcall, h⟩
    · exact (call_sameStaged _).of_run hcall
    · rw [Relation.ofSnapshot?_snapshot] at h
      cases h
  published {s t} h := by
    obtain ⟨_, u, hcall, h⟩ := Work.bind_eq_ok.mp h
    have hsame : archive.SameStaged s u := (call_sameStaged _).of_run hcall
    cases h
    exact hsame

end Memory

/-- A backend keeps the archive beside a companion as well. -/
theorem Backend.Archives.beside {b : Backend σ} {schema : String} {a : Archive σ}
    (hb : b.Archives schema a) (τ : Type) : (b.beside τ).Archives schema (a.beside τ) where
  looks := hb.looks.beside τ
  execute sql := (hb.execute sql).onFirst
  loaded h := hb.loaded (Work.onFirst_eq h)
  saved h := hb.saved (Work.onFirst_eq h)
  notSaved h := hb.notSaved (Work.onFirst_eq h)
  published h := hb.published (Work.onFirst_eq h)

namespace Migrator

/-! ## One model -/

/-- What a run leaves of the table of a model, given the snapshots before and after it: a table that
is not reported as created or altered keeps its snapshot, and one that is not reported as suppressed
has one that equals the desired shape, whose column names have to be distinct if it was saved. -/
structure Leaves (m : Migrator σ) (before after : String → Option Relation) (model : Descriptor)
    (entry : TableReport) : Prop where
  table : entry.table = model.table
  kept : entry.action = .suppressed ∨ entry.action = .unchanged →
    after model.table = before model.table
  recorded : entry.action ≠ .suppressed → ∃ desired r, m.store.desired model = .ok desired
    ∧ after model.table = some r
    ∧ (DistinctNames (desired.columns.map (·.name)) → r.sameAs desired = true)

section Archives

variable {m : Migrator σ} {b : Backend σ} {a : Archive σ} {s t : σ}

/-- Only the snapshots before and after of the table itself matter. -/
theorem Leaves.congr {before before' after after' : String → Option Relation}
    {model : Descriptor} {entry : TableReport} (h : m.Leaves before after model entry)
    (hbefore : before' model.table = before model.table)
    (hafter : after' model.table = after model.table) : m.Leaves before' after' model entry where
  table := h.table
  kept haction := by rw [hbefore, hafter, h.kept haction]
  recorded haction := by
    rw [hafter]
    exact h.recorded haction

/-- A desired shape that is saved is what its table is left with. -/
theorem leaves_of_saved {model : Descriptor} {entry : TableReport} {desired : Relation}
    (hdesired : m.store.desired model = .ok desired) (htable : entry.table = desired.table)
    (haction : entry.action = .created ∨ entry.action = .altered) (hsaved : a.Saved desired s t) :
    m.Leaves (a.staged s) (a.staged t) model entry
      ∧ ∀ table, table ≠ model.table → a.staged t table = a.staged s table := by
  have hasks := Store.asks_of_desired hdesired
  rw [Archive.Saved, hasks.table] at hsaved
  refine ⟨⟨htable.trans hasks.table, fun hkept => ?_, fun _ => ?_⟩, fun table hne => ?_⟩
  · rcases haction with haction | haction <;> rw [haction] at hkept <;> simp at hkept
  · refine ⟨desired, desired, hdesired, ?_, fun hcolumns => ?_⟩
    · rw [hsaved, Function.update_self]
    · exact Relation.sameAs_self hcolumns hasks.distinctIndexes
  · rw [hsaved, Function.update_of_ne hne]

/-- A table that is up to date has a snapshot, and it equals the desired shape. -/
theorem exists_snapshot_of_isUpToDate {table : String} {desired : Relation}
    {live : List LiveIndex} (hne : desired.columns ≠ [])
    (hup : isUpToDate (a.loaded s table) desired live = true) :
    ∃ r, a.staged s table = some r ∧ r.sameAs desired = true := by
  have hsame := ((Bool.and_eq_true _ _).mp hup).1
  rw [Archive.loaded] at hsame
  cases hstored : a.staged s table with
  | none =>
      rw [hstored] at hsame
      obtain ⟨-, ⟨hlength, -⟩, -⟩ := Relation.sameAs_iff_foundIn.mp hsame
      exact absurd (List.eq_nil_of_length_eq_zero hlength.symm) hne
  | some r =>
      rw [hstored] at hsame
      exact ⟨r, rfl, Relation.sameAs_of_normalized hsame⟩

variable (hb : b.Archives m.schema a)

include hb

theorem LookedUp.last_eq {model : Descriptor} {c : HookContext} {live : List LiveIndex}
    {isNew : Bool} (h : m.LookedUp b model s c live isNew t) :
    c.last = a.loaded s model.table := by
  obtain ⟨u, v, hlive, hlast, -⟩ := h.found
  have hsame : a.SameStaged s u := (hb.looks.liveIndexes _ _).of_run hlive
  rw [hb.loaded hlast, Archive.loaded, Archive.loaded, hsame]

theorem apply_moves (phase : Phase) (p : Plan) : (m.apply b phase p).Moves a.SameStaged := by
  refine .bind ?_ fun _ => .pure _
  unfold really
  split
  · exact .pure ()
  · exact .bind (.forEach (fun sql => (hb.execute sql).inPhase _ _) _) fun _ => .pure ()

variable (hreal : m.dryRun = false)

include hreal

theorem save_archived {desired : Relation} (hnormal : desired.normalized = desired)
    (h : (m.save b desired).run s = (.ok (), t)) : a.Saved desired s t := by
  rw [save, really_eq hreal] at h
  have hsaved := hb.saved (Work.inPhase_eq_ok.mp h)
  rwa [hnormal] at hsaved

theorem save_notArchived {desired : Relation} {e : MigrationError}
    (h : (m.save b desired).run s = (.error e, t)) : a.SameStaged s t := by
  rw [save, really_eq hreal] at h
  obtain ⟨_, hsave, -⟩ := Work.inPhase_eq_error.mp h
  exact hb.notSaved hsave

theorem alter_archived {last desired : Relation} (hnormal : desired.normalized = desired)
    {live : List LiveIndex} {statements : List String}
    (h : (m.alter b last desired live).run s = (.ok statements, t)) : a.Saved desired s t := by
  obtain ⟨columns, u, plan, v, hcolumns, -, happly, hsave⟩ := alter_eq_ok.mp h
  have hlooked : a.SameStaged s u := (columnsOf_moves hb.looks desired).of_run hcolumns
  have happlied : a.SameStaged u v := (apply_moves hb _ plan).of_run happly
  exact (trans_of a.SameStaged hlooked happlied).trans_saved (save_archived hb hreal hnormal hsave)

/-- A change that fails saves no snapshot, wherever it fails. -/
theorem alter_notArchived {last desired : Relation} {live : List LiveIndex} {e : MigrationError}
    (h : (m.alter b last desired live).run s = (.error e, t)) : a.SameStaged s t := by
  cases stopsAltering_of_error h with
  | columns hcolumns => exact (columnsOf_moves hb.looks desired).of_run hcolumns
  | plan hcolumns => exact (columnsOf_moves hb.looks desired).of_run hcolumns
  | statement hcolumns _ happly =>
      exact trans_of a.SameStaged ((columnsOf_moves hb.looks desired).of_run hcolumns)
        ((apply_moves hb _ _).of_run happly)
  | snapshot hcolumns _ happly hsave =>
      have hlooked := (columnsOf_moves hb.looks desired).of_run hcolumns
      have happlied := (apply_moves hb _ _).of_run happly
      exact trans_of a.SameStaged (trans_of a.SameStaged hlooked happlied)
        (save_notArchived hb hreal hsave)

variable (hhooks : m.hooks.KeepArchive a)

include hhooks

theorem create_archived {c : HookContext} (hnormal : c.desired.normalized = c.desired)
    {report : TableReport} (h : (m.create b c).run s = (.ok report, t)) :
    report.action = .created ∧ report.table = c.desired.table ∧ a.Saved c.desired s t := by
  obtain ⟨statements, u, v, happly, hsave, hhook, rfl⟩ := create_eq_ok.mp h
  rw [really_eq hreal] at hhook
  have happlied : a.SameStaged s u := (apply_moves hb _ _).of_run happly
  have hsaved := save_archived hb hreal hnormal hsave
  have hhooked : a.SameStaged v t := (hhooks.afterCreate c).of_run hhook
  exact ⟨rfl, rfl, (happlied.trans_saved hsaved).trans_same hhooked⟩

/-- What processing a model does to the snapshots that the unit of work sees. -/
theorem Processed.leaves {model : Descriptor} {report : TableReport}
    (h : m.Processed b model s report t) :
    m.Leaves (a.staged s) (a.staged t) model report
      ∧ ∀ table, table ≠ model.table → a.staged t table = a.staged s table := by
  have hafter : ∀ {c u v}, (m.really (m.hooks.afterMigrate c)).run u = (.ok (), v) →
      a.SameStaged u v := by
    intro c u v hhook
    rw [really_eq hreal] at hhook
    exact (hhooks.afterMigrate c).of_run hhook
  cases h with
  | @created c live u _ _ hlooked hcreate =>
      have hasks := Store.asks_of_desired hlooked.desired
      have hsame : a.SameStaged s u := hlooked.along hb.looks
      obtain ⟨haction, htable, hsaved⟩ := create_archived hb hreal hhooks hasks.normal hcreate
      exact leaves_of_saved hlooked.desired htable (.inl haction) (hsame.trans_saved hsaved)
  | @unchanged c live u _ hlooked hup hhook =>
      have hasks := Store.asks_of_desired hlooked.desired
      have hsame : a.SameStaged s t := trans_of a.SameStaged (hlooked.along hb.looks) (hafter hhook)
      rw [hlooked.last_eq hb] at hup
      obtain ⟨r, hstored, hequal⟩ := exists_snapshot_of_isUpToDate hasks.columns_ne_nil hup
      rw [← hsame] at hstored
      refine ⟨⟨hasks.table, fun _ => congrFun hsame _, fun _ => ?_⟩, fun _ _ => congrFun hsame _⟩
      exact ⟨c.desired, r, hlooked.desired, hstored, fun _ => hequal⟩
  | @altered c live u v _ statements hlooked hup halter hhook =>
      have hasks := Store.asks_of_desired hlooked.desired
      have hsame : a.SameStaged s u := hlooked.along hb.looks
      have hsaved := (alter_archived hb hreal hasks.normal halter).trans_same (hafter hhook)
      exact leaves_of_saved hlooked.desired rfl (.inr rfl) (hsame.trans_saved hsaved)
  | @suppressed c live u v w _ e hlooked hup halter _ hsuppress hhook =>
      have hasks := Store.asks_of_desired hlooked.desired
      have hlookedUp : a.SameStaged s u := hlooked.along hb.looks
      have hfailed := alter_notArchived hb hreal halter
      have hsuppressed : a.SameStaged v w := (hhooks.afterAlterError c e).of_run hsuppress
      have hsame : a.SameStaged s t := ((hafter hhook).trans hsuppressed).trans
        (hfailed.trans hlookedUp)
      refine ⟨⟨hasks.table, fun _ => congrFun hsame _, fun hnot => ?_⟩,
        fun _ _ => congrFun hsame _⟩
      exact absurd rfl hnot

/-! ## All models -/

/-- Model after model, a table is left as its own model leaves it, for tables are distinct. The
snapshots before the first model are those that each model is compared with. -/
theorem ProcessedAll.leaves {models : List Descriptor} {reports : List TableReport}
    (h : m.ProcessedAll b models s reports t) (hnodup : (models.map (·.table)).Nodup)
    {before : String → Option Relation}
    (hbefore : ∀ model ∈ models, before model.table = a.staged s model.table) :
    List.Forall₂ (m.Leaves before (a.staged t)) models reports
      ∧ ∀ table, table ∉ models.map (·.table) → a.staged t table = a.staged s table := by
  induction h with
  | nil s => exact ⟨.nil, fun _ _ => rfl⟩
  | @cons model models s u t report reports hmodel _ ih =>
      obtain ⟨hnot, hnodup⟩ := List.nodup_cons.mp hnodup
      obtain ⟨hleaves, hothers⟩ := hmodel.leaves hb hreal hhooks
      -- the models to come find their snapshots as they were before the run
      have hrest : ∀ model' ∈ models, before model'.table = a.staged u model'.table := by
        intro model' hmem
        have hne : model'.table ≠ model.table := fun heq =>
          hnot (List.mem_map.mpr ⟨model', hmem, heq⟩)
        rw [hothers _ hne, hbefore model' (List.mem_cons_of_mem model hmem)]
      obtain ⟨hall, hframe⟩ := ih hnodup hrest
      refine ⟨.cons (hleaves.congr (hbefore model List.mem_cons_self) (hframe _ hnot)) hall, ?_⟩
      intro table htable
      rw [List.map_cons, List.mem_cons, not_or] at htable
      rw [hframe table htable.2, hothers table htable.1]

end Archives

/-- What a run leaves that succeeds and is not dry, when the tables of its models are distinct and
its hooks change no snapshot. The report has one entry for each model, in the order of registration.
The committed snapshot of a table equals the shape that its model asks for, unless the change of the
table was suppressed; then, and for a table that no model declares, it is the one that the unit of
work saw before the run. -/
theorem run_commits_desired {m : Migrator σ} {b : Backend σ} {a : Archive σ}
    (hb : b.Archives m.schema a) (hreal : m.dryRun = false)
    (htables : (m.store.models.map (·.table)).Nodup) (hhooks : m.hooks.KeepArchive a) {s t : σ}
    {report : Report} (h : (m.run b).run s = (.ok report, t)) :
    List.Forall₂ (m.Leaves (a.staged s) (a.committed t)) m.store.models report.tables
      ∧ ∀ table, table ∉ m.store.models.map (·.table) →
        a.committed t table = a.staged s table := by
  obtain ⟨u, w, ⟨v, tables, hschema, hmodels, rfl⟩, hcommit, hhook⟩ := (run_eq_ok hreal).mp h
  have hensured : a.SameStaged s v := (hb.looks.ensureSchema _).of_run hschema
  have hhooked : a.SameCommitted w t := (hhooks.afterCommit _).of_run hhook
  have hcommitted : a.committed t = a.staged u := hhooked.trans (hb.published hcommit)
  rw [hcommitted, ← hensured]
  exact hmodels.leaves hb hreal hhooks htables fun _ _ => rfl

/-- The migration of the notes and of the tasks, with a hook that lists the tables whose change
failed and lets the run go on. -/
def notesAndTasks : Migrator (Memory × List String) where
  store := (Store.add { namespaceName := "s" } 0 noteModel).add 1 taskMigrator.taskModel
  hooks := { afterAlterError := fun c _ => .update fun s => (s.1, s.2 ++ [c.desired.table]) }

/-- A table that no model declares. -/
def logTable : Relation where
  table := "log"
  columns := [{ name := "line", dataType := "TEXT" }]

/-- Old notes and a log, in a database in which the index of the notes cannot be created. -/
def notesAndLog : Memory where
  committed := { oldNotes with snapshots := ("log", logTable) :: oldNotes.snapshots }
  staged := { oldNotes with snapshots := ("log", logTable) :: oldNotes.snapshots }
  fault calls :=
    if calls.head? = some "execute CREATE INDEX note_title ON s.note(title)" then
      some .noTransaction
    else none

/-- The tasks are created although the notes could not be changed; the snapshots of the notes and of
the log stay. -/
theorem run_commits_desired_notes :
    ∃ report t, (notesAndTasks.run (Memory.backend.beside _)).run (notesAndLog, [])
        = (.ok report, t)
      ∧ report.tables = [⟨"note", .suppressed, []⟩, ⟨"task", .created,
        ["CREATE TABLE s.task (title VARCHAR(19) NOT NULL DEFAULT '')"]⟩]
      ∧ t.1.committed.snapshots.lookup "note" = oldNotes.snapshots.lookup "note"
      ∧ t.1.committed.snapshots.lookup "log" = some logTable
      ∧ ∃ desired r, notesAndTasks.store.desired taskMigrator.taskModel = .ok desired
        ∧ t.1.committed.snapshots.lookup "task" = some r ∧ r.sameAs desired = true := by
  have hrun : ((notesAndTasks.run (Memory.backend.beside _)).run (notesAndLog, [])).1
      = .ok ⟨"s", false, [⟨"note", .suppressed, []⟩, ⟨"task", .created,
        ["CREATE TABLE s.task (title VARCHAR(19) NOT NULL DEFAULT '')"]⟩]⟩ := by
    decide +kernel
  have hhooks : notesAndTasks.hooks.KeepArchive (Memory.archive.beside _) :=
    ⟨fun _ _ => rfl, fun _ _ _ => rfl, fun _ _ => rfl, fun _ _ => rfl⟩
  obtain ⟨hleaves, hothers⟩ := run_commits_desired ((Memory.archives _).beside _) rfl
    (by decide +kernel) hhooks (Work.run_eq_ok hrun)
  obtain ⟨hnote, htask⟩ := List.forall₂_cons.mp hleaves
  obtain ⟨htask, -⟩ := List.forall₂_cons.mp htask
  have hcolumns : ∀ desired, notesAndTasks.store.desired taskMigrator.taskModel = .ok desired →
      DistinctNames (desired.columns.map (·.name)) := fun desired hdesired =>
    (Store.asks_of_desired hdesired).distinctColumns (by decide +kernel)
  obtain ⟨desired, r, hdesired, hstored, hequal⟩ := htask.recorded (by decide)
  exact ⟨_, _, Work.run_eq_ok hrun, rfl, hnote.kept (.inl rfl), hothers "log" (by decide +kernel),
    desired, r, hdesired, hstored, hequal (hcolumns desired hdesired)⟩

end Migrator

end SchemaEvolution
