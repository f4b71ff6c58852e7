import SchemaEvolution.Proofs.Migration.Lookup
import SchemaEvolution.Proofs.Migration.Repetition

set_option autoImplicit false

/-! # What a run executes and what it reports

A table that is created or changed is reported with the statements that were executed for it. A
table whose change failed and was suppressed is reported with none, although the statements before
the one that failed were executed, and stay so when the run commits (`Migrator.Account`). So the
report of a run lists what was executed exactly when every suppressed change failed before its first
statement (`Migrator.executed_eq_reported_iff`).

Which statements were executed and which snapshots are recorded is read off the state by a journal
(`Journal`), which every operation of a backend carries on in its own way (`Backend.Journalled`).
-/

namespace SchemaEvolution

/-- What a state tells of the statements and snapshots so far. -/
structure Journal (σ : Type) where
  /-- The statements that were executed and did not fail, in order. -/
  executed : σ → List String
  /-- The snapshot of a table, as the unit of work sees it. -/
  recorded : σ → String → Option Relation

namespace Journal

variable {σ : Type} (j : Journal σ)

/-- No statement was executed. -/
def SameExecuted (s t : σ) : Prop := j.executed t = j.executed s

/-- No snapshot changed. -/
def SameRecorded (s t : σ) : Prop := j.recorded t = j.recorded s

/-- The statements `ran` were executed, and no snapshot changed but those of `tables`. -/
structure Adds (ran tables : List String) (s t : σ) : Prop where
  executed : j.executed t = j.executed s ++ ran
  recorded : ∀ table ∉ tables, j.recorded t table = j.recorded s table

/-- The journal without its snapshots. -/
def unrecorded : Journal σ := { j with recorded := fun _ _ => none }

/-- The journal of a state with a companion. -/
def beside (τ : Type) : Journal (σ × τ) where
  executed s := j.executed s.1
  recorded s := j.recorded s.1

variable {j} {ran ran' tables tables' : List String} {s t u : σ}

theorem Adds.trans (hst : j.Adds ran tables s t) (htu : j.Adds ran' tables' t u) :
    j.Adds (ran ++ ran') (tables ++ tables') s u where
  executed := by rw [htu.executed, hst.executed, List.append_assoc]
  recorded table htable := by
    rw [List.mem_append, not_or] at htable
    rw [htu.recorded table htable.2, hst.recorded table htable.1]

theorem Adds.refl (s : σ) : j.Adds [] [] s s := ⟨(List.append_nil _).symm, fun _ _ => rfl⟩

instance : IsPreorder σ (j.Adds [] []) where
  refl := .refl
  trans _ _ _ hst htu := hst.trans htu

theorem Adds.append_nil (hst : j.Adds ran tables s t) (htu : j.Adds [] [] t u) :
    j.Adds ran tables s u := by
  simpa using hst.trans htu

theorem Adds.nil_append (hst : j.Adds [] [] s t) (htu : j.Adds ran tables t u) :
    j.Adds ran tables s u :=
  hst.trans htu

theorem Adds.unrecorded (h : j.Adds ran tables s t) : j.unrecorded.Adds ran tables' s t :=
  ⟨h.executed, fun _ _ => rfl⟩

end Journal

/-- The operations of a backend carry a journal on. An operation that fails leaves it as it was. -/
structure Backend.Journalled {σ : Type} (b : Backend σ) (j : Journal σ) : Prop where
  looks : b.LooksAlong (j.Adds [] [])
  commit : b.commit.Moves (j.Adds [] [])
  executed : ∀ {sql s t}, (b.execute sql).run s = (.ok (), t) → j.Adds [sql] [] s t
  notExecuted : ∀ {sql s e t}, (b.execute sql).run s = (.error e, t) → j.Adds [] [] s t
  saved : ∀ {schema r s t}, (b.saveSnapshot schema r).run s = (.ok (), t) →
    j.Adds [] [r.table] s t
  notSaved : ∀ {schema r s e t}, (b.saveSnapshot schema r).run s = (.error e, t) → j.Adds [] [] s t

/-- Hooks that take the state along `R`. -/
structure Hooks.Moves {σ : Type} (h : Hooks σ) (R : σ → σ → Prop) : Prop where
  afterCreate : ∀ c, (h.afterCreate c).Moves R
  afterAlterError : ∀ c e, (h.afterAlterError c e).Moves R
  afterMigrate : ∀ c, (h.afterMigrate c).Moves R
  afterCommit : ∀ report, (h.afterCommit report).Moves R

section Relations

variable {σ : Type} {R R' : σ → σ → Prop} {h : Hooks σ}

theorem Hooks.Moves.mono (hh : h.Moves R) (hR : ∀ s t, R s t → R' s t) : h.Moves R' where
  afterCreate c := (hh.afterCreate c).mono hR
  afterAlterError c e := (hh.afterAlterError c e).mono hR
  afterMigrate c := (hh.afterMigrate c).mono hR
  afterCommit report := (hh.afterCommit report).mono hR

theorem Hooks.Moves.and (hh : h.Moves R) (hh' : h.Moves R') :
    h.Moves fun s t => R s t ∧ R' s t where
  afterCreate c s := ⟨hh.afterCreate c s, hh'.afterCreate c s⟩
  afterAlterError c e s := ⟨hh.afterAlterError c e s, hh'.afterAlterError c e s⟩
  afterMigrate c s := ⟨hh.afterMigrate c s, hh'.afterMigrate c s⟩
  afterCommit report s := ⟨hh.afterCommit report s, hh'.afterCommit report s⟩

/-- Without its snapshots a journal is carried on as well. -/
theorem Backend.Journalled.unrecorded {b : Backend σ} {j : Journal σ} (hb : b.Journalled j) :
    b.Journalled j.unrecorded where
  looks := hb.looks.mono fun _ _ h => h.unrecorded
  commit := hb.commit.mono fun _ _ h => h.unrecorded
  executed h := (hb.executed h).unrecorded
  notExecuted h := (hb.notExecuted h).unrecorded
  saved h := (hb.saved h).unrecorded
  notSaved h := (hb.notSaved h).unrecorded

end Relations

/-! ## The journal of the backend in memory -/

namespace Memory

/-- The statement whose execution a call notes. -/
def statementOf? (call : String) : Option String :=
  if "execute ".toList.isPrefixOf call.toList then some (String.ofList (call.toList.drop 8))
  else none

/-- The statements that were executed by calls, the latest of which comes first. -/
def executedBy (fault : List String → Option MigrationError) : List String → List String
  | [] => []
  | call :: earlier =>
    executedBy fault earlier
      ++ if (fault (call :: earlier)).isNone then (statementOf? call).toList else []

/-- The statements are read off the calls, the snapshots are the staged ones. -/
def journal : Journal Memory where
  executed s := executedBy s.fault s.calls
  recorded s table := s.staged.snapshots.lookup table

theorem statementOf?_execute (sql : String) :
    statementOf? (" ".intercalate ["execute", sql]) = some sql := by
  have htext : (" ".intercalate ["execute", sql]).toList = "execute ".toList ++ sql.toList := by
    show ("execute" ++ " " ++ sql).toList = _
    simp [String.toList_append]
  rw [statementOf?, htext, if_pos (List.isPrefixOf_iff_prefix.mpr (List.prefix_append _ _))]
  show some (String.ofList (List.drop 8 ("execute ".toList ++ sql.toList))) = some sql
  rw [List.drop_left' (by decide), String.ofList_toList]

theorem statementOf?_eq_none {call : String} (h : ¬ Migrator.NotesExecution call) :
    statementOf? call = none := by
  rw [statementOf?, if_neg]
  intro hprefix
  obtain ⟨rest, hrest⟩ := List.isPrefixOf_iff_prefix.mp hprefix
  refine h ⟨String.ofList rest, String.toList_injective ?_⟩
  show _ = ("execute" ++ " " ++ String.ofList rest).toList
  rw [← hrest]
  simp [String.toList_append]

theorem executed_noted (s : Memory) (parts : List String) :
    journal.executed (s.noted parts) = journal.executed s
      ++ if (s.fault (" ".intercalate parts :: s.calls)).isNone then
          (statementOf? (" ".intercalate parts)).toList
        else [] := rfl

theorem call_adds_nothing {name : String} {args : List String}
    (hname : 2 ≤ name.toList.length ∧ name.toList.take 2 ≠ ['e', 'x']) :
    (call (name :: args)).Moves (journal.Adds [] []) := by
  intro s
  rw [call_state]
  refine ⟨?_, fun _ _ => rfl⟩
  rw [executed_noted, statementOf?_eq_none (Migrator.not_notesExecution name args hname)]
  simp

/-- The journal of the backend in memory, whatever fault its operations ask. -/
theorem journalled [Json.Codec] : backend.Journalled journal where
  looks := by
    refine looksAlong (fun name args hname => ?_) fun f s =>
      ⟨(List.append_nil _).symm, fun _ _ => rfl⟩
    simp only [List.mem_cons, List.not_mem_nil, or_false] at hname
    rcases hname with rfl | rfl | rfl | rfl <;> exact call_adds_nothing (by decide)
  commit := .bind (call_adds_nothing (by decide)) fun _ s =>
    ⟨(List.append_nil _).symm, fun _ _ => rfl⟩
  executed {sql s t} h := by
    obtain ⟨hfault, rfl⟩ := call_eq_ok.mp h
    refine ⟨?_, fun _ _ => rfl⟩
    rw [executed_noted, hfault, statementOf?_execute]
    rfl
  notExecuted {sql s e t} h := by
    obtain ⟨hfault, rfl⟩ := call_eq_error.mp h
    refine ⟨?_, fun _ _ => rfl⟩
    rw [executed_noted, hfault]
    rfl
  saved {schema r s t} h := by
    obtain ⟨_, u, hcall, h⟩ := Work.bind_eq_ok.mp h
    have hnoted : journal.Adds [] [] s u := (call_adds_nothing (by decide)).of_run hcall
    cases hread : Relation.ofSnapshot? r.snapshot with
    | none =>
        rw [hread] at h
        cases h
    | some stored =>
        rw [hread] at h
        cases h
        refine hnoted.nil_append ⟨(List.append_nil _).symm, fun table htable => ?_⟩
        show (put r.table stored u.staged.snapshots).lookup table = _
        rw [lookup_put, if_neg (List.mem_singleton.not.mp htable)]
        rfl
  notSaved {schema r s e t} h := by
    have hnothing : (call ["save_snapshot", schema, r.table]).Moves (journal.Adds [] []) :=
      call_adds_nothing (by decide)
    rcases Work.bind_eq_error.mp h with hcall | ⟨_, u, hcall, h⟩
    · exact hnothing.of_run hcall
    · cases hread : Relation.ofSnapshot? r.snapshot with
      | none =>
          rw [hread] at h
          cases h
          exact hnothing.of_run hcall
      | some stored =>
          rw [hread] at h
          cases h

end Memory

/-- A backend carries the journal on beside a companion as well. -/
theorem Backend.Journalled.beside {σ : Type} {b : Backend σ} {j : Journal σ} (hb : b.Journalled j)
    (τ : Type) : (b.beside τ).Journalled (j.beside τ) := by
  have hadds : ∀ {ran tables : List String} {s t : σ × τ}, j.Adds ran tables s.1 t.1 →
      (j.beside τ).Adds ran tables s t := fun h => ⟨h.1, h.2⟩
  exact {
    looks := (hb.looks.beside τ).mono fun _ _ => hadds
    commit := hb.commit.onFirst.mono fun _ _ => hadds
    executed h := hadds (hb.executed (Work.onFirst_eq h))
    notExecuted h := hadds (hb.notExecuted (Work.onFirst_eq h))
    saved h := hadds (hb.saved (Work.onFirst_eq h))
    notSaved h := hadds (hb.notSaved (Work.onFirst_eq h)) }

namespace Migrator

open Memory

variable {σ : Type}

/-- What was executed for a table that is reported so. -/
inductive Account (m : Migrator σ) : TableReport → List String → Prop where
  | reported {report : TableReport} (h : report.action ≠ .suppressed) :
    Account m report report.statements
  /-- The change failed before it was planned. -/
  | unplanned (table : String) : Account m ⟨table, .suppressed, []⟩ []
  /-- The change failed on the way. -/
  | stopped {last desired : Relation} {columns : List LiveColumn} {live : List LiveIndex}
    {plan : Plan} {ran : List String}
    (hplan : Plan.alter m.schema last desired columns live = .ok plan)
    (hran : ran <+: plan.statements) : Account m ⟨desired.table, .suppressed, []⟩ ran

/-- The tables whose snapshot a reported table changes. -/
def saves (report : TableReport) : List String :=
  if report.action = .suppressed then [] else [report.table]

section Journalled

variable {m : Migrator σ} {b : Backend σ} {j : Journal σ} {s t : σ} (hb : b.Journalled j)
  (hreal : m.dryRun = false)

include hb

theorem forEach_executed {phase : Phase} {table : String} {statements : List String}
    {units : List Unit}
    (h : (Work.forEach (fun sql => (b.execute sql).inPhase phase table) statements).run s
      = (.ok units, t)) : j.Adds statements [] s t := by
  induction statements generalizing s units with
  | nil =>
      obtain ⟨-, rfl⟩ := Work.pure_eq_ok.mp h
      exact .refl s
  | cons sql rest ih =>
      obtain ⟨_, u, hfirst, h⟩ := Work.bind_eq_ok.mp h
      obtain ⟨units, v, hrest, h⟩ := Work.bind_eq_ok.mp h
      obtain ⟨-, rfl⟩ := Work.pure_eq_ok.mp h
      exact (hb.executed (Work.inPhase_eq_ok.mp hfirst)).trans (ih hrest)

/-- When a statement fails, those before it were executed. -/
theorem forEach_notExecuted {phase : Phase} {table : String} {statements : List String}
    {e : MigrationError}
    (h : (Work.forEach (fun sql => (b.execute sql).inPhase phase table) statements).run s
      = (.error e, t)) : ∃ ran, ran <+: statements ∧ j.Adds ran [] s t := by
  induction statements generalizing s with
  | nil => cases h
  | cons sql rest ih =>
      rcases Work.bind_eq_error.mp h with hfirst | ⟨_, u, hfirst, h⟩
      · obtain ⟨e', hfailed⟩ := Work.inPhase_eq_error.mp hfirst
        exact ⟨[], List.nil_prefix, hb.notExecuted hfailed.1⟩
      · rcases Work.bind_eq_error.mp h with hrest | ⟨units, v, -, h⟩
        · obtain ⟨ran, hran, hadds⟩ := ih hrest
          have hsql := hb.executed (Work.inPhase_eq_ok.mp hfirst)
          exact ⟨sql :: ran, (List.prefix_cons_inj sql).mpr hran, hsql.trans hadds⟩
        · cases h

include hreal

theorem apply_executed {phase : Phase} {p : Plan} {statements : List String}
    (h : (m.apply b phase p).run s = (.ok statements, t)) :
    statements = p.statements ∧ j.Adds statements [] s t := by
  rw [apply, really_eq hreal] at h
  obtain ⟨_, u, hall, h⟩ := Work.bind_eq_ok.mp h
  obtain ⟨rfl, rfl⟩ := Work.pure_eq_ok.mp h
  obtain ⟨_, v, hstatements, hall⟩ := Work.bind_eq_ok.mp hall
  obtain ⟨-, rfl⟩ := Work.pure_eq_ok.mp hall
  exact ⟨rfl, forEach_executed hb hstatements⟩

theorem apply_notExecuted {phase : Phase} {p : Plan} {e : MigrationError}
    (h : (m.apply b phase p).run s = (.error e, t)) :
    ∃ ran, ran <+: p.statements ∧ j.Adds ran [] s t := by
  rw [apply, really_eq hreal] at h
  rcases Work.bind_eq_error.mp h with hall | ⟨_, u, -, h⟩
  · rcases Work.bind_eq_error.mp hall with hstatements | ⟨_, v, -, h⟩
    · exact forEach_notExecuted hb hstatements
    · cases h
  · cases h

theorem save_saved {desired : Relation} (h : (m.save b desired).run s = (.ok (), t)) :
    j.Adds [] [desired.table] s t := by
  rw [save, really_eq hreal] at h
  exact hb.saved (Work.inPhase_eq_ok.mp h)

theorem save_notSaved {desired : Relation} {e : MigrationError}
    (h : (m.save b desired).run s = (.error e, t)) : j.Adds [] [] s t := by
  rw [save, really_eq hreal] at h
  obtain ⟨_, hsave, -⟩ := Work.inPhase_eq_error.mp h
  exact hb.notSaved hsave

theorem alter_executed {last desired : Relation} {live : List LiveIndex}
    {statements : List String}
    (h : (m.alter b last desired live).run s = (.ok statements, t)) :
    j.Adds statements [desired.table] s t := by
  obtain ⟨columns, u, plan, v, hcolumns, -, happly, hsave⟩ := alter_eq_ok.mp h
  have hlooked := (columnsOf_moves hb.looks desired).of_run hcolumns
  have happlied := (apply_executed hb hreal happly).2
  simpa using (hlooked.trans happlied).trans (save_saved hb hreal hsave)

/-- A change that fails has executed the first statements of its plan, if it got so far, and saved
no snapshot. -/
theorem alter_notExecuted {last desired : Relation} {live : List LiveIndex} {e : MigrationError}
    (h : (m.alter b last desired live).run s = (.error e, t)) :
    ∃ ran, m.Account ⟨desired.table, .suppressed, []⟩ ran ∧ j.Adds ran [] s t := by
  cases stopsAltering_of_error h with
  | columns hcolumns =>
      exact ⟨[], .unplanned _, (columnsOf_moves hb.looks desired).of_run hcolumns⟩
  | plan hcolumns =>
      exact ⟨[], .unplanned _, (columnsOf_moves hb.looks desired).of_run hcolumns⟩
  | statement hcolumns hplan happly =>
      have hlooked := (columnsOf_moves hb.looks desired).of_run hcolumns
      obtain ⟨ran, hran, hadds⟩ := apply_notExecuted hb hreal happly
      exact ⟨ran, .stopped hplan hran, hlooked.trans hadds⟩
  | @snapshot _ _ _ plan _ _ hcolumns hplan happly hsave =>
      have hlooked := (columnsOf_moves hb.looks desired).of_run hcolumns
      obtain ⟨rfl, hadds⟩ := apply_executed hb hreal happly
      refine ⟨plan.statements, .stopped hplan (List.prefix_refl _), ?_⟩
      exact (hlooked.trans hadds).append_nil (save_notSaved hb hreal hsave)

variable (hhooks : m.hooks.Moves (j.Adds [] []))

include hhooks

theorem create_executed {c : HookContext} {report : TableReport}
    (h : (m.create b c).run s = (.ok report, t)) :
    report.action = .created ∧ report.table = c.desired.table
      ∧ j.Adds report.statements [c.desired.table] s t := by
  obtain ⟨statements, u, v, happly, hsave, hhook, rfl⟩ := create_eq_ok.mp h
  rw [really_eq hreal] at hhook
  have happlied := (apply_executed hb hreal happly).2
  have hsaved := save_saved hb hreal hsave
  have hhooked := (hhooks.afterCreate c).of_run hhook
  refine ⟨rfl, rfl, ?_⟩
  simpa using (happlied.trans hsaved).append_nil hhooked

/-- What is executed and saved for one model. -/
theorem Processed.account {model : Descriptor} {report : TableReport}
    (h : m.Processed b model s report t) :
    ∃ ran, m.Account report ran ∧ report.table = model.table
      ∧ j.Adds ran (saves report) s t := by
  have htable : ∀ {c live isNew u}, m.LookedUp b model s c live isNew u →
      c.desired.table = model.table ∧ j.Adds [] [] s u := fun hlooked =>
    ⟨(Store.asks_of_desired hlooked.desired).table, hlooked.along hb.looks⟩
  have hafter : ∀ {c u v}, (m.really (m.hooks.afterMigrate c)).run u = (.ok (), v) →
      j.Adds [] [] u v := by
    intro c u v hhook
    rw [really_eq hreal] at hhook
    exact (hhooks.afterMigrate c).of_run hhook
  cases h with
  | created hlooked hcreate =>
      obtain ⟨hdesired, hadds⟩ := htable hlooked
      obtain ⟨haction, hreport, hexecuted⟩ := create_executed hb hreal hhooks hcreate
      have hnot : report.action ≠ .suppressed := by
        rw [haction]
        decide
      refine ⟨report.statements, .reported hnot, hreport.trans hdesired, ?_⟩
      rw [saves, if_neg hnot, hreport]
      exact hadds.nil_append hexecuted
  | unchanged hlooked _ hhook =>
      obtain ⟨hdesired, hadds⟩ := htable hlooked
      have hadds' := hadds.append_nil (hafter hhook)
      refine ⟨[], .reported (by simp), hdesired, hadds'.executed, fun table _ => ?_⟩
      exact hadds'.recorded table (List.not_mem_nil)
  | altered hlooked _ halter hhook =>
      obtain ⟨hdesired, hadds⟩ := htable hlooked
      have hexecuted := alter_executed hb hreal halter
      refine ⟨_, .reported (by simp), hdesired, ?_⟩
      exact (hadds.nil_append hexecuted).append_nil (hafter hhook)
  | suppressed hlooked _ halter _ hsuppress hhook =>
      obtain ⟨hdesired, hadds⟩ := htable hlooked
      obtain ⟨ran, haccount, hran⟩ := alter_notExecuted hb hreal halter
      have hhooked := (hhooks.afterAlterError _ _).of_run hsuppress
      refine ⟨ran, haccount, hdesired, ?_⟩
      exact ((hadds.nil_append hran).append_nil hhooked).append_nil (hafter hhook)

/-- Table after table, the statements executed are those that the reports account for. -/
theorem ProcessedAll.account {models : List Descriptor} {reports : List TableReport}
    (h : m.ProcessedAll b models s reports t) :
    ∃ ran, List.Forall₂ m.Account reports ran ∧ reports.map (·.table) = models.map (·.table)
      ∧ j.Adds ran.flatten (reports.flatMap saves) s t := by
  induction h with
  | nil s => exact ⟨[], .nil, rfl, .refl s⟩
  | cons hmodel _ ih =>
      obtain ⟨ran, haccount, htable, hadds⟩ := hmodel.account hb hreal hhooks
      obtain ⟨others, haccounts, htables, hothers⟩ := ih
      refine ⟨ran :: others, .cons haccount haccounts, ?_, hadds.trans hothers⟩
      rw [List.map_cons, List.map_cons, htable, htables]

/-- What a run that succeeds has executed and saved. -/
theorem run_account {report : Report} (h : (m.run b).run s = (.ok report, t)) :
    ∃ ran, List.Forall₂ m.Account report.tables ran
      ∧ report.tables.map (·.table) = m.store.models.map (·.table)
      ∧ j.Adds ran.flatten (report.tables.flatMap saves) s t := by
  obtain ⟨u, w, ⟨v, tables, hschema, hmodels, rfl⟩, hcommit, hhook⟩ := (run_eq_ok hreal).mp h
  have hensured := (hb.looks.ensureSchema _).of_run hschema
  obtain ⟨ran, haccounts, htables, hadds⟩ := hmodels.account hb hreal hhooks
  have hended := (hb.commit.of_run hcommit).trans ((hhooks.afterCommit _).of_run hhook)
  exact ⟨ran, haccounts, htables, (hensured.nil_append hadds).append_nil hended⟩

end Journalled

/-! ## The report against the journal -/

section Accounts

variable {m : Migrator σ} {report : TableReport} {reports : List TableReport}
  {rans : List (List String)}

theorem Account.eq_of_ne {ran : List String} (h : m.Account report ran)
    (haction : report.action ≠ .suppressed) : ran = report.statements := by
  cases h with
  | reported => rfl
  | unplanned => exact absurd rfl haction
  | stopped => exact absurd rfl haction

theorem Account.statements_eq_nil {ran : List String} (h : m.Account report ran)
    (haction : report.action = .suppressed) : report.statements = [] := by
  cases h with
  | reported hnot => exact absurd haction hnot
  | unplanned => rfl
  | stopped => rfl

theorem length_statements_le (h : List.Forall₂ m.Account reports rans) :
    (reports.flatMap (·.statements)).length ≤ rans.flatten.length := by
  induction h with
  | nil => exact Nat.le_refl 0
  | @cons report ran reports rans haccount _ ih =>
      rw [List.flatMap_cons, List.flatten_cons, List.length_append, List.length_append]
      by_cases haction : report.action = .suppressed
      · rw [haccount.statements_eq_nil haction, List.length_nil]
        omega
      · rw [haccount.eq_of_ne haction]
        omega

/-- The reports list what was executed exactly when nothing was executed for a suppressed table. -/
theorem flatten_eq_statements_iff (h : List.Forall₂ m.Account reports rans) :
    rans.flatten = reports.flatMap (·.statements)
      ↔ ∀ entry ∈ reports.zip rans, entry.1.action = .suppressed → entry.2 = [] := by
  induction h with
  | nil => simp
  | @cons report ran reports rans haccount haccounts ih =>
      rw [List.flatten_cons, List.flatMap_cons, List.zip_cons_cons, List.forall_mem_cons, ← ih]
      by_cases haction : report.action = .suppressed
      · have hlength := length_statements_le haccounts
        rw [haccount.statements_eq_nil haction, List.nil_append]
        constructor
        · intro heq
          have hran : ran = [] := by
            have hsum := congrArg List.length heq
            rw [List.length_append] at hsum
            exact List.eq_nil_of_length_eq_zero (by omega)
          rw [hran, List.nil_append] at heq
          exact ⟨fun _ => hran, heq⟩
        · rintro ⟨hnothing, heq⟩
          have hran : ran = [] := hnothing haction
          rw [hran, List.nil_append, heq]
      · rw [haccount.eq_of_ne haction, List.append_cancel_left_eq]
        exact ⟨fun heq => ⟨fun hsuppressed => absurd hsuppressed haction, heq⟩, fun h => h.2⟩

/-- No other table saves the snapshot of a suppressed one. -/
theorem not_mem_saves (htables : (reports.map (·.table)).Nodup) (hreport : report ∈ reports)
    (haction : report.action = .suppressed) : report.table ∉ reports.flatMap saves := by
  intro hmem
  obtain ⟨other, hother, hsaves⟩ := List.mem_flatMap.mp hmem
  unfold saves at hsaves
  split at hsaves
  · cases hsaves
  · next hnot =>
    have htable : report.table = other.table := List.mem_singleton.mp hsaves
    rw [List.inj_on_of_nodup_map htables hreport hother htable] at haction
    exact hnot haction

end Accounts

/-- A run that succeeds, with hooks that execute nothing themselves, has executed the statements of
the tables that it created or changed, and for a suppressed table the first statements of the plan
that failed. So it has executed the statements of its report exactly when nothing was executed for
a suppressed table. The snapshot of a suppressed table is as it was, when the tables are distinct
and the hooks save none. -/
theorem executed_eq_reported_iff {m : Migrator σ} {b : Backend σ} {j : Journal σ}
    (hb : b.Journalled j) (hreal : m.dryRun = false) (hhooks : m.hooks.Moves j.SameExecuted)
    {s t : σ} {report : Report} (h : (m.run b).run s = (.ok report, t)) :
    ∃ rans, List.Forall₂ m.Account report.tables rans
      ∧ j.executed t = j.executed s ++ rans.flatten
      ∧ (j.executed t = j.executed s ++ report.statements
        ↔ ∀ entry ∈ report.tables.zip rans, entry.1.action = .suppressed → entry.2 = [])
      ∧ ((m.store.models.map (·.table)).Nodup → m.hooks.Moves j.SameRecorded →
        ∀ entry ∈ report.tables, entry.action = .suppressed →
          j.recorded t entry.table = j.recorded s entry.table) := by
  have hunrecorded : m.hooks.Moves (j.unrecorded.Adds [] []) :=
    hhooks.mono fun s t hst => ⟨hst.trans (List.append_nil _).symm, fun _ _ => rfl⟩
  obtain ⟨rans, haccounts, -, hadds⟩ := run_account hb.unrecorded hreal hunrecorded h
  have hexecuted : j.executed t = j.executed s ++ rans.flatten := hadds.executed
  refine ⟨rans, haccounts, hexecuted, ?_, fun htables hrecorded entry hentry haction => ?_⟩
  · rw [hexecuted, List.append_cancel_left_eq]
    exact flatten_eq_statements_iff haccounts
  · have hboth : m.hooks.Moves (j.Adds [] []) :=
      (hhooks.and hrecorded).mono fun s t hst =>
        ⟨hst.1.trans (List.append_nil _).symm, fun table _ => congrFun hst.2 table⟩
    obtain ⟨_, -, hreports, hadds'⟩ := run_account hb hreal hboth h
    rw [← hreports] at htables
    exact hadds'.recorded _ (not_mem_saves htables hentry haction)

/-- The migration of the notes, with a hook that lists the tables whose change failed and lets the
run go on. -/
def lenientNotes : Migrator (Memory × List String) where
  store := noteMigrator.store
  hooks := { afterAlterError := fun c _ => .update fun s => (s.1, s.2 ++ [c.desired.table]) }

/-- Old notes in a database in which their index cannot be created. -/
def unindexable : Memory where
  committed := oldNotes
  staged := oldNotes
  fault calls :=
    if calls.head? = some "execute CREATE INDEX note_title ON s.note(title)" then
      some .noTransaction
    else none

/-- The first two statements of the plan for the notes. -/
def noteStatements : List String :=
  ["UPDATE s.note SET title = '' WHERE title IS NULL",
    "ALTER TABLE s.note ALTER COLUMN title TYPE VARCHAR(19), ALTER COLUMN title SET NOT NULL, "
      ++ "ALTER COLUMN title SET DEFAULT ''"]

/-- The hooks keep to their own part of the state. -/
theorem lenientNotes_moves :
    lenientNotes.hooks.Moves fun s t => t.1 = s.1 where
  afterCreate _ _ := rfl
  afterAlterError _ _ _ := rfl
  afterMigrate _ _ := rfl
  afterCommit _ _ := rfl

/-- The index of the notes cannot be created. What was executed before is not reported, and the
snapshot is as it was. -/
theorem executed_eq_reported_iff_notes :
    ∃ t, (lenientNotes.run (backend.beside _)).run (unindexable, [])
        = (.ok ⟨"s", false, [⟨"note", .suppressed, []⟩]⟩, t)
      ∧ (∃ rans, List.Forall₂ lenientNotes.Account [⟨"note", .suppressed, []⟩] rans
        ∧ rans.flatten = noteStatements)
      ∧ t.2 = ["note"] ∧ t.1.staged.snapshots.lookup "note" = oldNotes.snapshots.lookup "note" := by
  have hrun : ((lenientNotes.run (backend.beside _)).run (unindexable, [])).1
        = .ok ⟨"s", false, [⟨"note", .suppressed, []⟩]⟩
      ∧ ((lenientNotes.run (backend.beside _)).run (unindexable, [])).2.2 = ["note"]
      ∧ (journal.beside _).executed
          ((lenientNotes.run (backend.beside _)).run (unindexable, [])).2 = noteStatements := by
    decide +kernel
  obtain ⟨hreport, hown, hexecuted⟩ := hrun
  have hhooks : lenientNotes.hooks.Moves (journal.beside (List String)).SameExecuted :=
    lenientNotes_moves.mono fun s t h => congrArg journal.executed h
  have hsaves : lenientNotes.hooks.Moves (journal.beside (List String)).SameRecorded :=
    lenientNotes_moves.mono fun s t h => congrArg journal.recorded h
  obtain ⟨rans, haccounts, hrans, -, hrecorded⟩ := executed_eq_reported_iff
    (journalled.beside _) rfl hhooks (Work.run_eq_ok hreport)
  refine ⟨_, Work.run_eq_ok hreport, ⟨rans, haccounts, ?_⟩, hown, ?_⟩
  · rw [hexecuted] at hrans
    exact hrans.symm
  · exact hrecorded (by decide +kernel) hsaves _ List.mem_cons_self rfl

/-- A run that succeeds may have executed statements that its report does not list, although its
hooks execute none. -/
theorem executed_not_reported :
    lenientNotes.dryRun = false
      ∧ lenientNotes.hooks.Moves (journal.beside (List String)).SameExecuted
      ∧ ∃ report t, (lenientNotes.run (backend.beside _)).run (unindexable, []) = (.ok report, t)
        ∧ (journal.beside (List String)).executed t
          ≠ (journal.beside (List String)).executed (unindexable, []) ++ report.statements := by
  have hrun : ((lenientNotes.run (backend.beside _)).run (unindexable, [])).1
        = .ok ⟨"s", false, [⟨"note", .suppressed, []⟩]⟩
      ∧ (journal.beside _).executed
          ((lenientNotes.run (backend.beside _)).run (unindexable, [])).2
        ≠ (journal.beside (List String)).executed (unindexable, [])
          ++ Report.statements ⟨"s", false, [⟨"note", .suppressed, []⟩]⟩ := by
    decide +kernel
  have hhooks : lenientNotes.hooks.Moves (journal.beside (List String)).SameExecuted :=
    lenientNotes_moves.mono fun s t h => congrArg journal.executed h
  exact ⟨rfl, hhooks, _, _, Work.run_eq_ok hrun.1, hrun.2⟩

end Migrator

end SchemaEvolution
