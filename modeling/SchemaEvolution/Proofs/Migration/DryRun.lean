import SchemaEvolution.Proofs.Migration.Lookup
import SchemaEvolution.Proofs.Migration.Repetition

set_option autoImplicit false

/-! # A dry run is a preview

A dry run is put together from the operations that read, from the one that ensures the namespace,
and from a rollback (`Migrator.run_dry_moves`), and its hooks make no difference to it
(`Migrator.run_dry_hooks`).

That it foretells a real run is a statement about two runs (`Work.Foretold`). They are compared
model by model: the staged contents differ in the snapshots that the real run has saved, and agree
on the snapshots of the models to come, which are all that either run will still look up
(`Memory.Agree`). So what the real run plans for the next model, the dry run plans as well.
-/

namespace SchemaEvolution

/-! ## What a dry run does -/

namespace Migrator

section Dry

variable {σ : Type} {m : Migrator σ} (hdry : m.dryRun = true) {b : Backend σ}

include hdry

theorem really_dry (w : Work σ Unit) : m.really w = pure () := by
  rw [really, hdry]
  rfl

theorem apply_dry (phase : Phase) (p : Plan) : m.apply b phase p = pure p.statements := by
  rw [apply, really_dry hdry]
  rfl

theorem save_dry (desired : Relation) : m.save b desired = pure () := really_dry hdry _

theorem create_dry (c : HookContext) :
    m.create b c
      = pure ⟨c.desired.table, .created, (Plan.create m.schema c.desired).statements⟩ := by
  rw [create, apply_dry hdry, save_dry hdry, really_dry hdry]
  rfl

/-- In a dry run a table that cannot be changed stops the run. -/
theorem alterIfNeeded_dry (c : HookContext) (live : List LiveIndex) :
    m.alterIfNeeded b c live =
      if isUpToDate c.last c.desired live then pure ⟨c.desired.table, .unchanged, []⟩
      else do
        let statements ← m.alter b c.last c.desired live
        return ⟨c.desired.table, .altered, statements⟩ := by
  unfold alterIfNeeded
  split
  · rfl
  · funext s
    show (_ >>= _ : Work σ TableReport).run s = (_ >>= _ : Work σ TableReport).run s
    rcases halter : (m.alter b c.last c.desired live).run s with ⟨r, t⟩
    rw [Work.bind_run_ok (Work.attempt_eq_ok.mpr halter), Work.bind_run, halter]
    cases r with
    | ok statements => rfl
    | error e => rfl

/-- A dry run is the same with any hooks: it calls none. -/
theorem run_dry_hooks (hooks : Hooks σ) : ({ m with hooks } : Migrator σ).run b = m.run b := by
  have hdry' : ({ m with hooks } : Migrator σ).dryRun = true := hdry
  have hmodel : ({ m with hooks } : Migrator σ).migrateModel b = m.migrateModel b := by
    funext model
    unfold migrateModel
    simp only [create_dry hdry, create_dry hdry', alterIfNeeded_dry hdry, alterIfNeeded_dry hdry',
      really_dry hdry, really_dry hdry']
    rfl
  rw [run, run, migrateAll, migrateAll, hmodel]
  simp only [hdry, if_true]
  rfl

section Moves

variable {R : σ → σ → Prop} [IsPreorder σ R] (hb : b.LooksAlong R)

include hb

theorem alter_dry_moves (last desired : Relation) (live : List LiveIndex) :
    (m.alter b last desired live).Moves R := by
  rw [alter_eq]
  refine .bind (columnsOf_moves hb desired) fun columns => ?_
  refine .bind ((Work.Moves.ofExcept _).inPhase _ _) fun plan => ?_
  rw [apply_dry hdry, save_dry hdry]
  exact .bind (.pure _) fun statements => .bind (.pure ()) fun _ => .pure statements

theorem migrateModel_dry_moves (model : Descriptor) : (m.migrateModel b model).Moves R := by
  rw [migrateModel_eq]
  refine .bind (lookUp_moves hb model) fun looked => ?_
  dsimp only [migrateLookedUp]
  split
  · rw [create_dry hdry]
    exact .pure _
  · rw [alterIfNeeded_dry hdry, really_dry hdry]
    refine .bind ?_ fun report => .bind (.pure ()) fun _ => .pure report
    split
    · exact .pure _
    · exact .bind (alter_dry_moves hdry hb _ _ _) fun _ => .pure _

/-- A dry run does to the state what looking at it and rolling back do. -/
theorem run_dry_moves (hrollback : b.rollback.Moves R) : (m.run b).Moves R := by
  have hall : (m.migrateAll b).Moves R := by
    refine .bind ((hb.ensureSchema _).inPhase _ _) fun _ => ?_
    exact .bind (.forEach (migrateModel_dry_moves hdry hb) _) fun tables => .pure _
  refine .bind (hall.orCleanUp hrollback) fun report => ?_
  rw [if_pos hdry]
  exact .bind hrollback fun _ => .pure report

end Moves

end Dry

end Migrator

/-! ## A dry run of the backend in memory -/

namespace Memory

/-- A note that a snapshot was saved. -/
def NotesSave (call : String) : Prop :=
  ∃ schema table, call = " ".intercalate ["save_snapshot", schema, table]

/-- Nothing was executed, saved or committed between two states of a database. -/
structure Surveyed (s t : Memory) : Prop where
  committed : t.committed = s.committed
  calls : ∃ calls, t.calls = calls ++ s.calls
    ∧ ∀ call ∈ calls, ¬ Migrator.NotesExecution call ∧ ¬ NotesSave call ∧ call ≠ "commit"

instance : IsPreorder Memory Surveyed where
  refl s := ⟨rfl, [], rfl, by simp⟩
  trans s t u hst htu := by
    obtain ⟨calls, hcalls, hnone⟩ := hst.calls
    obtain ⟨calls', hcalls', hnone'⟩ := htu.calls
    refine ⟨htu.committed.trans hst.committed, calls' ++ calls, ?_, ?_⟩
    · rw [hcalls', hcalls, List.append_assoc]
    · intro call hcall
      rcases List.mem_append.mp hcall with hcall | hcall
      · exact hnone' call hcall
      · exact hnone call hcall

theorem surveyed_call {name : String} {args : List String} (hlength : 2 ≤ name.toList.length)
    (hname : name.toList.take 2 ∉ [['e', 'x'], ['s', 'a'], ['c', 'o']]) :
    (call (name :: args)).Moves Surveyed := by
  intro s
  have htake := Migrator.take_two_call name args hlength
  simp only [List.mem_cons, List.not_mem_nil, or_false, not_or] at hname
  have hexecute := Migrator.not_notesExecution name args ⟨hlength, hname.1⟩
  have hsave : ¬ NotesSave (" ".intercalate (name :: args)) := by
    rintro ⟨schema, table, heq⟩
    rw [heq, Migrator.take_two_call "save_snapshot" [schema, table] (by decide)] at htake
    exact hname.2.1 htake.symm
  have hcommit : " ".intercalate (name :: args) ≠ "commit" := by
    intro heq
    rw [heq] at htake
    exact hname.2.2 htake.symm
  rw [call_state]
  exact ⟨rfl, [_], rfl, fun call hcall => List.mem_singleton.mp hcall ▸ ⟨hexecute, hsave, hcommit⟩⟩

theorem looks_surveyed [Json.Codec] : backend.LooksAlong Surveyed := by
  refine looksAlong (fun name args hname => ?_) fun f s => ⟨rfl, [], rfl, by simp⟩
  simp only [List.mem_cons, List.not_mem_nil, or_false] at hname
  rcases hname with rfl | rfl | rfl | rfl <;> exact surveyed_call (by decide) (by decide)

theorem rollback_surveyed [Json.Codec] : backend.rollback.Moves Surveyed := by
  refine .bind (surveyed_call (by decide) (by decide)) fun _ s => ?_
  exact ⟨rfl, [], rfl, by simp⟩

end Memory

/-! ## Two runs side by side -/

/-- From states related by `R`, `w'` gives whatever `w` gives when it succeeds, and the states that
they reach are related by `R'`. -/
def Work.Foretold {σ α : Type} (R R' : σ → σ → Prop) (w w' : Work σ α) : Prop :=
  ∀ s s' a t, R s s' → w.run s = (.ok a, t) → ∃ t', w'.run s' = (.ok a, t') ∧ R' t t'

namespace Work.Foretold

variable {σ α β : Type} {R R₁ R' : σ → σ → Prop} {w w' : Work σ α} {k k' : α → Work σ β}

theorem pure (a : α) : Foretold R R (Pure.pure a : Work σ α) (Pure.pure a) := by
  intro s s' b t hR h
  obtain ⟨rfl, rfl⟩ := pure_eq_ok.mp h
  exact ⟨s', rfl, hR⟩

theorem bind (hw : Foretold R R₁ w w') (hk : ∀ a, Foretold R₁ R' (k a) (k' a)) :
    Foretold R R' (w >>= k) (w' >>= k') := by
  intro s s' b t hR h
  obtain ⟨a, u, hfirst, h⟩ := bind_eq_ok.mp h
  obtain ⟨u', hfirst', hR₁⟩ := hw s s' a u hR hfirst
  obtain ⟨t', hnext, hR'⟩ := hk a u u' b t hR₁ h
  exact ⟨t', bind_eq_ok.mpr ⟨a, u', hfirst', hnext⟩, hR'⟩

theorem inPhase (hw : Foretold R R' w w') (phase : Phase) (table : String) :
    Foretold R R' (w.inPhase phase table) (w'.inPhase phase table) := by
  intro s s' a t hR h
  obtain ⟨t', hrun, hR'⟩ := hw s s' a t hR (inPhase_eq_ok.mp h)
  exact ⟨t', inPhase_eq_ok.mpr hrun, hR'⟩

/-- What goes on with a value that no state decides. -/
theorem bind_ofExcept {r : Except SchemaError α} {phase : Phase} {table : String}
    (hk : ∀ a, r = .ok a → Foretold R R' (k a) (k' a)) :
    Foretold R R' ((ofExcept r).inPhase phase table >>= k)
      ((ofExcept r).inPhase phase table >>= k') := by
  intro s s' b t hR h
  obtain ⟨a, u, hfirst, h⟩ := bind_eq_ok.mp h
  obtain ⟨hr, rfl⟩ := ofExcept_eq_ok.mp (inPhase_eq_ok.mp hfirst)
  obtain ⟨t', hnext, hR'⟩ := hk a hr s s' b t hR h
  have hfirst' : ((ofExcept r).inPhase phase table).run s' = (.ok a, s') :=
    inPhase_eq_ok.mpr (ofExcept_eq_ok.mpr ⟨hr, rfl⟩)
  exact ⟨t', bind_eq_ok.mpr ⟨a, s', hfirst', hnext⟩, hR'⟩

/-- What one run does alone, as long as the other may go on from where it is. -/
def Apart (R : σ → σ → Prop) (s t : σ) : Prop := ∀ s', R s s' → R t s'

instance : IsPreorder σ (Apart R) where
  refl _ _ h := h
  trans _ _ _ hst htu s' h := htu s' (hst s' h)

theorem bind_apart (hw : w.Moves (Apart R)) {k : α → Work σ β} {w' : Work σ β}
    (hk : ∀ a, Foretold R R' (k a) w') : Foretold R R' (w >>= k) w' := by
  intro s s' b t hR h
  obtain ⟨a, u, hfirst, h⟩ := bind_eq_ok.mp h
  exact hk a u s' b t (hw.of_run hfirst s' hR) h

end Work.Foretold

namespace Memory

/-- Two databases in which the same calls fail, and which only differ in their calls and in what is
staged for other tables than the given ones. -/
structure Agree (faults : String → Option MigrationError) (tables : List String)
    (s s' : Memory) : Prop where
  fault : ∀ call earlier, s.fault (call :: earlier) = faults call
  fault' : ∀ call earlier, s'.fault (call :: earlier) = faults call
  committed : s.committed = s'.committed
  liveColumns : s.liveColumns = s'.liveColumns
  extraIndexes : s.extraIndexes = s'.extraIndexes
  snapshots : ∀ table ∈ tables,
    s.staged.snapshots.lookup table = s'.staged.snapshots.lookup table

section Agree

variable {faults : String → Option MigrationError} {tables : List String} {s s' : Memory}

theorem Agree.withCalls (h : Agree faults tables s s') (calls calls' : List String) :
    Agree faults tables (s.withCalls calls) (s'.withCalls calls') :=
  ⟨h.fault, h.fault', h.committed, h.liveColumns, h.extraIndexes, h.snapshots⟩

theorem Agree.mono (h : Agree faults tables s s') {fewer : List String} (hsub : fewer ⊆ tables) :
    Agree faults fewer s s' :=
  ⟨h.fault, h.fault', h.committed, h.liveColumns, h.extraIndexes,
    fun table htable => h.snapshots table (hsub htable)⟩

theorem foretold_call (parts : List String) :
    Work.Foretold (Agree faults tables) (Agree faults tables) (call parts) (call parts) := by
  intro s s' _ t h hrun
  obtain ⟨hfault, rfl⟩ := call_eq_ok.mp hrun
  rw [h.fault, ← h.fault' _ s'.calls] at hfault
  exact ⟨s'.noted parts, call_eq_ok.mpr ⟨hfault, rfl⟩, h.withCalls _ _⟩

theorem foretold_read {α : Type} {f : Memory → α}
    (hf : ∀ s s', Agree faults tables s s' → f s = f s') :
    Work.Foretold (Agree faults tables) (Agree faults tables)
      (Work.read >>= fun s => pure (f s)) (Work.read >>= fun s => pure (f s)) := by
  intro s s' a t h hrun
  obtain ⟨rfl, rfl⟩ := Work.pure_eq_ok.mp hrun
  exact ⟨s', Work.pure_eq_ok.mpr ⟨(hf s s' h).symm, rfl⟩, h⟩

theorem call_apart (parts : List String) :
    (call parts).Moves (Work.Foretold.Apart (Agree faults tables)) := by
  intro s s' h
  rw [call_state]
  exact h.withCalls _ s'.calls

variable [Json.Codec]

theorem foretold_liveIndexes (schema table : String) :
    Work.Foretold (Agree faults tables) (Agree faults tables)
      (backend.liveIndexes schema table) (backend.liveIndexes schema table) := by
  refine .bind (foretold_call _) fun _ => foretold_read fun s s' h => ?_
  rw [indexesOf, indexesOf, h.committed, h.extraIndexes]

theorem foretold_liveColumns (schema table : String) :
    Work.Foretold (Agree faults tables) (Agree faults tables)
      (backend.liveColumns schema table) (backend.liveColumns schema table) := by
  refine .bind (foretold_call _) fun _ => foretold_read fun s s' h => ?_
  rw [h.liveColumns]

/-- Only a snapshot on which both databases agree is loaded alike. -/
theorem foretold_loadSnapshot (schema : String) {table : String} (htable : table ∈ tables) :
    Work.Foretold (Agree faults tables) (Agree faults tables)
      (backend.loadSnapshot schema table) (backend.loadSnapshot schema table) := by
  refine .bind (foretold_call _) fun _ => foretold_read fun s s' h => ?_
  rw [h.snapshots table htable]

theorem foretold_ensureSchema (schema : String) :
    Work.Foretold (Agree faults tables) (Agree faults tables)
      (backend.ensureSchema schema) (backend.ensureSchema schema) := by
  refine .bind (foretold_call _) fun _ => ?_
  intro s s' _ t h hrun
  cases hrun
  exact ⟨_, rfl, h.fault, h.fault', h.committed, h.liveColumns, h.extraIndexes, h.snapshots⟩

/-- Saving the snapshot of another table keeps two databases in agreement. -/
theorem saveSnapshot_apart (schema : String) {r : Relation} (hr : r.table ∉ tables) :
    (backend.saveSnapshot schema r).Moves (Work.Foretold.Apart (Agree faults tables)) := by
  refine .bind (call_apart _) fun _ => ?_
  cases Relation.ofSnapshot? r.snapshot with
  | none => exact .fail _
  | some stored =>
      intro s s' h
      refine ⟨h.fault, h.fault', h.committed, h.liveColumns, h.extraIndexes, ?_⟩
      intro table htable
      show (put r.table stored s.staged.snapshots).lookup table = _
      have hne : table ≠ r.table := fun heq => hr (heq ▸ htable)
      rw [lookup_put, if_neg hne]
      exact h.snapshots table htable

end Agree

end Memory

namespace Migrator

open Memory

/-- The real run of the same store without hooks. -/
def real {σ : Type} (m : Migrator σ) : Migrator σ := { store := m.store }

section Foretold

variable [Json.Codec] {m : Migrator Memory} (hdry : m.dryRun = true)
  {faults : String → Option MigrationError} {tables : List String}

theorem foretold_isNew (last desired : Relation) :
    Work.Foretold (Agree faults tables) (Agree faults tables)
      (m.real.isNew backend last desired) (m.isNew backend last desired) := by
  unfold isNew
  split
  · exact .pure false
  · split
    · exact .pure true
    · exact .bind ((foretold_liveColumns _ _).inPhase _ _) fun live => .pure live.isEmpty

theorem foretold_columnsOf (desired : Relation) :
    Work.Foretold (Agree faults tables) (Agree faults tables)
      (m.real.columnsOf backend desired) (m.columnsOf backend desired) := by
  unfold columnsOf
  split
  · exact .pure []
  · exact (foretold_liveColumns _ _).inPhase _ _

include hdry

theorem foretold_apply (phase : Phase) (p : Plan) :
    Work.Foretold (Agree faults tables) (Agree faults tables)
      (m.real.apply backend phase p) (m.apply backend phase p) := by
  rw [apply_dry hdry, apply, really_eq rfl]
  refine .bind_apart (.bind (.forEach (fun sql => ?_) _) fun _ => .pure ()) fun _ => .pure _
  exact (call_apart ["execute", sql]).inPhase _ _

theorem foretold_save {desired : Relation} (hdesired : desired.table ∉ tables) :
    Work.Foretold (Agree faults tables) (Agree faults tables)
      (m.real.save backend desired) (m.save backend desired) := by
  rw [save_dry hdry, save, really_eq rfl]
  intro s s' _ t h hrun
  exact ⟨s', rfl, ((saveSnapshot_apart _ hdesired).inPhase _ _).of_run hrun s' h⟩

theorem foretold_create {c : HookContext} (hc : c.desired.table ∉ tables) :
    Work.Foretold (Agree faults tables) (Agree faults tables)
      (m.real.create backend c) (m.create backend c) := by
  refine .bind (foretold_apply hdry _ _) fun statements => .bind (foretold_save hdry hc) fun _ => ?_
  rw [really_dry hdry, really_eq rfl]
  exact .bind (.pure ()) fun _ => .pure _

theorem foretold_alter (last : Relation) {desired : Relation} (live : List LiveIndex)
    (hdesired : desired.table ∉ tables) :
    Work.Foretold (Agree faults tables) (Agree faults tables)
      (m.real.alter backend last desired live) (m.alter backend last desired live) := by
  rw [alter_eq, alter_eq]
  refine .bind (foretold_columnsOf desired) fun columns => .bind_ofExcept fun plan _ => ?_
  refine .bind (foretold_apply hdry _ plan) fun statements => ?_
  exact .bind (foretold_save hdry hdesired) fun _ => .pure statements

theorem foretold_alterIfNeeded {c : HookContext} (live : List LiveIndex)
    (hc : c.desired.table ∉ tables) :
    Work.Foretold (Agree faults tables) (Agree faults tables)
      (m.real.alterIfNeeded backend c live) (m.alterIfNeeded backend c live) := by
  intro s s' report t h hrun
  rcases alterIfNeeded_eq_ok.mp hrun with ⟨hup, rfl, rfl⟩ | ⟨hup, hcases⟩
  · exact ⟨s', alterIfNeeded_eq_ok.mpr (.inl ⟨hup, rfl, rfl⟩), h⟩
  · rcases hcases with ⟨statements, halter, rfl⟩ | ⟨e, v, -, -, hsuppress, -⟩
    · obtain ⟨t', halter', h'⟩ := foretold_alter hdry c.last live hc s s' statements t h halter
      exact ⟨t', alterIfNeeded_eq_ok.mpr (.inr ⟨hup, .inl ⟨statements, halter', rfl⟩⟩), h'⟩
    · -- without a hook nothing is suppressed
      cases hsuppress

/-- The next model is migrated alike, and both runs look up other tables only from then on. -/
theorem foretold_migrateModel {model : Descriptor} (hmodel : model.table ∉ tables) :
    Work.Foretold (Agree faults (model.table :: tables)) (Agree faults tables)
      (m.real.migrateModel backend model) (m.migrateModel backend model) := by
  -- after this lookup the table may leave the agreement, and the real run may save its snapshot
  have hload : Work.Foretold (Agree faults (model.table :: tables)) (Agree faults tables)
      (backend.loadSnapshot m.schema model.table) (backend.loadSnapshot m.schema model.table) := by
    intro s s' last t h hrun
    obtain ⟨t', hrun', h'⟩ :=
      foretold_loadSnapshot m.schema List.mem_cons_self s s' last t h hrun
    exact ⟨t', hrun', h'.mono (List.subset_cons_self _ _)⟩
  refine .bind ((foretold_liveIndexes _ _).inPhase _ _) fun live => ?_
  refine .bind (hload.inPhase _ _) fun last => .bind_ofExcept fun desired hdesired => ?_
  have hother : desired.table ∉ tables := by
    rwa [(Store.asks_of_desired hdesired).table]
  refine .bind (foretold_isNew last desired) fun isNew => ?_
  cases isNew with
  | true => exact foretold_create hdry hother
  | false =>
      refine .bind (foretold_alterIfNeeded hdry live hother) fun report => ?_
      rw [really_dry hdry, really_eq rfl]
      exact .bind (.pure ()) fun _ => .pure report

theorem foretold_forEach {models : List Descriptor} (htables : (models.map (·.table)).Nodup) :
    Work.Foretold (Agree faults (models.map (·.table))) (Agree faults [])
      (Work.forEach (m.real.migrateModel backend) models)
      (Work.forEach (m.migrateModel backend) models) := by
  induction models with
  | nil => exact .pure []
  | cons model models ih =>
      obtain ⟨hmodel, hothers⟩ := List.nodup_cons.mp htables
      exact .bind (foretold_migrateModel hdry hmodel) fun report =>
        .bind (ih hothers) fun reports => .pure (report :: reports)

/-- Up to its end, a dry run reports for every model what a real run reports. -/
theorem foretold_migrateAll (htables : (m.store.models.map (·.table)).Nodup) {s s' t : Memory}
    (h : Agree faults (m.store.models.map (·.table)) s s') {report : Report}
    (hrun : (m.real.migrateAll backend).run s = (.ok report, t)) :
    ∃ t', (m.migrateAll backend).run s' = (.ok { report with dryRun := true }, t')
      ∧ Agree faults [] t t' := by
  obtain ⟨_, u, hschema, hrun⟩ := Work.bind_eq_ok.mp hrun
  obtain ⟨u', hschema', hu⟩ :=
    (foretold_ensureSchema m.schema).inPhase .ensureSchema m.schema s s' () u h hschema
  obtain ⟨reports, v, hmodels, hrun⟩ := Work.bind_eq_ok.mp hrun
  obtain ⟨t', hmodels', ht⟩ := foretold_forEach hdry htables u u' reports v hu hmodels
  obtain ⟨rfl, rfl⟩ := Work.pure_eq_ok.mp hrun
  refine ⟨t', ?_, ht⟩
  rw [migrateAll, Work.bind_run_ok hschema', Work.bind_run_ok hmodels', hdry]
  rfl

/-- A dry run succeeds where a real run does. -/
theorem foretold_run (htables : (m.store.models.map (·.table)).Nodup) {s t : Memory}
    (hfault : ∀ call earlier, s.fault (call :: earlier) = faults call)
    (hrollback : faults "rollback" = none) {report : Report}
    (hrun : (m.real.run backend).run s = (.ok report, t)) :
    ((m.run backend).run s).1 = .ok { report with dryRun := true } := by
  obtain ⟨report, u, hall, hrun⟩ := Work.bind_eq_ok.mp hrun
  obtain ⟨_, v, -, hrun⟩ := Work.bind_eq_ok.mp hrun
  obtain ⟨_, w, -, hrun⟩ := Work.bind_eq_ok.mp hrun
  obtain ⟨rfl, rfl⟩ := Work.pure_eq_ok.mp hrun
  have hstart : Agree faults (m.store.models.map (·.table)) s s :=
    ⟨hfault, hfault, rfl, rfl, rfl, fun _ _ => rfl⟩
  obtain ⟨u', hall', hu⟩ := foretold_migrateAll hdry htables hstart (Work.orCleanUp_eq_ok.mp hall)
  have hcall : (call ["rollback"]).run u' = (.ok (), u'.noted ["rollback"]) :=
    call_eq_ok.mpr ⟨(hu.fault' _ _).trans hrollback, rfl⟩
  have hend : backend.rollback.run u'
      = (.ok (), { u'.noted ["rollback"] with staged := u'.committed }) :=
    Work.bind_run_ok hcall
  rw [run, Work.bind_run_ok (Work.orCleanUp_eq_ok.mpr hall'), if_pos hdry, Work.bind_run_ok hend]
  rfl

end Foretold

/-- A dry run is a faithful preview. Whether it succeeds or fails, its hooks make no difference to
it, it executes no statement, saves no snapshot and does not commit, and the committed content is as
it was. When the models have distinct tables, the failing calls are given by their texts and a
rollback does not fail, it succeeds if a real run without hooks would have, and reports the same
tables in the same order, with the same actions and statements. -/
theorem dry_run_foretells [Json.Codec] {m : Migrator Memory} (hdry : m.dryRun = true)
    {s t : Memory} {result : Except MigrationError Report}
    (h : (m.run backend).run s = (result, t)) :
    (∀ {σ : Type} (b : Backend σ) (hooks : Hooks σ),
        ({ store := m.store, hooks, dryRun := true } : Migrator σ).run b
          = ({ store := m.store, dryRun := true } : Migrator σ).run b)
      ∧ (∃ calls, t.calls = calls ++ s.calls
        ∧ ∀ call ∈ calls, ¬ NotesExecution call ∧ ¬ NotesSave call ∧ call ≠ "commit")
      ∧ t.committed = s.committed
      ∧ ((m.store.models.map (·.table)).Nodup → ∀ faults : String → Option MigrationError,
        (∀ call earlier, s.fault (call :: earlier) = faults call) → faults "rollback" = none →
        ∀ report u, (m.real.run backend).run s = (.ok report, u) →
          ∃ report', result = .ok report' ∧ report'.tables = report.tables) := by
  have hsurveyed : Surveyed s t :=
    (run_dry_moves hdry looks_surveyed rollback_surveyed).of_run h
  refine ⟨fun b hooks => ?_, hsurveyed.calls, hsurveyed.committed, ?_⟩
  · exact run_dry_hooks (m := { store := m.store, dryRun := true }) rfl hooks
  · intro htables faults hfault hrollback report u hrun
    have hresult := foretold_run hdry htables hfault hrollback hrun
    rw [h] at hresult
    exact ⟨_, hresult, rfl⟩

/-- The dry run of the migration of the notes. -/
theorem dry_run_foretells_notes :
    ((noteMigrator.run backend).run { committed := oldNotes, staged := oldNotes }).1
        = .ok noteReport
      ∧ ∃ report t, (({ noteMigrator with dryRun := true }).run backend).run
            { committed := oldNotes, staged := oldNotes } = (.ok report, t)
        ∧ report.tables = noteReport.tables ∧ t.committed = oldNotes := by
  have hreal : ((noteMigrator.run backend).run
      { committed := oldNotes, staged := oldNotes }).1 = .ok noteReport := by
    decide +kernel
  rcases hdry : (({ noteMigrator with dryRun := true }).run backend).run
    { committed := oldNotes, staged := oldNotes } with ⟨result, t⟩
  obtain ⟨-, -, hcommitted, hforetold⟩ :=
    dry_run_foretells (m := { noteMigrator with dryRun := true }) rfl hdry
  obtain ⟨report, rfl, htables⟩ := hforetold (by decide +kernel) (fun _ => none)
    (fun _ _ => rfl) rfl noteReport _ (Work.run_eq_ok hreal)
  exact ⟨hreal, report, t, hdry, htables, hcommitted⟩

end Migrator

end SchemaEvolution
