import SchemaEvolution.Proofs.Migration.Atomicity

set_option autoImplicit false

/-! # Looking tables up

Before anything is done to a table it is looked up (`Migrator.lookUp`). What the operations that
look at a database do to its state (`Backend.LooksAlong`), a lookup does as well, also beside a
companion.
-/

namespace SchemaEvolution

variable {σ : Type} {R : σ → σ → Prop}

/-- The operations that look at the database, and the one that ensures a namespace, take the state
along `R`. -/
structure Backend.LooksAlong (b : Backend σ) (R : σ → σ → Prop) : Prop where
  ensureSchema : ∀ schema, (b.ensureSchema schema).Moves R
  loadSnapshot : ∀ schema table, (b.loadSnapshot schema table).Moves R
  liveColumns : ∀ schema table, (b.liveColumns schema table).Moves R
  liveIndexes : ∀ schema table, (b.liveIndexes schema table).Moves R

theorem Backend.LooksAlong.mono {R' : σ → σ → Prop} {b : Backend σ} (hb : b.LooksAlong R)
    (hR : ∀ s t, R s t → R' s t) : b.LooksAlong R' where
  ensureSchema schema := (hb.ensureSchema schema).mono hR
  loadSnapshot schema table := (hb.loadSnapshot schema table).mono hR
  liveColumns schema table := (hb.liveColumns schema table).mono hR
  liveIndexes schema table := (hb.liveIndexes schema table).mono hR

section Companion

variable {τ α : Type} {w : Work σ α}

/-- On a state with a companion, a computation on the first part gives what it gives there. -/
theorem Work.onFirst_eq {s t : σ × τ} {r : Except MigrationError α} (h : w.onFirst.run s = (r, t)) :
    w.run s.1 = (r, t.1) := by
  cases h
  rfl

theorem Work.Moves.onFirst (h : w.Moves R) :
    (w.onFirst : Work (σ × τ) α).Moves fun s t => R s.1 t.1 :=
  fun s => h s.1

theorem Backend.LooksAlong.beside {b : Backend σ} (hb : b.LooksAlong R) (τ : Type) :
    (b.beside τ).LooksAlong fun s t => R s.1 t.1 where
  ensureSchema schema := (hb.ensureSchema schema).onFirst
  loadSnapshot schema table := (hb.loadSnapshot schema table).onFirst
  liveColumns schema table := (hb.liveColumns schema table).onFirst
  liveIndexes schema table := (hb.liveIndexes schema table).onFirst

end Companion

namespace Migrator

variable {m : Migrator σ} {b : Backend σ} {model : Descriptor} {s t : σ} {c : HookContext}
  {live : List LiveIndex} {isNew : Bool}

/-- Looks the table of a model up: what a hook is told of it, its live indexes, and whether it is
new. -/
def lookUp (m : Migrator σ) (b : Backend σ) (model : Descriptor) :
    Work σ (HookContext × List LiveIndex × Bool) := do
  let live ← (b.liveIndexes m.schema model.table).inPhase .introspect model.table
  let last ← (b.loadSnapshot m.schema model.table).inPhase .loadSnapshot model.table
  let desired ← (Work.ofExcept (m.store.desired model)).inPhase
    (if last.isEmpty then .create else .alter) model.table
  let isNew ← m.isNew b last desired
  return (⟨m.schema, model, last, desired⟩, live, isNew)

/-- Migrates a model whose table has been looked up. -/
def migrateLookedUp (m : Migrator σ) (b : Backend σ) (c : HookContext) (live : List LiveIndex)
    (isNew : Bool) : Work σ TableReport :=
  if isNew then m.create b c
  else do
    let report ← m.alterIfNeeded b c live
    m.really ((m.hooks.afterMigrate c).inPhase .hook c.desired.table)
    return report

theorem migrateModel_eq (m : Migrator σ) (b : Backend σ) (model : Descriptor) :
    m.migrateModel b model
      = m.lookUp b model >>= fun (c, live, isNew) => m.migrateLookedUp b c live isNew := by
  simp only [lookUp, bind_assoc, pure_bind]
  rfl

theorem lookUp_eq_ok :
    (m.lookUp b model).run s = (.ok (c, live, isNew), t)
      ↔ m.LookedUp b model s c live isNew t := by
  simp only [lookUp, Work.bind_eq_ok, Work.inPhase_eq_ok, Work.ofExcept_eq_ok, Work.pure_eq_ok,
    Prod.mk.injEq]
  constructor
  · rintro ⟨_, u, hlive, last, v, hlast, desired, _, ⟨hdesired, rfl⟩, _, x, hisNew, ⟨rfl, rfl, rfl⟩,
      rfl⟩
    exact ⟨rfl, rfl, hdesired, u, v, hlive, hlast, hisNew⟩
  · obtain ⟨schema, model', last, desired⟩ := c
    rintro ⟨rfl, rfl, hdesired, u, v, hlive, hlast, hisNew⟩
    exact ⟨live, u, hlive, last, v, hlast, desired, v, ⟨hdesired, rfl⟩, isNew, t, hisNew,
      ⟨rfl, rfl, rfl⟩, rfl⟩

section Moves

variable [IsPreorder σ R] (hb : b.LooksAlong R)

include hb

theorem isNew_moves (last desired : Relation) : (m.isNew b last desired).Moves R := by
  unfold isNew
  split
  · exact .pure false
  · split
    · exact .pure true
    · exact .bind ((hb.liveColumns _ _).inPhase _ _) fun _ => .pure _

theorem columnsOf_moves (desired : Relation) : (m.columnsOf b desired).Moves R := by
  unfold columnsOf
  split
  · exact .pure []
  · exact (hb.liveColumns _ _).inPhase _ _

theorem lookUp_moves (model : Descriptor) : (m.lookUp b model).Moves R := by
  refine .bind ((hb.liveIndexes _ _).inPhase _ _) fun live => ?_
  refine .bind ((hb.loadSnapshot _ _).inPhase _ _) fun last => ?_
  refine .bind ((Work.Moves.ofExcept _).inPhase _ _) fun desired => ?_
  exact .bind (isNew_moves hb last desired) fun isNew => .pure _

theorem LookedUp.along (h : m.LookedUp b model s c live isNew t) : R s t :=
  (lookUp_moves hb model).of_run (lookUp_eq_ok.mpr h)

end Moves

end Migrator

/-- The operations in memory that look at the database note a call, and read or add a namespace. -/
theorem Memory.looksAlong [Json.Codec] {R : Memory → Memory → Prop} [IsPreorder Memory R]
    (hcall : ∀ name args,
      name ∈ ["ensure_schema", "load_snapshot", "live_columns", "live_indexes"] →
      (call (name :: args)).Moves R)
    (hschemas : ∀ f : List String → List String,
      (stage fun c => { c with schemas := f c.schemas }).Moves R) :
    backend.LooksAlong R where
  ensureSchema schema := .bind (hcall _ _ (by simp)) fun _ => hschemas (insertName schema)
  loadSnapshot schema table := .bind (hcall _ _ (by simp)) fun _ => .bind .read fun _ => .pure _
  liveColumns schema table := .bind (hcall _ _ (by simp)) fun _ => .bind .read fun _ => .pure _
  liveIndexes schema table := .bind (hcall _ _ (by simp)) fun _ => .bind .read fun _ => .pure _

end SchemaEvolution
