import SchemaEvolution.Migration.Memory
import SchemaEvolution.Proofs.Migration.Work
import SchemaEvolution.Proofs.Relation.SnapshotRoundTrip

set_option autoImplicit false

/-! # Operations of the backend in memory

In a database without faults every operation of a migration succeeds. It notes a call and, apart
from that, changes the staged content at most; with a lawful codec a saved snapshot is read back in
normal form.
-/

namespace SchemaEvolution.Memory

/-! ## Snapshots by table -/

theorem lookup_put {α : Type} (key : String) (value : α) (entries : List (String × α))
    (name : String) :
    (put key value entries).lookup name
      = if name = key then some value else entries.lookup name := by
  induction entries with
  | nil => exact lookup_cons_ite name key value []
  | cons entry rest ih =>
      obtain ⟨k, v⟩ := entry
      by_cases hk : k = key
      · rw [put, if_pos hk, lookup_cons_ite, lookup_cons_ite, hk]
        split <;> rfl
      · rw [put, if_neg hk, lookup_cons_ite, lookup_cons_ite, ih]
        by_cases hname : name = k
        · rw [if_pos hname, if_pos hname, if_neg (hname ▸ hk)]
        · rw [if_neg hname, if_neg hname]

theorem contains_insertName (name : String) (names : List String) :
    (insertName name names).contains name = true := by
  unfold insertName
  split
  · assumption
  · rw [List.contains_iff_mem]
    exact List.mem_append_right names (List.mem_singleton_self name)

theorem insertName_of_contains {name : String} {names : List String}
    (h : names.contains name = true) : insertName name names = names := by
  rw [insertName, if_pos h]

/-! ## Operations -/

/-- The database with other calls. -/
def withCalls (s : Memory) (calls : List String) : Memory := { s with calls }

/-- The database with a staged snapshot. -/
def record (s : Memory) (r : Relation) : Memory :=
  { s with staged := { s.staged with snapshots := put r.table r s.staged.snapshots } }

/-- The text that notes a call. -/
def noted (s : Memory) (parts : List String) : Memory :=
  s.withCalls (" ".intercalate parts :: s.calls)

/-- The database with a namespace. -/
def ensured (s : Memory) (schema : String) : Memory :=
  { s.noted ["ensure_schema", schema] with
    staged := { s.staged with schemas := insertName schema s.staged.schemas } }

/-- The database with its staged content committed. -/
def published (s : Memory) : Memory := { s.noted ["commit"] with committed := s.staged }

theorem ensured_of_contains {s : Memory} {schema : String}
    (h : s.staged.schemas.contains schema = true) :
    s.ensured schema = s.noted ["ensure_schema", schema] := by
  rw [ensured, insertName_of_contains h]
  rfl

theorem published_withCalls {s : Memory} {calls : List String} (h : s.committed = s.staged) :
    (s.withCalls calls).published = (s.withCalls calls).noted ["commit"] := by
  show ({ (s.withCalls calls).noted ["commit"] with committed := s.staged } : Memory) = _
  rw [← h]
  rfl

theorem call_eq_ok {parts : List String} {s t : Memory} {done : Unit} :
    (call parts).run s = (.ok done, t) ↔
      s.fault (" ".intercalate parts :: s.calls) = none ∧ s.noted parts = t := by
  simp only [call, Work.run]
  constructor
  · intro h
    split at h
    · cases h
    · next hfault =>
      cases h
      exact ⟨hfault, rfl⟩
  · rintro ⟨hfault, rfl⟩
    rw [hfault]
    rfl

theorem call_eq_error {parts : List String} {s t : Memory} {e : MigrationError} :
    (call parts).run s = (.error e, t) ↔
      s.fault (" ".intercalate parts :: s.calls) = some e ∧ s.noted parts = t := by
  simp only [call, Work.run]
  constructor
  · intro h
    split at h
    · next hfault =>
      cases h
      exact ⟨hfault, rfl⟩
    · cases h
  · rintro ⟨hfault, rfl⟩
    rw [hfault]
    rfl

/-- A database in which no operation fails. -/
def Faultless (s : Memory) : Prop := ∀ calls, s.fault calls = none

theorem call_run {s : Memory} (hs : s.Faultless) (parts : List String) :
    (call parts).run s = (.ok (), s.noted parts) :=
  call_eq_ok.mpr ⟨hs _, rfl⟩

/-- The snapshot of a table as it is loaded. -/
def loaded (s : Memory) (table : String) : Relation :=
  ((s.staged.snapshots.lookup table).map Relation.normalized).getD { table }

@[simp]
theorem loaded_noted (s : Memory) (parts : List String) (table : String) :
    (s.noted parts).loaded table = s.loaded table := rfl

section Operations

variable [Json.Codec] {s : Memory} (hs : s.Faultless)

include hs

theorem execute_run (sql : String) :
    (backend.execute sql).run s = (.ok (), s.noted ["execute", sql]) :=
  call_run hs _

theorem ensureSchema_run (schema : String) :
    (backend.ensureSchema schema).run s = (.ok (), s.ensured schema) := by
  show (call _ >>= _).run s = _
  rw [Work.bind_run_ok (call_run hs _)]
  rfl

theorem liveColumns_run (schema table : String) :
    (backend.liveColumns schema table).run s
      = (.ok ((s.liveColumns.lookup table).getD []), s.noted ["live_columns", schema, table]) := by
  show (call _ >>= _).run s = _
  rw [Work.bind_run_ok (call_run hs _)]
  rfl

theorem liveIndexes_run (schema table : String) :
    (backend.liveIndexes schema table).run s
      = (.ok (s.indexesOf schema table), s.noted ["live_indexes", schema, table]) := by
  show (call _ >>= _).run s = _
  rw [Work.bind_run_ok (call_run hs _)]
  rfl

theorem loadSnapshot_run (schema table : String) :
    (backend.loadSnapshot schema table).run s
      = (.ok (s.loaded table), s.noted ["load_snapshot", schema, table]) := by
  show (call _ >>= _).run s = _
  rw [Work.bind_run_ok (call_run hs _)]
  rfl

theorem saveSnapshot_run [Json.LawfulCodec] (schema : String) {r : Relation}
    (hr : r.normalized = r) :
    (backend.saveSnapshot schema r).run s
      = (.ok (), (s.noted ["save_snapshot", schema, r.table]).record r) := by
  simp only [backend, Relation.ofSnapshot?_snapshot, hr]
  rw [Work.bind_run_ok (call_run hs _)]
  rfl

theorem commit_run : backend.commit.run s = (.ok (), s.published) := by
  show (call _ >>= _).run s = _
  rw [Work.bind_run_ok (call_run hs _)]
  rfl

end Operations

end SchemaEvolution.Memory
