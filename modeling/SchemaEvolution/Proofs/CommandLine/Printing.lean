import SchemaEvolution.CommandLine.Run
import SchemaEvolution.Proofs.Migration.Work
import SchemaEvolution.Proofs.Relation.StoredSnapshot

set_option autoImplicit false

/-! # What commands print of snapshots

Two commands print what a server keeps as snapshots: `snapshots` each of them on a line of its own,
`snapshot` one of them with lines for its columns and indexes. Both print texts that are read again
as the relations that the server gave (`Command.snapshots_printed`, `Command.snapshot_printed`).
-/

namespace SchemaEvolution

open Json

namespace Relation

variable [Codec] [LawfulCodec]

theorem lineEnd_not_mem_snapshot (r : Relation) : '\n' ∉ r.snapshot.toList :=
  LawfulCodec.line_write r.isPlain_toJson

/-- The text on many lines is a snapshot too, also with a line end behind it. -/
theorem ofSnapshot?_writePretty (r : Relation) :
    ofSnapshot? (Codec.writePretty r.toJson ++ "\n") = some r.normalized := by
  have hend : ∀ c ∈ "\n".toList, isBlank c = true := by simp [isBlank]
  have htext : Spaced r.toJson.tokens (Codec.writePretty r.toJson ++ "\n").toList := by
    rw [String.toList_append]
    exact (LawfulCodec.spaced_writePretty r.isPlain_toJson).append_blanks hend
  exact ofSnapshot?_stored (.refl _) htext

end Relation

namespace CommandLine

open Postgres

variable [Codec] [LawfulCodec] [Client] {schema : String} {s t : Session} {o : Outcome}

/-- The command `snapshot` prints a text that is read as the relation that was loaded. Without a
stored relation it fails. -/
theorem Command.snapshot_printed {table : String}
    (h : ((Command.snapshot table).work schema).run s = (.ok o, t)) :
    ∃ r : Relation, (reading (backend.loadSnapshot schema table)).run s = (.ok r, t)
      ∧ (r.isEmpty = true
          ∧ o = failure "" ("no snapshot stored for " ++ schema ++ "." ++ table)
        ∨ r.isEmpty = false ∧ o.code = 0 ∧ Relation.ofSnapshot? o.stdout = some r.normalized) := by
  obtain ⟨r, u, hload, h⟩ := Work.bind_eq_ok.mp h
  split at h
  · next hempty =>
    obtain ⟨rfl, rfl⟩ := Work.pure_eq_ok.mp h
    exact ⟨r, hload, .inl ⟨hempty, rfl⟩⟩
  · next hstored =>
    obtain ⟨rfl, rfl⟩ := Work.pure_eq_ok.mp h
    exact ⟨r, hload, .inr ⟨Bool.eq_false_iff.mpr hstored, rfl, r.ofSnapshot?_writePretty⟩⟩

/-- The command `snapshots` prints a line for each stored relation, which is read as the relation.
Without any it prints no snapshot. -/
theorem Command.snapshots_printed (h : (Command.snapshots.work schema).run s = (.ok o, t)) :
    ∃ stored : List Relation, (reading (backend.snapshots schema)).run s = (.ok stored, t)
      ∧ o.code = 0
      ∧ (stored = [] ∧ o.stdout = logLine "No snapshots stored yet." [("namespace", schema)]
        ∨ stored ≠ [] ∧ ∃ lines, o.stdout = String.join (lines.map (· ++ "\n"))
          ∧ List.Forall₂ (fun line r => '\n' ∉ line.toList
            ∧ Relation.ofSnapshot? line = some r.normalized) lines stored) := by
  obtain ⟨stored, u, hload, h⟩ := Work.bind_eq_ok.mp h
  split at h
  · next hempty =>
    obtain ⟨rfl, rfl⟩ := Work.pure_eq_ok.mp h
    exact ⟨stored, hload, rfl, .inl ⟨List.isEmpty_iff.mp hempty, rfl⟩⟩
  · next hstored =>
    obtain ⟨rfl, rfl⟩ := Work.pure_eq_ok.mp h
    refine ⟨stored, hload, rfl, .inr ⟨mt List.isEmpty_iff.mpr hstored, stored.map (·.snapshot),
      ?_, ?_⟩⟩
    · rw [List.map_map]
      rfl
    · rw [List.forall₂_map_left_iff, List.forall₂_same]
      exact fun r _ => ⟨r.lineEnd_not_mem_snapshot, r.ofSnapshot?_snapshot⟩

end CommandLine

end SchemaEvolution
