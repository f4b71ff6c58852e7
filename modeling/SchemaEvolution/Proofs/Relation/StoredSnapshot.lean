import SchemaEvolution.Proofs.Json.Reordering
import SchemaEvolution.Proofs.Relation.Normal
import SchemaEvolution.Proofs.Relation.SnapshotRoundTrip

set_option autoImplicit false

/-! # Snapshots in a database

A database may keep a snapshot as a document and write its text anew, with the members of the
objects in an order of its own and with blanks between the tokens. Columns, indexes and relations
are read field by field, so such a text stands for the same relation (`ofSnapshot?_stored`). A
relation that was read is in normal form, and writing and reading it again changes nothing. This is
so with every lawful codec.
-/

namespace SchemaEvolution

open Json

theorem Column.unordered_ofJson? [Codec] [LawfulCodec] : Unordered Column.ofJson? := by
  refine unordered_record? fun r s h => ?_
  simp only [h.required unordered_text?, h.optional unordered_text?, h.optional unordered_bool?]

theorem Index.unordered_ofJson? [Codec] [LawfulCodec] : Unordered Index.ofJson? := by
  refine unordered_record? fun r s h => ?_
  simp only [h.required unordered_text?, h.optional unordered_text?, h.optional unordered_bool?,
    h.optional (unordered_list? unordered_text?)]

namespace Relation

section Lawful

variable [Codec]

/-- What was read from a snapshot is in normal form. -/
theorem normalized_of_ofSnapshot? {r : Relation} {text : String}
    (h : ofSnapshot? text = some r) : r.normalized = r := by
  rw [ofSnapshot?, Option.map_eq_some_iff] at h
  obtain ⟨written, -, rfl⟩ := h
  exact written.normalized_normalized

variable [LawfulCodec]

theorem unordered_ofJson? : Unordered Relation.ofJson? := by
  refine unordered_record? fun r s h => ?_
  simp only [h.required unordered_text?, h.optional unordered_text?, h.optional unordered_bool?,
    h.optional (unordered_list? Column.unordered_ofJson?),
    h.optional (unordered_list? Index.unordered_ofJson?)]

/-- A text that spells the document of a relation, whatever the order of the members, is read as
the relation in normal form. -/
theorem ofSnapshot?_stored {r : Relation} {stored : Json} {text : String}
    (hstored : Reordered r.toJson stored) (htext : Spaced stored.tokens text.toList) :
    ofSnapshot? text = some r.normalized := by
  have hparse : Codec.read? text = some stored :=
    LawfulCodec.read?_spaced (hstored.isPlain r.isPlain_toJson) htext
  have hread : ofJson? stored = some r := by
    rw [← unordered_ofJson? _ _ hstored, ofJson?_toJson]
  rw [ofSnapshot?, hparse, Option.bind_some, hread, Option.map_some]

/-- The snapshot of a relation is read back as the relation in normal form, and so is every text of
the same document with its members in another order and with blanks between its tokens. Writing a
snapshot that was read gives a text that is read and written as itself. -/
theorem snapshot_round_trip (r : Relation) :
    ofSnapshot? r.snapshot = some r.normalized
      ∧ (∀ stored text, Reordered r.toJson stored → Spaced stored.tokens text.toList →
        ofSnapshot? text = some r.normalized)
      ∧ ∀ text again, (ofSnapshot? text).map snapshot = some again →
        (ofSnapshot? again).map snapshot = some again := by
  refine ⟨r.ofSnapshot?_snapshot, fun _ _ => ofSnapshot?_stored, fun text again h => ?_⟩
  obtain ⟨read, hread, rfl⟩ := Option.map_eq_some_iff.mp h
  rw [ofSnapshot?_snapshot, normalized_of_ofSnapshot? hread, Option.map_some]

end Lawful

/-- A table with one column, whose default needs escapes. -/
def quotedDefault : Relation where
  table := "note"
  columns := [{ name := "title", dataType := "TEXT", defaultValue := "'\"\n'" }]

/-- The document of the table, with its members in the opposite order. -/
def quotedDefaultStored : Json :=
  .object [("cols", .array [.object [("PrimaryKey", .bool false), ("NotNull", .bool false),
    ("DefaultValue", .string "'\"\n'"), ("DataType", .string "TEXT"),
    ("ColName", .string "title")]]), ("table", .string "note")]

/-- The indented text of the reordered document is read as the table. -/
theorem snapshot_round_trip_reordered :
    Reordered quotedDefault.toJson quotedDefaultStored
      ∧ Spaced quotedDefaultStored.tokens quotedDefaultStored.pretty.toList
      ∧ ofSnapshot? quotedDefaultStored.pretty = some quotedDefault := by
  have hcolumn : ReorderedItems (quotedDefault.columns.map Column.toJson) _ :=
    .cons (.object (.refl _) (List.reverse_perm _).symm) .nil
  have hstored : Reordered quotedDefault.toJson quotedDefaultStored :=
    .object (.cons (.refl _) (.cons (.array hcolumn) .nil)) (List.Perm.swap _ _ [])
  have htext := spaced_pretty quotedDefaultStored
  have hread := (snapshot_round_trip quotedDefault).2.1 _ _ hstored htext
  have hnormal : quotedDefault.normalized = quotedDefault := by decide +kernel
  exact ⟨hstored, htext, hread.trans (congrArg some hnormal)⟩

end Relation

end SchemaEvolution
