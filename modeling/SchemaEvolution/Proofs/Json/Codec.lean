import SchemaEvolution.Json.Codec
import SchemaEvolution.Proofs.Json.Reordering

set_option autoImplicit false

/-! # What is relied on of a codec

A codec is lawful when its texts spell documents and every text that spells a document is read as
it, and when a record is read from an object whatever the order of its members (`LawfulCodec`). The
laws are about plain documents: none of the records that are stored has a number in it. The codec of
this library is lawful.
-/

namespace SchemaEvolution.Json

/-- The laws of a codec. -/
class LawfulCodec [Codec] : Prop where
  /-- The text of a document consists of its tokens. -/
  spaced_write {j : Json} : IsPlain j → Spaced j.tokens (Codec.write j).toList
  /-- So does the text with lines of their own for items and members. -/
  spaced_writePretty {j : Json} : IsPlain j → Spaced j.tokens (Codec.writePretty j).toList
  /-- The other text is one line. -/
  line_write {j : Json} : IsPlain j → '\n' ∉ (Codec.write j).toList
  /-- The tokens of a document, whatever the blanks between them, are read as the document. -/
  read?_spaced {j : Json} {text : String} :
    IsPlain j → Spaced j.tokens text.toList → Codec.read? text = some j
  /-- An object whose keys are names of the record, none of them twice, is a record with all its
  members. -/
  record?_object {names : List String} {members : List (String × Json)} :
    List.Sublist (members.map (·.1)) names → names.Nodup →
      Codec.record? names (.object members) = some members
  /-- A record has the same fields whatever the order of the members. -/
  record?_reordered {j k : Json} : Reordered j k → ∀ names,
    Option.Rel Record.Alike (Codec.record? names j) (Codec.record? names k)

/-- An object whose keys are a sublist of the known names is a record with all its members. -/
theorem record?_of_sublist {names : List String} {members : List (String × Json)}
    (hsub : List.Sublist (members.map (·.1)) names) (hnodup : names.Nodup) :
    record? names (.object members) = some members := by
  have hfilter : members.filter (fun m => names.contains m.1) = members := by
    rw [List.filter_eq_self]
    intro m hm
    rw [List.contains_iff_mem]
    exact hsub.subset (List.mem_map_of_mem hm)
  rw [record?, hfilter, if_pos (hnodup.sublist hsub)]

/-! ## Texts on one line -/

theorem lineEnd_not_mem_escapeChar (c : Char) : '\n' ∉ escapeChar c := by
  have hdigit : ∀ n < 16, '\n' ≠ Nat.digitChar n := by decide
  unfold escapeChar
  split
  iterate 7 · decide
  · next hne _ _ =>
    split
    · next hcontrol =>
      have hlt : c.toNat < 32 := hcontrol
      have hhigh := hdigit (c.toNat / 16) (by omega)
      have hlow := hdigit (c.toNat % 16) (by omega)
      simp [hexEscape, hhigh, hlow]
    · rw [List.mem_singleton]
      exact fun heq => hne heq.symm

theorem lineEnd_not_mem_quote (s : String) : '\n' ∉ quote s := by
  simp [quote, lineEnd_not_mem_escapeChar]

mutual

theorem lineEnd_not_mem_write : ∀ j : Json, IsPlain j → '\n' ∉ write j
  | .null, _ => by decide
  | .bool b, _ => by cases b <;> decide
  | .string s, _ => lineEnd_not_mem_quote s
  | .array items, h => by simp [write, lineEnd_not_mem_writeItems items h]
  | .object members, h => by simp [write, lineEnd_not_mem_writeMembers members h]

theorem lineEnd_not_mem_writeItems : ∀ js : List Json, ArePlain js → '\n' ∉ writeItems js
  | [], _ => List.not_mem_nil
  | [j], h => lineEnd_not_mem_write j h.1
  | j :: k :: ks, h => by
      simp [writeItems_cons, lineEnd_not_mem_write j h.1, lineEnd_not_mem_writeItems (k :: ks) h.2]

theorem lineEnd_not_mem_writeMembers :
    ∀ ms : List (String × Json), ArePlainMembers ms → '\n' ∉ writeMembers ms
  | [], _ => List.not_mem_nil
  | [(key, j)], h => by
      simp [writeMembers, lineEnd_not_mem_quote, lineEnd_not_mem_write j h.1]
  | (key, j) :: k :: ks, h => by
      simp [writeMembers_cons, lineEnd_not_mem_quote, lineEnd_not_mem_write j h.1,
        lineEnd_not_mem_writeMembers (k :: ks) h.2]

end

instance : LawfulCodec where
  spaced_write {j} _ := by
    show Spaced j.tokens (String.ofList j.write).toList
    rw [String.toList_ofList]
    exact spaced_write j
  spaced_writePretty {j} _ := spaced_pretty j
  line_write {j} h := by
    show '\n' ∉ (String.ofList j.write).toList
    rw [String.toList_ofList]
    exact lineEnd_not_mem_write j h
  read?_spaced hj htext := parse_spaced hj htext
  record?_object := record?_of_sublist
  record?_reordered := record?_reordered

variable [Codec] [LawfulCodec]

/-- The text of a plain document is read back as the document. -/
theorem read?_write {j : Json} (h : IsPlain j) : Codec.read? (Codec.write j) = some j :=
  LawfulCodec.read?_spaced h (LawfulCodec.spaced_write h)

/-- A reader that looks at the fields of a record only does not look at the order of members. -/
theorem unordered_record? {α : Type} {names : List String} {fields : Record → Option α}
    (hfields : ∀ r s, Record.Alike r s → fields r = fields s) :
    Unordered fun j => (Codec.record? names j).bind fields := by
  intro j k h
  have hrecord := LawfulCodec.record?_reordered h names
  dsimp only
  generalize Codec.record? names j = r, Codec.record? names k = s at hrecord ⊢
  cases hrecord with
  | none => rfl
  | some halike => exact hfields _ _ halike

end SchemaEvolution.Json
