import SchemaEvolution.Plan.Patch
import SchemaEvolution.Proofs.Relation.Desired
import SchemaEvolution.Proofs.Store.Upserts

set_option autoImplicit false

/-! # Columns that a sequence fills

The database fills a column of the type `BIGSERIAL` from a sequence when a statement leaves the
column out. Upserts always do (`Descriptor.LeavesOut`). But a column may have a default as well,
which then stands in the place of the sequence. Where NULL is refused and the column is no key, a
field that declares no default takes the one of its element type, and most types have one. So a
serial column is filled from its sequence exactly when its type gives it no default
(`FieldDecl.serial_column_iff`).
-/

namespace SchemaEvolution

/-! ## Columns without a default -/

/-- The definition of a column, without a default. -/
def Column.bareDefinition (c : Column) : String :=
  c.name ++ " " ++ c.dataType ++ textWhen c.notNull " NOT NULL"

theorem Column.definition_eq (c : Column) :
    c.definition = c.bareDefinition ++ textWhen c.writesDefault (" DEFAULT " ++ c.defaultValue) :=
  rfl

theorem Column.definition_eq_bare_iff {c : Column} :
    c.definition = c.bareDefinition ↔ c.writesDefault = false := by
  have hdefault : textWhen c.writesDefault (" DEFAULT " ++ c.defaultValue) = ""
      ↔ c.writesDefault = false := by
    cases c.writesDefault <;> simp [textWhen]
  rw [definition_eq, ← hdefault, ← String.toList_inj, String.toList_append,
    List.append_right_eq_self, String.toList_eq_nil_iff]

/-- What follows the columns in a statement that creates a table: the primary key, if any. -/
def Patch.keyClauses (columns : List Column) : List String :=
  let keys := Text.sorted ((columns.filter (·.primaryKey)).map (·.name))
  if keys.isEmpty then [] else ["PRIMARY KEY (" ++ ",".intercalate keys ++ ")"]

theorem Patch.render_createTable (schema table : String) (columns : List Column) :
    (createTable schema table columns).render = "CREATE TABLE " ++ schema ++ "." ++ table ++ " ("
      ++ ",".intercalate (columns.map Column.definition ++ keyClauses columns) ++ ")" := rfl

/-- The patches that make a column define it by this text. -/
structure Column.MadeAs (c : Column) (definition : String) : Prop where
  addColumn : (Patch.addColumn c).render = "ADD COLUMN " ++ definition
  createTable : ∀ schema table columns, c ∈ columns → ∃ before after,
    (Patch.createTable schema table columns).render = "CREATE TABLE " ++ schema ++ "." ++ table
      ++ " (" ++ ",".intercalate (before ++ definition :: after) ++ ")"

theorem Column.madeAs_iff {c : Column} {definition : String} :
    c.MadeAs definition ↔ definition = c.definition := by
  constructor
  · intro h
    have hadd : ("ADD COLUMN " ++ c.definition).toList = ("ADD COLUMN " ++ definition).toList :=
      congrArg String.toList h.addColumn
    rw [String.toList_append, String.toList_append, List.append_right_inj] at hadd
    exact (String.toList_injective hadd).symm
  · rintro rfl
    refine ⟨rfl, fun schema table columns hc => ?_⟩
    obtain ⟨before, after, rfl⟩ := List.append_of_mem hc
    refine ⟨before.map definition, after.map definition
      ++ Patch.keyClauses (before ++ c :: after), ?_⟩
    rw [Patch.render_createTable, List.map_append, List.map_cons, List.append_assoc,
      List.cons_append]

namespace Field

/-- A field that declares no default has the one of its type where NULL is refused and the column
is no key. -/
theorem columnDefault_of_undeclared {f : Field} (h : f.defaultValue.getD "" = "") :
    f.columnDefault
      = if !f.nullable && !f.primaryKey then f.element.sqlDefault.getD "" else "" := by
  rcases hvalue : f.defaultValue with _ | value
  · rw [columnDefault, hvalue]
  · rw [hvalue, Option.getD_some] at h
    rw [columnDefault, hvalue, h]
    rfl

end Field

/-! ## Columns that upserts leave out -/

/-- Upserts of a model leave a field out: they write the columns of other fields only. -/
structure Descriptor.LeavesOut (m : Descriptor) (f : Field) : Prop where
  upsertColumns : m.upsertColumns
    = (m.fields.filter fun g => g != f && (g.isStored && !g.skipUpsert)).map (·.column)
  inserted : f.isStored = true → ∀ s id, m.idField? = some id →
    ∃ u : Upsert, s.upsert m = .ok u.text ∧ u.Upserts s m id ∧ f.column ∉ u.inserted.map (·.1)

theorem Descriptor.leavesOut_of_skipUpsert {m : Descriptor} (hm : m.IsDescribed) {f : Field}
    (hf : f ∈ m.fields) (hskip : f.skipUpsert = true) : m.LeavesOut f := by
  refine ⟨?_, fun hstored s id hid => ⟨_, s.upsert_eq_text hid,
    upserts_upsertInto hm.wellFormed s id, ?_⟩⟩
  · rw [upsertColumns_eq]
    refine congrArg _ (List.filter_congr fun g _ => ?_)
    by_cases hg : g = f
    · simp [hg, hskip]
    · simp [hg]
  · rw [upsertInto, List.zipIdx_map_fst]
    intro hmem
    obtain ⟨g, hg, hcolumn⟩ := List.mem_map.mp hmem
    obtain ⟨hgstored, hupsert⟩ := List.mem_filter.mp hg
    -- the columns of stored fields are distinct
    cases List.inj_on_of_nodup_map hm.wellFormed.columns hgstored
      (List.mem_filter.mpr ⟨hf, hstored⟩) hcolumn
    rw [hskip] at hupsert
    cases hupsert

/-! ## Serial columns -/

namespace FieldDecl

/-- The type of a field gives its column no default: the column takes NULL or is a key, or the type
has none. -/
def IsWithoutDefault (d : FieldDecl) : Prop :=
  d.describe.nullable = true ∨ d.isPrimaryKey = true ∨ d.element.sqlDefault.getD "" = ""

variable {d : FieldDecl} {ty : String}

theorem skipUpsert_of_serial (hty : d.describe.resolvedSqlType = some ty)
    (hserial : Text.sameAsciiFold "BIGSERIAL" ty = true) : d.describe.skipUpsert = true := by
  have hd : d.isSerial = true := by
    show d.describe.resolvedSqlType.any (Text.sameAsciiFold "BIGSERIAL") = true
    rw [hty]
    exact hserial
  show (d.skipUpsert || d.isSerial) = true
  rw [hd, Bool.or_true]

/-- The column of a field of this SQL type. -/
def columnAs (d : FieldDecl) (ty : String) : Column where
  name := d.describe.column
  dataType := ty
  defaultValue := d.describe.columnDefault
  notNull := !d.describe.nullable
  primaryKey := d.isPrimaryKey

theorem toColumn_eq (hty : d.describe.resolvedSqlType = some ty) (model : String) :
    d.describe.toColumn model = .ok (d.columnAs ty) := by
  rw [Field.toColumn, hty]
  rfl

section Undeclared

variable (hown : d.defaultValue.getD "" = "")

include hown

theorem defaultValue_columnAs_eq_empty_iff :
    (d.columnAs ty).defaultValue = "" ↔ d.IsWithoutDefault := by
  show d.describe.columnDefault = "" ↔ _
  rw [Field.columnDefault_of_undeclared hown, IsWithoutDefault]
  show (if !d.describe.nullable && !d.isPrimaryKey then d.element.sqlDefault.getD "" else "") = ""
    ↔ _
  cases d.describe.nullable <;> cases d.isPrimaryKey <;> simp

theorem writesDefault_columnAs_iff :
    (d.columnAs ty).writesDefault = false ↔ d.IsWithoutDefault := by
  constructor
  · intro h
    rcases Bool.and_eq_false_iff.mp h with hnone | hkey
    · exact (defaultValue_columnAs_eq_empty_iff hown).mp (by simpa using hnone)
    · have hkey : (!d.isPrimaryKey) = false := hkey
      exact .inr (.inl (by simpa using hkey))
  · intro h
    rw [Column.writesDefault, (defaultValue_columnAs_eq_empty_iff hown).mpr h]
    rfl

theorem definition_columnAs (hdefault : ¬ d.IsWithoutDefault) :
    (d.columnAs ty).definition
      = (d.columnAs ty).bareDefinition ++ " DEFAULT " ++ d.element.sqlDefault.getD "" := by
  have hvalue : d.describe.columnDefault = d.element.sqlDefault.getD "" := by
    refine (Field.columnDefault_of_undeclared hown).trans (if_pos ?_)
    show (!d.describe.nullable && !d.isPrimaryKey) = true
    simp only [IsWithoutDefault, not_or] at hdefault
    simp [hdefault]
  have hwrites : (d.columnAs ty).writesDefault = true := by
    rw [← Bool.not_eq_false, writesDefault_columnAs_iff hown]
    exact hdefault
  calc (d.columnAs ty).definition
      = (d.columnAs ty).bareDefinition ++ (" DEFAULT " ++ d.describe.columnDefault) := by
        rw [Column.definition_eq, hwrites]
        rfl
    _ = _ := by rw [hvalue, String.append_assoc]

end Undeclared

/-- A serial field that declares no default is left out of every upsert. Its column has no default,
and is made without one, exactly when its type gives it none. Otherwise it is made with the default
of its type. -/
theorem serial_column_iff (hty : d.describe.resolvedSqlType = some ty)
    (hserial : Text.sameAsciiFold "BIGSERIAL" ty = true) (hown : d.defaultValue.getD "" = "") :
    (∀ m : Descriptor, m.IsDescribed → d.describe ∈ m.fields →
        m.LeavesOut d.describe
          ∧ (d.describe.isStored = true → ∀ query r, m.desired query = .ok r →
            ∃ c ∈ r.columns, d.describe.toColumn m.typeName = .ok c))
      ∧ ∀ model, ∃ c, d.describe.toColumn model = .ok c ∧ c.dataType = ty
        ∧ (c.defaultValue = "" ↔ d.IsWithoutDefault)
        ∧ (c.MadeAs c.bareDefinition ↔ d.IsWithoutDefault)
        ∧ (¬ d.IsWithoutDefault →
          c.MadeAs (c.bareDefinition ++ " DEFAULT " ++ d.element.sqlDefault.getD "")) := by
  refine ⟨fun m hm hd => ⟨?_, fun hstored query r hr => ?_⟩, fun model => ?_⟩
  · exact Descriptor.leavesOut_of_skipUpsert hm hd (skipUpsert_of_serial hty hserial)
  · obtain ⟨columns, hcolumns, -, rfl⟩ := Descriptor.desired_eq_ok hr
    obtain ⟨c, hc, hcolumn⟩ :=
      exists_result_of_mapM hcolumns (Descriptor.mem_storedFields.mpr ⟨hd, hstored⟩)
    exact ⟨c, (Relation.columns_normalized_perm _).mem_iff.mpr hc, hcolumn⟩
  · refine ⟨d.columnAs ty, toColumn_eq hty model, rfl, defaultValue_columnAs_eq_empty_iff hown, ?_,
      fun hdefault => ?_⟩
    · rw [Column.madeAs_iff, eq_comm, Column.definition_eq_bare_iff,
        writesDefault_columnAs_iff hown]
    · rw [Column.madeAs_iff, definition_columnAs hown hdefault]

/-- Tickets with a number. -/
def ticketDeclaration (number : FieldDecl) : Declaration where
  typeName := "Ticket"
  parts := [.field { name := "ID", element := { tag := "i64", kind := .int64 } }, .field number]

/-- A number of a type that brings its sequence itself. -/
def sequenceNumber : FieldDecl :=
  { name := "Number", element := .custom "Sequence" "bigserial" }

/-- An integer that is to be numbered by the database. -/
def serialNumber : FieldDecl :=
  { name := "Number", element := { tag := "i64", kind := .int64 }, sqlType := "BIGSERIAL" }

/-- A type without a default leaves its column to the sequence. -/
theorem serial_column_iff_tickets :
    ∃ m c, Descriptor.ofDeclaration (ticketDeclaration sequenceNumber) = .ok m
      ∧ m.LeavesOut sequenceNumber.describe ∧ sequenceNumber.describe.toColumn "Ticket" = .ok c
      ∧ c.MadeAs "number bigserial NOT NULL" := by
  have hty : sequenceNumber.describe.resolvedSqlType = some "bigserial" := rfl
  obtain ⟨hmodel, hcolumn⟩ := serial_column_iff hty (by decide) rfl
  obtain ⟨c, hc, -, -, hmade, -⟩ := hcolumn "Ticket"
  have hm : Descriptor.ofDeclaration (ticketDeclaration sequenceNumber)
      = .ok (.ofFields (ticketDeclaration sequenceNumber)) := by rfl
  have hleaves := (hmodel _ ⟨_, hm⟩ (.tail _ (.head _))).1
  refine ⟨_, c, hm, hleaves, hc, ?_⟩
  cases hc
  exact hmade.mpr (.inr (.inr rfl))

/-- An integer that upserts leave to the database is made with the default of integers, so its
sequence is never asked. -/
theorem serial_column_default :
    ∃ m r c, Descriptor.ofDeclaration (ticketDeclaration serialNumber) = .ok m
      ∧ serialNumber.describe.resolvedSqlType = some "BIGSERIAL"
      ∧ serialNumber.defaultValue = none
      ∧ m.LeavesOut serialNumber.describe ∧ m.desired none = .ok r ∧ c ∈ r.columns
      ∧ serialNumber.describe.toColumn m.typeName = .ok c ∧ c.defaultValue = "0"
      ∧ c.MadeAs "number BIGSERIAL NOT NULL DEFAULT 0" := by
  have hm : Descriptor.ofDeclaration (ticketDeclaration serialNumber)
      = .ok (.ofFields (ticketDeclaration serialNumber)) := by rfl
  have hfield : serialNumber.describe
      ∈ (Descriptor.ofFields (ticketDeclaration serialNumber)).fields := .tail _ (.head _)
  have hleaves := Descriptor.leavesOut_of_skipUpsert ⟨_, hm⟩ hfield (by decide +kernel)
  obtain ⟨r, hr⟩ : ∃ r,
      (Descriptor.ofFields (ticketDeclaration serialNumber)).desired none = .ok r := ⟨_, rfl⟩
  obtain ⟨columns, hcolumns, -, rfl⟩ := Descriptor.desired_eq_ok hr
  obtain ⟨c, hc, hcolumn⟩ :=
    exists_result_of_mapM hcolumns (Descriptor.mem_storedFields.mpr ⟨hfield, rfl⟩)
  refine ⟨_, _, c, hm, rfl, rfl, hleaves, hr,
    (Relation.columns_normalized_perm _).mem_iff.mpr hc, hcolumn, ?_⟩
  cases hcolumn
  exact ⟨by decide +kernel, Column.madeAs_iff.mpr (by decide +kernel)⟩

end FieldDecl

end SchemaEvolution
