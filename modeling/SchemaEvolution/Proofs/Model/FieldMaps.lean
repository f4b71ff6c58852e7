import SchemaEvolution.Proofs.Model.Description

set_option autoImplicit false

/-! # Positions of fields

While the fields of a declaration are looked at, their positions can be entered in maps: by declared
name and by column, where an entry replaces an older one and is a fault if there was one, and by
JSON name and by role, where the older one stays (`FieldMaps.enter`). A model that keeps these maps
is refused for the same fault as one that only remembers which names are taken
(`FieldMaps.build_eq`), and finds by position what a search of its fields finds
(`FieldMaps.finds`).
-/

namespace SchemaEvolution

/-! ## One map -/

section Positions

variable {κ : Type} [DecidableEq κ]

/-- Enters a position under a key, in place of an older one. -/
def putPosition (m : κ → Option Nat) (key? : Option κ) (i : Nat) : κ → Option Nat :=
  match key? with
  | some key => Function.update m key (some i)
  | none => m

/-- Enters a position under a key that has none. -/
def keepPosition (m : κ → Option Nat) (key? : Option κ) (i : Nat) : κ → Option Nat :=
  match key? with
  | some key => Function.update m key ((m key).or (some i))
  | none => m

/-- Whether there is a position under a key. -/
def isEntered (m : κ → Option Nat) (key? : Option κ) : Bool := key?.any fun key => (m key).isSome

/-- The position of the first field with a key. -/
def positions (keyOf : Field → Option κ) (fields : List Field) (key : κ) : Option Nat :=
  fields.findIdx? (keyOf · == some key)

variable (keyOf : Field → Option κ)

theorem positions_append_singleton (before : List Field) (f : Field) :
    positions keyOf (before ++ [f])
      = keepPosition (positions keyOf before) (keyOf f) before.length := by
  funext key
  rw [positions, List.findIdx?_append, List.findIdx?_singleton]
  unfold keepPosition
  cases hkey : keyOf f with
  | none => simp [positions]
  | some own =>
      by_cases heq : key = own
      · simp [heq, positions]
      · simp [Function.update_of_ne heq, positions, Ne.symm heq]

theorem isEntered_positions (before : List Field) (f : Field) :
    isEntered (positions keyOf before) (keyOf f) = true
      ↔ ∃ key, keyOf f = some key ∧ ∃ g ∈ before, keyOf g = some key := by
  cases keyOf f <;> simp [isEntered, positions, List.findIdx?_isSome]

/-- Where nothing is replaced, both ways to enter a position are one. -/
theorem putPosition_eq_keepPosition {m : κ → Option Nat} {key? : Option κ}
    (h : isEntered m key? = false) (i : Nat) : putPosition m key? i = keepPosition m key? i := by
  cases key? with
  | none => rfl
  | some key =>
      have hnone : m key = none := by simpa [isEntered] using h
      rw [putPosition, keepPosition, hnone, Option.none_or]

/-- The field at the position under a key is the first field with the key. -/
theorem getElem?_positions (fields : List Field) (key : κ) :
    (positions keyOf fields key).bind (fields[·]?) = fields.find? (keyOf · == some key) :=
  List.find?_eq_bind_findIdx?_getElem?.symm

theorem lt_of_positions {fields : List Field} {key : κ} {i : Nat}
    (h : positions keyOf fields key = some i) : i < fields.length := by
  obtain ⟨hlt, -⟩ := List.findIdx?_eq_some_iff_getElem.mp h
  exact hlt

end Positions

/-! ## The maps of a model -/

/-- The column of a stored field. -/
def Field.storedColumn? (f : Field) : Option String := if f.isStored then some f.column else none

/-- The positions of the fields of a model under each of their names, and the primary key. -/
structure FieldMaps where
  names : String → Option Nat := fun _ => none
  columns : String → Option Nat := fun _ => none
  jsonNames : String → Option Nat := fun _ => none
  roles : Role → Option Nat := fun _ => none
  primaryKey : Option String := none

namespace FieldMaps

/-- Enters a field with its position. -/
def enter (model : String) (maps : FieldMaps) (entry : Field × Nat) :
    Except SchemaError FieldMaps := do
  let f := entry.1
  let i := entry.2
  let names := putPosition maps.names (some f.name) i
  if isEntered maps.names (some f.name) then throw (.duplicateColumn model f.name)
  let columns := putPosition maps.columns f.storedColumn? i
  if isEntered maps.columns f.storedColumn? then throw (.duplicateColumn model f.column)
  let jsonNames := keepPosition maps.jsonNames (some f.jsonName) i
  let roles := keepPosition maps.roles f.role i
  if f.isKey then
    match maps.primaryKey with
    | some first => throw (.multiplePrimaryKeys model first f.name)
    | none => return ⟨names, columns, jsonNames, roles, some f.name⟩
  else return ⟨names, columns, jsonNames, roles, maps.primaryKey⟩

/-- Enters every field of a model. -/
def build (model : String) (fields : List Field) : Except SchemaError FieldMaps :=
  fields.zipIdx.foldlM (enter model) {}

/-- The maps that hold the first field of each name. -/
def first (fields : List Field) : FieldMaps where
  names := positions (some ·.name) fields
  columns := positions Field.storedColumn? fields
  jsonNames := positions (some ·.jsonName) fields
  roles := positions Field.role fields
  primaryKey := (fields.find? Field.isKey).map (·.name)

open Descriptor

theorem first_append_singleton (before : List Field) (f : Field) :
    first (before ++ [f])
      = ⟨keepPosition (positions (some ·.name) before) (some f.name) before.length,
        keepPosition (positions Field.storedColumn? before) f.storedColumn? before.length,
        keepPosition (positions (some ·.jsonName) before) (some f.jsonName) before.length,
        keepPosition (positions Field.role before) f.role before.length,
        ((before.find? Field.isKey).map (·.name)).or (if f.isKey then some f.name else none)⟩ := by
  have hkey := congrArg Taken.primaryKey (Taken.of_append_singleton before f)
  simp only [Taken.of] at hkey
  simp only [first, positions_append_singleton, hkey]

/-- A field is entered unless it has a fault. -/
theorem enter_first (model : String) (before : List Field) (f : Field) :
    enter model (first before) (f, before.length)
      = match fault? model before f with
        | some e => .error e
        | none => .ok (first (before ++ [f])) := by
  have hname : isEntered (positions (some ·.name) before) (some f.name) = true
      ↔ f.name ∈ before.map (·.name) := by
    rw [isEntered_positions (some ·.name)]
    simp
  have hcolumn : isEntered (positions Field.storedColumn? before) f.storedColumn? = true
      ↔ f.isStored ∧ f.column ∈ (before.filter Field.isStored).map (·.column) := by
    rw [isEntered_positions]
    cases hstored : f.isStored <;> simp [Field.storedColumn?, hstored, and_assoc]
  unfold enter fault?
  rw [first_append_singleton]
  by_cases hn : f.name ∈ before.map (·.name)
  · simp only [if_pos hn, first, hname.mpr hn]
    rfl
  · have hn' := Bool.eq_false_iff.mpr (mt hname.mp hn)
    rw [if_neg hn]
    by_cases hc : f.isStored ∧ f.column ∈ (before.filter Field.isStored).map (·.column)
    · simp only [if_pos hc, first, hn', hcolumn.mpr hc]
      rfl
    · -- without an older entry, a position that replaces one is entered like one that does not
      have hc' := Bool.eq_false_iff.mpr (mt hcolumn.mp hc)
      simp only [if_neg hc, first, hn', hc', putPosition_eq_keepPosition hn',
        putPosition_eq_keepPosition hc']
      cases hkey : f.isKey with
      | true => cases before.find? Field.isKey <;> rfl
      | false =>
          simp only [Bool.false_eq_true, if_false, Option.or_none]
          rfl

/-- Fields are entered up to the first fault. -/
theorem foldlM_enter_first (model : String) (before fields : List Field) :
    (fields.zipIdx before.length).foldlM (enter model) (first before)
      = match firstFault? model before fields with
        | some e => .error e
        | none => .ok (first (before ++ fields)) := by
  induction fields generalizing before with
  | nil =>
      rw [firstFault?, List.append_nil]
      rfl
  | cons f fields ih =>
      rw [List.zipIdx_cons, List.foldlM_cons, enter_first, firstFault?]
      cases fault? model before f with
      | some e => rfl
      | none =>
          have hrest := ih (before ++ [f])
          rw [List.length_append, List.length_singleton, List.append_assoc,
            List.singleton_append] at hrest
          rw [Option.none_or]
          exact hrest

theorem build_eq (model : String) (fields : List Field) :
    build model fields
      = match firstFault? model [] fields with
        | some e => .error e
        | none => .ok (first fields) :=
  foldlM_enter_first model [] fields

/-- A model with a type name is described exactly when its fields can be entered, and otherwise
refused for the same fault. -/
theorem build_ofDeclaration {d : Declaration} (h : d.typeName ≠ "") :
    (build d.typeName d.fields).map (fun _ => ofFields d) = ofDeclaration d := by
  rw [build_eq, ofDeclaration_eq, if_neg h]
  cases firstFault? d.typeName [] d.fields <;> rfl

/-! ## Looking fields up by position -/

/-- The field at a position, when there is one. -/
def fieldAt (m : Descriptor) (position? : Option Nat) : Option Field :=
  position?.bind (m.fields[·]?)

/-- The maps of a model give no position that it does not have, and the field at a position is the
one that a search of the fields finds. -/
theorem finds {m : Descriptor} {maps : FieldMaps}
    (h : build m.typeName m.fields = .ok maps) :
    (∀ name, m.field name
        = (fieldAt m (maps.names name)).elim (.error (.notFound m.typeName .field name)) .ok)
      ∧ (∀ column, m.fieldOfColumn column
        = (fieldAt m (maps.columns column)).elim
          (.error (.notFound m.typeName .column column)) .ok)
      ∧ (∀ name, m.fieldOfJson name
        = (fieldAt m (maps.jsonNames name)).elim (.error (.notFound m.typeName .json name)) .ok)
      ∧ (∀ r, m.fieldOfRole? r = fieldAt m (maps.roles r))
      ∧ ∀ i, (∃ name, maps.names name = some i ∨ maps.columns name = some i
          ∨ maps.jsonNames name = some i) ∨ (∃ r, maps.roles r = some i) →
        i < m.fields.length := by
  rw [build_eq] at h
  obtain rfl : first m.fields = maps := by
    cases hfault : firstFault? m.typeName [] m.fields with
    | some e =>
        rw [hfault] at h
        cases h
    | none =>
        rw [hfault] at h
        exact Except.ok.inj h
  refine ⟨fun name => ?_, fun column => ?_, fun name => ?_, fun r => ?_, ?_⟩
  · rw [field_eq, fieldAt, first, getElem?_positions]
    rfl
  · have hcolumn : m.storedFields.find? (·.column == column)
        = m.fields.find? (Field.storedColumn? · == some column) := by
      rw [storedFields, List.find?_filter]
      congr 1
      funext f
      rw [Bool.eq_iff_iff]
      cases hstored : f.isStored <;> simp [Field.storedColumn?, hstored]
    rw [fieldOfColumn_eq, hcolumn, fieldAt, first, getElem?_positions]
  · rw [fieldOfJson_eq, fieldAt, first, getElem?_positions]
    rfl
  · rw [fieldOfRole?, fieldAt, first, getElem?_positions]
  · rintro i (⟨name, hname | hcolumn | hjson⟩ | ⟨r, hrole⟩)
    · exact lt_of_positions _ hname
    · exact lt_of_positions _ hcolumn
    · exact lt_of_positions _ hjson
    · exact lt_of_positions _ hrole

end FieldMaps

end SchemaEvolution
