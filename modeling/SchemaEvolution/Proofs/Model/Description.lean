import SchemaEvolution.Model.Descriptor
import Mathlib.Tactic

set_option autoImplicit false

/-! # Described models

A declaration is described by looking at its fields one after the other. `Descriptor.fault?` is what
a field is refused for behind other fields, and the pass ends at the first field that has a fault
(`Descriptor.ofDeclaration_eq_error_iff`). Fields without a fault are well-formed: their declared
names and the columns of stored fields are pairwise different, and at most one stored field is a
primary key (`Descriptor.firstFault?_eq_none_iff`). A described model looks its fields up by these
names (`Descriptor.LooksUp`).

Only the flat list of fields counts. A part that is spliced in, at any depth, may be replaced by its
own parts (`Part.Inlines.fieldsOf_eq`). `Descriptor.ofDeclaration_accepts` puts this together.
-/

namespace SchemaEvolution

/-! ## The flat list of fields -/

namespace Part

theorem fieldsOf_append (parts parts' : List Part) :
    fieldsOf (parts ++ parts') = fieldsOf parts ++ fieldsOf parts' := by
  induction parts with
  | nil => simp [fieldsOf]
  | cons p parts ih => rw [List.cons_append, fieldsOf, fieldsOf, ih, List.append_assoc]

theorem fieldsOf_described (fields : List Field) : fieldsOf (fields.map described) = fields := by
  induction fields with
  | nil => rw [List.map_nil, fieldsOf]
  | cons f fields ih =>
      rw [List.map_cons, fieldsOf, ih, Part.fields]
      rfl

/-- The second list of parts is the first with one embedded part replaced by its own parts, itself
or inside another one. -/
inductive Inlines : List Part → List Part → Prop
  | here (before inner after : List Part) :
    Inlines (before ++ .embedded inner :: after) (before ++ inner ++ after)
  | inside (before : List Part) {inner inner' : List Part} (after : List Part) :
    Inlines inner inner' →
    Inlines (before ++ .embedded inner :: after) (before ++ .embedded inner' :: after)

theorem Inlines.fieldsOf_eq {parts parts' : List Part} (h : Inlines parts parts') :
    fieldsOf parts' = fieldsOf parts := by
  induction h with
  | here before inner after =>
      rw [fieldsOf_append, fieldsOf_append, fieldsOf_append, fieldsOf, Part.fields,
        List.append_assoc]
  | inside before after _ ih =>
      rw [fieldsOf_append, fieldsOf_append, fieldsOf, fieldsOf, Part.fields, Part.fields, ih]

end Part

/-- Whether a field is stored as a primary key. -/
def Field.isKey (f : Field) : Bool := f.primaryKey && f.isStored

namespace Descriptor

/-! ## Faults -/

/-- What a field of a model is refused for, behind other fields of it. -/
def fault? (model : String) (before : List Field) (f : Field) : Option SchemaError :=
  if f.name ∈ before.map (·.name) then some (.duplicateColumn model f.name)
  else if f.isStored ∧ f.column ∈ (before.filter Field.isStored).map (·.column) then
    some (.duplicateColumn model f.column)
  else if f.isKey then
    (before.find? Field.isKey).map fun first => .multiplePrimaryKeys model first.name f.name
  else none

/-- The first fault among fields, behind other fields. -/
def firstFault? (model : String) (before : List Field) : List Field → Option SchemaError
  | [] => none
  | f :: fields => (fault? model before f).or (firstFault? model (before ++ [f]) fields)

/-- What fields have taken. -/
def Taken.of (fields : List Field) : Taken where
  names := (fields.map (·.name)).reverse
  columns := ((fields.filter Field.isStored).map (·.column)).reverse
  primaryKey := (fields.find? Field.isKey).map (·.name)

theorem Taken.of_append_singleton (before : List Field) (f : Field) :
    of (before ++ [f]) =
      { names := f.name :: (of before).names
        columns := if f.isStored then f.column :: (of before).columns else (of before).columns
        primaryKey := (of before).primaryKey.or (if f.isKey then some f.name else none) } := by
  have hcolumns : ((before ++ [f]).filter Field.isStored).map (·.column)
      = (before.filter Field.isStored).map (·.column) ++ if f.isStored then [f.column] else [] := by
    by_cases h : f.isStored <;> simp [h]
  have hkey : ((before ++ [f]).find? Field.isKey).map (·.name)
      = ((before.find? Field.isKey).map (·.name)).or (if f.isKey then some f.name else none) := by
    rw [List.find?_append, List.find?_singleton]
    by_cases h : f.isKey <;> cases before.find? Field.isKey <;> simp [h]
  rw [of, hcolumns, hkey, of]
  by_cases h : f.isStored <;> simp [h]

/-- A field is taken unless it has a fault. -/
theorem Taken.add_of (model : String) (before : List Field) (f : Field) :
    Taken.add model (.of before) f
      = match fault? model before f with
        | some e => .error e
        | none => .ok (.of (before ++ [f])) := by
  rw [of_append_singleton]
  unfold Taken.add fault?
  by_cases hname : f.name ∈ before.map (·.name)
  · rw [if_pos hname, if_pos (by simpa [of] using hname)]
    rfl
  · rw [if_neg hname, if_neg (by simpa [of] using hname)]
    by_cases hcolumn : f.isStored ∧ f.column ∈ (before.filter Field.isStored).map (·.column)
    · rw [if_pos hcolumn, if_pos (by simpa [of] using hcolumn)]
      rfl
    · rw [if_neg hcolumn, if_neg (by simpa [of] using hcolumn)]
      show (if f.isKey then _ else _) = _
      by_cases hkey : f.isKey
      · rw [if_pos hkey, if_pos hkey, if_pos hkey, of]
        cases before.find? Field.isKey <;> rfl
      · rw [if_neg hkey, if_neg hkey, if_neg hkey, Option.or_none]
        rfl

/-- Fields are taken up to the first fault. -/
theorem Taken.foldlM_add_of (model : String) (before fields : List Field) :
    fields.foldlM (Taken.add model) (.of before)
      = match firstFault? model before fields with
        | some e => .error e
        | none => .ok (.of (before ++ fields)) := by
  induction fields generalizing before with
  | nil =>
      rw [firstFault?, List.append_nil]
      rfl
  | cons f fields ih =>
      rw [List.foldlM_cons, add_of, firstFault?]
      cases fault? model before f with
      | some e => rfl
      | none =>
          rw [Option.none_or]
          show fields.foldlM (Taken.add model) (.of (before ++ [f])) = _
          rw [ih, List.append_assoc, List.singleton_append]

/-! ## Well-formed fields -/

/-- Fields with declared names and columns of their own, of which at most one is a primary key. -/
structure WellFormed (fields : List Field) : Prop where
  names : (fields.map (·.name)).Nodup
  columns : ((fields.filter Field.isStored).map (·.column)).Nodup
  key : (fields.filter Field.isKey).length ≤ 1

theorem fault?_eq_none_iff {model : String} {before : List Field} {f : Field} :
    fault? model before f = none ↔
      f.name ∉ before.map (·.name)
        ∧ (f.isStored = true → f.column ∉ (before.filter Field.isStored).map (·.column))
        ∧ (f.isKey = true → before.filter Field.isKey = []) := by
  rw [fault?]
  split_ifs with hname hcolumn hkey
  · simp [hname]
  · simp [hcolumn]
  · rw [Option.map_eq_none_iff, List.find?_eq_none, List.filter_eq_nil_iff]
    tauto
  · tauto

theorem wellFormed_append_singleton (model : String) {before : List Field} {f : Field} :
    WellFormed (before ++ [f]) ↔ WellFormed before ∧ fault? model before f = none := by
  rw [fault?_eq_none_iff]
  have hnames : ((before ++ [f]).map (·.name)).Nodup
      ↔ (before.map (·.name)).Nodup ∧ f.name ∉ before.map (·.name) := by
    rw [List.map_append, List.map_singleton, List.nodup_append_comm, List.singleton_append,
      List.nodup_cons, and_comm]
  have hcolumns : (((before ++ [f]).filter Field.isStored).map (·.column)).Nodup
      ↔ ((before.filter Field.isStored).map (·.column)).Nodup
        ∧ (f.isStored = true → f.column ∉ (before.filter Field.isStored).map (·.column)) := by
    by_cases h : f.isStored
    · rw [List.filter_append, List.filter_cons_of_pos h, List.filter_nil, List.map_append,
        List.map_singleton, List.nodup_append_comm, List.singleton_append, List.nodup_cons,
        and_comm]
      simp only [h, forall_const]
    · simp [h]
  have hkey : ((before ++ [f]).filter Field.isKey).length ≤ 1
      ↔ (before.filter Field.isKey).length ≤ 1
        ∧ (f.isKey = true → before.filter Field.isKey = []) := by
    by_cases h : f.isKey
    · rw [List.filter_append, List.filter_cons_of_pos h, List.filter_nil, List.length_append,
        List.length_singleton, ← List.length_eq_zero_iff]
      simp only [h, forall_const]
      omega
    · simp [h]
  constructor
  · rintro ⟨hn, hc, hk⟩
    rw [hnames] at hn
    rw [hcolumns] at hc
    rw [hkey] at hk
    exact ⟨⟨hn.1, hc.1, hk.1⟩, hn.2, hc.2, hk.2⟩
  · rintro ⟨⟨hn, hc, hk⟩, hn', hc', hk'⟩
    exact ⟨hnames.mpr ⟨hn, hn'⟩, hcolumns.mpr ⟨hc, hc'⟩, hkey.mpr ⟨hk, hk'⟩⟩

theorem firstFault?_append_singleton (model : String) (before fields : List Field) (f : Field) :
    firstFault? model before (fields ++ [f])
      = (firstFault? model before fields).or (fault? model (before ++ fields) f) := by
  induction fields generalizing before with
  | nil => simp [firstFault?]
  | cons g fields ih =>
      rw [List.cons_append, firstFault?, ih, firstFault?, Option.or_assoc, List.append_assoc,
        List.singleton_append]

/-- Fields have no fault exactly when they are well-formed. -/
theorem firstFault?_eq_none_iff {model : String} {fields : List Field} :
    firstFault? model [] fields = none ↔ WellFormed fields := by
  induction fields using List.reverseRecOn with
  | nil => exact ⟨fun _ => ⟨.nil, .nil, Nat.zero_le 1⟩, fun _ => rfl⟩
  | append_singleton fields f ih =>
      rw [firstFault?_append_singleton, Option.or_eq_none_iff, ih, List.nil_append,
        wellFormed_append_singleton model]

/-- The first fault is that of a field behind fields without one. -/
theorem firstFault?_eq_some_iff {model : String} {before fields : List Field} {e : SchemaError} :
    firstFault? model before fields = some e ↔
      ∃ taken f rest, fields = taken ++ f :: rest ∧ firstFault? model before taken = none
        ∧ fault? model (before ++ taken) f = some e := by
  induction fields generalizing before with
  | nil => simp [firstFault?]
  | cons g fields ih =>
      rw [firstFault?, Option.or_eq_some_iff, ih]
      constructor
      · rintro (hg | ⟨hg, taken, f, rest, rfl, htaken, hf⟩)
        · exact ⟨[], g, fields, rfl, rfl, by rwa [List.append_nil]⟩
        · refine ⟨g :: taken, f, rest, rfl, ?_, ?_⟩
          · rw [firstFault?, hg, htaken]
            rfl
          · rwa [List.append_assoc] at hf
      · rintro ⟨taken, f, rest, hsplit, htaken, hf⟩
        cases taken with
        | nil =>
            cases hsplit
            rw [List.append_nil] at hf
            exact .inl hf
        | cons g' taken =>
            cases hsplit
            rw [firstFault?, Option.or_eq_none_iff] at htaken
            refine .inr ⟨htaken.1, taken, f, rest, rfl, htaken.2, ?_⟩
            rwa [List.append_assoc]

/-! ## Described models -/

/-- The model that a declaration describes when nothing is wrong with it. -/
def ofFields (d : Declaration) : Descriptor where
  typeName := d.typeName
  table := d.table.getD (Naming.snakeCase d.typeName)
  fields := d.fields
  viewQuery := d.viewQuery.filter (!·.isEmpty)
  isMaterialized := d.materialized && (d.viewQuery.filter (!·.isEmpty)).isSome

/-- A declaration is refused without a type name, then for the first fault. -/
theorem ofDeclaration_eq (d : Declaration) :
    ofDeclaration d =
      if d.typeName = "" then .error .unnamedModel
      else match firstFault? d.typeName [] d.fields with
        | some e => .error e
        | none => .ok (ofFields d) := by
  unfold ofDeclaration
  by_cases hname : d.typeName = ""
  · rw [if_pos hname, if_pos (by simpa using hname)]
    rfl
  · rw [if_neg hname, if_neg (by simpa using hname)]
    have hpass := Taken.foldlM_add_of d.typeName [] d.fields
    rw [show Taken.of [] = {} from rfl] at hpass
    simp only [hpass]
    cases firstFault? d.typeName [] d.fields <;> rfl

theorem ofDeclaration_eq_ok_iff {d : Declaration} {m : Descriptor} :
    ofDeclaration d = .ok m ↔ d.typeName ≠ "" ∧ WellFormed d.fields ∧ m = ofFields d := by
  rw [ofDeclaration_eq]
  by_cases hname : d.typeName = ""
  · simp [hname]
  · have hwell : firstFault? d.typeName [] d.fields = none ↔ WellFormed d.fields :=
      firstFault?_eq_none_iff
    rw [if_neg hname, ← hwell]
    cases firstFault? d.typeName [] d.fields with
    | some e => simp
    | none => simp [hname, eq_comm]

theorem ofDeclaration_eq_error_iff {d : Declaration} {e : SchemaError} :
    ofDeclaration d = .error e ↔
      d.typeName = "" ∧ e = .unnamedModel
        ∨ d.typeName ≠ "" ∧ ∃ before f after, d.fields = before ++ f :: after
          ∧ WellFormed before ∧ fault? d.typeName before f = some e := by
  rw [ofDeclaration_eq]
  by_cases hname : d.typeName = ""
  · simp [hname, eq_comm]
  · have hfirst : (∃ before f after, d.fields = before ++ f :: after ∧ WellFormed before
        ∧ fault? d.typeName before f = some e) ↔ firstFault? d.typeName [] d.fields = some e := by
      rw [firstFault?_eq_some_iff]
      simp only [firstFault?_eq_none_iff, List.nil_append]
    rw [if_neg hname, hfirst]
    cases firstFault? d.typeName [] d.fields <;> simp [hname]

/-- A model that describes a declaration. -/
def IsDescribed (m : Descriptor) : Prop := ∃ d, ofDeclaration d = .ok m

theorem IsDescribed.wellFormed {m : Descriptor} (h : m.IsDescribed) : WellFormed m.fields := by
  obtain ⟨d, hd⟩ := h
  obtain ⟨-, hfields, rfl⟩ := ofDeclaration_eq_ok_iff.mp hd
  exact hfields

theorem IsDescribed.nodup_names {m : Descriptor} (h : m.IsDescribed) :
    (m.fields.map (·.name)).Nodup :=
  h.wellFormed.names

/-! ## Looking fields up -/

/-- What looking a field up by one of its names gives. -/
structure LooksUp (m : Descriptor) : Prop where
  /-- The one field of a declared name. -/
  field_ok : ∀ name f, m.field name = .ok f ↔ f ∈ m.fields ∧ f.name = name
  field_error : ∀ name e, m.field name = .error e ↔
    (∀ f ∈ m.fields, f.name ≠ name) ∧ e = .notFound m.typeName .field name
  /-- The one stored field of a column. -/
  column_ok : ∀ column f, m.fieldOfColumn column = .ok f ↔
    f ∈ m.fields ∧ f.isStored = true ∧ f.column = column
  column_error : ∀ column e, m.fieldOfColumn column = .error e ↔
    (∀ f ∈ m.fields, f.isStored = true → f.column ≠ column)
      ∧ e = .notFound m.typeName .column column
  /-- The first field of a JSON name. -/
  json_ok : ∀ name f, m.fieldOfJson name = .ok f ↔
    f.jsonName = name ∧ ∃ before after, m.fields = before ++ f :: after
      ∧ ∀ g ∈ before, g.jsonName ≠ name
  json_error : ∀ name e, m.fieldOfJson name = .error e ↔
    (∀ f ∈ m.fields, f.jsonName ≠ name) ∧ e = .notFound m.typeName .json name
  /-- The first field in a role. -/
  role_some : ∀ r f, m.fieldOfRole? r = some f ↔
    f.role = some r ∧ ∃ before after, m.fields = before ++ f :: after
      ∧ ∀ g ∈ before, g.role ≠ some r
  role_none : ∀ r, m.fieldOfRole? r = none ↔ ∀ f ∈ m.fields, f.role ≠ some r
  /-- The stored fields, in declaration order. -/
  stored_sublist : m.storedFields.Sublist m.fields
  mem_stored : ∀ f, f ∈ m.storedFields ↔ f ∈ m.fields ∧ f.isStored = true

/-- A field with a name of its own is found by it. -/
theorem find?_eq_some_iff_mem {name : Field → String} {fields : List Field}
    (h : (fields.map name).Nodup) {n : String} {f : Field} :
    fields.find? (name · == n) = some f ↔ f ∈ fields ∧ name f = n := by
  constructor
  · intro hfind
    have hname := List.find?_some hfind
    exact ⟨List.mem_of_find?_eq_some hfind, beq_iff_eq.mp hname⟩
  · rintro ⟨hf, rfl⟩
    cases hfind : fields.find? (name · == name f) with
    | none =>
        have hnone := List.find?_eq_none.mp hfind f hf
        simp at hnone
    | some g =>
        have hname := List.find?_some hfind
        rw [List.inj_on_of_nodup_map h (List.mem_of_find?_eq_some hfind) hf (beq_iff_eq.mp hname)]

/-- The outcome of a search: the field that was found, or an error. -/
theorem elim_eq_ok_iff {found : Option Field} {e : SchemaError} {f : Field} :
    found.elim (.error e) Except.ok = .ok f ↔ found = some f := by
  cases found <;> simp

theorem elim_eq_error_iff {found : Option Field} {e e' : SchemaError} :
    found.elim (.error e) Except.ok = .error e' ↔ found = none ∧ e' = e := by
  cases found <;> simp [eq_comm]

theorem field_eq (m : Descriptor) (name : String) :
    m.field name
      = (m.fields.find? (·.name == name)).elim (.error (.notFound m.typeName .field name)) .ok := by
  rw [field]
  cases m.fields.find? (·.name == name) <;> rfl

theorem fieldOfColumn_eq (m : Descriptor) (column : String) :
    m.fieldOfColumn column
      = (m.storedFields.find? (·.column == column)).elim
        (.error (.notFound m.typeName .column column)) .ok := by
  rw [fieldOfColumn]
  cases m.storedFields.find? (·.column == column) <;> rfl

theorem fieldOfJson_eq (m : Descriptor) (name : String) :
    m.fieldOfJson name
      = (m.fields.find? (·.jsonName == name)).elim
        (.error (.notFound m.typeName .json name)) .ok := by
  rw [fieldOfJson]
  cases m.fields.find? (·.jsonName == name) <;> rfl

theorem mem_storedFields {m : Descriptor} {f : Field} :
    f ∈ m.storedFields ↔ f ∈ m.fields ∧ f.isStored = true := List.mem_filter

/-- A model of well-formed fields looks them up by each of their names. -/
theorem WellFormed.looksUp {m : Descriptor} (h : WellFormed m.fields) : m.LooksUp where
  field_ok name f := by rw [field_eq, elim_eq_ok_iff, find?_eq_some_iff_mem h.names]
  field_error name e := by
    rw [field_eq, elim_eq_error_iff, List.find?_eq_none]
    simp
  column_ok column f := by
    have hstored : m.storedFields.find? (·.column == column) = some f
        ↔ f ∈ m.storedFields ∧ f.column = column := find?_eq_some_iff_mem h.columns
    rw [fieldOfColumn_eq, elim_eq_ok_iff, hstored, mem_storedFields, and_assoc]
  column_error column e := by
    rw [fieldOfColumn_eq, elim_eq_error_iff, List.find?_eq_none]
    simp [mem_storedFields]
  json_ok name f := by
    rw [fieldOfJson_eq, elim_eq_ok_iff, List.find?_eq_some_iff_append]
    simp
  json_error name e := by
    rw [fieldOfJson_eq, elim_eq_error_iff, List.find?_eq_none]
    simp
  role_some r f := by
    rw [fieldOfRole?, List.find?_eq_some_iff_append]
    simp
  role_none r := by
    rw [fieldOfRole?, List.find?_eq_none]
    simp
  stored_sublist := List.filter_sublist
  mem_stored f := mem_storedFields

/-- Describing a declaration. Only the flat list of its fields counts, so a part that is embedded,
at any depth, may be replaced by its own parts. A declaration is refused when it has no type name,
and otherwise for the fault of the first field that has one behind well-formed fields; of two faults
of one field, that of the declared name comes before that of the column and this one before that of
the primary key. Any other declaration is described: it has a type name and its fields are
well-formed. The model has these fields and finds each of them by its names. -/
theorem ofDeclaration_accepts (d : Declaration) :
    ofDeclaration { d with parts := d.fields.map .described } = ofDeclaration d
      ∧ (∀ parts, Part.Inlines d.parts parts → ofDeclaration { d with parts } = ofDeclaration d)
      ∧ (∀ e, ofDeclaration d = .error e ↔
          d.typeName = "" ∧ e = .unnamedModel
            ∨ d.typeName ≠ "" ∧ ∃ before f after, d.fields = before ++ f :: after
              ∧ WellFormed before ∧ fault? d.typeName before f = some e)
      ∧ (∀ m, ofDeclaration d = .ok m ↔ d.typeName ≠ "" ∧ WellFormed d.fields ∧ m = ofFields d)
      ∧ ∀ m, ofDeclaration d = .ok m → m.fields = d.fields ∧ m.LooksUp := by
  have hfields {parts : List Part} (h : Part.fieldsOf parts = d.fields) :
      ofDeclaration { d with parts } = ofDeclaration d := by
    have hsame : ({ d with parts } : Declaration).fields = d.fields := h
    rw [ofDeclaration_eq, ofDeclaration_eq, ofFields, ofFields, hsame]
  refine ⟨hfields (Part.fieldsOf_described d.fields), fun parts h => hfields h.fieldsOf_eq,
    fun e => ofDeclaration_eq_error_iff, fun m => ofDeclaration_eq_ok_iff, fun m hm => ?_⟩
  obtain ⟨-, hwell, rfl⟩ := ofDeclaration_eq_ok_iff.mp hm
  exact ⟨rfl, hwell.looksUp⟩

/-- A declaration of posts: two embedded parts, one of which holds another one, around a title. -/
def postDeclaration : Declaration where
  typeName := "Post"
  parts :=
    [.embedded (["ID", "CreatedAt"].map postField), postField "Title",
      .embedded [.embedded [postField "Revision"]]]
where
  postField (name : String) : Part :=
    .field { name, element := { tag := "i64", kind := .int64 } }

/-- Posts are described alike when the inner part is replaced by its field. A second field of the
same name and column is refused for its name. -/
theorem ofDeclaration_accepts_posts :
    ∃ m, ofDeclaration postDeclaration = .ok m
      ∧ m.fields.map (·.name) = ["ID", "CreatedAt", "Title", "Revision"]
      ∧ ofDeclaration { postDeclaration with
          parts := postDeclaration.parts.take 2
            ++ [.embedded [postDeclaration.postField "Revision"]] }
        = .ok m
      ∧ m.field "Draft" = .error (.notFound "Post" .field "Draft")
      ∧ ofDeclaration { postDeclaration with
          parts := postDeclaration.parts ++ postDeclaration.parts.take 1 }
        = .error (.duplicateColumn "Post" "ID") := by
  obtain ⟨-, hinlines, -, -, haccepted⟩ := ofDeclaration_accepts postDeclaration
  have hok : ofDeclaration postDeclaration = .ok (ofFields postDeclaration) := by rfl
  refine ⟨_, hok, by decide +kernel, ?_, ?_, ?_⟩
  · rw [← hok]
    refine hinlines _ ?_
    exact .inside (postDeclaration.parts.take 2) []
      (.here [] [postDeclaration.postField "Revision"] [])
  · rw [(haccepted _ hok).2.field_error]
    exact ⟨by decide +kernel, rfl⟩
  · rw [(ofDeclaration_accepts _).2.2.1]
    refine .inr ⟨by decide, postDeclaration.fields, _, _, rfl, ?_, by decide +kernel⟩
    exact (ofDeclaration_eq_ok_iff.mp hok).2.1

end Descriptor

end SchemaEvolution
