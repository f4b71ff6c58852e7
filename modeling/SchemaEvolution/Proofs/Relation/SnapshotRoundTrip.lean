import SchemaEvolution.Proofs.Json.Codec
import SchemaEvolution.Proofs.Lists
import SchemaEvolution.Relation.Snapshot

set_option autoImplicit false

/-! # Reading a snapshot that was written

A snapshot is read back as the relation it was written from, in normal form
(`ofSnapshot?_snapshot`). A member that is left out because its value is empty or false stands for
exactly that value when the record is read, and the members that are written are a sublist of the
keys of the record, so none of them is unknown or repeated.
-/

namespace SchemaEvolution

open Json

/-! ## Members -/

theorem keys_textMember (key value : String) :
    List.Sublist ((textMember key value).map (·.1)) [key] := by
  unfold textMember
  split <;> simp

theorem keys_flagMember (key : String) (value : Bool) :
    List.Sublist ((flagMember key value).map (·.1)) [key] := by
  unfold flagMember
  split <;> simp

theorem keys_listMember (key : String) (items : List Json) :
    List.Sublist ((listMember key items).map (·.1)) [key] := by
  unfold listMember
  split <;> simp

@[simp]
theorem lookup_textMember (name key value : String) :
    (textMember key value).lookup name
      = if name = key then (if value.isEmpty then none else some (.string value)) else none := by
  unfold textMember
  split
  · simp
  · exact lookup_cons_ite name key _ []

@[simp]
theorem lookup_flagMember (name key : String) (value : Bool) :
    (flagMember key value).lookup name
      = if name = key then (if value then some (.bool true) else none) else none := by
  unfold flagMember
  split
  · exact lookup_cons_ite name key _ []
  · simp

@[simp]
theorem lookup_listMember (name key : String) (items : List Json) :
    (listMember key items).lookup name
      = if name = key then (if items.isEmpty then none else some (.array items)) else none := by
  unfold listMember
  split
  · simp
  · exact lookup_cons_ite name key _ []

section Fields

variable {r : Record} {name : String}

theorem Json.Record.optional_text {value : String}
    (h : r.lookup name = if value.isEmpty then none else some (.string value)) :
    r.optional name text? "" = some value := by
  rw [optional, h]
  cases hempty : value.isEmpty with
  | true =>
      rw [String.isEmpty_iff.mp hempty]
      rfl
  | false => rfl

theorem Json.Record.optional_flag {value : Bool}
    (h : r.lookup name = if value then some (.bool true) else none) :
    r.optional name bool? false = some value := by
  rw [optional, h]
  cases value <;> rfl

theorem Json.list?_map {α : Type} {write : α → Json} {read : Json → Option α}
    (hread : ∀ a, read (write a) = some a) (items : List α) :
    list? read (.array (items.map write)) = some items := by
  show (items.map write).mapM read = some items
  induction items with
  | nil => rfl
  | cons a as ih => simp [hread, ih]

theorem Json.Record.optional_list {α : Type} {write : α → Json} {read : Json → Option α}
    (hread : ∀ a, read (write a) = some a) {items : List α}
    (h : r.lookup name
      = if (items.map write).isEmpty then none else some (.array (items.map write))) :
    r.optional name (list? read) [] = some items := by
  rw [optional, h]
  cases items with
  | nil => rfl
  | cons a as => exact list?_map hread (a :: as)

end Fields

/-! ## Columns, indexes and relations -/

theorem Column.ofJson?_toJson [Codec] [LawfulCodec] (c : Column) :
    Column.ofJson? c.toJson = some c := by
  have hrecord : Codec.record? Column.keys c.toJson = some
      [("ColName", .string c.name), ("DataType", .string c.dataType),
        ("DefaultValue", .string c.defaultValue), ("NotNull", .bool c.notNull),
        ("PrimaryKey", .bool c.primaryKey)] :=
    LawfulCodec.record?_object (List.Sublist.refl _) (by decide)
  rw [ofJson?, hrecord]
  rfl

/-- The members of an index as it is written. -/
def Index.members (i : Index) : List (String × Json) :=
  [("name", .string i.name)] ++ flagMember "isUnique" i.isUnique
    ++ textMember "methodName" i.method
    ++ [("columns", .array (i.columns.map .string))]
    ++ textMember "options" i.options ++ flagMember "concurrently" i.concurrently
    ++ textMember "with" i.storage ++ textMember "where" i.condition

theorem Index.keys_members (i : Index) : List.Sublist (i.members.map (·.1)) Index.keys := by
  simp only [members, List.map_append]
  exact ((((((((List.Sublist.refl ["name"]).append (keys_flagMember _ _)).append
    (keys_textMember _ _)).append (List.Sublist.refl ["columns"])).append
    (keys_textMember _ _)).append (keys_flagMember _ _)).append
    (keys_textMember _ _)).append (keys_textMember _ _))

theorem Index.ofJson?_toJson [Codec] [LawfulCodec] (i : Index) :
    Index.ofJson? i.toJson = some i := by
  have hrecord : Codec.record? Index.keys i.toJson = some i.members :=
    LawfulCodec.record?_object i.keys_members (by decide)
  have hname : Record.required i.members "name" text? = some i.name := rfl
  have hunique : Record.optional i.members "isUnique" bool? false = some i.isUnique :=
    Record.optional_flag (by simp [members, List.lookup_append, List.lookup_cons])
  have hmethod : Record.optional i.members "methodName" text? "" = some i.method :=
    Record.optional_text (by simp [members, List.lookup_append, List.lookup_cons])
  have hcolumns : Record.optional i.members "columns" (list? text?) [] = some i.columns := by
    have hlookup : i.members.lookup "columns" = some (.array (i.columns.map .string)) := by
      simp [members, List.lookup_append, List.lookup_cons]
    have hread : ∀ s : String, text? (.string s) = some s := fun _ => rfl
    rw [Record.optional, hlookup]
    exact list?_map hread i.columns
  have hoptions : Record.optional i.members "options" text? "" = some i.options :=
    Record.optional_text (by simp [members, List.lookup_append, List.lookup_cons])
  have hconcurrently :
      Record.optional i.members "concurrently" bool? false = some i.concurrently :=
    Record.optional_flag (by simp [members, List.lookup_append, List.lookup_cons])
  have hstorage : Record.optional i.members "with" text? "" = some i.storage :=
    Record.optional_text (by simp [members, List.lookup_append, List.lookup_cons])
  have hcondition : Record.optional i.members "where" text? "" = some i.condition :=
    Record.optional_text (by simp [members, List.lookup_append, List.lookup_cons])
  rw [ofJson?, hrecord]
  simp only [Option.bind_eq_bind, Option.bind_some, hname, hunique, hmethod, hcolumns, hoptions,
    hconcurrently, hstorage, hcondition]
  rfl

/-- The members of a relation as it is written. -/
def Relation.members (r : Relation) : List (String × Json) :=
  [("table", .string r.table)] ++ listMember "cols" (r.columns.map Column.toJson)
    ++ listMember "idxs" (r.indexes.map Index.toJson)
    ++ textMember "viewQuery" r.viewQuery
    ++ flagMember "isView" r.isView ++ flagMember "isMaterialized" r.isMaterialized

theorem Relation.keys_members (r : Relation) :
    List.Sublist (r.members.map (·.1)) Relation.keys := by
  simp only [members, List.map_append]
  exact ((((((List.Sublist.refl ["table"]).append (keys_listMember _ _)).append
    (keys_listMember _ _)).append (keys_textMember _ _)).append
    (keys_flagMember _ _)).append (keys_flagMember _ _))

theorem Relation.ofJson?_toJson [Codec] [LawfulCodec] (r : Relation) :
    Relation.ofJson? r.toJson = some r := by
  have hrecord : Codec.record? Relation.keys r.toJson = some r.members :=
    LawfulCodec.record?_object r.keys_members (by decide)
  have htable : Record.required r.members "table" text? = some r.table := rfl
  have hcolumns : Record.optional r.members "cols" (list? Column.ofJson?) [] = some r.columns :=
    Record.optional_list Column.ofJson?_toJson
      (by simp [members, List.lookup_append, List.lookup_cons])
  have hindexes : Record.optional r.members "idxs" (list? Index.ofJson?) [] = some r.indexes :=
    Record.optional_list Index.ofJson?_toJson
      (by simp [members, List.lookup_append, List.lookup_cons])
  have hquery : Record.optional r.members "viewQuery" text? "" = some r.viewQuery :=
    Record.optional_text (by simp [members, List.lookup_append, List.lookup_cons])
  have hview : Record.optional r.members "isView" bool? false = some r.isView :=
    Record.optional_flag (by simp [members, List.lookup_append, List.lookup_cons])
  have hmaterialized :
      Record.optional r.members "isMaterialized" bool? false = some r.isMaterialized :=
    Record.optional_flag (by simp [members, List.lookup_append, List.lookup_cons])
  rw [ofJson?, hrecord]
  simp only [Option.bind_eq_bind, Option.bind_some, htable, hcolumns, hindexes, hquery, hview,
    hmaterialized]
  rfl

/-! ## The text of a snapshot -/

theorem isPlain_textMember {key value : String} : ∀ m ∈ textMember key value, IsPlain m.2 := by
  unfold textMember
  split <;> simp [IsPlain]

theorem isPlain_flagMember {key : String} {value : Bool} :
    ∀ m ∈ flagMember key value, IsPlain m.2 := by
  unfold flagMember
  split <;> simp [IsPlain]

theorem isPlain_listMember {α : Type} {key : String} {write : α → Json}
    (h : ∀ a, IsPlain (write a)) (items : List α) :
    ∀ m ∈ listMember key (items.map write), IsPlain m.2 := by
  unfold listMember
  split
  · simp
  · simpa [IsPlain] using arePlain_map h items

theorem Index.isPlain_toJson (i : Index) : IsPlain i.toJson := by
  show ArePlainMembers i.members
  rw [arePlainMembers_iff]
  intro m hm
  simp only [members, List.mem_append, List.mem_singleton] at hm
  rcases hm with ((((((rfl | hm) | hm) | rfl) | hm) | hm) | hm) | hm
  · trivial
  · exact isPlain_flagMember m hm
  · exact isPlain_textMember m hm
  · have hstring : ∀ s : String, IsPlain (.string s) := fun _ => trivial
    exact arePlain_map hstring i.columns
  · exact isPlain_textMember m hm
  · exact isPlain_flagMember m hm
  · exact isPlain_textMember m hm
  · exact isPlain_textMember m hm

theorem Relation.isPlain_toJson (r : Relation) : IsPlain r.toJson := by
  show ArePlainMembers r.members
  rw [arePlainMembers_iff]
  intro m hm
  simp only [members, List.mem_append, List.mem_singleton] at hm
  rcases hm with ((((rfl | hm) | hm) | hm) | hm) | hm
  · trivial
  · refine isPlain_listMember (fun c => ?_) r.columns m hm
    exact ⟨trivial, trivial, trivial, trivial, trivial, trivial⟩
  · exact isPlain_listMember Index.isPlain_toJson r.indexes m hm
  · exact isPlain_textMember m hm
  · exact isPlain_flagMember m hm
  · exact isPlain_flagMember m hm

/-- A snapshot is read back as its relation in normal form. -/
theorem Relation.ofSnapshot?_snapshot [Codec] [LawfulCodec] (r : Relation) :
    Relation.ofSnapshot? r.snapshot = some r.normalized := by
  rw [ofSnapshot?, snapshot, read?_write r.isPlain_toJson, Option.bind_some, ofJson?_toJson,
    Option.map_some]

end SchemaEvolution
