import SchemaEvolution.Proofs.Lists
import SchemaEvolution.Proofs.Model.Description
import SchemaEvolution.Store.Upsert

set_option autoImplicit false

/-! # What upserts say

`Upsert` is an upsert statement as its parts: the columns with the numbers of their values, the
column that may be taken, and what happens then. Its text can be read back when its names are plain
(`Upsert.text_inj`). A model with an id always has the text of one statement
(`Store.upsert_eq_text`). This statement is well-formed exactly when the id is stored under a name
and there is a column to insert (`Store.upsert_wellFormed_iff`): an id that is not stored leaves
`ON CONFLICT()` in the text, and a model all of whose columns are left out of upserts gives
`() VALUES()`.
-/

namespace SchemaEvolution

/-- What a statement does with a record whose id is taken. -/
inductive Upsert.Action where
  | nothing
  /-- Columns are set to values. -/
  | update (assignments : List (String × String))
  deriving DecidableEq, Repr

/-- An upsert statement. -/
structure Upsert where
  table : String
  /-- The columns, each with the number of its value. -/
  inserted : List (String × Nat)
  /-- The column in which the value may be taken. -/
  conflict : String
  action : Upsert.Action
  deriving DecidableEq, Repr

namespace Upsert

namespace Action

/-- The text of an action. One column is set without parentheses. -/
def text : Action → String
  | nothing => "DO NOTHING"
  | update [(column, value)] => "DO UPDATE SET " ++ column ++ "=" ++ value
  | update assignments =>
    "DO UPDATE SET (" ++ ",".intercalate (assignments.map (·.1)) ++ ")=("
      ++ ",".intercalate (assignments.map (·.2)) ++ ")"

/-- The columns that an action sets, and their values. -/
def assignments : Action → List (String × String)
  | nothing => []
  | update assignments => assignments

/-- Sets columns to the values that were to be inserted. -/
def replacing (columns : List String) : Action :=
  if columns = [] then nothing else update (columns.map fun c => (c, "excluded." ++ c))

end Action

/-- The text of a statement. -/
def text (u : Upsert) : String :=
  "INSERT INTO " ++ u.table ++ " (" ++ ",".intercalate (u.inserted.map (·.1)) ++ ") VALUES("
    ++ ",".intercalate (u.inserted.map fun c => "$" ++ toString c.2) ++ ") ON CONFLICT("
    ++ u.conflict ++ ") " ++ u.action.text

/-- The inserted columns other than the one that may be taken. -/
def replaced (u : Upsert) : List String := (u.inserted.map (·.1)).filter (· != u.conflict)

/-- What an upsert of a model says whose id is a given field. -/
structure Upserts (u : Upsert) (s : Store) (m : Descriptor) (id : Field) : Prop where
  table : u.table = Template.qualify s.namespaceName m.table
  /-- The columns of the stored fields that upserts write, in declaration order. -/
  columns : u.inserted.map (·.1)
    = (m.fields.filter fun f => f.isStored && !f.skipUpsert).map (·.column)
  columns_nodup : (u.inserted.map (·.1)).Nodup
  numbers : u.inserted.map (·.2) = List.range' 1 u.inserted.length
  conflict : u.conflict = id.column
  nothing_iff : u.action = .nothing ↔ u.replaced = []
  /-- Each column gets its own value. -/
  assignments : u.action.assignments = u.replaced.map fun c => (c, "excluded." ++ c)

/-- A well-formed upsert of a model: something is inserted, and the id is stored under a name. -/
def WellFormed (u : Upsert) (s : Store) (m : Descriptor) : Prop :=
  ∃ id, m.idField? = some id ∧ u.Upserts s m id ∧ id.isStored = true ∧ u.conflict ≠ ""
    ∧ u.inserted ≠ []

/-! ## Reading a text -/

/-- A text that nothing else of a statement is taken for. -/
structure IsPlain (s : String) : Prop where
  ne_empty : s ≠ ""
  no_comma : ',' ∉ s.toList
  no_open : '(' ∉ s.toList
  no_close : ')' ∉ s.toList
  no_equals : '=' ∉ s.toList

instance (s : String) : Decidable (IsPlain s) :=
  decidable_of_iff (s ≠ "" ∧ ',' ∉ s.toList ∧ '(' ∉ s.toList ∧ ')' ∉ s.toList ∧ '=' ∉ s.toList)
    ⟨fun ⟨hne, hcomma, hopen, hclose, hequals⟩ => ⟨hne, hcomma, hopen, hclose, hequals⟩,
      fun h => ⟨h.ne_empty, h.no_comma, h.no_open, h.no_close, h.no_equals⟩⟩

/-- The names of a statement are plain. -/
structure Plain (u : Upsert) : Prop where
  table : '(' ∉ u.table.toList
  columns : ∀ c ∈ u.inserted, IsPlain c.1
  conflict : ')' ∉ u.conflict.toList
  assignments : ∀ a ∈ u.action.assignments, IsPlain a.1 ∧ IsPlain a.2

theorem isPlain_number (n : Nat) : IsPlain ("$" ++ toString n) := by
  have hlist : ("$" ++ toString n).toList = '$' :: Nat.toDigits 10 n := by
    rw [String.toList_append]
    exact congrArg ('$' :: ·) Nat.toList_repr
  have hother {c : Char} (hdollar : c ≠ '$') (hdigit : c.isDigit = false) :
      c ∉ ("$" ++ toString n).toList := by
    rw [hlist, List.mem_cons, not_or]
    refine ⟨hdollar, fun hmem => ?_⟩
    rw [Nat.isDigit_of_mem_toDigits (by decide) (by decide) hmem] at hdigit
    cases hdigit
  refine ⟨fun hempty => ?_, ?_, ?_, ?_, ?_⟩
  · rw [hempty] at hlist
    cases hlist
  all_goals exact hother (by decide) (by decide)

theorem number_inj {n k : Nat} (h : "$" ++ toString n = "$" ++ toString k) : n = k := by
  have hlist := congrArg String.toList h
  rw [String.toList_append, String.toList_append] at hlist
  have hdigits : Nat.toDigits 10 n = Nat.toDigits 10 k := by
    rw [← Nat.toList_repr, ← Nat.toList_repr]
    exact List.append_cancel_left hlist
  have hvalue := congrArg (fun digits => Nat.ofDigitChars 10 digits 0) hdigits
  simpa using hvalue

/-- A list of plain texts before a closing parenthesis can be read back. -/
theorem list_inj {as bs : List String} (has : ∀ a ∈ as, IsPlain a) (hbs : ∀ b ∈ bs, IsPlain b)
    {rest rest' : List Char}
    (h : (",".intercalate as).toList ++ ')' :: rest = (",".intercalate bs).toList ++ ')' :: rest') :
    as = bs ∧ rest = rest' := by
  have hjoined {texts : List String} : (",".intercalate texts).toList
      = [','].intercalate (texts.map String.toList) := String.toList_intercalate
  have hplain {texts : List String} (htexts : ∀ t ∈ texts, IsPlain t) :
      ∀ part ∈ texts.map String.toList, part ≠ [] ∧ ',' ∉ part ∧ ')' ∉ part := by
    intro part hpart
    obtain ⟨t, ht, rfl⟩ := List.mem_map.mp hpart
    have ht := htexts t ht
    exact ⟨fun hnil => ht.ne_empty (String.toList_eq_nil_iff.mp hnil), ht.no_comma, ht.no_close⟩
  have hclosed {texts : List String} (htexts : ∀ t ∈ texts, IsPlain t) :
      ')' ∉ [','].intercalate (texts.map String.toList) :=
    not_mem_intercalate (by decide) fun part hpart => (hplain htexts part hpart).2.2
  rw [hjoined, hjoined] at h
  obtain ⟨hparts, hrest⟩ := append_cons_inj (hclosed has) (hclosed hbs) h
  refine ⟨List.map_injective_iff.mpr (fun _ _ => String.toList_injective) ?_, hrest⟩
  exact intercalate_inj (fun part hpart => ⟨(hplain has part hpart).1, (hplain has part hpart).2.1⟩)
    (fun part hpart => ⟨(hplain hbs part hpart).1, (hplain hbs part hpart).2.1⟩) hparts

/-- One column is set without parentheses, otherwise there are two lists. -/
theorem Action.toList_text_update (as : List (String × String)) :
    (∃ c v, as = [(c, v)]
        ∧ (update as).text.toList = "DO UPDATE SET ".toList ++ (c.toList ++ '=' :: v.toList))
      ∨ (update as).text.toList = "DO UPDATE SET ".toList
        ++ '(' :: ((",".intercalate (as.map (·.1))).toList ++ ')' :: ("=(".toList
          ++ ((",".intercalate (as.map (·.2))).toList ++ [')']))) := by
  have hlists (columns values : String) :
      ("DO UPDATE SET (" ++ columns ++ ")=(" ++ values ++ ")").toList = "DO UPDATE SET ".toList
        ++ '(' :: (columns.toList ++ ')' :: ("=(".toList ++ (values.toList ++ [')']))) := by
    have hopen : "DO UPDATE SET (".toList = "DO UPDATE SET ".toList ++ ['('] := rfl
    have hnext : ")=(".toList = ')' :: "=(".toList := rfl
    have hclose : ")".toList = [')'] := rfl
    simp only [String.toList_append]
    rw [hopen, hnext, hclose]
    simp only [List.append_assoc, List.cons_append, List.nil_append]
  match as with
  | [] => exact .inr (hlists _ _)
  | [(c, v)] =>
      refine .inl ⟨c, v, rfl, ?_⟩
      show ("DO UPDATE SET " ++ c ++ "=" ++ v).toList = _
      simp only [String.toList_append, List.append_assoc]
      rfl
  | _ :: _ :: _ => exact .inr (hlists _ _)

theorem Action.text_update_ne (as : List (String × String)) : (update as).text ≠ nothing.text := by
  intro h
  -- the two texts differ in their fourth character
  have hfourth := congrArg (fun text => text.toList[3]?) h
  have hupdate : (update as).text.toList[3]? = some 'U' := by
    rcases toList_text_update as with ⟨c, v, -, htext⟩ | htext <;> rw [htext] <;> rfl
  have hnothing : nothing.text.toList[3]? = some 'N' := rfl
  simp only [hupdate, hnothing] at hfourth
  exact absurd hfourth (by decide)

/-- A plain name does not begin with a parenthesis. -/
theorem IsPlain.append_ne {c : String} (h : IsPlain c) (rest rest' : List Char) :
    c.toList ++ rest ≠ '(' :: rest' := by
  intro heq
  cases hc : c.toList with
  | nil => exact h.ne_empty (String.toList_eq_nil_iff.mp hc)
  | cons first others =>
      rw [hc] at heq
      cases heq
      exact h.no_open (hc ▸ List.mem_cons_self)

theorem Action.text_inj {a b : Action} (ha : ∀ c ∈ a.assignments, IsPlain c.1 ∧ IsPlain c.2)
    (hb : ∀ c ∈ b.assignments, IsPlain c.1 ∧ IsPlain c.2) (h : a.text = b.text) : a = b := by
  cases a with
  | nothing =>
      cases b with
      | nothing => rfl
      | update bs => exact absurd h.symm (text_update_ne bs)
  | update as =>
      cases b with
      | nothing => exact absurd h (text_update_ne as)
      | update bs =>
          have hlist := congrArg String.toList h
          have hnames {cs : List (String × String)} (hcs : ∀ c ∈ cs, IsPlain c.1 ∧ IsPlain c.2) :
              (∀ c ∈ cs.map (·.1), IsPlain c) ∧ ∀ v ∈ cs.map (·.2), IsPlain v := by
            simp only [List.forall_mem_map]
            exact ⟨fun c hc => (hcs c hc).1, fun c hc => (hcs c hc).2⟩
          rcases toList_text_update as with ⟨c, v, rfl, htext⟩ | htext <;>
            rcases toList_text_update bs with ⟨c', v', rfl, htext'⟩ | htext' <;>
            rw [htext, htext', List.append_right_inj] at hlist
          · have hc : IsPlain c := (ha (c, v) List.mem_cons_self).1
            have hc' : IsPlain c' := (hb (c', v') List.mem_cons_self).1
            obtain ⟨hcolumn, hvalue⟩ := append_cons_inj hc.no_equals hc'.no_equals hlist
            rw [String.toList_injective hcolumn, String.toList_injective hvalue]
          · have hc : IsPlain c := (ha (c, v) List.mem_cons_self).1
            exact absurd hlist (hc.append_ne _ _)
          · have hc' : IsPlain c' := (hb (c', v') List.mem_cons_self).1
            exact absurd hlist.symm (hc'.append_ne _ _)
          · rw [List.cons.injEq] at hlist
            obtain ⟨hcolumns, hrest⟩ := list_inj (hnames ha).1 (hnames hb).1 hlist.2
            rw [List.append_right_inj] at hrest
            obtain ⟨hvalues, -⟩ := list_inj (hnames ha).2 (hnames hb).2 hrest
            exact congrArg update (eq_of_map_fst_snd hcolumns hvalues)

theorem toList_text (u : Upsert) : u.text.toList = "INSERT INTO ".toList
    ++ ((u.table.toList ++ [' ']) ++ '(' :: ((",".intercalate (u.inserted.map (·.1))).toList
    ++ ')' :: (" VALUES(".toList
      ++ ((",".intercalate (u.inserted.map fun c => "$" ++ toString c.2)).toList
    ++ ')' :: (" ON CONFLICT(".toList ++ (u.conflict.toList
    ++ ')' :: (' ' :: u.action.text.toList))))))) := by
  have hopen : " (".toList = [' ', '('] := rfl
  have hvalues : ") VALUES(".toList = ')' :: " VALUES(".toList := rfl
  have hconflict : ") ON CONFLICT(".toList = ')' :: " ON CONFLICT(".toList := rfl
  have haction : ") ".toList = [')', ' '] := rfl
  unfold text
  simp only [String.toList_append]
  rw [hopen, hvalues, hconflict, haction]
  simp only [List.append_assoc, List.cons_append, List.nil_append]

/-- Statements of plain names are read from their texts in one way. -/
theorem text_inj {u v : Upsert} (hu : u.Plain) (hv : v.Plain) (h : u.text = v.text) : u = v := by
  have htable {w : Upsert} (hw : w.Plain) : '(' ∉ w.table.toList ++ [' '] := by
    rw [List.mem_append, not_or]
    exact ⟨hw.table, by decide⟩
  have hnames {w : Upsert} (hw : w.Plain) : ∀ c ∈ w.inserted.map (·.1), IsPlain c := by
    simpa using hw.columns
  have hnumbers {w : Upsert} : ∀ c ∈ w.inserted.map fun c => "$" ++ toString c.2, IsPlain c := by
    simp only [List.forall_mem_map]
    exact fun c _ => isPlain_number c.2
  have hlist := congrArg String.toList h
  rw [toList_text, toList_text, List.append_right_inj] at hlist
  obtain ⟨htables, hrest⟩ := append_cons_inj (htable hu) (htable hv) hlist
  obtain ⟨hcolumns, hrest⟩ := list_inj (hnames hu) (hnames hv) hrest
  rw [List.append_right_inj] at hrest
  obtain ⟨hvalues, hrest⟩ := list_inj hnumbers hnumbers hrest
  rw [List.append_right_inj] at hrest
  obtain ⟨hconflict, hrest⟩ := append_cons_inj hu.conflict hv.conflict hrest
  rw [List.append_left_inj] at htables
  rw [List.cons.injEq] at hrest
  have hinserted : u.inserted = v.inserted := by
    refine eq_of_map_fst_snd hcolumns ?_
    have hinjective : Function.Injective fun n : Nat => "$" ++ toString n := fun _ _ => number_inj
    refine List.map_injective_iff.mpr hinjective ?_
    rw [List.map_map, List.map_map]
    exact hvalues
  have haction : u.action = v.action :=
    Action.text_inj hu.assignments hv.assignments (String.toList_injective hrest.2)
  cases u
  cases v
  cases String.toList_injective htables
  cases String.toList_injective hconflict
  cases hinserted
  cases haction
  rfl

/-! ## Upserts of a model -/

theorem Action.text_replacing (columns : List String) :
    (replacing columns).text = conflictAction columns := by
  have hcolumns (cs : List String) : (cs.map fun c => (c, "excluded." ++ c)).map (·.1) = cs := by
    rw [List.map_map]
    exact List.map_id cs
  have hvalues (cs : List String) : (cs.map fun c => (c, "excluded." ++ c)).map (·.2)
      = cs.map ("excluded." ++ ·) := List.map_map
  match columns with
  | [] => rfl
  | [c] =>
      show "DO UPDATE SET " ++ c ++ "=" ++ ("excluded." ++ c) = _
      rw [← String.append_assoc]
      rfl
  | c :: c' :: columns =>
      show "DO UPDATE SET ("
        ++ ",".intercalate (((c :: c' :: columns).map fun c => (c, "excluded." ++ c)).map (·.1))
        ++ ")=("
        ++ ",".intercalate (((c :: c' :: columns).map fun c => (c, "excluded." ++ c)).map (·.2))
        ++ ")" = _
      rw [hcolumns, hvalues]
      rfl

theorem Action.replacing_eq_nothing_iff {columns : List String} :
    replacing columns = nothing ↔ columns = [] := by
  rw [replacing]
  split <;> simp_all

theorem Action.assignments_replacing (columns : List String) :
    (replacing columns).assignments = columns.map fun c => (c, "excluded." ++ c) := by
  rw [replacing]
  split <;> simp_all [assignments]

section Statement

variable {u : Upsert} {s : Store} {m : Descriptor} {id : Field}

/-- Nothing of a statement is left open. -/
theorem Upserts.unique {v : Upsert} (h : u.Upserts s m id) (h' : v.Upserts s m id) : v = u := by
  have hcolumns := h'.columns.trans h.columns.symm
  have hlength : v.inserted.length = u.inserted.length := by
    simpa using congrArg List.length hcolumns
  have hinserted : v.inserted = u.inserted := by
    refine eq_of_map_fst_snd hcolumns ?_
    rw [h'.numbers, h.numbers, hlength]
  have hconflict : v.conflict = u.conflict := h'.conflict.trans h.conflict.symm
  have hreplaced : v.replaced = u.replaced := by
    rw [replaced, replaced, hinserted, hconflict]
  have hassignments : v.action.assignments = u.action.assignments := by
    rw [h'.assignments, h.assignments, hreplaced]
  have hnothing : v.action = .nothing ↔ u.action = .nothing := by
    rw [h'.nothing_iff, h.nothing_iff, hreplaced]
  have haction : v.action = u.action := by
    cases hv : v.action with
    | nothing => exact (hnothing.mp hv).symm
    | update as =>
        cases hu : u.action with
        | nothing =>
            rw [hnothing.mpr hu] at hv
            cases hv
        | update bs =>
            rw [hv, hu] at hassignments
            exact congrArg Action.update hassignments
  cases u
  cases v
  cases h'.table.trans h.table.symm
  cases hinserted
  cases hconflict
  cases haction
  rfl

theorem Upserts.inserted_ne_nil_iff (h : u.Upserts s m id) :
    u.inserted ≠ [] ↔ ∃ f ∈ m.fields, f.isStored = true ∧ f.skipUpsert = false := by
  have hcolumns : u.inserted = []
      ↔ (m.fields.filter fun f => f.isStored && !f.skipUpsert).map (·.column) = [] := by
    rw [← h.columns, List.map_eq_nil_iff]
  rw [Ne, hcolumns, List.map_eq_nil_iff, List.filter_eq_nil_iff]
  simp

theorem Upserts.wellFormed_iff (h : u.Upserts s m id) (hid : m.idField? = some id) :
    u.WellFormed s m ↔ id.isStored = true ∧ id.column ≠ ""
      ∧ ∃ f ∈ m.fields, f.isStored = true ∧ f.skipUpsert = false := by
  rw [← h.inserted_ne_nil_iff, ← h.conflict]
  constructor
  · rintro ⟨id', hid', -, hrest⟩
    cases hid.symm.trans hid'
    exact hrest
  · exact fun hrest => ⟨id, hid, h, hrest⟩

end Statement

end Upsert

namespace Descriptor

/-- The upsert of a model into a table, for a field that is its id. -/
def upsertInto (m : Descriptor) (table : String) (id : Field) : Upsert where
  table
  inserted := m.upsertColumns.zipIdx 1
  conflict := id.column
  action := .replacing (m.upsertColumns.filter (· != id.column))

variable {m : Descriptor}

theorem upsertColumns_eq (m : Descriptor) :
    m.upsertColumns = (m.fields.filter fun f => f.isStored && !f.skipUpsert).map (·.column) := by
  rw [upsertColumns, storedFields, List.filter_filter]
  simp only [Bool.and_comm]

theorem upserts_upsertInto (h : WellFormed m.fields) (s : Store) (id : Field) :
    (m.upsertInto (Template.qualify s.namespaceName m.table) id).Upserts s m id := by
  have hinserted : (m.upsertColumns.zipIdx 1).map (·.1) = m.upsertColumns :=
    List.zipIdx_map_fst 1 m.upsertColumns
  have hreplaced : (m.upsertInto (Template.qualify s.namespaceName m.table) id).replaced
      = m.upsertColumns.filter (· != id.column) := by
    rw [Upsert.replaced, upsertInto, hinserted]
  refine
    { table := rfl, columns := hinserted.trans m.upsertColumns_eq, columns_nodup := ?_
      numbers := ?_, conflict := rfl, nothing_iff := ?_, assignments := ?_ }
  · show ((m.upsertColumns.zipIdx 1).map (·.1)).Nodup
    rw [hinserted]
    exact h.columns.sublist (List.filter_sublist.map Field.column)
  · show (m.upsertColumns.zipIdx 1).map (·.2) = List.range' 1 (m.upsertColumns.zipIdx 1).length
    rw [List.length_zipIdx]
    exact List.zipIdx_map_snd 1 m.upsertColumns
  · rw [hreplaced]
    exact Upsert.Action.replacing_eq_nothing_iff
  · rw [hreplaced]
    exact Upsert.Action.assignments_replacing _

/-- A field that is described from a declaration and stored as the id has a column name. -/
theorem column_ne_of_describe {decl : FieldDecl} (hrole : decl.describe.role = some .id)
    (hstored : decl.describe.isStored = true) : decl.describe.column ≠ "" := by
  have hskip : decl.isSkipped = false := by
    simpa [FieldDecl.describe, Field.isStored] using hstored
  have hname : Role.ofName? decl.name = some .id := by
    have hrole : decl.role = some .id := hrole
    rw [FieldDecl.role] at hrole
    split at hrole
    · assumption
    · exact hrole
  have hid : decl.name = "ID" := by
    unfold Role.ofName? at hname
    split at hname
    · assumption
    all_goals cases hname
  have hsnake : Naming.snakeCase decl.name ≠ "" := by
    rw [hid]
    decide +kernel
  have hcolumn : decl.describe.column = decl.columnName := by
    rw [FieldDecl.describe, hskip]
    rfl
  rw [hcolumn, FieldDecl.columnName]
  split
  · exact hsnake
  · exact hsnake
  · next hempty _ =>
    rintro rfl
    exact hempty rfl

end Descriptor

namespace Store

variable {s : Store} {m : Descriptor}

/-- The upsert of a model with an id is the text of one statement. -/
theorem upsert_eq_text {id : Field} (hid : m.idField? = some id) :
    s.upsert m = .ok (m.upsertInto (Template.qualify s.namespaceName m.table) id).text := by
  have hinserted : (m.upsertColumns.zipIdx 1).map (·.1) = m.upsertColumns :=
    List.zipIdx_map_fst 1 m.upsertColumns
  have hnumbers : (m.upsertColumns.zipIdx 1).map (fun c => "$" ++ toString c.2)
      = (List.range m.upsertColumns.length).map fun n => "$" ++ toString (n + 1) := by
    calc
      _ = ((m.upsertColumns.zipIdx 1).map (·.2)).map fun n => "$" ++ toString n := by
        rw [List.map_map]
        rfl
      _ = (List.range' 1 m.upsertColumns.length).map fun n => "$" ++ toString n := by
        rw [← List.zipIdx_map_snd 1 m.upsertColumns]
      _ = _ := by
        rw [List.range'_eq_map_range, List.map_map]
        simp only [Function.comp_def, Nat.add_comm]
  rw [upsert, hid]
  show _ = Except.ok (Upsert.text _)
  unfold Upsert.text Descriptor.upsertInto
  rw [hinserted, hnumbers, Upsert.Action.text_replacing]

theorem upsert_eq_error_iff {e : SchemaError} :
    s.upsert m = .error e ↔
      (∀ f ∈ m.fields, f.role ≠ some .id) ∧ e = .noIdField m.typeName := by
  have hnone : m.idField? = none ↔ ∀ f ∈ m.fields, f.role ≠ some .id := by
    rw [Descriptor.idField?, Descriptor.fieldOfRole?, List.find?_eq_none]
    simp
  rw [← hnone]
  cases hid : m.idField? with
  | none => simp [upsert, hid, eq_comm]
  | some id => simp [upsert_eq_text hid]

/-- Upserts of a model that is described. Only a model without a field in the role of the id is
refused. With an id the text is that of one statement, which can be read from it when the names are
plain. It inserts the columns of the stored fields that take part in upserts, each with its own
number, and sets those other than the column of the id to the values that were to be inserted. The
statement is well-formed exactly when the id is stored, its column has a name and some stored field
takes part. The column of a stored id has a name unless the field was described elsewhere. -/
theorem upsert_wellFormed_iff {d : Declaration} (h : Descriptor.ofDeclaration d = .ok m)
    (s : Store) :
    (∀ e, s.upsert m = .error e ↔
        (∀ f ∈ m.fields, f.role ≠ some .id) ∧ e = .noIdField m.typeName)
      ∧ ∀ id, m.idField? = some id → ∃ u : Upsert, s.upsert m = .ok u.text
        ∧ u.Upserts s m id
        ∧ (u.Plain → ∀ v : Upsert, v.Plain → s.upsert m = .ok v.text → v = u)
        ∧ (u.WellFormed s m ↔ id.isStored = true ∧ id.column ≠ ""
          ∧ ∃ f ∈ m.fields, f.isStored = true ∧ f.skipUpsert = false)
        ∧ ((∃ decl : FieldDecl, id = decl.describe) → id.isStored = true → id.column ≠ "") := by
  refine ⟨fun e => upsert_eq_error_iff, fun id hid => ?_⟩
  have hwell : Descriptor.WellFormed m.fields := Descriptor.IsDescribed.wellFormed ⟨d, h⟩
  have hupserts := Descriptor.upserts_upsertInto hwell s id
  refine ⟨_, upsert_eq_text hid, hupserts, fun hplain v hv htext => ?_, ?_, ?_⟩
  · rw [upsert_eq_text hid, Except.ok.injEq] at htext
    exact Upsert.text_inj hv hplain htext.symm
  · exact hupserts.wellFormed_iff hid
  · rintro ⟨decl, rfl⟩ hstored
    have hrole := List.find?_some hid
    exact Descriptor.column_ne_of_describe (beq_iff_eq.mp hrole) hstored

/-- A declaration of accounts. -/
def accountWith (fields : List FieldDecl) : Declaration where
  typeName := "Account"
  parts := fields.map .field

/-- The id of an account. -/
def accountId : FieldDecl := { name := "ID", element := { tag := "i64", kind := .int64 } }

/-- The email of an account. -/
def accountEmail : FieldDecl := { name := "Email", element := { tag := "String", kind := .string } }

/-- The store of a shop. -/
def shop : Store := { namespaceName := "shop" }

/-- The upsert of accounts. -/
def accountUpsert : Upsert where
  table := "shop.account"
  inserted := [("id", 1), ("email", 2)]
  conflict := "id"
  action := .update [("email", "excluded.email")]

/-- With a stored id the upsert of accounts is well-formed, and its text is that of no other one. -/
theorem upsert_wellFormed_accounts :
    ∃ m, Descriptor.ofDeclaration (accountWith [accountId, accountEmail]) = .ok m
      ∧ shop.upsert m = .ok accountUpsert.text ∧ accountUpsert.WellFormed shop m
      ∧ (∀ v : Upsert, v.Plain → shop.upsert m = .ok v.text → v = accountUpsert)
      ∧ accountUpsert.text = "INSERT INTO shop.account (id,email) VALUES($1,$2) ON CONFLICT(id)"
        ++ " DO UPDATE SET email=excluded.email" := by
  have hm : Descriptor.ofDeclaration (accountWith [accountId, accountEmail])
      = .ok (.ofFields (accountWith [accountId, accountEmail])) := by rfl
  obtain ⟨-, hstatement⟩ := upsert_wellFormed_iff hm shop
  obtain ⟨u, htext, hupserts, hread, hwell, hcolumn⟩ :=
    hstatement accountId.describe (by decide +kernel)
  have haccount : accountUpsert.Upserts shop
      (.ofFields (accountWith [accountId, accountEmail])) accountId.describe :=
    ⟨by decide +kernel, by decide +kernel, by decide +kernel, by decide +kernel,
      by decide +kernel, by decide +kernel, by decide +kernel⟩
  cases haccount.unique hupserts
  have hplain : accountUpsert.Plain :=
    ⟨by decide +kernel, by decide +kernel, by decide +kernel, by decide +kernel⟩
  have hname : accountId.describe.column ≠ "" := hcolumn ⟨accountId, rfl⟩ rfl
  exact ⟨_, hm, htext, hwell.mpr ⟨rfl, hname, by decide +kernel⟩, hread hplain,
    by decide +kernel⟩

/-- An account whose id is not stored is not refused, and its upsert names no column after
`ON CONFLICT`. Nor is one refused of which only the id is stored and numbered by the database: its
upsert inserts nothing. There is no well-formed upsert of either. -/
theorem upsert_not_wellFormed :
    ∃ m m',
      Descriptor.ofDeclaration (accountWith [{ accountId with skip := true }, accountEmail])
        = .ok m
      ∧ Descriptor.ofDeclaration (accountWith [{ accountId with sqlType := "BIGSERIAL" }])
        = .ok m'
      ∧ shop.upsert m = .ok ("INSERT INTO shop.account (email) VALUES($1) ON CONFLICT()"
        ++ " DO UPDATE SET email=excluded.email")
      ∧ shop.upsert m' = .ok "INSERT INTO shop.account () VALUES() ON CONFLICT(id) DO NOTHING"
      ∧ ∀ u : Upsert, ¬ u.WellFormed shop m ∧ ¬ u.WellFormed shop m' := by
  refine ⟨_, _, rfl, rfl, by decide +kernel, by decide +kernel, fun u => ⟨?_, ?_⟩⟩
  · rintro ⟨id, hid, -, hstored, -⟩
    cases hid
    cases hstored
  · rintro ⟨id, hid, hupserts, -, -, hinserted⟩
    rw [hupserts.inserted_ne_nil_iff] at hinserted
    revert hinserted
    decide +kernel

end Store

end SchemaEvolution
