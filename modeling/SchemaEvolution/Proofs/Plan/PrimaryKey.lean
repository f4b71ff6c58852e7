import SchemaEvolution.Proofs.Plan.Queues
import SchemaEvolution.Proofs.Relation.Normal

set_option autoImplicit false

/-! # The primary key of a planned change

A change is refused exactly when a desired column is recorded with another primary-key flag
(`Plan.alter_ok_iff`). A recorded column that is no longer desired is not looked at, and a desired
column without a record is added or adopted with the flag it asks for. So a plan keeps the primary
key only when the key columns themselves are on both sides (`Plan.alter_keeps_key_iff`): a key
column that the model drops, or that it adds, changes the recorded key without an error.
-/

namespace SchemaEvolution

open Text

/-- Equality of lists of names as sets, up to case. -/
def SameNames (as bs : List String) : Prop :=
  (∀ a ∈ as, ∃ b ∈ bs, sameFold a b = true) ∧ ∀ b ∈ bs, ∃ a ∈ as, sameFold a b = true

instance (as bs : List String) : Decidable (SameNames as bs) :=
  inferInstanceAs (Decidable (_ ∧ _))

theorem Relation.mem_primaryKey {r : Relation} {name : String} :
    name ∈ r.primaryKey ↔ ∃ c ∈ r.columns, c.primaryKey = true ∧ c.name = name := by
  rw [primaryKey, sorted, List.mem_mergeSort, List.mem_map]
  constructor
  · rintro ⟨c, hc, rfl⟩
    obtain ⟨hc, hkey⟩ := List.mem_filter.mp hc
    exact ⟨c, hc, hkey, rfl⟩
  · rintro ⟨c, hc, hkey, rfl⟩
    exact ⟨c, List.mem_filter.mpr ⟨hc, hkey⟩, rfl⟩

namespace Plan

variable {schema : String} {last desired : Relation} {columns : List LiveColumn}
  {indexes : List LiveIndex}

/-- A change of a table is planned exactly when no desired column is recorded with another
primary-key flag. -/
theorem alter_ok_iff (hlast : last.isView = false) (hdesired : desired.isView = false) :
    (∃ p, alter schema last desired columns indexes = .ok p)
      ↔ ∀ c ∈ desired.columns, ∀ old, last.column? c.name = some old →
        c.primaryKey = old.primaryKey := by
  constructor
  · rintro ⟨p, h⟩ c hc old hold
    refine primaryKey_eq_of_alter hlast hdesired h c hc old ?_
    rw [baseColumn?, hold]
  · intro h
    have hcolumns : ∀ c ∈ desired.columns,
        ∃ ps, columnPatches schema desired.table last columns c = .ok ps := by
      intro c hc
      unfold columnPatches
      split
      · exact ⟨_, rfl⟩
      · next old hold =>
        have hkey : c.primaryKey = old.primaryKey := by
          unfold baseColumn? at hold
          split at hold
          · next hrecorded =>
            cases hold
            exact h c hc old hrecorded
          -- a live column takes the flag of the desired one
          · obtain ⟨e, -, rfl⟩ := Option.map_eq_some_iff.mp hold
            rfl
        rw [if_pos (beq_iff_eq.mpr hkey)]
        exact ⟨_, rfl⟩
    obtain ⟨patches, hpatches⟩ := mapM_ok_of_forall hcolumns
    rw [alter, hlast, hdesired, Bool.or_self, if_neg Bool.false_ne_true, alterTableShape, hpatches]
    exact ⟨_, rfl⟩

/-- A planned change keeps the primary key exactly when each desired key column is recorded, and
each recorded one is desired and found under its name. -/
theorem alter_keeps_key_iff (hlast : last.isView = false) (hdesired : desired.isView = false)
    {p : Plan} (h : alter schema last desired columns indexes = .ok p) :
    SameNames last.primaryKey desired.primaryKey
      ↔ (∀ c ∈ desired.columns, c.primaryKey = true → (last.column? c.name).isSome = true)
        ∧ ∀ r ∈ last.columns, r.primaryKey = true →
          (desired.column? r.name).isSome = true
            ∧ (last.column? r.name).any (·.primaryKey) = true := by
  have hflags := (alter_ok_iff hlast hdesired).mp ⟨p, h⟩
  constructor
  · rintro ⟨hkept, hold⟩
    refine ⟨?_, ?_⟩
    · intro c hc hkey
      obtain ⟨name, hname, hfold⟩ := hold c.name (Relation.mem_primaryKey.mpr ⟨c, hc, hkey, rfl⟩)
      obtain ⟨r, hr, -, rfl⟩ := Relation.mem_primaryKey.mp hname
      exact Relation.column?_isSome_iff.mpr ⟨r, hr, hfold⟩
    · intro r hr hkey
      obtain ⟨name, hname, hfold⟩ := hkept r.name (Relation.mem_primaryKey.mpr ⟨r, hr, hkey, rfl⟩)
      obtain ⟨c, hc, hckey, rfl⟩ := Relation.mem_primaryKey.mp hname
      refine ⟨Relation.column?_isSome_iff.mpr ⟨c, hc, sameFold_symm hfold⟩, ?_⟩
      rw [last.column?_congr hfold]
      cases hfind : last.column? c.name with
      | none =>
          rw [Relation.column?_eq_none_iff.mp hfind r hr] at hfold
          cases hfold
      | some old =>
          rw [Option.any_some, ← hflags c hc old hfind]
          exact hckey
  · rintro ⟨hadded, hdropped⟩
    refine ⟨?_, ?_⟩
    · intro name hname
      obtain ⟨r, hr, hkey, rfl⟩ := Relation.mem_primaryKey.mp hname
      obtain ⟨hsome, hfirst⟩ := hdropped r hr hkey
      obtain ⟨c, hc, hfold⟩ := Relation.column?_isSome_iff.mp hsome
      obtain ⟨old, hold, hokey⟩ := (Option.any_eq_true _ _).mp hfirst
      rw [← last.column?_congr hfold] at hold
      refine ⟨c.name, Relation.mem_primaryKey.mpr ⟨c, hc, ?_, rfl⟩, sameFold_symm hfold⟩
      rw [hflags c hc old hold]
      exact hokey
    · intro name hname
      obtain ⟨c, hc, hkey, rfl⟩ := Relation.mem_primaryKey.mp hname
      obtain ⟨old, hold⟩ := Option.isSome_iff_exists.mp (hadded c hc hkey)
      obtain ⟨hmem, hfold⟩ := Relation.mem_of_column? hold
      refine ⟨old.name, Relation.mem_primaryKey.mpr ⟨old, hmem, ?_, rfl⟩, hfold⟩
      rw [← hflags c hc old hold]
      exact hkey

/-- A table with the key `id`. -/
def keyedTable : Relation where
  table := "t"
  columns := [{ name := "a", dataType := "INT" },
    { name := "id", dataType := "INT", notNull := true, primaryKey := true }]

theorem alter_keeps_key_unchanged :
    alter "s" keyedTable keyedTable [] [] = .ok { schema := "s", table := "t" }
      ∧ SameNames keyedTable.primaryKey keyedTable.primaryKey := by
  have hplan : alter "s" keyedTable keyedTable [] [] = .ok { schema := "s", table := "t" } := by
    decide +kernel
  refine ⟨hplan, (alter_keeps_key_iff rfl rfl hplan).mpr ⟨?_, ?_⟩⟩
  · decide +kernel
  · decide +kernel

/-- The same table without the column of its key. -/
def keylessTable : Relation where
  table := "t"
  columns := [{ name := "a", dataType := "INT" }]

/-- A plan is made although the key column is dropped from the model, or a key column added. -/
theorem alter_changes_key_silently :
    keyedTable.isEmpty = false ∧ keyedTable.isView = false
      ∧ keylessTable.isEmpty = false ∧ keylessTable.isView = false
      ∧ alter "s" keyedTable keylessTable [] [] = .ok { schema := "s", table := "t" }
      ∧ ¬ SameNames keyedTable.primaryKey keylessTable.primaryKey
      ∧ (alter "s" keylessTable keyedTable [] []).toBool = true
      ∧ ¬ SameNames keylessTable.primaryKey keyedTable.primaryKey := by
  decide +kernel

end Plan

end SchemaEvolution
