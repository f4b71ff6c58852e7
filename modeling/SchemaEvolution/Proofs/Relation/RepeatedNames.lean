import SchemaEvolution.Proofs.Relation.Equality
import SchemaEvolution.Proofs.Relation.SnapshotRoundTrip

set_option autoImplicit false

/-! # Equality of relations that repeat a name

A relation that was read from a snapshot may have two columns, or two indexes, of one name, and a
lookup finds the first of them only. So a relation is equal to itself exactly when its columns of
one name are equal, and its indexes of one name too (`Relation.Consistent`). When it is equal to
another relation, the other one is equal to it exactly when both are consistent and have the same
names (`Relation.sameAs_refl_symm_iff`); otherwise a column of the second relation may be one that
the first lacks, because two columns of the first were found as one.
-/

namespace SchemaEvolution

open Text

namespace Comparison

variable {α : Type} (k : Comparison α) {as bs : List α}

/-- Entries of one name are equal. -/
def Consistent (as : List α) : Prop :=
  ∀ a ∈ as, ∀ b ∈ as, sameFold (k.name a) (k.name b) = true → k.same a b = true

/-- A name is found in both lists or in none. -/
def SameNames (as bs : List α) : Prop :=
  ∀ n, (as.find? fun a => sameFold (k.name a) n).isSome
    = (bs.find? fun b => sameFold (k.name b) n).isSome

variable {k}

theorem consistent_of_distinct (h : DistinctNames (as.map k.name)) : k.Consistent as := by
  intro a ha b hb hname
  rw [h.eq_of_sameFold ha hb hname]
  exact k.refl b

theorem Consistent.foundIn_self (h : k.Consistent as) : k.FoundIn as as := by
  intro a ha
  cases hfirst : as.find? fun b => sameFold (k.name b) (k.name a) with
  | none => exact absurd (sameFold_refl (k.name a)) (List.find?_eq_none.mp hfirst a ha)
  | some b =>
      have hname : sameFold (k.name b) (k.name a) = true := by simpa using List.find?_some hfirst
      exact h a ha b (List.mem_of_find?_eq_some hfirst) (sameFold_symm hname)

/-- Entries of one name that are found are equal to one and the same entry. -/
theorem FoundIn.consistent (h : k.FoundIn as bs) : k.Consistent as := by
  intro a ha b hb hname
  obtain ⟨c, hfirst, hsame⟩ := h.exists_first ha
  obtain ⟨d, hfirst', hsame'⟩ := h.exists_first hb
  rw [find?_congr_name hname, hfirst', Option.some.injEq] at hfirst
  rw [hfirst] at hsame'
  exact k.trans hsame (k.symm hsame')

/-- The names of entries that are found are among the names of the other list. -/
theorem FoundIn.isSome_find? (h : k.FoundIn as bs) {n : String}
    (hn : (as.find? fun a => sameFold (k.name a) n).isSome = true) :
    (bs.find? fun b => sameFold (k.name b) n).isSome = true := by
  rw [List.find?_isSome] at hn ⊢
  obtain ⟨a, ha, hname⟩ := hn
  obtain ⟨b, hfirst, hsame⟩ := h.exists_first ha
  exact ⟨b, List.mem_of_find?_eq_some hfirst,
    sameFold_trans (sameFold_symm (k.name_eq hsame)) hname⟩

theorem FoundIn.sameNames (hab : k.FoundIn as bs) (hba : k.FoundIn bs as) :
    k.SameNames as bs :=
  fun _ => Bool.eq_iff_iff.mpr ⟨hab.isSome_find?, hba.isSome_find?⟩

/-- Consistent entries are found in turn when they have no further names. -/
theorem FoundIn.reverse (h : k.FoundIn as bs) (hbs : k.Consistent bs)
    (hnames : k.SameNames as bs) : k.FoundIn bs as := by
  intro b hb
  have hsome : (as.find? fun a => sameFold (k.name a) (k.name b)).isSome = true := by
    rw [hnames, List.find?_isSome]
    exact ⟨b, hb, sameFold_refl (k.name b)⟩
  obtain ⟨a, hfirst⟩ := Option.isSome_iff_exists.mp hsome
  -- the entry found for `b` was found itself, as an entry of the name of `b`
  obtain ⟨c, hfirst', hsame⟩ := h.exists_first (List.mem_of_find?_eq_some hfirst)
  have hfold : sameFold (k.name a) (k.name b) = true := by simpa using List.find?_some hfirst
  have hname := sameFold_trans (sameFold_symm hfold) (k.name_eq hsame)
  rw [hfirst]
  exact k.trans (hbs b hb c (List.mem_of_find?_eq_some hfirst') hname) (k.symm hsame)

end Comparison

namespace Relation

/-- Columns of one name are equal, and indexes of one name are. -/
structure Consistent (r : Relation) : Prop where
  columns : ∀ c ∈ r.columns, ∀ d ∈ r.columns, sameFold c.name d.name = true → c.sameAs d = true
  indexes : ∀ i ∈ r.indexes, ∀ j ∈ r.indexes, sameFold i.name j.name = true → i.sameAs j = true

/-- The relations have columns, and indexes, of the same names up to case. -/
structure SharesNames (a b : Relation) : Prop where
  columns : ∀ name, (a.column? name).isSome = (b.column? name).isSome
  indexes : ∀ name, (a.index? name).isSome = (b.index? name).isSome

variable {a b : Relation}

theorem Unambiguous.consistent (h : a.Unambiguous) : a.Consistent where
  columns := Comparison.consistent_of_distinct (k := Column.comparison) h.columns
  indexes := Comparison.consistent_of_distinct (k := Index.comparison) h.indexes

theorem consistent_of_sameAs (h : a.sameAs b = true) : a.Consistent := by
  obtain ⟨-, ⟨-, hcolumns⟩, -, hindexes⟩ := sameAs_iff_foundIn.mp h
  exact ⟨hcolumns.consistent, hindexes.consistent⟩

/-- A relation is equal to itself exactly when it repeats no name with another definition. -/
theorem sameAs_self_iff : a.sameAs a = true ↔ a.Consistent := by
  constructor
  · exact consistent_of_sameAs
  · intro h
    have hcolumns := Comparison.Consistent.foundIn_self (k := Column.comparison) h.columns
    have hindexes := Comparison.Consistent.foundIn_self (k := Index.comparison) h.indexes
    exact sameAs_iff_foundIn.mpr
      ⟨⟨sameFold_refl a.table, rfl, rfl, rfl⟩, ⟨rfl, hcolumns⟩, rfl, hindexes⟩

theorem sharesNames_of_sameAs (hab : a.sameAs b = true) (hba : b.sameAs a = true) :
    a.SharesNames b := by
  obtain ⟨-, ⟨-, hcolumns⟩, -, hindexes⟩ := sameAs_iff_foundIn.mp hab
  obtain ⟨-, ⟨-, hcolumns'⟩, -, hindexes'⟩ := sameAs_iff_foundIn.mp hba
  exact ⟨hcolumns.sameNames hcolumns', hindexes.sameNames hindexes'⟩

theorem SharesNames.symm (h : a.SharesNames b) : b.SharesNames a :=
  ⟨fun name => (h.columns name).symm, fun name => (h.indexes name).symm⟩

theorem sameAs_reverse (h : a.sameAs b = true) (hb : b.Consistent) (hnames : a.SharesNames b) :
    b.sameAs a = true := by
  obtain ⟨hhead, ⟨hlength, hcolumns⟩, hlength', hindexes⟩ := sameAs_iff_foundIn.mp h
  exact sameAs_iff_foundIn.mpr
    ⟨hhead.symm, ⟨hlength.symm, hcolumns.reverse hb.columns hnames.columns⟩, hlength'.symm,
      hindexes.reverse hb.indexes hnames.indexes⟩

/-- Equality of relations is reflexive at a relation exactly when it is consistent, and symmetric
between two relations exactly when they are both unequal, or consistent and of the same names. So
it is both between relations that repeat no name. -/
theorem sameAs_refl_symm_iff (a b : Relation) :
    (a.sameAs a = true ↔ a.Consistent)
      ∧ (a.sameAs b = b.sameAs a ↔ (a.sameAs b = true ∨ b.sameAs a = true →
        a.Consistent ∧ b.Consistent ∧ a.SharesNames b))
      ∧ (a.Unambiguous → b.Unambiguous → a.sameAs a = true ∧ a.sameAs b = b.sameAs a) := by
  refine ⟨sameAs_self_iff, ⟨?_, ?_⟩, ?_⟩
  · intro hsymm hequal
    have hab : a.sameAs b = true := hequal.elim id fun h => hsymm.trans h
    have hba : b.sameAs a = true := hsymm.symm.trans hab
    exact ⟨consistent_of_sameAs hab, consistent_of_sameAs hba, sharesNames_of_sameAs hab hba⟩
  · intro h
    rw [Bool.eq_iff_iff]
    constructor
    · intro hab
      obtain ⟨-, hb, hnames⟩ := h (.inl hab)
      exact sameAs_reverse hab hb hnames
    · intro hba
      obtain ⟨ha, -, hnames⟩ := h (.inr hba)
      exact sameAs_reverse hba ha hnames.symm
  · intro ha hb
    refine ⟨sameAs_self_iff.mpr ha.consistent, ?_⟩
    rw [Bool.eq_iff_iff, sameAs_iff_paired ha hb, sameAs_iff_paired hb ha]
    constructor
    · rintro ⟨hhead, hcolumns, hindexes⟩
      exact ⟨hhead.symm, hcolumns.symm.imp fun _ _ => Column.comparison.symm,
        hindexes.symm.imp fun _ _ => Index.comparison.symm⟩
    · rintro ⟨hhead, hcolumns, hindexes⟩
      exact ⟨hhead.symm, hcolumns.symm.imp fun _ _ => Column.comparison.symm,
        hindexes.symm.imp fun _ _ => Index.comparison.symm⟩

/-- Columns that are sorted stay as they are, also when they repeat a name. -/
theorem normalized_of_pairwise {r : Relation}
    (hcolumns : r.columns.Pairwise fun c d => decide (c.name ≤ d.name) = true)
    (hindexes : r.indexes = []) : r.normalized = r := by
  rw [normalized, List.mergeSort_of_pairwise hcolumns, hindexes, List.mergeSort_nil, List.map_nil,
    ← hindexes]

/-- A table that repeats its column `id`. -/
def repeatedColumn : Relation where
  table := "t"
  columns := [{ name := "id", dataType := "INT" }, { name := "id", dataType := "INT" }]

/-- A table that repeats its column `id` with another type. -/
def retypedColumn : Relation where
  table := "t"
  columns := [{ name := "id", dataType := "INT" }, { name := "id", dataType := "TEXT" }]

/-- A table that repeats a column as it is equals itself. -/
theorem sameAs_refl_symm_repeated :
    repeatedColumn.Consistent ∧ repeatedColumn.sameAs repeatedColumn = true := by
  have hself := (sameAs_refl_symm_iff repeatedColumn repeatedColumn).1
  have hsame : repeatedColumn.sameAs repeatedColumn = true := by decide +kernel
  exact ⟨hself.mp hsame, hsame⟩

/-- Tables that can be read from snapshots, of which one is not equal to itself, and one is equal
to the other but not the other way round. -/
theorem sameAs_not_refl_not_symm :
    ofSnapshot? retypedColumn.snapshot = some retypedColumn
      ∧ ofSnapshot? repeatedColumn.snapshot = some repeatedColumn
      ∧ retypedColumn.sameAs retypedColumn = false
      ∧ repeatedColumn.sameAs retypedColumn = true
      ∧ retypedColumn.sameAs repeatedColumn = false := by
  rw [ofSnapshot?_snapshot, ofSnapshot?_snapshot, normalized_of_pairwise (by decide +kernel) rfl,
    normalized_of_pairwise (by decide +kernel) rfl]
  decide +kernel

end Relation

end SchemaEvolution
