import SchemaEvolution.Plan.Differ
import SchemaEvolution.Proofs.Relation.Normal

set_option autoImplicit false

/-! # Live indexes by names up to case

A plan looks the live index of a desired one up by its name in the database up to case
(`findLiveIndex?`). Whether a live index is desired is asked the other way round: its name is put in
lower case and looked for exactly, among the names that are known to be live (`knownIndexes`) or
among those of the relation (`Relation.physicalIndex?`). Names in the database are in lower case and
lower-casing is idempotent, so the two ways agree (`folded_lookups_agree`).
-/

namespace SchemaEvolution

open Text

/-- On ASCII names the comparison letter by letter is that of the lower-case forms. -/
theorem sameAsciiFold_iff {a b : String} (ha : a.toList.all isAscii = true)
    (hb : b.toList.all isAscii = true) : sameAsciiFold a b = true ↔ lowercase a = lowercase b := by
  have h : sameFold a b = sameAsciiFold a b := by
    rw [sameFold, ha, hb]
    rfl
  rw [← h, sameFold_iff]

theorem sameFold_equivalence : Equivalence fun a b => sameFold a b = true where
  refl := sameFold_refl
  symm := sameFold_symm
  trans := sameFold_trans

/-- Being the same as a name in the database up to case is having it as the lower-case form. -/
theorem sameFold_physicalIndexName (name table index : String) :
    sameFold name (physicalIndexName table index)
      = (lowercase name == physicalIndexName table index) := by
  rw [Bool.eq_iff_iff, sameFold_iff, lowercase_physicalIndexName, beq_iff_eq]

theorem findLiveIndex?_physicalIndexName (live : List LiveIndex) (table index : String) :
    findLiveIndex? live (physicalIndexName table index)
      = live.find? fun e => lowercase e.name == physicalIndexName table index := by
  simp only [findLiveIndex?, sameFold_physicalIndexName]

/-- Whether the lookup of a desired index accepts a live one. -/
def LiveIndex.isFound (e : LiveIndex) (table : String) (i : Index) : Bool :=
  (findLiveIndex? [e] (physicalIndexName table i.name)).isSome

theorem LiveIndex.isFound_eq (e : LiveIndex) (table : String) (i : Index) :
    e.isFound table i = (lowercase e.name == physicalIndexName table i.name) := by
  rw [isFound, findLiveIndex?_physicalIndexName, List.find?_singleton]
  cases lowercase e.name == physicalIndexName table i.name <;> rfl

section Lookups

variable (r : Relation)

theorem exists_isFound_iff (e : LiveIndex) :
    r.indexes.any (e.isFound r.table) = true
      ↔ ∃ i ∈ r.indexes, lowercase e.name = physicalIndexName r.table i.name := by
  simp only [List.any_eq_true, LiveIndex.isFound_eq, beq_iff_eq]

/-- A live index has a known name when it is found for a desired index. -/
theorem contains_knownIndexes {live : List LiveIndex} {e : LiveIndex} (he : e ∈ live) :
    (Plan.knownIndexes r live).contains (lowercase e.name)
      = r.indexes.any (e.isFound r.table) := by
  rw [Bool.eq_iff_iff, exists_isFound_iff, List.contains_iff_mem, Plan.knownIndexes,
    List.mem_filter, List.mem_map]
  constructor
  · rintro ⟨⟨i, hi, hname⟩, -⟩
    exact ⟨i, hi, hname.symm⟩
  · rintro ⟨i, hi, hname⟩
    refine ⟨⟨i, hi, hname.symm⟩, ?_⟩
    -- the live index itself is among those of this name
    rw [hname, findLiveIndex?_physicalIndexName, List.find?_isSome]
    exact ⟨e, he, beq_iff_eq.mpr hname⟩

/-- The relation has an index under the name of a live one when that is found for an index of it. -/
theorem isSome_physicalIndex? (e : LiveIndex) :
    (r.physicalIndex? (lowercase e.name)).isSome = r.indexes.any (e.isFound r.table) := by
  rw [Bool.eq_iff_iff, exists_isFound_iff, Option.isSome_iff_exists]
  constructor
  · rintro ⟨i, hi⟩
    exact ⟨i, Relation.mem_of_physicalIndex? hi⟩
  · rintro ⟨i, hi, hname⟩
    rw [← Option.isSome_iff_exists, Relation.physicalIndex?, List.lookup_isSome_iff]
    exact ⟨(_, i), List.mem_reverse.mpr (List.mem_map_of_mem hi), beq_iff_eq.mpr hname⟩

end Lookups

/-- Names up to case are compared in one way. Two names are the same up to case exactly when their
lower-case forms are equal, and on ASCII names the comparison letter by letter says the same; so it
is an equivalence. Lower-casing is idempotent. Therefore the lookup of a live index up to case is one
by the exact lower-case name, and it accepts a live index for some index of a relation exactly when
the exact lookups accept its lower-case name: the one among the names known to be live and the one
among the names of the relation, after which the index that was found is compared by its columns
only. -/
theorem folded_lookups_agree :
    (∀ a b, sameFold a b = true ↔ lowercase a = lowercase b)
      ∧ (∀ a b, a.toList.all isAscii = true → b.toList.all isAscii = true →
        (sameAsciiFold a b = true ↔ lowercase a = lowercase b))
      ∧ (Equivalence fun a b => sameFold a b = true)
      ∧ (∀ a, lowercase (lowercase a) = lowercase a)
      ∧ (∀ live table index, findLiveIndex? live (physicalIndexName table index)
        = live.find? fun e => lowercase e.name == physicalIndexName table index)
      ∧ (∀ (r : Relation) (live : List LiveIndex), ∀ e ∈ live,
        (Plan.knownIndexes r live).contains (lowercase e.name)
          = r.indexes.any (e.isFound r.table))
      ∧ (∀ (r : Relation) (e : LiveIndex),
        (r.physicalIndex? (lowercase e.name)).isSome = r.indexes.any (e.isFound r.table))
      ∧ ∀ (r : Relation) (e : LiveIndex) (i : Index),
        r.physicalIndex? (lowercase e.name) = some i →
          e.isFound r.table i = true
            ∧ e.isIndex r.table i = sameColumns e.columns i.columns := by
  refine ⟨fun a b => sameFold_iff, fun a b => sameAsciiFold_iff, sameFold_equivalence,
    lowercase_lowercase, findLiveIndex?_physicalIndexName, fun r live e => contains_knownIndexes r,
    isSome_physicalIndex?, fun r e i hi => ?_⟩
  have hname := (Relation.mem_of_physicalIndex? hi).2
  have hfold : sameFold (physicalIndexName r.table i.name) e.name = true := by
    rw [sameFold_iff, lowercase_physicalIndexName, hname]
  refine ⟨?_, ?_⟩
  · rw [LiveIndex.isFound_eq, hname, beq_self_eq_true]
  · rw [LiveIndex.isIndex, hfold, Bool.true_and]

/-- A table whose name has a lower case of two characters, and an index that ends in a sigma. -/
def sigmaTable : Relation where
  table := "İ"
  indexes := [{ name := "_οδοσ", columns := ["a"] }, { name := "_ΟΔΟΣ", columns := ["b"] }]

/-- A live index with the name of the second one in capitals. -/
def sigmaIndex : LiveIndex := ⟨"İ_ΟΔΟΣ", "s.i", "s", ["B"]⟩

/-- A sigma at the end of a word has a lower case of its own, which the small letter does not
become: the live index is found for the index in capitals and not for the other one. -/
theorem folded_lookups_agree_sigma :
    sigmaTable.indexes.map (sigmaIndex.isFound sigmaTable.table) = [false, true]
      ∧ (Plan.knownIndexes sigmaTable [sigmaIndex]).contains (lowercase sigmaIndex.name) = true
      ∧ (sigmaTable.physicalIndex? (lowercase sigmaIndex.name)).isSome = true
      ∧ sigmaIndex.isIndex "İ" { name := "_ΟΔΟΣ", columns := ["b"] } = true
      ∧ lowercase "T_A" = lowercase "t_a" := by
  obtain ⟨-, hascii, -, -, -, hknown, hnamed, hindex⟩ := folded_lookups_agree
  have hfound : sigmaTable.indexes.map (sigmaIndex.isFound sigmaTable.table) = [false, true] := by
    decide +kernel
  have hany : sigmaTable.indexes.any (sigmaIndex.isFound sigmaTable.table) = true := by
    rw [← Function.id_comp (sigmaIndex.isFound sigmaTable.table), ← List.any_map, hfound]
    rfl
  refine ⟨hfound, ?_, ?_, ?_, ?_⟩
  · rw [hknown sigmaTable [sigmaIndex] sigmaIndex List.mem_cons_self, hany]
  · rw [hnamed, hany]
  · have hlookup : sigmaTable.physicalIndex? (lowercase sigmaIndex.name)
        = some { name := "_ΟΔΟΣ", columns := ["b"] } := by decide +kernel
    exact ((hindex _ _ _ hlookup).2).trans (by decide +kernel)
  · exact (hascii "T_A" "t_a" (by decide) (by decide)).mp (by decide)

end SchemaEvolution
