import SchemaEvolution.Proofs.Lists
import SchemaEvolution.Proofs.Relation.Normal

set_option autoImplicit false

/-! # Equality up to order

Two relations are compared in one direction and by name: each column of the first, and each index,
is compared with the first one of its name in the second (`Comparison.FoundIn`). When names are
distinct up to case this is a one-to-one pairing of equal columns and of equal indexes, so the
order of columns, of indexes and of the columns of an index makes no difference
(`Relation.sameAs_ignores_order`).
-/

namespace SchemaEvolution

open Text

/-! ## Pairings -/

/-- The entries of two lists are paired one to one, and paired entries are related. -/
def Paired {α β : Type} (R : α → β → Prop) (as : List α) (bs : List β) : Prop :=
  ∃ cs, List.Forall₂ R as cs ∧ cs.Perm bs

section Pairings

variable {α β : Type} {R : α → β → Prop} {as : List α} {bs : List β}

theorem Paired.length_eq (h : Paired R as bs) : as.length = bs.length := by
  obtain ⟨cs, hrelated, hperm⟩ := h
  exact hrelated.length_eq.trans hperm.length_eq

theorem Paired.symm (h : Paired R as bs) : Paired (fun b a => R a b) bs as := by
  obtain ⟨cs, hrelated, hperm⟩ := h
  obtain ⟨ds, hrelated', hperm'⟩ := List.perm_comp_forall₂ hperm.symm hrelated.flip
  exact ⟨ds, hrelated', hperm'⟩

theorem Paired.imp {S : α → β → Prop} (h : Paired R as bs) (hRS : ∀ a b, R a b → S a b) :
    Paired S as bs := by
  obtain ⟨cs, hrelated, hperm⟩ := h
  exact ⟨cs, hrelated.imp hRS, hperm⟩

theorem Paired.exists_mem (h : Paired R as bs) {a : α} (ha : a ∈ as) : ∃ b ∈ bs, R a b := by
  obtain ⟨cs, hrelated, hperm⟩ := h
  obtain ⟨n, hn, rfl⟩ := List.getElem_of_mem ha
  have hn' : n < cs.length := hrelated.length_eq ▸ hn
  exact ⟨cs[n], hperm.mem_iff.mp (List.getElem_mem hn'), hrelated.get hn hn'⟩

/-- What related entries have in common, the lists have in common up to order. -/
theorem Paired.map_perm {γ : Type} {f : α → γ} {g : β → γ} (h : Paired R as bs)
    (hR : ∀ a b, R a b → f a = g b) : (as.map f).Perm (bs.map g) := by
  obtain ⟨cs, hrelated, hperm⟩ := h
  have hmap : as.map f = cs.map g := by
    rw [← List.forall₂_eq_eq_eq, List.forall₂_map_left_iff, List.forall₂_map_right_iff]
    exact hrelated.imp hR
  rw [hmap]
  exact hperm.map g

theorem exists_forall₂ (h : ∀ a ∈ as, ∃ b, R a b) : ∃ bs, List.Forall₂ R as bs := by
  induction as with
  | nil => exact ⟨[], .nil⟩
  | cons a as ih =>
      obtain ⟨b, hb⟩ := h a List.mem_cons_self
      obtain ⟨bs, hbs⟩ := ih fun a' ha' => h a' (List.mem_cons_of_mem a ha')
      exact ⟨b :: bs, .cons hb hbs⟩

section Keys

variable {γ : Type} {f : α → γ} {g : β → γ}

/-- Entries with keys of their own are paired with some entries of another list, when each is
related to one there and related entries have one key. -/
theorem exists_subperm_of_keys (hfound : ∀ a ∈ as, ∃ b ∈ bs, R a b)
    (hkeys : ∀ a b, R a b → f a = g b) (hnodup : (as.map f).Nodup) :
    ∃ cs, List.Forall₂ R as cs ∧ cs.Subperm bs := by
  obtain ⟨cs, hcs⟩ := exists_forall₂ (R := fun a b => b ∈ bs ∧ R a b) hfound
  have hsub : cs ⊆ bs := by
    intro c hc
    obtain ⟨n, hn, rfl⟩ := List.getElem_of_mem hc
    exact (hcs.get (hcs.length_eq ▸ hn) hn).1
  -- the entries found have the keys of those looked up, so they are distinct as well
  have hpaired : Paired (fun a b => b ∈ bs ∧ R a b) as cs := ⟨cs, hcs, .refl cs⟩
  have hkeysPerm := hpaired.map_perm fun a b hab => hkeys a b hab.2
  have hcsNodup : cs.Nodup := (hkeysPerm.nodup_iff.mp hnodup).of_map g
  exact ⟨cs, hcs.imp fun _ _ hab => hab.2, hcsNodup.subperm hsub⟩

theorem length_le_of_keys (hfound : ∀ a ∈ as, ∃ b ∈ bs, R a b)
    (hkeys : ∀ a b, R a b → f a = g b) (hnodup : (as.map f).Nodup) : as.length ≤ bs.length := by
  obtain ⟨cs, hcs, hsub⟩ := exists_subperm_of_keys hfound hkeys hnodup
  rw [hcs.length_eq]
  exact hsub.length_le

theorem paired_of_keys (hfound : ∀ a ∈ as, ∃ b ∈ bs, R a b)
    (hkeys : ∀ a b, R a b → f a = g b) (hnodup : (as.map f).Nodup)
    (hlength : bs.length ≤ as.length) : Paired R as bs := by
  obtain ⟨cs, hcs, hsub⟩ := exists_subperm_of_keys hfound hkeys hnodup
  exact ⟨cs, hcs, hsub.perm_of_length_le (hcs.length_eq ▸ hlength)⟩

end Keys

end Pairings

/-! ## Comparing entries by name -/

/-- An equality of named entries: equal entries have the same name up to case. -/
structure Comparison (α : Type) where
  name : α → String
  same : α → α → Bool
  refl : ∀ a, same a a = true
  symm : ∀ {a b}, same a b = true → same b a = true
  trans : ∀ {a b c}, same a b = true → same b c = true → same a c = true
  name_eq : ∀ {a b}, same a b = true → sameFold (name a) (name b) = true

namespace Comparison

variable {α : Type} (k : Comparison α) {as bs cs : List α}

/-- Each entry of a list equals the first entry of its name in another one. -/
def FoundIn (as bs : List α) : Prop :=
  ∀ a ∈ as, (bs.find? fun b => sameFold (k.name b) (k.name a)).any (k.same a) = true

variable {k}

theorem FoundIn.exists_first (h : k.FoundIn as bs) {a : α} (ha : a ∈ as) :
    ∃ b, bs.find? (fun b => sameFold (k.name b) (k.name a)) = some b ∧ k.same a b = true :=
  (Option.any_eq_true _ _).mp (h a ha)

/-- The first entry of a name is the same for every spelling of the name. -/
theorem find?_congr_name {a b : α} (h : sameFold (k.name a) (k.name b) = true) (cs : List α) :
    cs.find? (fun c => sameFold (k.name c) (k.name a))
      = cs.find? fun c => sameFold (k.name c) (k.name b) := by
  refine List.find?_congr fun c _ => ?_
  rw [Bool.eq_iff_iff, sameFold_iff, sameFold_iff, sameFold_iff.mp h]

theorem FoundIn.trans (hab : k.FoundIn as bs) (hbc : k.FoundIn bs cs) : k.FoundIn as cs := by
  intro a ha
  obtain ⟨b, hfirst, hsame⟩ := hab.exists_first ha
  obtain ⟨c, hfirst', hsame'⟩ := hbc.exists_first (List.mem_of_find?_eq_some hfirst)
  rw [find?_congr_name (k.name_eq hsame), hfirst']
  exact k.trans hsame hsame'

/-- Distinct entries that are found in a list as long as theirs are paired with its entries. -/
theorem FoundIn.paired (h : k.FoundIn as bs) (hnames : DistinctNames (as.map k.name))
    (hlength : as.length = bs.length) : Paired (fun a b => k.same a b = true) as bs := by
  have hfound : ∀ a ∈ as, ∃ b ∈ bs, k.same a b = true := by
    intro a ha
    obtain ⟨b, hfirst, hsame⟩ := h.exists_first ha
    exact ⟨b, List.mem_of_find?_eq_some hfirst, hsame⟩
  have hkeys : ∀ a b, k.same a b = true → lowercase (k.name a) = lowercase (k.name b) :=
    fun a b hsame => sameFold_iff.mp (k.name_eq hsame)
  rw [distinctNames_iff, List.map_map] at hnames
  exact paired_of_keys hfound hkeys hnames hlength.ge

/-- In a list of distinct entries that are found, the entry of a name equals the one of the other
list. -/
theorem FoundIn.exists_found (h : k.FoundIn as bs) (hnames : DistinctNames (as.map k.name))
    (hlength : as.length = bs.length) {b : α} (hb : b ∈ bs) :
    ∃ a, as.find? (fun a => sameFold (k.name a) (k.name b)) = some a ∧ k.same a b = true := by
  obtain ⟨a, ha, hsame⟩ := (h.paired hnames hlength).symm.exists_mem hb
  exact ⟨a, hnames.find?_eq_some ha (k.name_eq hsame), hsame⟩

/-- In a list of distinct entries each paired entry is found. -/
theorem foundIn_of_paired (h : Paired (fun a b => k.same a b = true) as bs)
    (hnames : DistinctNames (bs.map k.name)) : k.FoundIn as bs := by
  intro a ha
  obtain ⟨b, hb, hsame⟩ := h.exists_mem ha
  rw [hnames.find?_eq_some hb (sameFold_symm (k.name_eq hsame))]
  exact hsame

end Comparison

/-! ## Equal columns and equal indexes -/

theorem Column.sameAs_iff {a b : Column} : a.sameAs b = true ↔
    lowercase a.name = lowercase b.name ∧ lowercase a.dataType = lowercase b.dataType
      ∧ a.defaultValue = b.defaultValue ∧ a.notNull = b.notNull
      ∧ a.primaryKey = b.primaryKey := by
  simp only [sameAs, Bool.and_eq_true, sameFold_iff, beq_iff_eq, and_assoc]

/-- Column lists are equal when they are as long as each other and have the same names. -/
theorem sameColumns_iff {as bs : List String} : sameColumns as bs = true ↔
    as.length = bs.length ∧ ∀ n, n ∈ as.map lowercase ↔ n ∈ bs.map lowercase := by
  simp only [sameColumns, Bool.and_eq_true, beq_iff_eq, List.all_eq_true, List.any_eq_true,
    sameFold_iff, List.mem_map, and_assoc]
  refine and_congr_right fun _ => ?_
  constructor
  · rintro ⟨hab, hba⟩ n
    constructor
    · rintro ⟨l, hl, rfl⟩
      obtain ⟨r, hr, heq⟩ := hab l hl
      exact ⟨r, hr, heq.symm⟩
    · rintro ⟨r, hr, rfl⟩
      exact hba r hr
  · intro h
    refine ⟨fun l hl => ?_, fun r hr => (h (lowercase r)).mpr ⟨r, hr, rfl⟩⟩
    obtain ⟨r, hr, heq⟩ := (h (lowercase l)).mp ⟨l, hl, rfl⟩
    exact ⟨r, hr, heq.symm⟩

theorem sameColumns_of_perm {as bs : List String} (h : as.Perm bs) :
    sameColumns as bs = true :=
  sameColumns_iff.mpr ⟨h.length_eq, fun _ => (h.map lowercase).mem_iff⟩

theorem Index.sameAs_iff {a b : Index} : a.sameAs b = true ↔
    lowercase a.name = lowercase b.name ∧ a.isUnique = b.isUnique
      ∧ lowercase a.method = lowercase b.method ∧ sameColumns a.columns b.columns = true
      ∧ lowercase a.options = lowercase b.options ∧ a.concurrently = b.concurrently
      ∧ lowercase a.storage = lowercase b.storage
      ∧ lowercase a.condition = lowercase b.condition := by
  simp only [sameAs, Bool.and_eq_true, sameFold_iff, beq_iff_eq, and_assoc]

/-- Columns are compared by name, type, default and flags. -/
def Column.comparison : Comparison Column where
  name := Column.name
  same := Column.sameAs
  refl := Column.sameAs_self
  symm h := by
    rw [sameAs_iff] at h ⊢
    obtain ⟨hname, htype, hdefault, hnull, hkey⟩ := h
    exact ⟨hname.symm, htype.symm, hdefault.symm, hnull.symm, hkey.symm⟩
  trans hab hbc := by
    rw [sameAs_iff] at hab hbc ⊢
    obtain ⟨hname, htype, hdefault, hnull, hkey⟩ := hab
    rw [hname, htype, hdefault, hnull, hkey]
    exact hbc
  name_eq h := sameFold_iff.mpr (sameAs_iff.mp h).1

/-- Indexes are compared by name, attributes and the names of their columns. -/
def Index.comparison : Comparison Index where
  name := Index.name
  same := Index.sameAs
  refl := Index.sameAs_self
  symm h := by
    rw [sameAs_iff, sameColumns_iff] at h ⊢
    obtain ⟨hname, hunique, hmethod, ⟨hlength, hcolumns⟩, hoptions, hconc, hstorage, hcond⟩ := h
    exact ⟨hname.symm, hunique.symm, hmethod.symm, ⟨hlength.symm, fun n => (hcolumns n).symm⟩,
      hoptions.symm, hconc.symm, hstorage.symm, hcond.symm⟩
  trans hab hbc := by
    rw [sameAs_iff, sameColumns_iff] at hab hbc ⊢
    obtain ⟨hname, hunique, hmethod, ⟨hlength, hcolumns⟩, hoptions, hconc, hstorage, hcond⟩ := hab
    rw [hname, hunique, hmethod, hlength, hoptions, hconc, hstorage, hcond]
    simp only [hcolumns]
    exact hbc
  name_eq h := sameFold_iff.mpr (sameAs_iff.mp h).1

namespace Relation

/-! ## Equal relations -/

/-- No two columns and no two indexes have one name up to case. -/
structure Unambiguous (r : Relation) : Prop where
  columns : DistinctNames (r.columns.map (·.name))
  indexes : DistinctNames (r.indexes.map (·.name))

/-- What relations have beside columns and indexes is equal. -/
structure SameHead (a b : Relation) : Prop where
  table : sameFold a.table b.table = true
  viewQuery : a.viewQuery = b.viewQuery
  isView : a.isView = b.isView
  isMaterialized : a.isMaterialized = b.isMaterialized

variable {a b c : Relation}

theorem SameHead.symm (h : a.SameHead b) : b.SameHead a :=
  ⟨sameFold_symm h.table, h.viewQuery.symm, h.isView.symm, h.isMaterialized.symm⟩

theorem SameHead.trans (hab : a.SameHead b) (hbc : b.SameHead c) : a.SameHead c where
  table := sameFold_trans hab.table hbc.table
  viewQuery := hab.viewQuery.trans hbc.viewQuery
  isView := hab.isView.trans hbc.isView
  isMaterialized := hab.isMaterialized.trans hbc.isMaterialized

theorem sameAs_iff_foundIn : a.sameAs b = true ↔ a.SameHead b
    ∧ (a.columns.length = b.columns.length ∧ Column.comparison.FoundIn a.columns b.columns)
    ∧ (a.indexes.length = b.indexes.length ∧ Index.comparison.FoundIn a.indexes b.indexes) := by
  simp only [sameAs, Bool.and_eq_true, beq_iff_eq, List.all_eq_true]
  constructor
  · rintro ⟨⟨⟨⟨⟨⟨⟨hlength, hlength'⟩, htable⟩, hquery⟩, hview⟩, hmaterialized⟩, hcolumns⟩, hindexes⟩
    exact ⟨⟨htable, hquery, hview, hmaterialized⟩, ⟨hlength, hcolumns⟩, hlength', hindexes⟩
  · rintro ⟨⟨htable, hquery, hview, hmaterialized⟩, ⟨hlength, hcolumns⟩, hlength', hindexes⟩
    exact ⟨⟨⟨⟨⟨⟨⟨hlength, hlength'⟩, htable⟩, hquery⟩, hview⟩, hmaterialized⟩, hcolumns⟩, hindexes⟩

/-- Equality of relations is transitive, whatever their names. -/
theorem sameAs_trans (hab : a.sameAs b = true) (hbc : b.sameAs c = true) :
    a.sameAs c = true := by
  rw [sameAs_iff_foundIn] at hab hbc ⊢
  obtain ⟨hhead, ⟨hlength, hcolumns⟩, hlength', hindexes⟩ := hab
  obtain ⟨hhead₂, ⟨hlength₂, hcolumns₂⟩, hlength₂', hindexes₂⟩ := hbc
  exact ⟨hhead.trans hhead₂, ⟨hlength.trans hlength₂, hcolumns.trans hcolumns₂⟩,
    hlength'.trans hlength₂', hindexes.trans hindexes₂⟩

/-- Between relations of distinct names, equality is a pairing of columns and one of indexes. -/
theorem sameAs_iff_paired (ha : a.Unambiguous) (hb : b.Unambiguous) :
    a.sameAs b = true ↔ a.SameHead b
      ∧ Paired (fun c d => c.sameAs d = true) a.columns b.columns
      ∧ Paired (fun i j => i.sameAs j = true) a.indexes b.indexes := by
  rw [sameAs_iff_foundIn]
  refine and_congr_right fun _ => and_congr ?_ ?_
  · exact ⟨fun h => h.2.paired ha.columns h.1,
      fun h => ⟨h.length_eq, Comparison.foundIn_of_paired h hb.columns⟩⟩
  · exact ⟨fun h => h.2.paired ha.indexes h.1,
      fun h => ⟨h.length_eq, Comparison.foundIn_of_paired h hb.indexes⟩⟩

end Relation

/-! ## Order -/

/-- An index with its columns in another order. -/
def Index.Rearranged (i j : Index) : Prop :=
  ∃ columns, columns.Perm i.columns ∧ j = { i with columns }

/-- An index with its columns sorted. -/
def Index.normalized (i : Index) : Index := { i with columns := sorted i.columns }

theorem Index.rearranged_normalized (i : Index) : i.Rearranged i.normalized :=
  ⟨sorted i.columns, List.mergeSort_perm i.columns _, rfl⟩

theorem Index.Rearranged.symm {i j : Index} (h : i.Rearranged j) : j.Rearranged i := by
  obtain ⟨columns, hperm, rfl⟩ := h
  exact ⟨i.columns, hperm.symm, rfl⟩

theorem Index.Rearranged.sameAs {i j : Index} (h : i.Rearranged j) : i.sameAs j = true := by
  obtain ⟨columns, hperm, rfl⟩ := h
  exact Index.sameAs_iff.mpr
    ⟨rfl, rfl, rfl, sameColumns_of_perm hperm.symm, rfl, rfl, rfl, rfl⟩

/-- Entries of distinct names are sorted by name in one way. -/
theorem mergeSort_name_eq_of_perm {α : Type} {name : α → String} {as bs : List α}
    (h : as.Perm bs) (hnodup : (as.map name).Nodup) :
    as.mergeSort (fun a b => decide (name a ≤ name b))
      = bs.mergeSort fun a b => decide (name a ≤ name b) := by
  refine List.Perm.eq_of_pairwise ?_ (pairwise_mergeSort_name name as)
    (pairwise_mergeSort_name name bs)
    ((List.mergeSort_perm as _).trans (h.trans (List.mergeSort_perm bs _).symm))
  intro a b ha hb hab hba
  rw [decide_eq_true_eq] at hab hba
  rw [List.mem_mergeSort] at ha hb
  exact List.inj_on_of_nodup_map hnodup ha (h.mem_iff.mpr hb) (String.le_antisymm hab hba)

theorem sorted_eq_of_perm {as bs : List String} (h : as.Perm bs) : sorted as = sorted bs := by
  refine List.Perm.eq_of_pairwise ?_ (pairwise_mergeSort_name id as)
    (pairwise_mergeSort_name id bs)
    ((List.mergeSort_perm as _).trans (h.trans (List.mergeSort_perm bs _).symm))
  intro a b _ _ hab hba
  rw [decide_eq_true_eq] at hab hba
  exact String.le_antisymm hab hba

theorem Index.Rearranged.normalized_eq {i j : Index} (h : i.Rearranged j) :
    i.normalized = j.normalized := by
  obtain ⟨columns, hperm, rfl⟩ := h
  rw [normalized, normalized, sorted_eq_of_perm hperm]

theorem DistinctNames.nodup {names : List String} (h : DistinctNames names) : names.Nodup :=
  (distinctNames_iff.mp h).of_map lowercase

namespace Relation

/-- A relation with its columns, its indexes and the columns of its indexes in another order. -/
structure Rearranged (a b : Relation) : Prop where
  columns : a.columns.Perm b.columns
  indexes : Paired Index.Rearranged a.indexes b.indexes
  rest : b = { a with columns := b.columns, indexes := b.indexes }

variable {a b c : Relation}

theorem Rearranged.symm (h : a.Rearranged b) : b.Rearranged a where
  columns := h.columns.symm
  indexes := h.indexes.symm.imp fun _ _ => Index.Rearranged.symm
  rest := by rw [h.rest]

theorem Rearranged.unambiguous (h : a.Rearranged b) (ha : a.Unambiguous) : b.Unambiguous where
  columns := ha.columns.perm (h.columns.map (·.name))
  indexes := by
    refine ha.indexes.perm (h.indexes.map_perm fun i j hij => ?_)
    obtain ⟨_, _, rfl⟩ := hij
    rfl

/-- The order of a relation of distinct names makes no difference. -/
theorem Rearranged.sameAs (h : a.Rearranged b) (ha : a.Unambiguous) : a.sameAs b = true := by
  refine (sameAs_iff_paired ha (h.unambiguous ha)).mpr ⟨?_, ?_, ?_⟩
  · rw [h.rest]
    exact ⟨sameFold_refl a.table, rfl, rfl, rfl⟩
  · exact ⟨a.columns, List.forall₂_same.mpr fun c _ => c.sameAs_self, h.columns⟩
  · exact h.indexes.imp fun _ _ => Index.Rearranged.sameAs

theorem rearranged_normalized (r : Relation) : r.Rearranged r.normalized where
  columns := (List.mergeSort_perm r.columns _).symm
  indexes := by
    refine ⟨r.indexes.map Index.normalized, ?_, (List.mergeSort_perm r.indexes _).symm.map _⟩
    rw [List.forall₂_map_right_iff, List.forall₂_same]
    exact fun i _ => i.rearranged_normalized
  rest := rfl

/-- What the normal form of a relation equals, the relation itself equals, also when it repeats a
name. -/
theorem sameAs_of_normalized {r : Relation} (h : r.normalized.sameAs b = true) :
    r.sameAs b = true := by
  obtain ⟨hhead, ⟨hlength, hcolumns⟩, hlength', hindexes⟩ := sameAs_iff_foundIn.mp h
  have hhead' : r.SameHead b :=
    ⟨hhead.table, hhead.viewQuery, hhead.isView, hhead.isMaterialized⟩
  refine sameAs_iff_foundIn.mpr ⟨hhead', ⟨?_, fun c hc => ?_⟩, ?_, fun i hi => ?_⟩
  · rw [← hlength, r.columns_normalized_perm.length_eq]
  · exact hcolumns c (r.columns_normalized_perm.mem_iff.mpr hc)
  · rw [← hlength', (rearranged_normalized r).indexes.length_eq]
  · have hmem : i.normalized ∈ r.normalized.indexes :=
      List.mem_map.mpr ⟨i, List.mem_mergeSort.mpr hi, rfl⟩
    obtain ⟨j, hfirst, hsame⟩ := hindexes.exists_first hmem
    refine (Option.any_eq_true _ _).mpr ⟨j, hfirst, ?_⟩
    exact Index.comparison.trans i.rearranged_normalized.sameAs hsame

/-- Relations of distinct names that differ in order only have one normal form. -/
theorem Rearranged.normalized_eq (h : a.Rearranged b) (ha : a.Unambiguous) :
    a.normalized = b.normalized := by
  have hcolumns : a.normalized.columns = b.normalized.columns :=
    mergeSort_name_eq_of_perm h.columns ha.columns.nodup
  have hmap : ∀ r : Relation, r.normalized.indexes
      = (r.indexes.map Index.normalized).mergeSort fun i j => decide (i.name ≤ j.name) :=
    fun r => List.map_mergeSort fun _ _ _ _ => rfl
  have hindexes : a.normalized.indexes = b.normalized.indexes := by
    rw [hmap, hmap]
    refine mergeSort_name_eq_of_perm
      (h.indexes.map_perm fun i j => Index.Rearranged.normalized_eq) ?_
    rw [List.map_map]
    exact ha.indexes.nodup
  have hnormal : ∀ r : Relation, r.normalized
      = { r with columns := r.normalized.columns, indexes := r.normalized.indexes } :=
    fun _ => rfl
  rw [hnormal a, hnormal b, hcolumns, hindexes, h.rest]

/-- Equality of relations is equality up to order: between relations of distinct names it pairs
columns and indexes one to one, it is transitive, it does not change when columns, indexes or the
columns of an index are put in another order on either side, and a relation is equal to its normal
form, which all its rearrangements share. -/
theorem sameAs_ignores_order (ha : a.Unambiguous) (hb : b.Unambiguous) :
    (a.sameAs b = true ↔ a.SameHead b
      ∧ Paired (fun c d => c.sameAs d = true) a.columns b.columns
      ∧ Paired (fun i j => i.sameAs j = true) a.indexes b.indexes)
      ∧ (∀ c, a.sameAs b = true → b.sameAs c = true → a.sameAs c = true)
      ∧ (∀ a' b', a.Rearranged a' → b.Rearranged b' → a'.sameAs b' = a.sameAs b)
      ∧ a.sameAs a.normalized = true
      ∧ (a.Rearranged b → a.normalized = b.normalized) := by
  refine ⟨sameAs_iff_paired ha hb, fun c => sameAs_trans, fun a' b' ha' hb' => ?_,
    (rearranged_normalized a).sameAs ha, fun h => h.normalized_eq ha⟩
  -- a rearranged relation is equal to the one it comes from, and equality is transitive
  rw [Bool.eq_iff_iff]
  constructor
  · intro h
    have hleft : a.sameAs b' = true := sameAs_trans (ha'.sameAs ha) h
    exact sameAs_trans hleft (hb'.symm.sameAs (hb'.unambiguous hb))
  · intro h
    have hleft : a'.sameAs b = true := sameAs_trans (ha'.symm.sameAs (ha'.unambiguous ha)) h
    exact sameAs_trans hleft (hb'.sameAs hb)

/-- Notes with two indexes, one of them over both columns. -/
def indexedNotes : Relation where
  table := "note"
  columns := [{ name := "title", dataType := "TEXT" }, { name := "id", dataType := "INT" }]
  indexes := [{ name := "_title", columns := ["title", "id"] },
    { name := "_id", columns := ["id"] }]

/-- The same notes in another order and another case. -/
def listedNotes : Relation where
  table := "Note"
  columns := [{ name := "ID", dataType := "int" }, { name := "Title", dataType := "text" }]
  indexes := [{ name := "_ID", columns := ["ID"] },
    { name := "_Title", columns := ["ID", "Title"] }]

theorem sameAs_ignores_order_notes :
    indexedNotes.Unambiguous ∧ listedNotes.Unambiguous
      ∧ Paired (fun i j => i.sameAs j = true) indexedNotes.indexes listedNotes.indexes
      ∧ indexedNotes.normalized.sameAs listedNotes.normalized = true
      ∧ indexedNotes.normalized = indexedNotes.normalized.normalized := by
  have hindexed : indexedNotes.Unambiguous := ⟨by decide +kernel, by decide +kernel⟩
  have hlisted : listedNotes.Unambiguous := ⟨by decide +kernel, by decide +kernel⟩
  have hsame : indexedNotes.sameAs listedNotes = true := by decide +kernel
  have hsorted := rearranged_normalized indexedNotes
  obtain ⟨hpaired, -, hrearranged, -⟩ := sameAs_ignores_order hindexed hlisted
  obtain ⟨-, -, -, -, hnormal⟩ := sameAs_ignores_order hindexed (hsorted.unambiguous hindexed)
  refine ⟨hindexed, hlisted, (hpaired.mp hsame).2.2, ?_, hnormal hsorted⟩
  rw [hrearranged _ _ hsorted (rearranged_normalized listedNotes), hsame]

end Relation

end SchemaEvolution
