import SchemaEvolution.Json.Basic
import SchemaEvolution.Proofs.Lists
import Mathlib.Data.List.Forall2
import Mathlib.Data.List.Nodup

set_option autoImplicit false

/-! # Equality of documents

Documents are equal when they are of one kind and their parts are equal (`Json.equals_iff`): arrays
item by item, objects key by key, numbers by what they denote. A NaN is equal to nothing, nor is a
number that is too great for a double, so not every document is equal to itself. Equality is
transitive (`Json.equals_trans`). It is symmetric between documents whose objects name each key once
(`Json.equals_symm`), as an object does that is kept as a map.
-/

namespace SchemaEvolution

/-! ## Numbers -/

namespace Binary64

theorem equals_iff {x y : Binary64} :
    x.equals y = true
      ↔ x.isNaN = false ∧ y.isNaN = false ∧ (x = y ∨ x.isZero = true ∧ y.isZero = true) := by
  have hbits : x.bits = y.bits ↔ x = y := by
    cases x
    cases y
    simp
  simp [equals, hbits, and_assoc]

theorem equals_symm {x y : Binary64} (h : x.equals y = true) : y.equals x = true := by
  rw [equals_iff] at h ⊢
  obtain ⟨hx, hy, hsame⟩ := h
  exact ⟨hy, hx, hsame.imp Eq.symm And.symm⟩

theorem equals_trans {x y z : Binary64} (hxy : x.equals y = true) (hyz : y.equals z = true) :
    x.equals z = true := by
  rw [equals_iff] at hxy hyz ⊢
  obtain ⟨hx, -, hxy⟩ := hxy
  obtain ⟨-, hz, hyz⟩ := hyz
  refine ⟨hx, hz, ?_⟩
  rcases hxy with rfl | ⟨hx, hy⟩
  · exact hyz
  · rcases hyz with rfl | ⟨-, hz⟩
    · exact .inr ⟨hx, hy⟩
    · exact .inr ⟨hx, hz⟩

end Binary64

namespace Json

theorem Number.Value.equals_symm {x y : Number.Value} (h : x.equals y = true) :
    y.equals x = true := by
  cases x <;> cases y <;> simp only [equals, Bool.false_eq_true, beq_iff_eq] at h ⊢
  · exact h.symm
  · exact Binary64.equals_symm h

theorem Number.Value.equals_trans {x y z : Number.Value} (hxy : x.equals y = true)
    (hyz : y.equals z = true) : x.equals z = true := by
  cases x <;> cases y <;> cases z <;>
    simp only [equals, Bool.false_eq_true, beq_iff_eq] at hxy hyz ⊢
  · exact hxy.trans hyz
  · exact Binary64.equals_trans hxy hyz

/-! ## Documents -/

/-- What holds of a document when it holds of its items or members holds of all documents. -/
@[elab_as_elim]
theorem parts_induction {P : Json → Prop} (null : P .null) (bool : ∀ b, P (.bool b))
    (number : ∀ n, P (.number n)) (string : ∀ s, P (.string s)) (unpaired : P .unpaired)
    (array : ∀ items, (∀ j ∈ items, P j) → P (.array items))
    (object : ∀ members, (∀ m ∈ members, P m.2) → P (.object members)) (j : Json) : P j := by
  cases j with
  | null => exact null
  | bool b => exact bool b
  | number n => exact number n
  | string s => exact string s
  | unpaired => exact unpaired
  | array items =>
      refine array items fun j hj => ?_
      have hlt : sizeOf j < sizeOf (Json.array items) := by
        have hitem := List.sizeOf_lt_of_mem hj
        rw [Json.array.sizeOf_spec]
        omega
      exact parts_induction null bool number string unpaired array object j
  | object members =>
      refine object members fun m hm => ?_
      have hlt : sizeOf m.2 < sizeOf (Json.object members) := by
        have hmember := List.sizeOf_lt_of_mem hm
        rw [Prod.mk.sizeOf_spec] at hmember
        rw [Json.object.sizeOf_spec]
        omega
      exact parts_induction null bool number string unpaired array object m.2
termination_by sizeOf j
decreasing_by all_goals exact hlt

/-- Two documents of one kind with equal parts. -/
inductive EqualParts : Json → Json → Prop
  | null : EqualParts .null .null
  | bool (b : Bool) : EqualParts (.bool b) (.bool b)
  | number {m n : Number} {x y : Number.Value} (hm : m.value? = some x) (hn : n.value? = some y)
    (hequal : x.equals y = true) : EqualParts (.number m) (.number n)
  | string (s : String) : EqualParts (.string s) (.string s)
  | array {js ks : List Json} (hitems : List.Forall₂ (fun j k => j.equals k = true) js ks) :
    EqualParts (.array js) (.array ks)
  | object {ms ns : List (String × Json)} (hlength : ms.length = ns.length)
    (hmembers : ∀ m ∈ ms, ∃ k, ns.lookup m.1 = some k ∧ m.2.equals k = true) :
    EqualParts (.object ms) (.object ns)

theorem equalItems_iff {js ks : List Json} :
    equalItems js ks = true ↔ List.Forall₂ (fun j k => j.equals k = true) js ks := by
  induction js generalizing ks with
  | nil => cases ks <;> simp [equalItems]
  | cons j js ih => cases ks <;> simp [equalItems, ih]

theorem equalMembers_iff {ms ns : List (String × Json)} :
    equalMembers ms ns = true
      ↔ ∀ m ∈ ms, ∃ k, ns.lookup m.1 = some k ∧ m.2.equals k = true := by
  induction ms with
  | nil => simp [equalMembers]
  | cons m ms ih =>
      rw [equalMembers, Bool.and_eq_true, ih, List.forall_mem_cons]
      apply and_congr_left'
      cases ns.lookup m.1 <;> simp

theorem equals_iff {j k : Json} : j.equals k = true ↔ EqualParts j k := by
  constructor
  · intro h
    cases j <;> cases k <;> simp only [equals, Bool.false_eq_true, beq_iff_eq] at h
    · exact .null
    · exact h ▸ .bool _
    · split at h
      · exact .number ‹_› ‹_› h
      · cases h
    · exact h ▸ .string _
    · exact .array (equalItems_iff.mp h)
    · rw [Bool.and_eq_true, beq_iff_eq] at h
      exact .object h.1 (equalMembers_iff.mp h.2)
  · rintro (_ | _ | ⟨hm, hn, hequal⟩ | _ | hitems | ⟨hlength, hmembers⟩)
    · rfl
    · simp [equals]
    · simp [equals, hm, hn, hequal]
    · simp [equals]
    · rw [equals]
      exact equalItems_iff.mpr hitems
    · rw [equals, Bool.and_eq_true, beq_iff_eq]
      exact ⟨hlength, equalMembers_iff.mpr hmembers⟩

/-! ## Symmetry -/

/-- Every object in a document names each key once. -/
inductive Keyed : Json → Prop
  | null : Keyed .null
  | bool (b : Bool) : Keyed (.bool b)
  | number (n : Number) : Keyed (.number n)
  | string (s : String) : Keyed (.string s)
  | unpaired : Keyed .unpaired
  | array {items : List Json} (hitems : ∀ j ∈ items, Keyed j) : Keyed (.array items)
  | object {members : List (String × Json)} (hkeys : (members.map (·.1)).Nodup)
    (hmembers : ∀ m ∈ members, Keyed m.2) : Keyed (.object members)

/-- Keys that are all found among as many others are those. -/
theorem keys_perm {ms ns : List (String × Json)} (hkeys : (ms.map (·.1)).Nodup)
    (hlength : ms.length = ns.length)
    (hmembers : ∀ m ∈ ms, ∃ k, ns.lookup m.1 = some k ∧ m.2.equals k = true) :
    (ms.map (·.1)).Perm (ns.map (·.1)) := by
  have hsubset : ms.map (·.1) ⊆ ns.map (·.1) := by
    intro key hkey
    obtain ⟨m, hm, rfl⟩ := List.mem_map.mp hkey
    obtain ⟨k, hfound, -⟩ := hmembers m hm
    exact List.mem_map.mpr ⟨_, mem_of_lookup hfound, rfl⟩
  refine (List.subperm_of_subset hkeys hsubset).perm_of_length_le ?_
  simp [hlength]

theorem equals_symm {j k : Json} (hj : j.Keyed) (hk : k.Keyed) (h : j.equals k = true) :
    k.equals j = true := by
  induction hj generalizing k with
  | null | bool | string | unpaired =>
      cases equals_iff.mp h <;> exact h
  | number =>
      cases equals_iff.mp h with
      | number hm hn hequal =>
          exact equals_iff.mpr (.number hn hm (Number.Value.equals_symm hequal))
  | array _ ih =>
      cases equals_iff.mp h with
      | array hitems =>
          cases hk with
          | array hkeyed =>
              refine equals_iff.mpr (.array (forall₂_symm (fun i hi l hl hil => ?_) hitems))
              exact ih i hi (hkeyed l hl) hil
  | @object ms hkeys _ ih =>
      cases equals_iff.mp h with
      | @object _ ns hlength hmembers =>
          cases hk with
          | object hkeys' hkeyed =>
              refine equals_iff.mpr (.object hlength.symm fun n hn => ?_)
              -- the key of `n` is one of `ms`, where it stands for an equal document
              obtain ⟨m, hm, hkey⟩ := List.mem_map.mp
                ((keys_perm hkeys hlength hmembers).mem_iff.mpr (List.mem_map_of_mem hn))
              obtain ⟨k, hfound, hequal⟩ := hmembers m hm
              have hown : ns.lookup n.1 = some n.2 := lookup_of_mem hkeys' hn
              rw [hkey, hown] at hfound
              cases hfound
              refine ⟨m.2, ?_, ih m hm (hkeyed n hn) hequal⟩
              rw [← hkey]
              exact lookup_of_mem hkeys hm

/-- Objects that name a key twice can be equal in one direction only. -/
example :
    (object [("k", .null), ("k", .null)]).equals (object [("k", .null), ("l", .null)]) = true
      ∧ (object [("k", .null), ("l", .null)]).equals (object [("k", .null), ("k", .null)])
        = false := by
  decide

/-! ## Transitivity -/

theorem equals_trans {j k l : Json} (hjk : j.equals k = true) (hkl : k.equals l = true) :
    j.equals l = true := by
  induction j using parts_induction generalizing k l with
  | null | bool | string | unpaired =>
      cases equals_iff.mp hjk <;> exact hkl
  | number =>
      cases equals_iff.mp hjk with
      | number hj hk hequal =>
          cases equals_iff.mp hkl with
          | number hk' hl hequal' =>
              rw [hk] at hk'
              cases hk'
              exact equals_iff.mpr (.number hj hl (Number.Value.equals_trans hequal hequal'))
  | array items ih =>
      cases equals_iff.mp hjk with
      | array hitems =>
          cases equals_iff.mp hkl with
          | array hitems' =>
              refine equals_iff.mpr (.array (forall₂_trans (fun i hi _ _ => ?_) hitems hitems'))
              exact ih i hi
  | object members ih =>
      cases equals_iff.mp hjk with
      | object hlength hmembers =>
          cases equals_iff.mp hkl with
          | object hlength' hmembers' =>
              refine equals_iff.mpr (.object (hlength.trans hlength') fun m hm => ?_)
              obtain ⟨k, hfound, hequal⟩ := hmembers m hm
              -- what is found under the key is a member, so it is found in the third object too
              obtain ⟨l, hfound', hequal'⟩ := hmembers' (m.1, k) (mem_of_lookup hfound)
              exact ⟨l, hfound', ih m hm hequal hequal'⟩

/-! ## The laws of equality -/

/-- What is relied on of an equality of documents. -/
class LawfulEquality [BEq Json] : Prop where
  /-- Between documents whose objects name each key once it is symmetric. -/
  symm {j k : Json} : j.Keyed → k.Keyed → (j == k) = true → (k == j) = true
  trans {j k l : Json} : (j == k) = true → (k == l) = true → (j == l) = true

instance : LawfulEquality where
  symm hj hk h := equals_symm hj hk h
  trans hjk hkl := equals_trans hjk hkl

theorem beq_eq_equals (j k : Json) : (j == k) = j.equals k := rfl

end Json

end SchemaEvolution
