import SchemaEvolution.Json.Record
import SchemaEvolution.Proofs.Json.RoundTrip
import SchemaEvolution.Proofs.Lists

set_option autoImplicit false

/-! # Documents with reordered members

The members of an object may come in any order, at any depth of a document (`Reordered`). A record
read from a document has the same fields whatever the order (`record?_reordered`), so every reader
that is put together from fields, texts, flags and lists gives the same result.
-/

namespace SchemaEvolution.Json

mutual

/-- The same document, with the members of its objects in some order. -/
inductive Reordered : Json → Json → Prop
  | refl (j : Json) : Reordered j j
  | array {js ks : List Json} (hitems : ReorderedItems js ks) : Reordered (.array js) (.array ks)
  | object {ms ns ns' : List (String × Json)} (hmembers : ReorderedMembers ms ns)
    (hperm : ns.Perm ns') : Reordered (.object ms) (.object ns')

/-- The same items, each with its members in some order. -/
inductive ReorderedItems : List Json → List Json → Prop
  | nil : ReorderedItems [] []
  | cons {j k : Json} {js ks : List Json} (hitem : Reordered j k) (hitems : ReorderedItems js ks) :
    ReorderedItems (j :: js) (k :: ks)

/-- The same members in the same order, each value with its members in some order. -/
inductive ReorderedMembers : List (String × Json) → List (String × Json) → Prop
  | nil : ReorderedMembers [] []
  | cons {key : String} {j k : Json} {ms ns : List (String × Json)} (hmember : Reordered j k)
    (hmembers : ReorderedMembers ms ns) : ReorderedMembers ((key, j) :: ms) ((key, k) :: ns)

end

theorem ReorderedMembers.refl : ∀ ms, ReorderedMembers ms ms
  | [] => .nil
  | (_, j) :: ms => .cons (.refl j) (.refl ms)

mutual

theorem Reordered.isPlain {j k : Json} : Reordered j k → IsPlain j → IsPlain k
  | .refl _, h => h
  | .array hitems, h => hitems.arePlain h
  | .object hmembers hperm, h => by
      have hplain := arePlainMembers_iff.mp (hmembers.arePlain h)
      exact arePlainMembers_iff.mpr fun m hm => hplain m (hperm.mem_iff.mpr hm)

theorem ReorderedItems.arePlain {js ks : List Json} :
    ReorderedItems js ks → ArePlain js → ArePlain ks
  | .nil, h => h
  | .cons hitem hitems, h => ⟨hitem.isPlain h.1, hitems.arePlain h.2⟩

theorem ReorderedMembers.arePlain {ms ns : List (String × Json)} :
    ReorderedMembers ms ns → ArePlainMembers ms → ArePlainMembers ns
  | .nil, h => h
  | .cons hmember hmembers, h => ⟨hmember.isPlain h.1, hmembers.arePlain h.2⟩

end

/-! ## Fields -/

/-- Two records with the same fields, whose values have their members in some order. -/
def Record.Alike (r s : Record) : Prop :=
  ∀ name, Option.Rel Reordered (r.lookup name) (s.lookup name)

theorem ReorderedMembers.alike {ms ns : List (String × Json)} :
    ReorderedMembers ms ns → Record.Alike ms ns
  | .nil => fun _ => .none
  | .cons hmember hmembers => fun name => by
      rw [lookup_cons_ite, lookup_cons_ite]
      split
      · exact .some hmember
      · exact hmembers.alike name

theorem ReorderedMembers.keys {ms ns : List (String × Json)} :
    ReorderedMembers ms ns → ms.map (·.1) = ns.map (·.1)
  | .nil => rfl
  | .cons _ hmembers => by rw [List.map_cons, List.map_cons, hmembers.keys]

theorem ReorderedMembers.filter (names : List String) {ms ns : List (String × Json)} :
    ReorderedMembers ms ns → ReorderedMembers (ms.filter (names.contains ·.1))
      (ns.filter (names.contains ·.1))
  | .nil => .nil
  | .cons hmember hmembers => by
      rw [List.filter_cons, List.filter_cons]
      split
      · exact .cons hmember (hmembers.filter names)
      · exact hmembers.filter names

theorem ReorderedItems.length_eq {js ks : List Json} :
    ReorderedItems js ks → js.length = ks.length
  | .nil => rfl
  | .cons _ hitems => by rw [List.length_cons, List.length_cons, hitems.length_eq]

theorem ReorderedItems.zip {js ks : List Json} : ReorderedItems js ks → ∀ names : List String,
    ReorderedMembers (names.zip js) (names.zip ks)
  | .nil, names => by simpa using .nil
  | .cons _ _, [] => .nil
  | .cons hitem hitems, _ :: names => .cons hitem (hitems.zip names)

theorem Record.Alike.refl (r : Record) : Record.Alike r r := by
  intro name
  cases r.lookup name with
  | none => exact .none
  | some j => exact .some (.refl j)

/-- A record has the same fields whatever the order of the members. -/
theorem record?_reordered {j k : Json} (h : Reordered j k) (names : List String) :
    Option.Rel Record.Alike (record? names j) (record? names k) := by
  cases h with
  | refl =>
      cases record? names j with
      | none => exact .none
      | some r => exact .some (.refl r)
  | array hitems =>
      rw [record?, record?, hitems.length_eq]
      split
      · exact .some (hitems.zip names).alike
      · exact .none
  | @object ms ns ns' hmembers hperm =>
      -- first the values are reordered in their places, then the members change places
      have hknown := hmembers.filter names
      have hperm' := hperm.filter (names.contains ·.1)
      have hkeys := hperm'.map (·.1)
      simp only [record?]
      by_cases hnodup : ((ns.filter (names.contains ·.1)).map (·.1)).Nodup
      · rw [if_pos (by rwa [hknown.keys]), if_pos (hkeys.nodup_iff.mp hnodup)]
        refine .some fun name => ?_
        rw [← lookup_perm hperm' hnodup]
        exact hknown.alike name
      · rw [if_neg (by rwa [hknown.keys]), if_neg (mt hkeys.nodup_iff.mpr hnodup)]
        exact .none

/-! ## Readers -/

/-- A reader that does not look at the order of members. -/
def Unordered {α : Type} (read : Json → Option α) : Prop :=
  ∀ j k, Reordered j k → read j = read k

section Readers

variable {α : Type} {read : Json → Option α}

theorem unordered_text? : Unordered text? := by
  intro j k h
  cases h <;> rfl

theorem unordered_bool? : Unordered bool? := by
  intro j k h
  cases h <;> rfl

theorem ReorderedItems.mapM (hread : Unordered read) {js ks : List Json} :
    ReorderedItems js ks → js.mapM read = ks.mapM read
  | .nil => rfl
  | .cons hitem hitems => by
      rw [List.mapM_cons, List.mapM_cons, hread _ _ hitem, hitems.mapM hread]

theorem unordered_list? (hread : Unordered read) : Unordered (list? read) := by
  intro j k h
  cases h with
  | refl => rfl
  | array hitems => exact hitems.mapM hread
  | object => rfl

variable {r s : Record} (h : Record.Alike r s) (hread : Unordered read) (name : String)

include h hread

theorem Record.Alike.required : r.required name read = s.required name read := by
  have hfield := h name
  rw [Record.required, Record.required]
  generalize r.lookup name = field, s.lookup name = field' at hfield ⊢
  cases hfield with
  | none => rfl
  | some hvalue => exact hread _ _ hvalue

theorem Record.Alike.optional (absent : α) :
    r.optional name read absent = s.optional name read absent := by
  have hfield := h name
  rw [Record.optional, Record.optional]
  generalize r.lookup name = field, s.lookup name = field' at hfield ⊢
  cases hfield with
  | none => rfl
  | some hvalue => exact hread _ _ hvalue

end Readers

end SchemaEvolution.Json
