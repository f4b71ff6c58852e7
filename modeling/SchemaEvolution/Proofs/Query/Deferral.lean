import SchemaEvolution.Query.Argument
import SchemaEvolution.Proofs.Json.Equality

set_option autoImplicit false

/-! # Deferred arguments

A deferred argument counts as what it yields, which is never deferred itself
(`resolved_ne_deferred`). Equality sees through: it unwraps both sides and then compares arguments
of one kind (`equals_iff`), so it depends on nothing but the bare arguments, from which every
wrapper is taken, in lists too (`equals_bare`). It is transitive, and symmetric where equality of
documents is (`equals_laws`); no more is used of that than its laws (`Json.LawfulEquality`).
-/

namespace SchemaEvolution.Query

namespace Argument

/-- Whether an argument is one value: neither a list nor deferred. -/
def isValue : Argument → Bool
  | .list _ => false
  | .deferred _ => false
  | _ => true

theorem resolved_ne_deferred (a value : Argument) : a.resolved ≠ .deferred value := by
  fun_induction resolved a with
  | case1 a ih => exact ih
  | case2 a hne => exact hne value

theorem isValue_resolved (a : Argument) : a.resolved.isValue = !a.resolved.isList := by
  cases h : a.resolved with
  | deferred value => exact absurd h (resolved_ne_deferred a value)
  | _ => rfl

theorem resolved_of_ne_deferred {a : Argument} (h : ∀ value, a ≠ .deferred value) :
    a.resolved = a := by
  cases a with
  | deferred value => exact absurd rfl (h value)
  | _ => rfl

theorem sizeOf_resolved_le (a : Argument) : sizeOf a.resolved ≤ sizeOf a := by
  fun_induction resolved a with
  | case1 a ih =>
      rw [Argument.deferred.sizeOf_spec]
      omega
  | case2 a hne => exact Nat.le_refl _

/-- What holds of an argument when it holds of the items of the list that it yields, if it yields
one, holds of all arguments. -/
theorem items_induction {P : Argument → Prop}
    (h : ∀ a, (∀ items, a.resolved = .list items → ∀ i ∈ items, P i) → P a) (a : Argument) : P a :=
  h a fun items hitems i hi =>
    have hlt : sizeOf i < sizeOf a := by
      have hyields := sizeOf_resolved_le a
      have hitem := List.sizeOf_lt_of_mem hi
      rw [hitems, Argument.list.sizeOf_spec] at hyields
      omega
    items_induction h i
termination_by sizeOf a
decreasing_by exact hlt

/-! ## Bare arguments -/

mutual

/-- An argument without the wrappers that defer it or one of its items, at any depth. -/
def bare : Argument → Argument
  | .deferred a => a.bare
  | .list items => .list (bareItems items)
  | a => a

/-- Items without their wrappers. -/
def bareItems : List Argument → List Argument
  | [] => []
  | a :: as => a.bare :: bareItems as

end

theorem bareItems_eq (items : List Argument) : bareItems items = items.map bare := by
  induction items with
  | nil => rfl
  | cons a as ih => rw [bareItems, ih, List.map_cons]

theorem bare_list (items : List Argument) : (list items).bare = .list (items.map bare) := by
  rw [bare, bareItems_eq]

theorem bare_resolved (a : Argument) : a.resolved.bare = a.bare := by
  fun_induction resolved a with
  | case1 a ih => rw [ih, bare]
  | case2 a hne => rfl

/-- A bare argument is what the argument yields, except that the items of a list are bare too. -/
theorem bare_cases (a : Argument) :
    (∃ items, a.resolved = .list items ∧ a.bare = .list (items.map bare))
      ∨ (a.resolved.isValue = true ∧ a.bare = a.resolved) := by
  rw [← bare_resolved]
  cases hresolved : a.resolved with
  | deferred value => exact absurd hresolved (resolved_ne_deferred a value)
  | list items => exact .inl ⟨items, rfl, bare_list items⟩
  | _ => exact .inr ⟨rfl, rfl⟩

theorem resolved_bare (a : Argument) : a.bare.resolved = a.bare := by
  rcases bare_cases a with ⟨items, -, hbare⟩ | ⟨hvalue, hbare⟩
  · rw [hbare, resolved_of_ne_deferred (by simp)]
  · rw [hbare, resolved_of_ne_deferred (resolved_ne_deferred a)]

/-! ## Values inside arguments -/

/-- Every value that an argument is made of has a property. -/
inductive AllValues (p : Argument → Prop) : Argument → Prop
  | value {a : Argument} (ha : a.isValue = true) (h : p a) : AllValues p a
  | list {items : List Argument} (h : ∀ i ∈ items, AllValues p i) : AllValues p (.list items)
  | deferred {a : Argument} (h : AllValues p a) : AllValues p (.deferred a)

/-- Every object in a document of the argument names each key once. -/
def Keyed : Argument → Prop := AllValues fun a => ∀ j, a = .json j → j.Keyed

/-- The argument holds no float and no document, which need not be equal to themselves. -/
def Exact : Argument → Prop := AllValues fun a => (∀ x, a ≠ .float x) ∧ ∀ j, a ≠ .json j

namespace AllValues

variable {p : Argument → Prop} {a : Argument}

theorem resolved (h : AllValues p a) : AllValues p a.resolved := by
  induction h with
  | value ha h =>
      refine .value ?_ ?_ <;> rw [resolved_of_ne_deferred (by rintro value rfl; cases ha)] <;>
        assumption
  | list h => exact .list h
  | deferred _ ih => exact ih

theorem item {items : List Argument} (h : AllValues p a) (ha : a.resolved = .list items)
    {i : Argument} (hi : i ∈ items) : AllValues p i := by
  have hlist := h.resolved
  rw [ha] at hlist
  cases hlist with
  | value hvalue => cases hvalue
  | list h => exact h i hi

theorem of_resolved {b : Argument} (h : AllValues p a) (ha : a.resolved = b)
    (hb : b.isValue = true) : p b := by
  have hvalue := h.resolved
  rw [ha] at hvalue
  cases hvalue with
  | value _ h => exact h
  | list => cases hb
  | deferred => cases hb

end AllValues

/-! ## Equality -/

section Equality

variable [BEq Json]

/-- Two arguments of one kind, neither of them deferred, with equal contents. -/
inductive EqualParts : Argument → Argument → Prop
  | null : EqualParts .null .null
  | bool (b : Bool) : EqualParts (.bool b) (.bool b)
  | int (n : Int64) : EqualParts (.int n) (.int n)
  | float {x y : Binary64} (h : x.equals y = true) : EqualParts (.float x) (.float y)
  | text (s : String) : EqualParts (.text s) (.text s)
  | bytes (b : List UInt8) : EqualParts (.bytes b) (.bytes b)
  | json {j k : Json} (h : (j == k) = true) : EqualParts (.json j) (.json k)
  | list {as bs : List Argument} (hitems : List.Forall₂ (fun a b => a.equals b = true) as bs) :
    EqualParts (.list as) (.list bs)

theorem equalLists_iff {as bs : List Argument} :
    equalLists as bs = true ↔ List.Forall₂ (fun a b => a.equals b = true) as bs := by
  induction as generalizing bs with
  | nil => cases bs <;> simp [equalLists]
  | cons a as ih => cases bs <;> simp [equalLists, ih]

theorem equals_deferred_left (a b : Argument) : (deferred a).equals b = a.equals b := by
  rw [equals]

theorem equals_deferred_right (a b : Argument) : a.equals (.deferred b) = a.equals b := by
  fun_induction resolved a with
  | case1 a ih => rw [equals_deferred_left, equals_deferred_left, ih]
  | case2 a hne =>
      rw [equals]
      exact hne

theorem equals_resolved (a b : Argument) : a.equals b = a.resolved.equals b.resolved := by
  have hleft : a.equals b = a.resolved.equals b := by
    fun_induction resolved a with
    | case1 a ih => rw [equals_deferred_left, ih]
    | case2 a hne => rfl
  have hright : a.resolved.equals b = a.resolved.equals b.resolved := by
    clear hleft
    fun_induction resolved b with
    | case1 b ih => rw [equals_deferred_right, ih]
    | case2 b hne => rfl
  rw [hleft, hright]

/-- Equal arguments yield arguments of one kind with equal contents. -/
theorem equals_iff {a b : Argument} : a.equals b = true ↔ EqualParts a.resolved b.resolved := by
  rw [equals_resolved]
  have ha := resolved_ne_deferred a
  have hb := resolved_ne_deferred b
  generalize a.resolved = a at ha ⊢
  generalize b.resolved = b at hb ⊢
  constructor
  · intro h
    fun_cases equals a b <;> simp only [equals, Bool.false_eq_true, beq_iff_eq] at h
    case case1 value => exact absurd rfl (ha value)
    case case2 value _ => exact absurd rfl (hb value)
    case case3 => exact .null
    case case4 => exact h ▸ .bool _
    case case5 => exact h ▸ .int _
    case case6 => exact .float h
    case case7 => exact h ▸ .text _
    case case8 => exact h ▸ .bytes _
    case case9 => exact .json h
    case case10 => exact .list (equalLists_iff.mp h)
  · intro h
    cases h <;> simp_all only [equals, equalLists_iff, beq_self_eq_true]

/-! ## Laws of equality -/

theorem equals_symm [Json.LawfulEquality] {a b : Argument} (ha : a.Keyed) (hb : b.Keyed)
    (h : a.equals b = true) : b.equals a = true := by
  induction a using items_induction generalizing b with
  | h a ih =>
      rw [equals_iff] at h ⊢
      generalize hra : a.resolved = a' at h ⊢
      generalize hrb : b.resolved = b' at h ⊢
      cases h with
      | null => exact .null
      | bool => exact .bool _
      | int => exact .int _
      | text => exact .text _
      | bytes => exact .bytes _
      | float h => exact .float (Binary64.equals_symm h)
      | json h =>
          have hj := ha.of_resolved hra rfl _ rfl
          have hk := hb.of_resolved hrb rfl _ rfl
          exact .json (Json.LawfulEquality.symm hj hk h)
      | list hitems =>
          refine .list (forall₂_symm (fun x hx y hy hxy => ?_) hitems)
          exact ih _ hra x hx (ha.item hra hx) (hb.item hrb hy) hxy

theorem equals_trans [Json.LawfulEquality] {a b c : Argument} (hab : a.equals b = true)
    (hbc : b.equals c = true) : a.equals c = true := by
  induction a using items_induction generalizing b c with
  | h a ih =>
      rw [equals_iff] at hab hbc ⊢
      generalize hra : a.resolved = a' at hab ⊢
      generalize b.resolved = b' at hab hbc
      generalize c.resolved = c' at hbc ⊢
      cases hab with
      | null | bool | int | text | bytes => exact hbc
      | float hab =>
          cases hbc with
          | float hbc => exact .float (Binary64.equals_trans hab hbc)
      | json hab =>
          cases hbc with
          | json hbc => exact .json (Json.LawfulEquality.trans hab hbc)
      | list hitems =>
          cases hbc with
          | list hitems' =>
              exact .list (forall₂_trans (fun x hx _ _ => ih _ hra x hx) hitems hitems')

theorem equalParts_list_iff {as bs : List Argument} :
    EqualParts (.list as) (.list bs) ↔ List.Forall₂ (fun a b => a.equals b = true) as bs :=
  ⟨fun h => by cases h with | list hitems => exact hitems, .list⟩

theorem EqualParts.isValue_eq {a b : Argument} (h : EqualParts a b) : a.isValue = b.isValue := by
  cases h <;> rfl

/-- Equality depends on nothing but the bare arguments. -/
theorem equals_bare (a b : Argument) : a.equals b = a.bare.equals b.bare := by
  induction a using items_induction generalizing b with
  | h a ih =>
      rw [Bool.eq_iff_iff, equals_iff, equals_iff, resolved_bare, resolved_bare]
      -- a list is never equal to a value, so only two lists and two values are left to compare
      rcases bare_cases a with ⟨as, ha, habare⟩ | ⟨ha, habare⟩ <;>
        rcases bare_cases b with ⟨bs, hb, hbbare⟩ | ⟨hb, hbbare⟩
      · have hitems : ∀ x ∈ as, ∀ y, x.equals y = true ↔ x.bare.equals y.bare = true :=
          fun x hx y => by rw [ih as ha x hx y]
        rw [ha, hb, habare, hbbare, equalParts_list_iff, equalParts_list_iff,
          List.forall₂_map_left_iff, List.forall₂_map_right_iff]
        exact ⟨forall₂_imp_of_mem fun x hx y _ => (hitems x hx y).mp,
          forall₂_imp_of_mem fun x hx y _ => (hitems x hx y).mpr⟩
      · have hne : ∀ items, ¬ EqualParts (.list items) b.resolved :=
          fun items h => absurd (h.isValue_eq.trans hb) Bool.false_ne_true
        rw [ha, habare, hbbare]
        exact iff_of_false (hne as) (hne _)
      · have hne : ∀ items, ¬ EqualParts a.resolved (.list items) :=
          fun items h => absurd (h.isValue_eq.symm.trans ha) Bool.false_ne_true
        rw [hb, habare, hbbare]
        exact iff_of_false (hne bs) (hne _)
      · rw [habare, hbbare]

/-- An argument that holds no float and no document is equal to itself. -/
theorem equals_refl {a : Argument} (ha : a.Exact) : a.equals a = true := by
  induction a using items_induction with
  | h a ih =>
      rw [equals_iff]
      cases hra : a.resolved with
      | null => exact .null
      | bool => exact .bool _
      | int => exact .int _
      | text => exact .text _
      | bytes => exact .bytes _
      | float => exact absurd rfl ((ha.of_resolved hra rfl).1 _)
      | json => exact absurd rfl ((ha.of_resolved hra rfl).2 _)
      | list items =>
          exact .list (List.forall₂_same.mpr fun i hi => ih items hra i hi (ha.item hra hi))
      | deferred value => exact absurd hra (resolved_ne_deferred a value)

/-- Arguments that hold no floats and no documents are equal exactly when they are one argument,
wrappers aside. -/
theorem equals_iff_bare_eq {a b : Argument} (ha : a.Exact) :
    a.equals b = true ↔ a.bare = b.bare := by
  constructor
  · intro h
    induction a using items_induction generalizing b with
    | h a ih =>
        rw [equals_iff] at h
        -- what is yielded has the bare argument of the whole, so the wrappers outside can go
        rw [← bare_resolved a, ← bare_resolved b]
        generalize hra : a.resolved = a' at h ⊢
        generalize b.resolved = b' at h ⊢
        cases h with
        | null | bool | int | text | bytes => rfl
        | float => exact absurd rfl ((ha.of_resolved hra rfl).1 _)
        | json => exact absurd rfl ((ha.of_resolved hra rfl).2 _)
        | @list as bs hitems =>
            have hbare : List.Forall₂ (· = ·) (as.map bare) (bs.map bare) := by
              rw [List.forall₂_map_left_iff, List.forall₂_map_right_iff]
              refine forall₂_imp_of_mem (fun x hx y _ hxy => ?_) hitems
              exact ih as hra x hx (ha.item hra hx) hxy
            rw [List.forall₂_eq_eq_eq] at hbare
            rw [bare_list, bare_list, hbare]
  · intro h
    -- equality does not tell arguments with one bare form apart, so `b` may be taken for `a`
    rw [equals_bare, ← h, ← equals_bare]
    exact equals_refl ha

/-- Equality sees through what is deferred. It is symmetric between arguments whose documents name
each key once, and transitive. Wrapping a side, or an item of a list at any depth, any number of
times makes no difference, nor does taking wrappers away: the arguments only have to be the same
when they are bare. Where floats and documents, which need not be equal to themselves, are not
involved, arguments are equal exactly when they are the same when they are bare. What an argument
yields is never deferred, has the same bare argument, and is the argument itself unless that is
deferred. -/
theorem equals_laws [Json.LawfulEquality] (a b c : Argument) :
    (a.Keyed → b.Keyed → a.equals b = b.equals a)
      ∧ (a.equals b = true → b.equals c = true → a.equals c = true)
      ∧ (∀ a' b' : Argument, a'.bare = a.bare → b'.bare = b.bare → a'.equals b' = a.equals b)
      ∧ (a.Exact → (a.equals b = true ↔ a.bare = b.bare))
      ∧ (∀ value, a.resolved ≠ .deferred value)
      ∧ a.resolved.bare = a.bare
      ∧ ((∀ value, a ≠ .deferred value) → a.resolved = a) := by
  refine ⟨fun ha hb => ?_, equals_trans, fun a' b' ha hb => ?_, equals_iff_bare_eq,
    resolved_ne_deferred a, bare_resolved a, resolved_of_ne_deferred⟩
  · exact Bool.eq_iff_iff.mpr ⟨equals_symm ha hb, equals_symm hb ha⟩
  · rw [equals_bare a' b', equals_bare a b, ha, hb]

end Equality

/-- A list of a document and a number, without wrappers, with one around each item, and with two
around the list. -/
def documents : Argument × Argument × Argument :=
  (.list [.json (.object [("k", .null)]), .int 3],
    .list [.deferred (.json (.object [("k", .null)])), .deferred (.int 3)],
    .deferred (.deferred (.list [.json (.object [("k", .null)]), .int 3])))

theorem equals_laws_documents :
    documents.1.Keyed ∧ documents.2.1.Keyed
      ∧ documents.1.equals documents.2.1 = documents.2.1.equals documents.1
      ∧ documents.1.equals documents.2.1 = true ∧ documents.2.1.equals documents.2.2 = true
      ∧ documents.1.equals documents.2.2 = true
      ∧ documents.2.1.bare = documents.1.bare ∧ documents.2.2.bare = documents.2.1.bare
      ∧ documents.2.1.equals documents.2.2 = documents.1.equals documents.2.1
      ∧ documents.1.resolved = documents.1
      ∧ (list [.deferred .null]).Exact
      ∧ (list [.deferred .null]).equals (.deferred (.list [.null])) = true := by
  have hdocument : (Json.object [("k", .null)]).Keyed :=
    .object (by simp) (by simpa using Json.Keyed.null)
  have hjson : (json (Json.object [("k", .null)])).Keyed := by
    refine .value rfl fun j hj => ?_
    cases hj
    exact hdocument
  have hint : (int 3).Keyed := .value rfl (by simp)
  have hkeyed : documents.1.Keyed := by
    refine .list fun i hi => ?_
    rcases List.mem_pair.mp hi with rfl | rfl
    · exact hjson
    · exact hint
  have hkeyed' : documents.2.1.Keyed := by
    refine .list fun i hi => ?_
    rcases List.mem_pair.mp hi with rfl | rfl
    · exact hjson.deferred
    · exact hint.deferred
  have hequal : documents.1.equals documents.2.1 = true := by
    simp [documents, equals, equalLists, Json.beq_eq_equals, Json.equals, Json.equalMembers]
  have hequal' : documents.2.1.equals documents.2.2 = true := by
    simp [documents, equals, equalLists, Json.beq_eq_equals, Json.equals, Json.equalMembers]
  have hexact : (list [.deferred .null]).Exact := by
    refine .list fun i hi => ?_
    rw [List.mem_singleton.mp hi]
    exact .deferred (.value rfl ⟨by simp, by simp⟩)
  obtain ⟨hsymm, htrans, hwrapped, -, -, -, hsame⟩ :=
    equals_laws documents.1 documents.2.1 documents.2.2
  obtain ⟨-, -, -, hbare, -⟩ :=
    equals_laws (.list [.deferred .null]) (.deferred (.list [.null])) .null
  have heq : documents.1.resolved = documents.1 := hsame (by simp [documents])
  have hunwrapped : documents.2.1.equals documents.2.2 = documents.1.equals documents.2.1 :=
    hwrapped documents.2.1 documents.2.2 rfl rfl
  exact ⟨hkeyed, hkeyed', hsymm hkeyed hkeyed', hequal, hequal', htrans hequal hequal', rfl, rfl,
    hunwrapped, heq, hexact, (hbare hexact).mpr rfl⟩

end Argument

end SchemaEvolution.Query
