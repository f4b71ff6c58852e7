import SchemaEvolution.Proofs.Query.Deferral
import SchemaEvolution.Proofs.Query.SingleLists

set_option autoImplicit false

/-! # Flat values

Binding resolves the arguments, takes the items of each list and resolves them, and looks no deeper.
So no value that is bound is deferred, but an item that is a list again is bound as a list, and it
is not asked whether that list is empty. The values are flat exactly when no argument holds lists in
a list (`bound_flat_iff`), and then no empty list was accepted anywhere.
-/

namespace SchemaEvolution.Query

namespace Argument

/-- An empty list stands somewhere in the argument; what is deferred counts as what it yields. -/
inductive HasEmptyList : Argument → Prop
  | empty : HasEmptyList (.list [])
  | item {items : List Argument} {a : Argument} :
      a ∈ items → HasEmptyList a → HasEmptyList (.list items)
  | deferred {a : Argument} : HasEmptyList a → HasEmptyList (.deferred a)

/-- The argument holds no list in a list. -/
def Shallow (a : Argument) : Prop :=
  ∀ items, a.resolved = .list items → ∀ item ∈ items, item.resolved.isList = false

/-- The values of an argument that is no longer deferred are not deferred either. -/
theorem ne_deferred_of_mem_flattened {a b : Argument} (ha : ∀ value, a ≠ .deferred value)
    (hb : b ∈ a.flattened) : ∀ value, b ≠ .deferred value := by
  cases a with
  | list items =>
      obtain ⟨item, -, rfl⟩ := List.mem_map.mp hb
      exact resolved_ne_deferred item
  | _ =>
      rw [flattened_of_not_isList rfl, List.mem_singleton] at hb
      rw [hb]
      exact ha

/-- The values of an argument are no lists exactly when it holds no list in a list. -/
theorem isValue_flattened_iff (a : Argument) :
    (∀ b ∈ a.resolved.flattened, b.isValue = true) ↔ a.Shallow := by
  unfold Shallow
  cases h : a.resolved with
  | list items =>
      constructor
      · rintro hflat _ ⟨⟩ item hitem
        have hvalue := hflat item.resolved (List.mem_map_of_mem hitem)
        rwa [isValue_resolved, Bool.not_eq_true'] at hvalue
      · intro hshallow b hb
        obtain ⟨item, hitem, rfl⟩ := List.mem_map.mp hb
        rw [isValue_resolved, hshallow items rfl item hitem]
        rfl
  | deferred value => exact absurd h (resolved_ne_deferred a value)
  | _ =>
      refine iff_of_true (fun b hb => ?_) (fun items hitems => by cases hitems)
      rw [flattened_of_not_isList rfl, List.mem_singleton] at hb
      rw [hb]
      rfl

/-! ## Empty lists -/

theorem HasEmptyList.resolved {a : Argument} (h : a.HasEmptyList) : a.resolved.HasEmptyList := by
  induction h with
  | empty => exact .empty
  | item hmem h _ => exact .item hmem h
  | deferred _ ih => exact ih

theorem HasEmptyList.isValue_eq_false {a : Argument} (h : a.HasEmptyList) : a.isValue = false := by
  cases h <;> rfl

/-- An argument without lists in lists has no empty list but itself. -/
theorem Shallow.resolved_eq_nil {a : Argument} (ha : a.Shallow) (h : a.HasEmptyList) :
    a.resolved = .list [] := by
  have hempty := h.resolved
  cases hresolved : a.resolved with
  | list items =>
      rw [hresolved] at hempty
      cases hempty with
      | empty => rfl
      | item hmem hitem =>
          -- the item yields a single value, and an empty list is in none
          have hvalue := hitem.resolved.isValue_eq_false
          rw [isValue_resolved, ha items hresolved _ hmem] at hvalue
          cases hvalue
  | deferred value => exact absurd hresolved (resolved_ne_deferred a value)
  | _ =>
      rw [hresolved] at hempty
      cases hempty

end Argument

/-! ## Values that are bound -/

section Bound

variable {query : String} {args : List Argument} {p : Prepared}

/-- What is bound are the values of the arguments, none of which was an empty list. -/
theorem bind_eq_ok (h : bind query args = .ok p) :
    p.args = (args.map Argument.resolved).flatMap Argument.flattened
      ∧ .list [] ∉ args.map Argument.resolved := by
  cases hexpand : expand query args with
  | error e =>
      rw [bind, hexpand] at h
      cases h
  | ok r =>
      have hempty := empty_not_mem_of_expand hexpand
      refine ⟨?_, hempty⟩
      rw [bind, hexpand] at h
      cases h
      cases hlist : (args.map Argument.resolved).any Argument.isList with
      | false =>
          rw [expand_of_no_list hlist] at hexpand
          cases hexpand
          exact (flatMap_flattened_of_no_list hlist).symm
      | true =>
          rw [expand_of_lists hlist hempty] at hexpand
          cases hfill : fill (slots 1 (args.map Argument.resolved)) 0 (tokens query.toList) with
          | error e =>
              rw [hfill] at hexpand
              cases hexpand
          | ok text =>
              rw [hfill] at hexpand
              cases hexpand
              rfl

/-- Whenever binding succeeds, no value is deferred and no argument was an empty list. The values
are flat, each of them neither a list nor deferred, exactly when no argument holds a list in a list;
and then no empty list stands in any argument, however deep. -/
theorem bound_flat_iff (h : bind query args = .ok p) :
    (∀ b ∈ p.args, ∀ value, b ≠ .deferred value)
      ∧ (∀ a ∈ args, a.resolved ≠ .list [])
      ∧ ((∀ b ∈ p.args, b.isValue = true) ↔ ∀ a ∈ args, a.Shallow)
      ∧ ((∀ b ∈ p.args, b.isValue = true) → ∀ a ∈ args, ¬ a.HasEmptyList) := by
  obtain ⟨hargs, hempty⟩ := bind_eq_ok h
  have hmem (b : Argument) : b ∈ p.args ↔ ∃ a ∈ args, b ∈ a.resolved.flattened := by
    rw [hargs, List.flatMap_map, List.mem_flatMap]
  have hnonempty : ∀ a ∈ args, a.resolved ≠ .list [] := fun a ha heq =>
    hempty (heq ▸ List.mem_map_of_mem ha)
  have hflat : (∀ b ∈ p.args, b.isValue = true) ↔ ∀ a ∈ args, a.Shallow := by
    constructor
    · intro hvalues a ha
      exact (Argument.isValue_flattened_iff a).mp fun b hb => hvalues b ((hmem b).mpr ⟨a, ha, hb⟩)
    · intro hshallow b hb
      obtain ⟨a, ha, hb⟩ := (hmem b).mp hb
      exact (Argument.isValue_flattened_iff a).mpr (hshallow a ha) b hb
  refine ⟨fun b hb => ?_, hnonempty, hflat, fun hvalues a ha hhas => ?_⟩
  · obtain ⟨a, -, hb⟩ := (hmem b).mp hb
    exact Argument.ne_deferred_of_mem_flattened (Argument.resolved_ne_deferred a) hb
  · exact hnonempty a ha ((hflat.mp hvalues a ha).resolved_eq_nil hhas)

end Bound

/-- A deferred list, with a deferred item, and a text. -/
def deferredItems : List Argument := [.deferred (.list [.deferred (.int 7), .null]), .text "t"]

theorem bound_flat_iff_deferredItems :
    bind "? ?" deferredItems = .ok ⟨"$1,$2 $3", [.int 7, .null, .text "t"]⟩
      ∧ (∀ a ∈ deferredItems, a.Shallow) ∧ ∀ a ∈ deferredItems, ¬ a.HasEmptyList := by
  have hempty : .list [] ∉ deferredItems.map Argument.resolved := by
    simp [deferredItems, Argument.resolved]
  have hfill : fill (slots 1 (deferredItems.map Argument.resolved)) 0 (tokens "? ?".toList)
      = .ok "$1,$2 $3".toList := by
    have hread : tokens "? ?".toList = [.mark, .other ' ', .mark] := by decide +kernel
    rw [hread]
    rfl
  have hnumbered : rebind (String.ofList "$1,$2 $3".toList) = "$1,$2 $3" := by decide +kernel
  have hbind : bind "? ?" deferredItems = .ok ⟨"$1,$2 $3", [.int 7, .null, .text "t"]⟩ := by
    rw [bind, expand_of_lists rfl hempty, hfill]
    exact congrArg (fun text => Except.ok (Prepared.mk text _)) hnumbered
  obtain ⟨-, -, hflat, hnone⟩ := bound_flat_iff hbind
  have hvalues : ∀ b ∈ [Argument.int 7, .null, .text "t"], b.isValue = true := by
    simp [Argument.isValue]
  exact ⟨hbind, hflat.mp hvalues, hnone hvalues⟩

/-- A list that holds an empty list: the empty list is accepted, and it is bound as a value. -/
theorem bound_not_flat :
    bind "id IN (?)" [.list [.list []]] = .ok ⟨"id IN ($1)", [.list []]⟩
      ∧ (Argument.list []).isValue = false ∧ (Argument.list [.list []]).HasEmptyList := by
  have hempty : .list [] ∉ [Argument.list [.list []]].map Argument.resolved := by
    simp [Argument.resolved]
  have hfill : fill (slots 1 ([Argument.list [.list []]].map Argument.resolved)) 0
      (tokens "id IN (?)".toList) = .ok "id IN ($1)".toList := by
    have hread : tokens "id IN (?)".toList = [.other 'i', .other 'd', .other ' ', .other 'I',
        .other 'N', .other ' ', .other '(', .mark, .other ')'] := by decide +kernel
    rw [hread]
    rfl
  have hnumbered : rebind (String.ofList "id IN ($1)".toList) = "id IN ($1)" := by decide +kernel
  refine ⟨?_, rfl, .item List.mem_cons_self .empty⟩
  rw [bind, expand_of_lists rfl hempty, hfill]
  exact congrArg (fun text => Except.ok (Prepared.mk text _)) hnumbered

end SchemaEvolution.Query
