import SchemaEvolution.Proofs.Query.Binding

set_option autoImplicit false

/-! # Lists of one value

With a list among its arguments a query is numbered by `expand`, without one by `rebind`. The two
agree: an argument may be put into a list of its own without a difference for the query that is
bound (`bind_of_wrapped`). Both write the numbers in decimal digits, so they can differ only in
placeholders `$n` that are spelled with a leading zero, which `expand` spells anew.
-/

namespace SchemaEvolution.Query

/-! ## Decimal digits -/

theorem toNat_of_isDigit {c : Char} (h : c.isDigit = true) :
    '0'.toNat ≤ c.toNat ∧ c.toNat - '0'.toNat < 10 := by
  rw [Char.isDigit, Bool.and_eq_true, decide_eq_true_eq, decide_eq_true_eq] at h
  have hlow : 48 ≤ c.toNat := h.1
  have hhigh : c.toNat ≤ 57 := h.2
  have hzero : '0'.toNat = 48 := rfl
  omega

/-- A digit is spelled by itself. -/
theorem digits_of_isDigit {c : Char} (h : c.isDigit = true) :
    digits (c.toNat - '0'.toNat) = [c] := by
  obtain ⟨hle, hlt⟩ := toNat_of_isDigit h
  have hchar : Nat.digitChar (c.toNat - '0'.toNat) = c := by
    apply Char.toNat_inj.mp
    rw [Nat.toNat_digitChar_of_lt_ten hlt]
    have hzero : '0'.toNat = 48 := rfl
    omega
  rw [digits, Nat.toDigits_of_lt_base hlt, hchar]

/-- More digits behind a number that is not zero spell a greater number. -/
theorem digits_append {n : Nat} (hn : 0 < n) {ds : List Char} (h : ∀ d ∈ ds, d.isDigit = true) :
    digits n ++ ds = digits (ds.foldl (fun n d => n * 10 + (d.toNat - '0'.toNat)) n) := by
  induction ds generalizing n with
  | nil => rw [List.append_nil, List.foldl_nil]
  | cons d ds ih =>
      have hd := h d List.mem_cons_self
      have hlast : digits n ++ [d] = digits (n * 10 + (d.toNat - '0'.toNat)) := by
        rw [← digits_of_isDigit hd, Nat.mul_comm]
        exact Nat.toDigits_append_toDigits (by decide) hn (toNat_of_isDigit hd).2
      rw [List.foldl_cons, ← ih (by omega) fun e he => h e (List.mem_cons_of_mem d he), ← hlast,
        List.append_assoc, List.singleton_append]

/-- Digits of which the first is a zero and not the only one. -/
def HasLeadingZero (ds : List Char) : Prop := ds.head? = some '0' ∧ 1 < ds.length

/-- Digits without a leading zero are those of the number that they spell, unless it is too great
for a placeholder. -/
theorem digits_placeholderNumber {ds : List Char} (hne : ds ≠ [])
    (hdigits : ∀ d ∈ ds, d.isDigit = true) (hzero : ¬ HasLeadingZero ds)
    (hlt : placeholderNumber ds < maxPlaceholder) : digits (placeholderNumber ds) = ds := by
  have hvalue : placeholderNumber ds
      = ds.foldl (fun n d => n * 10 + (d.toNat - '0'.toNat)) 0 := by
    rw [placeholderNumber] at hlt ⊢
    omega
  rw [hvalue]
  cases ds with
  | nil => exact absurd rfl hne
  | cons d ds =>
      have hd := hdigits d List.mem_cons_self
      rw [List.foldl_cons, Nat.zero_mul, Nat.zero_add]
      cases ds with
      | nil => exact digits_of_isDigit hd
      | cons e ds =>
          have hpos : 0 < d.toNat - '0'.toNat := by
            refine Nat.pos_of_ne_zero fun heq => hzero ⟨?_, by simp⟩
            have hd0 : d.toNat = '0'.toNat := by
              have hle := (toNat_of_isDigit hd).1
              omega
            rw [Char.toNat_inj.mp hd0]
            rfl
          rw [← digits_append hpos fun c hc => hdigits c (List.mem_cons_of_mem d hc),
            digits_of_isDigit hd, List.singleton_append]

/-- The number of a placeholder has digits, and nothing else. -/
theorem isDigit_of_number_mem_tokens {cs ds : List Char} (h : .number ds ∈ tokens cs) :
    ds ≠ [] ∧ ∀ d ∈ ds, d.isDigit = true := by
  fun_induction tokens cs with
  | case1 => cases h
  | case7 cs hdigits ih =>
      rcases List.mem_cons.mp h with heq | h
      · cases heq
        exact ⟨by simpa using hdigits, fun d hd => List.mem_takeWhile_imp hd⟩
      · exact ih h
  | _ =>
      rename_i ih
      rcases List.mem_cons.mp h with heq | h
      · cases heq
      · exact ih h

/-! ## Arguments that take one number each -/

theorem placeholders_one (n : Nat) : Slot.placeholders ⟨n, 1⟩ = '$' :: digits n := by
  simp [Slot.placeholders, List.intercalate]

/-- With one number for each argument the number of an argument is its position. -/
theorem getElem?_slots_of_width {args : List Argument} (h : ∀ a ∈ args, a.width = 1) {i : Nat}
    {s : Slot} (hs : (slots 1 args)[i]? = some s) : s = ⟨i + 1, 1⟩ := by
  rw [getElem?_slots 0, Option.map_eq_some_iff] at hs
  obtain ⟨a, ha, rfl⟩ := hs
  have hones : (args.take i).map Argument.width = List.replicate i 1 := by
    have hlt := (List.getElem?_eq_some_iff.mp ha).1
    rw [List.eq_replicate_iff]
    refine ⟨by simp [Nat.le_of_lt hlt], fun w hw => ?_⟩
    obtain ⟨b, hb, rfl⟩ := List.mem_map.mp hw
    exact h b (List.mem_of_mem_take hb)
  rw [firstNumber, hones, List.sum_replicate, h a (List.mem_of_getElem? ha)]
  simp [Nat.add_comm]

section UnitSlots

variable {slots : List Slot}

/-- What a placeholder becomes is what numbering the marks makes of it. -/
theorem rebindFrom_image (hslots : ∀ (i : Nat) (s : Slot), slots[i]? = some s → s = ⟨i + 1, 1⟩)
    {t : Token}
    (hproper : t.Proper)
    (hspelled : ∀ ds, t = .number ds → placeholderNumber ds ≤ slots.length →
      digits (placeholderNumber ds) = ds)
    {marks : Nat} {text : List Char} (h : t.image slots marks = .ok text) (n : Nat)
    (rest : List Char) :
    rebindFrom n (text ++ rest) = t.rebound (marks + 1) ++ rebindFrom n rest := by
  have hplaceholder {k : Nat} {s : Slot} (hs : slotOf? slots k = some s) :
      k ≤ slots.length ∧ s.placeholders = '$' :: digits k := by
    rw [slotOf?] at hs
    split at hs
    · cases hs
    · have hlt := (List.getElem?_eq_some_iff.mp hs).1
      have hs' := hslots _ _ hs
      rw [Nat.sub_add_cancel (by omega)] at hs'
      rw [hs', placeholders_one]
      exact ⟨by omega, rfl⟩
  -- what is written for a placeholder holds no mark, so numbering copies it
  have hdollar (k : Nat) : rebindFrom n (('$' :: digits k) ++ rest)
      = ('$' :: digits k) ++ rebindFrom n rest := by
    refine rebindFrom_append ?_ n rest
    simpa using not_mem_digits k
  cases t with
  | pair second =>
      cases h
      rcases hproper with rfl | rfl | rfl <;> rfl
  | other c =>
      cases h
      exact rebindFrom_cons hproper n rest
  | mark =>
      simp only [Token.image, Token.asks] at h
      cases hs : slotOf? slots (marks + 1) with
      | none =>
          rw [hs] at h
          cases h
      | some s =>
          rw [hs] at h
          cases h
          rw [(hplaceholder hs).2, hdollar]
          rfl
  | number ds =>
      simp only [Token.image, Token.asks] at h
      cases hs : slotOf? slots (placeholderNumber ds) with
      | none =>
          rw [hs] at h
          cases h
      | some s =>
          rw [hs] at h
          cases h
          obtain ⟨hle, hplaceholders⟩ := hplaceholder hs
          rw [hplaceholders, hdollar, hspelled ds rfl hle]
          rfl

/-- Filling in the placeholders and numbering what is left is numbering the marks. -/
theorem rebindFrom_fill (hslots : ∀ (i : Nat) (s : Slot), slots[i]? = some s → s = ⟨i + 1, 1⟩)
    {ts : List Token}
    (hproper : ∀ t ∈ ts, t.Proper)
    (hspelled : ∀ ds, .number ds ∈ ts → placeholderNumber ds ≤ slots.length →
      digits (placeholderNumber ds) = ds)
    {marks : Nat} {text : List Char} (h : fill slots marks ts = .ok text) (n : Nat) :
    rebindFrom n text = renumber marks ts := by
  induction ts generalizing marks text with
  | nil =>
      cases h
      rfl
  | cons t ts ih =>
      rw [fill] at h
      cases himage : t.image slots marks with
      | error e =>
          rw [himage] at h
          cases h
      | ok image =>
          cases hrest : fill slots (marks + [t].count .mark) ts with
          | error e =>
              rw [himage, hrest] at h
              cases h
          | ok rest =>
              rw [himage, hrest] at h
              cases h
              rw [renumber_cons,
                ← ih (fun u hu => hproper u (List.mem_cons_of_mem t hu))
                  (fun ds hds => hspelled ds (List.mem_cons_of_mem t hds)) hrest]
              refine rebindFrom_image hslots (hproper t List.mem_cons_self) (fun ds hds => ?_)
                himage n rest
              exact hspelled ds (hds ▸ List.mem_cons_self)

end UnitSlots

/-! ## Lists of one value -/

theorem length_slots (first : Nat) (args : List Argument) :
    (slots first args).length = args.length := by
  induction args generalizing first with
  | nil => rfl
  | cons a args ih => rw [slots, List.length_cons, List.length_cons, ih]

/-- The numbers of arguments depend on their widths only. -/
theorem slots_eq_of_width {as bs : List Argument}
    (h : as.map Argument.width = bs.map Argument.width) (first : Nat) :
    slots first as = slots first bs := by
  induction as generalizing bs first with
  | nil =>
      cases bs with
      | nil => rfl
      | cons b bs => cases h
  | cons a as ih =>
      cases bs with
      | nil => cases h
      | cons b bs =>
          rw [List.map_cons, List.map_cons, List.cons.injEq] at h
          rw [slots, slots, h.1, ih h.2]

namespace Argument

/-- The second argument is the first one, or a list of it alone. -/
inductive Wraps : Argument → Argument → Prop
  | same (a : Argument) : Wraps a a
  | list {a : Argument} : a.resolved.isList = false → Wraps a (.list [a])

theorem width_of_not_isList {a : Argument} (h : a.isList = false) : a.width = 1 := by
  cases a with
  | list items => cases h
  | _ => rfl

theorem flattened_of_not_isList {a : Argument} (h : a.isList = false) : a.flattened = [a] := by
  cases a with
  | list items => cases h
  | _ => rfl

theorem width_eq_zero_iff (a : Argument) : a.width = 0 ↔ a = .list [] := by
  cases a with
  | list items => simp [width]
  | _ => simp [width]

theorem Wraps.width_eq {a a' : Argument} (h : Wraps a a') :
    a'.resolved.width = a.resolved.width := by
  cases h with
  | same => rfl
  | list ha => rw [width_of_not_isList ha]; rfl

theorem Wraps.flattened_eq {a a' : Argument} (h : Wraps a a') :
    a'.resolved.flattened = a.resolved.flattened := by
  cases h with
  | same => rfl
  | list ha => rw [flattened_of_not_isList ha]; rfl

theorem Wraps.eq_of_not_isList {a a' : Argument} (h : Wraps a a')
    (hlist : a'.resolved.isList = false) : a' = a := by
  cases h with
  | same => rfl
  | list _ => cases hlist

end Argument

section Wrapping

variable {query : String} {args args' : List Argument}

/-- What does not tell an argument from a list of it does not tell the arguments apart. -/
theorem map_resolved_of_wraps {β : Type} {f : Argument → β}
    (hf : ∀ {a a' : Argument}, a.Wraps a' → f a'.resolved = f a.resolved)
    (h : List.Forall₂ Argument.Wraps args args') :
    (args'.map Argument.resolved).map f = (args.map Argument.resolved).map f := by
  induction h with
  | nil => rfl
  | cons ha _ ih => rw [List.map_cons, List.map_cons, List.map_cons, List.map_cons, ih, hf ha]

theorem eq_of_wraps_of_no_list (h : List.Forall₂ Argument.Wraps args args')
    (hlist : (args'.map Argument.resolved).any Argument.isList = false) : args' = args := by
  induction h with
  | nil => rfl
  | cons ha _ ih =>
      rw [List.map_cons, List.any_cons, Bool.or_eq_false_iff] at hlist
      rw [ha.eq_of_not_isList hlist.1, ih hlist.2]

theorem not_isList_of_mem {given : List Argument} (h : given.any Argument.isList = false)
    {a : Argument} (ha : a ∈ given) : a.isList = false :=
  Bool.eq_false_iff.mpr (List.any_eq_false.mp h a ha)

theorem flatMap_flattened_of_no_list {given : List Argument}
    (h : given.any Argument.isList = false) : given.flatMap Argument.flattened = given := by
  have hsingle : ∀ a ∈ given, a.flattened = [a] := fun a ha =>
    Argument.flattened_of_not_isList (not_isList_of_mem h ha)
  rw [List.flatMap_congr hsingle, List.flatMap_singleton']

/-- Without a list a query stays as it is. -/
theorem expand_of_no_list (h : (args.map Argument.resolved).any Argument.isList = false) :
    expand query args = .ok (query, args.map Argument.resolved) := by
  have hempty : .list [] ∉ args.map Argument.resolved := fun hmem =>
    Bool.noConfusion (not_isList_of_mem h hmem)
  rw [expand, emptyListAt?_eq_none hempty]
  simp only [h, Bool.false_eq_true, if_false]

theorem empty_mem_iff (given : List Argument) :
    .list [] ∈ given ↔ 0 ∈ given.map Argument.width := by
  rw [List.mem_map]
  constructor
  · exact fun h => ⟨_, h, rfl⟩
  · rintro ⟨a, ha, hwidth⟩
    rwa [← (Argument.width_eq_zero_iff a).mp hwidth]

theorem empty_not_mem_of_expand {r : String × List Argument} (h : expand query args = .ok r) :
    .list [] ∉ args.map Argument.resolved := by
  intro hmem
  obtain ⟨i, hi, hfirst⟩ := exists_first_empty hmem
  rw [expand, emptyListAt?_eq_some hi hfirst] at h
  cases h

/-- Where arguments that are no lists take one number each, numbering a filled query is numbering
the query. -/
theorem rebind_fill {given : List Argument} (hlist : given.any Argument.isList = false)
    (hlength : given.length < maxPlaceholder)
    (hzeros : ∀ ds, .number ds ∈ tokens query.toList → ¬ HasLeadingZero ds) {text : List Char}
    (h : fill (slots 1 given) 0 (tokens query.toList) = .ok text) :
    rebind (String.ofList text) = rebind query := by
  have hwidth : ∀ a ∈ given, a.width = 1 := fun a ha =>
    Argument.width_of_not_isList (not_isList_of_mem hlist ha)
  rw [rebind, rebind, String.toList_ofList, rebindFrom_eq_renumber 0 query.toList]
  congr 1
  refine rebindFrom_fill (fun i s => getElem?_slots_of_width hwidth)
    (fun t => proper_of_mem_tokens) (fun ds hds hle => ?_) h 0
  obtain ⟨hne, hdigits⟩ := isDigit_of_number_mem_tokens hds
  rw [length_slots] at hle
  exact digits_placeholderNumber hne hdigits (hzeros ds hds) (hle.trans_lt hlength)

/-- Arguments may be put into lists of their own. In a query without leading zeros in its
placeholders, whatever is bound with some arguments in lists of one value is bound with the plain
arguments: to the same text and the same values. There are fewer arguments than the greatest number
that a placeholder can have, so a number that is too great for it is refused in either case. -/
theorem bind_of_wrapped {p : Prepared}
    (hzeros : ∀ ds, .number ds ∈ tokens query.toList → ¬ HasLeadingZero ds)
    (hlength : args.length < maxPlaceholder) (hwraps : List.Forall₂ Argument.Wraps args args')
    (h : bind query args' = .ok p) : bind query args = .ok p := by
  have hwidths := map_resolved_of_wraps Argument.Wraps.width_eq hwraps
  have hvalues : (args'.map Argument.resolved).flatMap Argument.flattened
      = (args.map Argument.resolved).flatMap Argument.flattened := by
    rw [List.flatMap_def, List.flatMap_def,
      map_resolved_of_wraps Argument.Wraps.flattened_eq hwraps]
  have hslots := slots_eq_of_width hwidths 1
  cases hlist' : (args'.map Argument.resolved).any Argument.isList with
  | false => rwa [← eq_of_wraps_of_no_list hwraps hlist']
  | true =>
      cases hexpand : expand query args' with
      | error e =>
          rw [bind, hexpand] at h
          cases h
      | ok r =>
          have hempty' := empty_not_mem_of_expand hexpand
          rw [bind, expand_of_lists hlist' hempty', hslots, hvalues] at h
          cases hlist : (args.map Argument.resolved).any Argument.isList with
          | true =>
              have hempty : .list [] ∉ args.map Argument.resolved := by
                rwa [empty_mem_iff, ← hwidths, ← empty_mem_iff]
              -- both are expanded, and alike: only widths and values count
              rw [bind, expand_of_lists hlist hempty]
              exact h
          | false =>
              -- every list was put around an argument: the plain query is not expanded at all
              cases hfill : fill (slots 1 (args.map Argument.resolved)) 0 (tokens query.toList) with
              | error e =>
                  rw [hfill] at h
                  cases h
              | ok text =>
                  rw [hfill] at h
                  cases h
                  rw [bind, expand_of_no_list hlist, flatMap_flattened_of_no_list hlist,
                    rebind_fill hlist (by rwa [List.length_map]) hzeros hfill]
                  rfl

end Wrapping

/-- A deferred value and a null, each in a list of its own, and a plain text. -/
def wrappedPair : List Argument := [.list [.deferred (.int 7)], .list [.null], .text "t"]

theorem bind_of_wrapped_pair :
    (∀ ds, .number ds ∈ tokens "? ?? $3 $2 ?| ?1".toList → ¬ HasLeadingZero ds)
      ∧ bind "? ?? $3 $2 ?| ?1" wrappedPair
        = .ok ⟨"$1 ? $3 $2 ?| $21", [.int 7, .null, .text "t"]⟩
      ∧ bind "? ?? $3 $2 ?| ?1" [.deferred (.int 7), .null, .text "t"]
        = .ok ⟨"$1 ? $3 $2 ?| $21", [.int 7, .null, .text "t"]⟩ := by
  have hread : tokens "? ?? $3 $2 ?| ?1".toList
      = [.mark, .other ' ', .pair '?', .other ' ', .number ['3'], .other ' ', .number ['2'],
        .other ' ', .pair '|', .other ' ', .mark, .other '1'] := by
    decide +kernel
  have hzeros : ∀ ds, .number ds ∈ tokens "? ?? $3 $2 ?| ?1".toList → ¬ HasLeadingZero ds := by
    rw [hread]
    simp [HasLeadingZero]
  have hempty : .list [] ∉ wrappedPair.map Argument.resolved := by
    simp [wrappedPair, Argument.resolved]
  have hfill : fill (slots 1 (wrappedPair.map Argument.resolved)) 0
      (tokens "? ?? $3 $2 ?| ?1".toList) = .ok "$1 ?? $3 $2 ?| $21".toList := by
    rw [hread]
    rfl
  have hnumbered : rebind (String.ofList "$1 ?? $3 $2 ?| $21".toList) = "$1 ? $3 $2 ?| $21" := by
    decide +kernel
  have hbind : bind "? ?? $3 $2 ?| ?1" wrappedPair
      = .ok ⟨"$1 ? $3 $2 ?| $21", [.int 7, .null, .text "t"]⟩ := by
    rw [bind, expand_of_lists rfl hempty, hfill]
    exact congrArg (fun text => Except.ok (Prepared.mk text _)) hnumbered
  refine ⟨hzeros, hbind, bind_of_wrapped hzeros (by decide) ?_ hbind⟩
  exact .cons (.list rfl) (.cons (.list rfl) (.cons (.same _) .nil))

end SchemaEvolution.Query
