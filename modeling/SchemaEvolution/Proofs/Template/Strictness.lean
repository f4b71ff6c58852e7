import SchemaEvolution.Proofs.Template.Mentions

set_option autoImplicit false

/-! # Strict and lenient resolution

A symbol resolves or not whatever the mode is (`Resolves`). Lenient mode leaves a symbol that does
not as it is written and always gives a text. Strict mode stops at the first such symbol, and gives
the same text when there is none (`resolve_strict`).
-/

namespace SchemaEvolution.Template

/-- Whether a symbol of a template resolves. A reference in the current schema does when the model
that it mentions has the very name that it gives; any other symbol does when a mentioned model
offers it. -/
def Resolves (source : Source) (query symbol : String) : Prop :=
  match afterMark? symbol.toList with
  | some reference =>
    ∃ t, mentioned? source (String.ofList reference) = some t
      ∧ ("&" ++ t.typeName).toList = reference
  | none =>
    ∃ name ∈ symbols query, ∃ t, mentioned? source name = some t ∧ (t.get? symbol).isSome = true

theorem inCurrentSchema?_isSome_iff (currentSchema : String) (reference : List Char)
    (t : SymbolTable) :
    (inCurrentSchema? currentSchema reference t).isSome = true
      ↔ ("&" ++ t.typeName).toList = reference := by
  rw [inCurrentSchema?]
  split_ifs with hname
  · exact iff_of_true rfl hname
  · exact iff_of_false Bool.false_ne_true hname

/-- Something stands for a symbol exactly when it resolves. -/
theorem replacement?_isSome_iff (source : Source) (query currentSchema symbol text : String) :
    (replacement? source (offered source (symbols query)) currentSchema symbol text).isSome = true
      ↔ Resolves source query symbol := by
  rw [replacement?, Resolves]
  cases afterMark? symbol.toList with
  | some reference =>
      simp only [currentReference?_eq, Option.isSome_bind, Option.any_eq_true,
        inCurrentSchema?_isSome_iff]
  | none =>
      simp only [Option.isSome_map, lookup_offered, entryOf?, List.isSome_findSome?,
        List.any_eq_true, Option.isSome_bind, Option.any_eq_true]

instance (source : Source) (query symbol : String) : Decidable (Resolves source query symbol) :=
  decidable_of_iff _ (replacement?_isSome_iff source query "" symbol "")

/-- The first symbol of a template that does not resolve. -/
def firstUnresolved? (source : Source) (query : String) : Option String :=
  (symbols query).find? fun symbol => ¬ Resolves source query symbol

theorem firstUnresolved?_eq_none_iff {source : Source} {query : String} :
    firstUnresolved? source query = none
      ↔ ∀ symbol ∈ symbols query, Resolves source query symbol := by
  simp [firstUnresolved?]

theorem firstUnresolved?_eq_some_iff {source : Source} {query symbol : String} :
    firstUnresolved? source query = some symbol
      ↔ ∃ before after, symbols query = before ++ symbol :: after
        ∧ (∀ earlier ∈ before, Resolves source query earlier)
        ∧ ¬ Resolves source query symbol := by
  rw [firstUnresolved?, List.find?_eq_some_iff_append]
  constructor
  · rintro ⟨hnot, before, after, hsplit, hbefore⟩
    exact ⟨before, after, hsplit, fun earlier h => by simpa using hbefore earlier h,
      by simpa using hnot⟩
  · rintro ⟨before, after, hsplit, hbefore, hnot⟩
    exact ⟨by simpa using hnot, before, after, hsplit,
      fun earlier h => by simpa using hbefore earlier h⟩

section Modes

variable (query : String) (source : Source) (currentSchema : String)

/-- What a segment is resolved to: in strict mode an unknown symbol is refused. -/
theorem resolveSegment_strict (s : Segment) :
    resolveSegment source (offered source (symbols query)) currentSchema true s
      = (s.symbol.filter fun symbol => ¬ Resolves source query symbol).elim
        (resolveSegment source (offered source (symbols query)) currentSchema false s)
        fun symbol => .error (.unresolvedSymbol symbol) := by
  rw [resolveSegment, resolveSegment]
  cases s.symbol with
  | none => rfl
  | some symbol =>
      have hiff := replacement?_isSome_iff source query currentSchema symbol s.text
      by_cases hresolves : Resolves source query symbol
      · obtain ⟨image, himage⟩ := Option.isSome_iff_exists.mp (hiff.mpr hresolves)
        simp [himage, hresolves, Option.filter_some]
      · have hnone := Option.not_isSome_iff_eq_none.mp (mt hiff.mp hresolves)
        simp [hnone, hresolves, Option.filter_some]

theorem resolveSegment_lenient (entries : Entries) (s : Segment) :
    ∃ text, resolveSegment source entries currentSchema false s = .ok text := by
  rw [resolveSegment]
  cases s.symbol with
  | none => exact ⟨s.text, rfl⟩
  | some symbol =>
      dsimp only
      cases replacement? source entries currentSchema symbol s.text with
      | none => exact ⟨s.text, rfl⟩
      | some image => exact ⟨_, rfl⟩

/-- Strict mode stops at the first segment whose symbol does not resolve. -/
theorem mapM_resolveSegment_strict (parts : List Segment) :
    parts.mapM (resolveSegment source (offered source (symbols query)) currentSchema true)
      = ((parts.filterMap (·.symbol)).find? fun symbol => ¬ Resolves source query symbol).elim
        (parts.mapM (resolveSegment source (offered source (symbols query)) currentSchema false))
        fun symbol => .error (.unresolvedSymbol symbol) := by
  induction parts with
  | nil => rfl
  | cons s parts ih =>
      obtain ⟨text, htext⟩ := resolveSegment_lenient source currentSchema
        (offered source (symbols query)) s
      rw [List.mapM_cons, List.mapM_cons, resolveSegment_strict, ih, htext, List.filterMap_cons]
      cases s.symbol with
      | none => cases (parts.filterMap (·.symbol)).find? _ <;> rfl
      | some symbol =>
          by_cases hresolves : Resolves source query symbol
          · simp only [List.find?_cons, Option.filter_some, hresolves, not_true_eq_false,
              decide_false]
            cases (parts.filterMap (·.symbol)).find? _ <;> rfl
          · simp only [List.find?_cons, Option.filter_some, hresolves, not_false_eq_true,
              decide_true]
            rfl

theorem resolve_strict_eq :
    resolve query source currentSchema true
      = (firstUnresolved? source query).elim (resolve query source currentSchema false)
        fun symbol => .error (.unresolvedSymbol symbol) := by
  have hparts := mapM_resolveSegment_strict query source currentSchema (segments query)
  rw [symbols] at hparts
  simp only [resolve, hparts, firstUnresolved?, symbols]
  cases ((segments query).filterMap (·.symbol)).find? _ <;> rfl

theorem exists_resolve_lenient : ∃ text, resolve query source currentSchema false = .ok text := by
  have hparts := mapM_ok_of_forall fun s (_ : s ∈ segments query) =>
    resolveSegment_lenient source currentSchema (offered source (symbols query)) s
  obtain ⟨texts, htexts⟩ := hparts
  rw [symbols] at htexts
  refine ⟨String.join texts, ?_⟩
  simp only [resolve, htexts]
  rfl

/-- Lenient mode always gives a text. Strict mode gives the same text exactly when every symbol of
the template resolves, and otherwise refuses the first symbol that does not. -/
theorem resolve_strict :
    ∃ text, resolve query source currentSchema false = .ok text
      ∧ (∀ text', resolve query source currentSchema true = .ok text'
        ↔ text' = text ∧ ∀ symbol ∈ symbols query, Resolves source query symbol)
      ∧ ∀ e, resolve query source currentSchema true = .error e
        ↔ ∃ before symbol after, symbols query = before ++ symbol :: after
          ∧ (∀ earlier ∈ before, Resolves source query earlier)
          ∧ ¬ Resolves source query symbol ∧ e = .unresolvedSymbol symbol := by
  obtain ⟨text, htext⟩ := exists_resolve_lenient query source currentSchema
  refine ⟨text, htext, fun text' => ?_, fun e => ?_⟩
  · rw [resolve_strict_eq, htext, ← firstUnresolved?_eq_none_iff]
    cases firstUnresolved? source query with
    | none => simp [eq_comm]
    | some symbol => simp
  · have hfirst : resolve query source currentSchema true = .error e
        ↔ ∃ symbol, firstUnresolved? source query = some symbol ∧ e = .unresolvedSymbol symbol := by
      rw [resolve_strict_eq, htext]
      cases firstUnresolved? source query with
      | none => simp
      | some symbol => simp [eq_comm]
    rw [hfirst]
    simp only [firstUnresolved?_eq_some_iff]
    constructor
    · rintro ⟨symbol, ⟨before, after, hsplit, hbefore, hnot⟩, he⟩
      exact ⟨before, symbol, after, hsplit, hbefore, hnot, he⟩
    · rintro ⟨before, symbol, after, hsplit, hbefore, hnot, he⟩
      exact ⟨symbol, ⟨before, after, hsplit, hbefore, hnot⟩, he⟩

end Modes

end SchemaEvolution.Template
