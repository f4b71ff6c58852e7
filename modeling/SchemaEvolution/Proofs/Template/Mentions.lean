import SchemaEvolution.Template.Resolve
import SchemaEvolution.Proofs.Lists
import Mathlib.Data.List.TakeWhile

set_option autoImplicit false

/-! # What a template mentions

The symbols of a template name models, and resolving looks at the symbol tables of these models
only. A symbol has the entry of the first mentioned table that has one (`lookup_offered`). So two
sources resolve a template alike as soon as they agree, at each model that it names, on the symbols
that are looked up (`resolve_congr`). When every table stands under its own type name, a reference
in the current schema looks at no other model than the one it mentions
(`currentReference?_of_keyed`).
-/

namespace SchemaEvolution.Template

/-! ## The form of a symbol -/

/-- What follows the mark of the current schema is what stands behind it. -/
theorem afterMark?_eq_some_iff {symbol reference : List Char} :
    afterMark? symbol = some reference ↔ symbol = currentSchemaMark ++ reference := by
  rw [afterMark?]
  constructor
  · intro h
    split_ifs at h with hmark
    obtain ⟨rest, rfl⟩ := List.isPrefixOf_iff_prefix.mp hmark
    rw [List.drop_left, Option.some.injEq] at h
    rw [h]
  · rintro rfl
    rw [if_pos (List.isPrefixOf_iff_prefix.mpr (List.prefix_append _ _)), List.drop_left]

theorem afterMark?_eq_none_iff {symbol : List Char} :
    afterMark? symbol = none ↔ ¬ currentSchemaMark <+: symbol := by
  rw [afterMark?, ← List.isPrefixOf_iff_prefix]
  split_ifs with hmark <;> simp [hmark]

/-- The mark of the current schema begins with `&`. -/
theorem afterMark?_of_head? {symbol : List Char} (h : symbol.head? ≠ some '&') :
    afterMark? symbol = none := by
  have hhead : currentSchemaMark.head? = some '&' := by decide
  rw [afterMark?_eq_none_iff]
  rintro ⟨rest, rfl⟩
  exact h (by rw [List.head?_append, hhead, Option.some_or])

/-- The mark of the current schema holds a dot. -/
theorem afterMark?_of_dot_not_mem {symbol : List Char} (h : '.' ∉ symbol) :
    afterMark? symbol = none := by
  rw [afterMark?_eq_none_iff]
  rintro ⟨rest, rfl⟩
  exact h (List.mem_append_left rest (by decide))

theorem afterMark?_of_colon (name : List Char) : afterMark? (':' :: name) = none :=
  afterMark?_of_head? (by simp)

theorem takeWhile_of_dot_not_mem {model : List Char} (h : '.' ∉ model) (rest : List Char) :
    (model ++ rest).takeWhile (· != '.') = model ++ rest.takeWhile (· != '.') := by
  refine List.takeWhile_append_of_pos fun c hc => ?_
  rw [bne_iff_ne]
  rintro rfl
  exact h hc

theorem modelOf?_of_typeName {model : List Char} (h : '.' ∉ model) :
    modelOf? ('&' :: model) = some model := by
  have hplain : afterMark? ('&' :: model) = none :=
    afterMark?_of_dot_not_mem fun hmem => h (by simpa using hmem)
  have hall := takeWhile_of_dot_not_mem h []
  rw [List.takeWhile_nil, List.append_nil] at hall
  rw [modelOf?, hplain]
  simp only [Option.getD_none, hall]

theorem modelOf?_of_bare {name : List Char} (h : '.' ∉ name) : modelOf? (':' :: name) = none := by
  have hcontains : name.contains '.' = false := by simpa using h
  rw [modelOf?, afterMark?_of_colon, Option.getD_none]
  exact if_neg (by rw [hcontains]; exact Bool.false_ne_true)

theorem modelOf?_of_dotted {model : List Char} (h : '.' ∉ model) (rest : List Char) :
    modelOf? (':' :: (model ++ '.' :: rest)) = some model := by
  have hcut := takeWhile_of_dot_not_mem h ('.' :: rest)
  rw [List.takeWhile_cons_of_neg (by decide), List.append_nil] at hcut
  have hcontains : (model ++ '.' :: rest).contains '.' = true := by simp
  rw [modelOf?, afterMark?_of_colon, Option.getD_none]
  exact (if_pos hcontains).trans (congrArg some hcut)

/-- The name of a model in a symbol ends before the first dot. -/
theorem dot_not_mem_of_modelOf? {symbol name : List Char} (h : modelOf? symbol = some name) :
    '.' ∉ name := by
  have hcut : ∀ cs : List Char, '.' ∉ cs.takeWhile (· != '.') := by
    intro cs hmem
    simpa using List.mem_takeWhile_imp hmem
  rw [modelOf?] at h
  split at h
  · cases h
    exact hcut _
  · split_ifs at h
    cases h
    exact hcut _
  · cases h

/-! ## The entry of a symbol -/

/-- The entry of a symbol in the first table that has one, among those that `names` mention. -/
def entryOf? (source : Source) (names : List String) (symbol : String) : Option Entry :=
  names.findSome? fun name => (mentioned? source name).bind (·.get? symbol)

theorem lookup_addMissing (es new : Entries) (symbol : String) :
    (es.addMissing new).lookup symbol = (es.lookup symbol).or (new.lookup symbol) := by
  induction new generalizing es with
  | nil => simp [Entries.addMissing]
  | cons entry new ih =>
      obtain ⟨key, e⟩ := entry
      have hstep : es.addMissing ((key, e) :: new)
          = (if (es.lookup key).isSome then es else es ++ [(key, e)]).addMissing new := rfl
      rw [hstep, ih, lookup_cons_ite]
      split_ifs with hknown hsymbol hsymbol
      · subst hsymbol
        obtain ⟨old, hold⟩ := Option.isSome_iff_exists.mp hknown
        rw [hold, Option.some_or, Option.some_or]
      · rfl
      · subst hsymbol
        rw [List.lookup_append, List.lookup_cons_self, Option.or_assoc, Option.some_or]
      · rw [List.lookup_append, lookup_cons_ite, if_neg hsymbol, List.lookup_nil, Option.or_none]

theorem lookup_foldl_addMissing (tables : List SymbolTable) (es : Entries) (symbol : String) :
    (tables.foldl (fun es t => es.addMissing t.entries) es).lookup symbol
      = (es.lookup symbol).or (tables.findSome? (·.get? symbol)) := by
  induction tables generalizing es with
  | nil => simp
  | cons t tables ih =>
      rw [List.foldl_cons, ih, lookup_addMissing, Option.or_assoc, List.findSome?_cons,
        SymbolTable.get?]
      cases t.entries.lookup symbol <;> rfl

/-- A symbol has the entry of the first mentioned table that has one. -/
theorem lookup_offered (source : Source) (names : List String) (symbol : String) :
    (offered source names).lookup symbol = entryOf? source names symbol := by
  rw [offered, lookup_foldl_addMissing, List.lookup_nil, Option.none_or, entryOf?]
  induction names with
  | nil => rfl
  | cons name names ih =>
      rw [List.filterMap_cons, List.findSome?_cons]
      cases mentioned? source name with
      | none => exact ih
      | some t => rw [List.findSome?_cons, ih, Option.bind_some]

/-- The first mentioned table that has an entry, when the second symbol mentions the table of the
first one or the first one mentions none. -/
theorem entryOf?_pair {source : Source} {first second symbol : String} {t : SymbolTable}
    {e : Entry} (hfirst : mentioned? source first = none ∨ mentioned? source first = some t)
    (hsecond : mentioned? source second = some t) (he : t.get? symbol = some e) :
    entryOf? source [first, second] symbol = some e := by
  rcases hfirst with hfirst | hfirst <;> simp [entryOf?, hfirst, hsecond, he]

/-! ## Sources that agree -/

/-- Two symbol tables of one type name and one table, with the same entries for some symbols. -/
structure SymbolTable.Agree (wanted : List String) (t t' : SymbolTable) : Prop where
  typeName_eq : t.typeName = t'.typeName
  table_eq : t.table = t'.table
  get?_eq : ∀ symbol ∈ wanted, t.get? symbol = t'.get? symbol

/-- The order of the entries of a symbol table makes no difference. -/
theorem SymbolTable.agree_of_perm {t t' : SymbolTable} (hname : t.typeName = t'.typeName)
    (htable : t.table = t'.table) (hperm : t.entries.Perm t'.entries)
    (hnodup : (t.entries.map (·.1)).Nodup) (wanted : List String) : t.Agree wanted t' :=
  ⟨hname, htable, fun symbol _ => lookup_perm hperm hnodup symbol⟩

theorem Source.mem_of_table? {source : Source} {name : String} {t : SymbolTable}
    (h : source.table? name = some t) : (name, t) ∈ source :=
  List.mem_reverse.mp (mem_of_lookup h)

/-- Two sources that both lack the table of a model, or have tables of it that agree. -/
def Source.AgreeAt (wanted : List String) (source source' : Source) (name : String) : Prop :=
  Option.Rel (SymbolTable.Agree wanted) (source.table? name) (source'.table? name)

theorem Source.agreeAt_of_eq {source source' : Source} {name : String}
    (h : source.table? name = source'.table? name) (wanted : List String) :
    source.AgreeAt wanted source' name := by
  rw [Source.AgreeAt, h]
  cases source'.table? name with
  | none => exact .none
  | some t => exact .some ⟨rfl, rfl, fun _ _ => rfl⟩

/-- The symbols of a template that are looked up among the entries of the mentioned models: all but
the references in the current schema. -/
def lookedUp (query : String) : List String :=
  (symbols query).filter fun symbol => (afterMark? symbol.toList).isNone

theorem mem_lookedUp {query symbol : String} :
    symbol ∈ lookedUp query ↔ symbol ∈ symbols query ∧ afterMark? symbol.toList = none := by
  rw [lookedUp, List.mem_filter, Option.isNone_iff_eq_none]

/-- The models that a symbol names: the one it names as it stands and, for a reference in the
current schema, the one named behind the mark. These are one model unless the mark is repeated. -/
def namedModels (symbol : String) : List String :=
  ((modelOf? symbol.toList).toList
    ++ ((afterMark? symbol.toList).bind modelOf?).toList).map String.ofList

theorem mentioned?_rel {source source' : Source} {wanted : List String} {symbol : String}
    (h : ∀ name, modelOf? symbol.toList = some name →
      source.AgreeAt wanted source' (String.ofList name)) :
    Option.Rel (SymbolTable.Agree wanted) (mentioned? source symbol)
      (mentioned? source' symbol) := by
  rw [mentioned?, mentioned?]
  cases hname : modelOf? symbol.toList with
  | none => exact .none
  | some name => exact h name hname

/-- Mentioned tables that agree on a symbol give it the same entry. -/
theorem entryOf?_congr {source source' : Source} {wanted names : List String}
    (h : ∀ name ∈ names, Option.Rel (SymbolTable.Agree wanted) (mentioned? source name)
      (mentioned? source' name)) {symbol : String} (hsymbol : symbol ∈ wanted) :
    entryOf? source names symbol = entryOf? source' names symbol := by
  induction names with
  | nil => rfl
  | cons name names ih =>
      have hfirst : (mentioned? source name).bind (·.get? symbol)
          = (mentioned? source' name).bind (·.get? symbol) := by
        have hrel := h name List.mem_cons_self
        generalize mentioned? source name = t?, mentioned? source' name = t'? at hrel ⊢
        cases hrel with
        | none => rfl
        | some hagree => exact hagree.get?_eq symbol hsymbol
      have hrest := ih fun other hother => h other (List.mem_cons_of_mem name hother)
      rw [entryOf?, entryOf?, List.findSome?_cons, List.findSome?_cons, hfirst]
      cases (mentioned? source' name).bind (·.get? symbol) with
      | none => exact hrest
      | some e => rfl

/-- What a reference in the current schema stands for when it names the model of a table. -/
def inCurrentSchema? (currentSchema : String) (reference : List Char) (t : SymbolTable) :
    Option String :=
  if ("&" ++ t.typeName).toList = reference then some (qualify currentSchema t.table) else none

theorem currentReference?_eq (source : Source) (currentSchema : String) (reference : List Char) :
    currentReference? source currentSchema reference
      = (mentioned? source (String.ofList reference)).bind
        (inCurrentSchema? currentSchema reference) := by
  rw [currentReference?]
  cases mentioned? source (String.ofList reference) <;> rfl

theorem inCurrentSchema?_congr {wanted : List String} {t? t'? : Option SymbolTable}
    (h : Option.Rel (SymbolTable.Agree wanted) t? t'?) (currentSchema : String)
    (reference : List Char) :
    t?.bind (inCurrentSchema? currentSchema reference)
      = t'?.bind (inCurrentSchema? currentSchema reference) := by
  cases h with
  | none => rfl
  | some hagree =>
      simp only [Option.bind_some, inCurrentSchema?, hagree.typeName_eq, hagree.table_eq]

/-! ## Resolving with sources that agree -/

section Congruence

variable {query : String} {source source' : Source} {currentSchema currentSchema' : String}

/-- Resolving looks at what stands for each symbol of the template, and at nothing else. -/
theorem resolve_eq_of_replacement
    (h : ∀ symbol ∈ symbols query, ∀ text,
      replacement? source (offered source (symbols query)) currentSchema symbol text
        = replacement? source' (offered source' (symbols query)) currentSchema' symbol text)
    (strict : Bool) :
    resolve query source currentSchema strict = resolve query source' currentSchema' strict := by
  have hsegment : ∀ s ∈ segments query,
      resolveSegment source (offered source (symbols query)) currentSchema strict s
        = resolveSegment source' (offered source' (symbols query)) currentSchema' strict s := by
    intro s hs
    rw [resolveSegment, resolveSegment]
    cases hsymbol : s.symbol with
    | none => rfl
    | some symbol =>
        have hmem : symbol ∈ symbols query := List.mem_filterMap.mpr ⟨s, hs, hsymbol⟩
        simp only [h symbol hmem]
  have hparts := mapM_congr hsegment
  rw [symbols] at hparts
  simp only [resolve, hparts]

theorem replacement?_congr {symbol : String} (hsymbol : symbol ∈ symbols query)
    (hmentioned : ∀ name ∈ symbols query, Option.Rel (SymbolTable.Agree (lookedUp query))
      (mentioned? source name) (mentioned? source' name))
    (hreference : ∀ reference, afterMark? symbol.toList = some reference →
      currentReference? source currentSchema reference
        = currentReference? source' currentSchema reference) (text : String) :
    replacement? source (offered source (symbols query)) currentSchema symbol text
      = replacement? source' (offered source' (symbols query)) currentSchema symbol text := by
  rw [replacement?, replacement?]
  cases hmark : afterMark? symbol.toList with
  | some reference => exact hreference reference hmark
  | none =>
      rw [lookup_offered, lookup_offered,
        entryOf?_congr hmentioned (mem_lookedUp.mpr ⟨hsymbol, hmark⟩)]

/-- Sources that agree at the models that a template names resolve it alike. -/
theorem resolve_congr
    (h : ∀ symbol ∈ symbols query, ∀ name ∈ namedModels symbol,
      source.AgreeAt (lookedUp query) source' name) (currentSchema : String) (strict : Bool) :
    resolve query source currentSchema strict = resolve query source' currentSchema strict := by
  have hmentioned : ∀ symbol ∈ symbols query, Option.Rel (SymbolTable.Agree (lookedUp query))
      (mentioned? source symbol) (mentioned? source' symbol) := by
    intro symbol hsymbol
    refine mentioned?_rel fun name hname => h symbol hsymbol _ ?_
    simp [namedModels, hname]
  refine resolve_eq_of_replacement (fun symbol hsymbol text => ?_) strict
  refine replacement?_congr hsymbol hmentioned (fun reference hmark => ?_) text
  rw [currentReference?_eq, currentReference?_eq]
  have hbehind : Option.Rel (SymbolTable.Agree (lookedUp query))
      (mentioned? source (String.ofList reference))
      (mentioned? source' (String.ofList reference)) := by
    refine mentioned?_rel fun name hname => h symbol hsymbol _ ?_
    rw [String.toList_ofList] at hname
    simp [namedModels, hmark, hname]
  exact inCurrentSchema?_congr hbehind currentSchema reference

end Congruence

/-! ## Tables under their own names -/

/-- Every symbol table stands under its own type name. -/
def Source.Keyed (source : Source) : Prop :=
  ∀ name t, source.table? name = some t → t.typeName = name

section Keyed

variable {source : Source} (hkeyed : source.Keyed)

include hkeyed

theorem dot_not_mem_typeName {symbol : String} {t : SymbolTable}
    (h : mentioned? source symbol = some t) : '.' ∉ t.typeName.toList := by
  obtain ⟨name, hname, htable⟩ := Option.bind_eq_some_iff.mp h
  rw [hkeyed _ t htable, String.toList_ofList]
  exact dot_not_mem_of_modelOf? hname

/-- Behind the mark of the current schema, a mentioned model is named by what is not a mark again. -/
theorem afterMark?_of_typeName {symbol : String} {t : SymbolTable}
    (h : mentioned? source symbol = some t) : afterMark? ("&" ++ t.typeName).toList = none := by
  refine afterMark?_of_dot_not_mem fun hdot => ?_
  rw [String.toList_append, List.mem_append] at hdot
  rcases hdot with hdot | hdot
  · exact absurd hdot (by decide)
  · exact dot_not_mem_typeName hkeyed h hdot

/-- A reference in the current schema stands for the table of the model that it mentions. -/
theorem currentReference?_of_keyed {symbol : String} {reference : List Char}
    (hmark : afterMark? symbol.toList = some reference) (currentSchema : String) :
    currentReference? source currentSchema reference
      = (mentioned? source symbol).bind (inCurrentSchema? currentSchema reference) := by
  rw [currentReference?_eq]
  cases hagain : afterMark? reference with
  | none =>
      -- what stands behind the mark names the same model
      have hmentioned : mentioned? source (String.ofList reference) = mentioned? source symbol := by
        rw [mentioned?, mentioned?, modelOf?, modelOf?, String.toList_ofList, hagain, hmark]
        rfl
      rw [hmentioned]
  | some rest =>
      -- the mark is repeated, and no mentioned table has such a type name
      have hnone : ∀ symbol : String,
          (mentioned? source symbol).bind (inCurrentSchema? currentSchema reference) = none := by
        intro symbol
        rw [Option.bind_eq_none_iff]
        intro t ht
        refine if_neg fun heq => ?_
        rw [← heq, afterMark?_of_typeName hkeyed ht] at hagain
        cases hagain
      rw [hnone, hnone]

end Keyed

/-- Sources whose tables stand under their own type names resolve a template alike when they agree
on what each of its symbols mentions. -/
theorem resolve_congr_of_keyed {query : String} {source source' : Source}
    (hkeyed : source.Keyed) (hkeyed' : source'.Keyed)
    (h : ∀ symbol ∈ symbols query, Option.Rel (SymbolTable.Agree (lookedUp query))
      (mentioned? source symbol) (mentioned? source' symbol))
    (currentSchema : String) (strict : Bool) :
    resolve query source currentSchema strict = resolve query source' currentSchema strict := by
  refine resolve_eq_of_replacement (fun symbol hsymbol text => ?_) strict
  refine replacement?_congr hsymbol h (fun reference hmark => ?_) text
  rw [currentReference?_of_keyed hkeyed hmark, currentReference?_of_keyed hkeyed' hmark]
  exact inCurrentSchema?_congr (h symbol hsymbol) currentSchema reference

end SchemaEvolution.Template
