import SchemaEvolution.Proofs.Template.Mentions

set_option autoImplicit false

/-! # The symbol table of a model

The entries of a model are set one after the other, so of two entries under one symbol the later one
counts (`get?_ofModel`). The symbol of a model begins with `&` and every other one with `:`. A symbol
`:Field` without a dot is a declared name, and stands for a column whatever the namespace is
(`get?_ofModel_of_isBareField`).
-/

namespace SchemaEvolution.Template

open SymbolTable (fieldEntries ofModel)

/-- The entries of a model in a namespace, in the order in which they are set. -/
def listed (m : Descriptor) (namespaceName : String) : Entries :=
  [("&" ++ m.typeName, ⟨qualify namespaceName m.table, namespaceName⟩),
    (":" ++ m.typeName ++ ".*", ⟨qualify namespaceName m.table ++ ".*", namespaceName⟩)]
    ++ m.storedFields.flatMap (fieldEntries m.typeName (qualify namespaceName m.table))

theorem lookup_set (es : Entries) (key symbol : String) (e : Entry) :
    (es.set key e).lookup symbol = if symbol = key then some e else es.lookup symbol := by
  induction es with
  | nil => rw [Entries.set, lookup_cons_ite]
  | cons entry es ih =>
      obtain ⟨key', old⟩ := entry
      rw [Entries.set]
      split_ifs with hkey hsymbol hsymbol
      · rw [lookup_cons_ite, if_pos hsymbol]
      · rw [lookup_cons_ite, lookup_cons_ite, hkey, if_neg hsymbol, if_neg hsymbol]
      · rw [lookup_cons_ite, ih, if_pos hsymbol, if_neg fun heq => hkey (heq.symm.trans hsymbol)]
      · rw [lookup_cons_ite, lookup_cons_ite, ih, if_neg hsymbol]

theorem lookup_foldl_set (pairs es : Entries) (symbol : String) :
    (pairs.foldl (fun es (key, e) => es.set key e) es).lookup symbol
      = (pairs.reverse.lookup symbol).or (es.lookup symbol) := by
  induction pairs generalizing es with
  | nil => rfl
  | cons entry pairs ih =>
      obtain ⟨key, e⟩ := entry
      rw [List.foldl_cons, ih, lookup_set, List.reverse_cons, List.lookup_append, Option.or_assoc,
        lookup_cons_ite]
      split_ifs <;> rfl

/-- Of two entries under one symbol, the later one counts. -/
theorem get?_ofModel (m : Descriptor) (namespaceName symbol : String) :
    (ofModel m namespaceName).get? symbol = (listed m namespaceName).reverse.lookup symbol := by
  have hset := lookup_foldl_set (listed m namespaceName) [] symbol
  rw [List.lookup_nil, Option.or_none] at hset
  exact hset

/-- The last field with an entry for a symbol gives it its entry. -/
theorem get?_ofModel_of_last {m : Descriptor} {namespaceName symbol : String} {e : Entry}
    {before after : List Field} {f : Field} (hsplit : m.storedFields = before ++ f :: after)
    (hfield : (fieldEntries m.typeName (qualify namespaceName m.table) f).reverse.lookup symbol
      = some e)
    (hafter : ∀ g ∈ after, ∀ entry ∈ fieldEntries m.typeName (qualify namespaceName m.table) g,
      symbol ≠ entry.1) :
    (ofModel m namespaceName).get? symbol = some e := by
  -- no entry that is set after those of the field replaces them
  have hnone : (after.flatMap
      (fieldEntries m.typeName (qualify namespaceName m.table))).reverse.lookup symbol = none := by
    rw [List.lookup_eq_none_iff]
    intro entry hentry
    rw [List.mem_reverse, List.mem_flatMap] at hentry
    obtain ⟨g, hg, hentry⟩ := hentry
    simpa using hafter g hg entry hentry
  rw [get?_ofModel, listed, hsplit, List.flatMap_append, List.flatMap_cons, List.reverse_append,
    List.reverse_append, List.reverse_append, List.lookup_append, List.lookup_append,
    List.lookup_append, hnone, hfield]
  rfl

/-! ## The symbols of a table -/

theorem head?_of_mem_fieldEntries {model table : String} {f : Field} {entry : String × Entry}
    (h : entry ∈ fieldEntries model table f) : entry.1.toList.head? = some ':' := by
  simp only [fieldEntries, List.mem_cons, List.not_mem_nil, or_false] at h
  rcases h with rfl | rfl | rfl <;> simp

/-- The symbol of the model is the only one that does not begin with a colon. -/
theorem key_of_mem_listed {m : Descriptor} {namespaceName : String} {entry : String × Entry}
    (h : entry ∈ listed m namespaceName) :
    entry.1 = "&" ++ m.typeName ∨ entry.1.toList.head? = some ':' := by
  rw [listed, List.mem_append] at h
  rcases h with h | h
  · rw [List.mem_cons, List.mem_singleton] at h
    rcases h with rfl | rfl
    · exact .inl rfl
    · exact .inr (by simp)
  · obtain ⟨f, -, hentry⟩ := List.mem_flatMap.mp h
    exact .inr (head?_of_mem_fieldEntries hentry)

/-- The symbol of the model stands for its table. -/
theorem get?_ofModel_of_typeName (m : Descriptor) (namespaceName : String) :
    (ofModel m namespaceName).get? ("&" ++ m.typeName)
      = some ⟨qualify namespaceName m.table, namespaceName⟩ := by
  have hcolon : ∀ key : String, key.toList.head? = some ':' → "&" ++ m.typeName ≠ key := by
    rintro _ hhead rfl
    simp at hhead
  have hall := hcolon (":" ++ m.typeName ++ ".*") (by simp)
  have hfields : (m.storedFields.flatMap
      (fieldEntries m.typeName (qualify namespaceName m.table))).reverse.lookup
        ("&" ++ m.typeName) = none := by
    rw [List.lookup_eq_none_iff]
    intro entry hentry
    obtain ⟨f, -, hentry⟩ := List.mem_flatMap.mp (List.mem_reverse.mp hentry)
    rw [bne_iff_ne]
    exact hcolon entry.1 (head?_of_mem_fieldEntries hentry)
  rw [get?_ofModel, listed, List.reverse_append, List.lookup_append, hfields, Option.none_or]
  simp only [List.reverse_cons, List.reverse_nil, List.nil_append, List.cons_append,
    lookup_cons_ite, if_neg hall, if_true]

/-- Every symbol table of the source is that of a model, and stands under its type name. -/
def Source.OfModels (source : Source) : Prop :=
  ∀ name t, source.table? name = some t → ∃ m ns, t = ofModel m ns ∧ m.typeName = name

theorem Source.OfModels.keyed {source : Source} (h : source.OfModels) : source.Keyed := by
  intro name t ht
  obtain ⟨m, ns, rfl, hname⟩ := h name t ht
  exact hname

/-- No mentioned model offers a symbol that begins with the mark of the current schema. -/
theorem entryOf?_of_mark {source : Source} (h : source.OfModels) {symbol : String}
    (hmark : currentSchemaMark <+: symbol.toList) (names : List String) :
    entryOf? source names symbol = none := by
  rw [entryOf?, List.findSome?_eq_none_iff]
  intro name _
  rw [Option.bind_eq_none_iff]
  intro t ht
  have hmodel := afterMark?_of_typeName h.keyed ht
  obtain ⟨named, -, htable⟩ := Option.bind_eq_some_iff.mp ht
  obtain ⟨m, ns, rfl, -⟩ := h _ t htable
  rw [get?_ofModel, List.lookup_eq_none_iff]
  intro entry hentry
  rw [bne_iff_ne]
  rintro rfl
  rcases key_of_mem_listed (List.mem_reverse.mp hentry) with hkey | hkey
  · rw [hkey] at hmark
    exact afterMark?_eq_none_iff.mp hmodel hmark
  · refine afterMark?_eq_none_iff.mp (afterMark?_of_head? ?_) hmark
    rw [hkey]
    decide

/-! ## Fields on their own -/

/-- A symbol of a field on its own: `:Field`, without a dot. -/
def IsBareField (symbol : String) : Prop := ∃ name, symbol.toList = ':' :: name ∧ '.' ∉ name

theorem IsBareField.dot_not_mem {symbol : String} (h : IsBareField symbol) :
    '.' ∉ symbol.toList := by
  obtain ⟨name, hsymbol, hdot⟩ := h
  rw [hsymbol, List.mem_cons, not_or]
  exact ⟨by decide, hdot⟩

theorem lookup_fieldEntries_of_isBareField {symbol : String} (h : IsBareField symbol)
    (model table : String) (f : Field) :
    (fieldEntries model table f).reverse.lookup symbol
      = if symbol = ":" ++ f.name then some ⟨f.column, ""⟩ else none := by
  have hdot := h.dot_not_mem
  have hfield : symbol ≠ ":" ++ model ++ "." ++ f.name := by
    rintro rfl
    exact hdot (by simp)
  have hjson : symbol ≠ ":" ++ model ++ ".json." ++ f.name := by
    rintro rfl
    exact hdot (by simp)
  simp only [fieldEntries, List.reverse_cons, List.reverse_nil, List.nil_append, List.cons_append,
    lookup_cons_ite, List.lookup_nil, if_neg hfield, if_neg hjson]

/-- A field on its own stands for the column of the last stored field of that name. -/
theorem get?_ofModel_of_isBareField {symbol : String} (h : IsBareField symbol) (m : Descriptor)
    (namespaceName : String) :
    (ofModel m namespaceName).get? symbol
      = (m.storedFields.reverse.find? fun f => symbol = ":" ++ f.name).map
        fun f => ⟨f.column, ""⟩ := by
  have hmodel : symbol ≠ "&" ++ m.typeName := by
    obtain ⟨name, hsymbol, -⟩ := h
    rintro rfl
    simp at hsymbol
  have hall : symbol ≠ ":" ++ m.typeName ++ ".*" := by
    rintro rfl
    exact h.dot_not_mem (by simp)
  have hfields : ∀ fs : List Field,
      (fs.flatMap (fieldEntries m.typeName (qualify namespaceName m.table))).reverse.lookup symbol
        = (fs.reverse.find? fun f => symbol = ":" ++ f.name).map fun f => ⟨f.column, ""⟩ := by
    intro fs
    induction fs with
    | nil => rfl
    | cons f fs ih =>
        rw [List.flatMap_cons, List.reverse_append, List.lookup_append, ih, List.reverse_cons,
          List.find?_append, Option.map_or, lookup_fieldEntries_of_isBareField h]
        by_cases hname : symbol = ":" ++ f.name <;> simp [hname]
  rw [get?_ofModel, listed, List.reverse_append, List.lookup_append, hfields]
  simp only [List.reverse_cons, List.reverse_nil, List.nil_append, List.cons_append,
    lookup_cons_ite, List.lookup_nil, if_neg hmodel, if_neg hall, Option.or_none]

/-! ## The entries of a field -/

section Entries

variable {m : Descriptor} {before after : List Field} {f : Field}
  (hsplit : m.storedFields = before ++ f :: after) (hdistinct : ∀ g ∈ after, g.name ≠ f.name)

include hsplit hdistinct

theorem get?_ofModel_of_field (hdot : '.' ∉ f.name.toList) (namespaceName : String) :
    (ofModel m namespaceName).get? (":" ++ f.name) = some ⟨f.column, ""⟩ := by
  have hbare : IsBareField (":" ++ f.name) := ⟨f.name.toList, by simp, hdot⟩
  refine get?_ofModel_of_last hsplit ?_ fun g hg entry hentry heq => ?_
  · rw [lookup_fieldEntries_of_isBareField hbare, if_pos rfl]
  · simp only [fieldEntries, List.mem_cons, List.not_mem_nil, or_false] at hentry
    rcases hentry with rfl | rfl | rfl
    · exact hdistinct g hg (by simpa using heq.symm)
    · exact hbare.dot_not_mem (by rw [heq]; simp)
    · exact hbare.dot_not_mem (by rw [heq]; simp)

theorem get?_ofModel_of_dotted (hdot : '.' ∉ f.name.toList)
    (hfree : ∀ g ∈ after, g.name ≠ m.typeName ++ "." ++ f.name) (namespaceName : String) :
    (ofModel m namespaceName).get? (":" ++ m.typeName ++ "." ++ f.name)
      = some ⟨qualify namespaceName m.table ++ "." ++ f.column, ""⟩ := by
  have hjson : ∀ g : Field,
      ":" ++ m.typeName ++ "." ++ f.name ≠ ":" ++ m.typeName ++ ".json." ++ g.name := by
    intro g heq
    rw [← String.toList_inj] at heq
    simp at heq
    simp [heq] at hdot
  refine get?_ofModel_of_last hsplit ?_ fun g hg entry hentry heq => ?_
  · simp only [fieldEntries, List.reverse_cons, List.reverse_nil, List.nil_append,
      List.cons_append, lookup_cons_ite, if_neg (hjson f), if_true]
  · simp only [fieldEntries, List.mem_cons, List.not_mem_nil, or_false] at hentry
    rcases hentry with rfl | rfl | rfl
    · rw [String.append_assoc, String.append_assoc, String.append_right_inj] at heq
      exact hfree g hg (by rw [← heq, String.append_assoc])
    · exact hdistinct g hg (by simpa using heq.symm)
    · exact hjson g heq

theorem get?_ofModel_of_json
    (hfree : ∀ g ∈ after, g.name ≠ "json." ++ f.name ∧ g.name ≠ m.typeName ++ ".json." ++ f.name)
    (namespaceName : String) :
    (ofModel m namespaceName).get? (":" ++ m.typeName ++ ".json." ++ f.name)
      = some ⟨"'" ++ f.jsonName ++ "'", ""⟩ := by
  refine get?_ofModel_of_last hsplit ?_ fun g hg entry hentry heq => ?_
  · simp only [fieldEntries, List.reverse_cons, List.reverse_nil, List.nil_append,
      List.cons_append, List.lookup_cons_self]
  · simp only [fieldEntries, List.mem_cons, List.not_mem_nil, or_false] at hentry
    rcases hentry with rfl | rfl | rfl
    · rw [String.append_assoc, String.append_assoc, String.append_right_inj] at heq
      exact (hfree g hg).2 (by rw [← heq, String.append_assoc])
    · refine (hfree g hg).1 ?_
      rw [← String.toList_inj] at heq ⊢
      simpa using heq.symm
    · exact hdistinct g hg (by simpa using heq.symm)

end Entries

end SchemaEvolution.Template
