import SchemaEvolution.Model.Descriptor

set_option autoImplicit false

/-! # Symbols of a model

The symbols by which a query template refers to a model and its fields, with the text each stands
for. In the namespace `ns`, a model `M` with table `t` and a stored field `F` in column `c` offers

    &M         ns.t        the table
    :M.*       ns.t.*      every column
    :F         c           the column
    :M.F       ns.t.c      the column with its table
    :M.json.F  'f'         the JSON name of the field as a text literal

An empty namespace leaves the table unqualified. When two symbols of one model are spelled alike,
the later one counts.
-/

namespace SchemaEvolution.Template

/-- What a symbol stands for. -/
structure Entry where
  /-- The text that replaces the symbol. -/
  text : String
  /-- The namespace that the text is qualified with; empty when it is not a table reference. -/
  namespaceName : String
  deriving DecidableEq, Repr

/-- The name of a table in a namespace. -/
def qualify (namespaceName table : String) : String :=
  if namespaceName.isEmpty then table else namespaceName ++ "." ++ table

/-- Entries by symbol, each symbol once. -/
abbrev Entries := List (String × Entry)

/-- Sets the entry of a symbol. -/
def Entries.set (es : Entries) (symbol : String) (e : Entry) : Entries :=
  match es with
  | [] => [(symbol, e)]
  | (s, old) :: rest =>
    if s = symbol then (symbol, e) :: rest else (s, old) :: Entries.set rest symbol e

/-- Adds the entries of symbols that have none yet. -/
def Entries.addMissing (es new : Entries) : Entries :=
  new.foldl (fun es (symbol, e) => if (es.lookup symbol).isSome then es else es ++ [(symbol, e)]) es

/-- The symbols of one model, bound to one namespace. -/
structure SymbolTable where
  typeName : String
  /-- The unqualified table name. -/
  table : String
  entries : Entries
  deriving DecidableEq, Repr

namespace SymbolTable

/-- The entries of a field. -/
def fieldEntries (model table : String) (f : Field) : Entries :=
  [(":" ++ f.name, ⟨f.column, ""⟩),
    (":" ++ model ++ "." ++ f.name, ⟨table ++ "." ++ f.column, ""⟩),
    (":" ++ model ++ ".json." ++ f.name, ⟨"'" ++ f.jsonName ++ "'", ""⟩)]

/-- The symbols of a model in a namespace. -/
def ofModel (m : Descriptor) (namespaceName : String) : SymbolTable :=
  let table := qualify namespaceName m.table
  let offered : Entries :=
    [("&" ++ m.typeName, ⟨table, namespaceName⟩),
      (":" ++ m.typeName ++ ".*", ⟨table ++ ".*", namespaceName⟩)]
      ++ m.storedFields.flatMap (fieldEntries m.typeName table)
  { typeName := m.typeName
    table := m.table
    entries := offered.foldl (fun es (symbol, e) => es.set symbol e) [] }

/-- The entry of a symbol. -/
def get? (t : SymbolTable) (symbol : String) : Option Entry := t.entries.lookup symbol

end SymbolTable

/-- The symbol tables that templates are resolved with, by the type name that symbols use. -/
abbrev Source := List (String × SymbolTable)

/-- The symbol table of a model name; of two tables under one name the later one counts. -/
def Source.table? (s : Source) (model : String) : Option SymbolTable := s.reverse.lookup model

end SchemaEvolution.Template
