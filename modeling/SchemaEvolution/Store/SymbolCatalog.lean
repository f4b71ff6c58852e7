import SchemaEvolution.Catalog.Live
import SchemaEvolution.Store.Basic

set_option autoImplicit false

/-! # The catalog of symbols

For each model of a store, the symbols that stand for columns and the columns they stand for. Live
columns of the table that belong to no field are listed with a dash in front.
-/

namespace SchemaEvolution

open Template

/-- The symbols of one model. -/
structure ModelSymbols where
  model : String
  /-- The qualified table name. -/
  table : String
  /-- Symbols and columns, sorted. -/
  symbols : List (String × String)
  deriving DecidableEq, Repr

/-- The symbols as lines of text. -/
def ModelSymbols.render (m : ModelSymbols) : String :=
  let line (symbol column : String) : String := "  " ++ symbol ++ " -> " ++ column ++ "\n"
  "&" ++ m.model ++ " -> " ++ m.table ++ "\n"
    ++ String.join (m.symbols.map fun (symbol, column) => line symbol column)

/-- What follows the last dot of a text. -/
def afterLastDot (text : String) : String :=
  String.ofList ((Text.splitOnChar '.' text.toList).getLastD [])

/-- The column that an entry of a symbol table stands for; JSON names and tables have none. -/
def columnOfEntry? (entry : String × Entry) : Option (String × String) :=
  if entry.1.toList.head? == some ':' && !Text.occursIn ".json." entry.1 then
    some (entry.1, afterLastDot entry.2.text)
  else none

/-- The order of symbols: by symbol, then by column. -/
def symbolLe (a b : String × String) : Bool := a.1 < b.1 || (a.1 == b.1 && a.2 ≤ b.2)

/-- The symbols of a model with a symbol table, over its live columns. -/
def Descriptor.catalog (m : Descriptor) (t : SymbolTable) (namespaceName : String)
    (live : List LiveColumn) : ModelSymbols :=
  let unbacked := live.filter fun c => !(m.storedFields.any (·.column == c.name))
  { model := m.typeName
    table := qualify namespaceName m.table
    symbols := (t.entries.filterMap columnOfEntry?
      ++ unbacked.map fun c => ("-" ++ c.name, c.name)).mergeSort symbolLe }

/-- The symbols of every model of a store that has a symbol table, sorted by type name. `live` holds
the live columns of tables; a table without an entry has none. -/
def Store.symbolCatalog (s : Store) (live : List (String × List LiveColumn)) : List ModelSymbols :=
  let ofModel (m : Descriptor) : Option ModelSymbols :=
    (s.source.table? m.typeName).map fun t =>
      m.catalog t s.namespaceName ((live.lookup m.table).getD [])
  (s.models.filterMap ofModel).mergeSort fun a b => decide (a.model ≤ b.model)

end SchemaEvolution
