import SchemaEvolution.Template.Segment
import SchemaEvolution.Template.SymbolTable
import SchemaEvolution.Text.Search

set_option autoImplicit false

/-! # Resolving query templates

`resolve` replaces the symbols of a template by what they stand for. The symbols themselves say
which models a template is about: `&Model`, `:Model.…` and `&CURRSCHEMA.&Model` mention `Model`. A
symbol has the entry of the first mentioned model, in order of mention, that offers it; the mention
may come after the symbol.

The current schema is the namespace of the caller. It qualifies `&CURRSCHEMA.&Model`, and it
qualifies a bare `&Model` whose table has no namespace of its own, unless an alias stands directly
before the symbol or the text is qualified with that schema already.

A symbol that stands for nothing is left as written, or refused in strict mode.
-/

namespace SchemaEvolution.Template

/-- The mark of a reference in the current schema. -/
def currentSchemaMark : List Char := "&CURRSCHEMA.".toList

/-- What follows the mark of the current schema. -/
def afterMark? (symbol : List Char) : Option (List Char) :=
  if currentSchemaMark.isPrefixOf symbol then some (symbol.drop currentSchemaMark.length) else none

/-- The model a symbol names; a bare `:Field` names none. -/
def modelOf? (symbol : List Char) : Option (List Char) :=
  match (afterMark? symbol).getD symbol with
  | '&' :: name => some (name.takeWhile (· != '.'))
  | ':' :: name => if name.contains '.' then some (name.takeWhile (· != '.')) else none
  | _ => none

/-- The symbol table of the model a symbol names. -/
def mentioned? (source : Source) (symbol : String) : Option SymbolTable :=
  (modelOf? symbol.toList).bind fun name => source.table? (String.ofList name)

/-- The entries of every model that the symbols mention. A symbol is the first model's that offers
it. -/
def offered (source : Source) (symbols : List String) : Entries :=
  (symbols.filterMap (mentioned? source)).foldl (fun es t => es.addMissing t.entries) []

/-- Whether no word character stands directly before the first occurrence of a symbol. -/
def isUnaliased (symbol text : String) : Bool :=
  match Text.splitAtFirst symbol.toList text.toList with
  | none => false
  | some (before, _) => before.getLast?.all isBoundary

/-- What a reference of the form `&CURRSCHEMA.&Model` stands for. -/
def currentReference? (source : Source) (currentSchema : String) (reference : List Char) :
    Option String :=
  match mentioned? source (String.ofList reference) with
  | none => none
  | some t =>
    if ("&" ++ t.typeName).toList = reference then some (qualify currentSchema t.table) else none

/-- Whether the current schema qualifies the entry of a symbol. -/
def takesCurrentSchema (currentSchema symbol text : String) (e : Entry) : Bool :=
  symbol.toList.head? == some '&'
    && isUnaliased symbol text
    && e.namespaceName.isEmpty
    && !currentSchema.isEmpty
    && !(currentSchema ++ ".").toList.isPrefixOf e.text.toList

/-- What a symbol stands for in a segment with the given text. -/
def replacement? (source : Source) (entries : Entries) (currentSchema symbol text : String) :
    Option String :=
  match afterMark? symbol.toList with
  | some reference => currentReference? source currentSchema reference
  | none =>
    (entries.lookup symbol).map fun e =>
      if takesCurrentSchema currentSchema symbol text e then currentSchema ++ "." ++ e.text
      else e.text

/-- The text of a segment with its symbol replaced. -/
def resolveSegment (source : Source) (entries : Entries) (currentSchema : String) (strict : Bool)
    (s : Segment) : Except SchemaError String :=
  match s.symbol with
  | none => .ok s.text
  | some symbol =>
    match replacement? source entries currentSchema symbol s.text with
    | some image =>
      .ok (String.ofList (Text.replaceAll symbol.toList image.toList s.text.toList))
    | none => if strict then .error (.unresolvedSymbol symbol) else .ok s.text

/-- Resolves the symbols of a template. -/
def resolve (query : String) (source : Source) (currentSchema : String) (strict : Bool) :
    Except SchemaError String := do
  let parts := segments query
  let entries := offered source (parts.filterMap (·.symbol))
  return String.join (← parts.mapM (resolveSegment source entries currentSchema strict))

end SchemaEvolution.Template
