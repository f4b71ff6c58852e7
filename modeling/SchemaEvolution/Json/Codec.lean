import SchemaEvolution.Json.Printer
import SchemaEvolution.Json.Reader
import SchemaEvolution.Json.Record

set_option autoImplicit false

/-! # Codecs

What is kept or exchanged as JSON goes through a codec: it turns documents into texts and texts into
documents, and reads a document as a record. Programs run with the codec of this library; what is
proved about them relies on no more than `LawfulCodec` says of a codec.
-/

namespace SchemaEvolution.Json

/-- A writer and a reader of documents. -/
class Codec where
  /-- A document on one line. -/
  write : Json → String
  /-- A document with one line for each item and member. -/
  writePretty : Json → String
  /-- Reads a text that holds one document. -/
  read? : String → Option Json
  /-- Reads a document as a record with the given field names. -/
  record? : List String → Json → Option Record

instance : Codec where
  write := compact
  writePretty := pretty
  read? := parse
  record? := record?

end SchemaEvolution.Json
