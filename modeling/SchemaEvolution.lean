import SchemaEvolution.Annotation
import SchemaEvolution.Binary64
import SchemaEvolution.Catalog.Live
import SchemaEvolution.CommandLine.Arguments
import SchemaEvolution.CommandLine.Run
import SchemaEvolution.Config
import SchemaEvolution.Error
import SchemaEvolution.Json.Basic
import SchemaEvolution.Json.Codec
import SchemaEvolution.Json.Printer
import SchemaEvolution.Json.Reader
import SchemaEvolution.Json.Record
import SchemaEvolution.Main
import SchemaEvolution.Migration.Backend
import SchemaEvolution.Migration.Error
import SchemaEvolution.Migration.Hooks
import SchemaEvolution.Migration.Memory
import SchemaEvolution.Migration.Report
import SchemaEvolution.Migration.Run
import SchemaEvolution.Migration.Work
import SchemaEvolution.Model.Declaration
import SchemaEvolution.Model.Descriptor
import SchemaEvolution.Model.ElementType
import SchemaEvolution.Model.Field
import SchemaEvolution.Naming
import SchemaEvolution.Plan.Basic
import SchemaEvolution.Plan.Differ
import SchemaEvolution.Plan.Patch
import SchemaEvolution.Query.Argument
import SchemaEvolution.Query.Expansion
import SchemaEvolution.Query.Placeholder
import SchemaEvolution.Relation.Basic
import SchemaEvolution.Relation.Desired
import SchemaEvolution.Relation.Snapshot
import SchemaEvolution.Server.Postgres
import SchemaEvolution.Server.Session
import SchemaEvolution.Server.Steps
import SchemaEvolution.Store.Basic
import SchemaEvolution.Store.Registry
import SchemaEvolution.Store.SymbolCatalog
import SchemaEvolution.Store.Upsert
import SchemaEvolution.Template.Resolve
import SchemaEvolution.Template.Segment
import SchemaEvolution.Template.SymbolTable
import SchemaEvolution.Text.Case
import SchemaEvolution.Text.CaseTable
import SchemaEvolution.Text.Search
import SchemaEvolution.Proofs.Json.RoundTrip
import SchemaEvolution.Proofs.Lists
import SchemaEvolution.Proofs.Plan.ColumnConvergence
import SchemaEvolution.Proofs.Plan.IndexConvergence
import SchemaEvolution.Proofs.Plan.PrimaryKey
import SchemaEvolution.Proofs.Plan.Queues
import SchemaEvolution.Proofs.Relation.Desired
import SchemaEvolution.Proofs.Relation.Normal
import SchemaEvolution.Proofs.Relation.SnapshotRoundTrip
import SchemaEvolution.Proofs.Text.Fold
import SchemaEvolution.Proofs.Migration.Memory
import SchemaEvolution.Proofs.Migration.Repetition
import SchemaEvolution.Proofs.Query.Binding
import SchemaEvolution.Proofs.Template.Pass
import SchemaEvolution.Proofs.Template.Pieces
import SchemaEvolution.Proofs.Template.Quotes
import SchemaEvolution.Proofs.Text.Search
import SchemaEvolution.Proofs.Template.Substitution
import SchemaEvolution.Proofs.Migration.Transactional
import SchemaEvolution.Proofs.Migration.Atomicity
import SchemaEvolution.Proofs.Json.Reordering
import SchemaEvolution.Proofs.Template.Comments
import SchemaEvolution.Proofs.Relation.StoredSnapshot
import SchemaEvolution.Proofs.Migration.DryRun
import SchemaEvolution.Proofs.Migration.Journal
import SchemaEvolution.Proofs.Relation.Equality
import SchemaEvolution.Proofs.Relation.RepeatedNames
import SchemaEvolution.Proofs.Plan.ChangeDetection
import SchemaEvolution.Proofs.Migration.Committed
import SchemaEvolution.Proofs.Template.CurrentSchema
import SchemaEvolution.Proofs.Store.Registration
import SchemaEvolution.Proofs.Template.Strictness
import SchemaEvolution.Proofs.Store.OfferedSymbols
import SchemaEvolution.Proofs.Store.Identities
import SchemaEvolution.Proofs.Relation.ColumnNames
import SchemaEvolution.Proofs.Relation.Derivation
import SchemaEvolution.Proofs.Query.Rebinding
import SchemaEvolution.Proofs.Query.SingleLists
import SchemaEvolution.Proofs.Relation.FieldOrder
import SchemaEvolution.Proofs.Store.Upserts
import SchemaEvolution.Proofs.Plan.Filling
import SchemaEvolution.Proofs.Migration.Failure
import SchemaEvolution.Proofs.Migration.Callbacks
import SchemaEvolution.Proofs.Relation.SerialColumns
import SchemaEvolution.Proofs.Plan.Adoption
import SchemaEvolution.Proofs.Store.UnbackedColumns
import SchemaEvolution.Proofs.Template.Coverage
import SchemaEvolution.Proofs.Model.DerivedColumns
import SchemaEvolution.Proofs.Query.Flatness
import SchemaEvolution.Proofs.Store.TableNames
import SchemaEvolution.Proofs.Server.Transactions
import SchemaEvolution.Proofs.Plan.FoldedNames
import SchemaEvolution.Proofs.Text.Separation
import SchemaEvolution.Proofs.Template.SymbolShape
import SchemaEvolution.Proofs.Json.Codec
import SchemaEvolution.Proofs.Model.FieldMaps
import SchemaEvolution.Proofs.Relation.IndexSpecs
import SchemaEvolution.Proofs.Template.FirstMention
import SchemaEvolution.Proofs.CommandLine.Printing
