import BlockEditor.SortedMap
import BlockEditor.Text.Utf8
import BlockEditor.Text.Letters
import BlockEditor.Decimal.Binary
import BlockEditor.Decimal.Shortest
import BlockEditor.Json.Node
import BlockEditor.Catalog.Refresh
import BlockEditor.Catalog.Palette
import BlockEditor.Block.Edit
import BlockEditor.Block.Hit
import BlockEditor.Block.Drop
import BlockEditor.Record.Load
import BlockEditor.Document.Edit
import BlockEditor.Store.Library
import BlockEditor.Store.LocalLibrary
import BlockEditor.Store.CatalogFiles
import BlockEditor.Proofs.Block.Layout
import BlockEditor.Proofs.Block.Change
import BlockEditor.Proofs.Block.Update
import BlockEditor.Proofs.Block.Edit
import BlockEditor.Proofs.Block.Outline
import BlockEditor.Proofs.Block.Place
import BlockEditor.Proofs.Block.Drop
import BlockEditor.Proofs.Catalog.Run
import BlockEditor.Proofs.Catalog.Keyed
import BlockEditor.Proofs.Catalog.Retired
import BlockEditor.Proofs.Catalog.Tables
import BlockEditor.Proofs.Catalog.Marks
import BlockEditor.Proofs.Catalog.History
import BlockEditor.Proofs.Catalog.Kept
import BlockEditor.Proofs.Document.Run
import BlockEditor.Proofs.Block.Fields
import BlockEditor.Proofs.Record.Built
import BlockEditor.Proofs.Record.Nested
import BlockEditor.Proofs.Record.Filled
import BlockEditor.Proofs.Document.Current
import BlockEditor.Proofs.Document.Drop
import BlockEditor.Proofs.Record.RoundTrip
import BlockEditor.Proofs.Record.Literals
import BlockEditor.Proofs.Record.Edited
import BlockEditor.Proofs.Record.Erased
import BlockEditor.Proofs.Record.Refreshed
import BlockEditor.Proofs.Block.Hit
import BlockEditor.Proofs.Json.Lexing
import BlockEditor.Proofs.Json.Tree
import BlockEditor.Proofs.Json.Reading
import BlockEditor.Proofs.Json.Number
import BlockEditor.Proofs.Json.Sorted
import BlockEditor.Proofs.Schema.RoundTrip
import BlockEditor.Proofs.Catalog.Written
import BlockEditor.Proofs.Record.Written
import BlockEditor.Proofs.Record.Text
import BlockEditor.Proofs.Block.WellFormed
import BlockEditor.Proofs.Document.WellFormed
import BlockEditor.Proofs.Document.PointQueries
import BlockEditor.Proofs.Document.Polled
import BlockEditor.Proofs.Document.Recordwise
import BlockEditor.Proofs.Document.Loaded
import BlockEditor.Proofs.Store.Saved
import BlockEditor.Proofs.Store.CatalogFiles
import BlockEditor.Proofs.Store.Bindings
import BlockEditor.Proofs.Document.Refused
import BlockEditor.Proofs.Document.SamePlace
import BlockEditor.Proofs.Schema.Rewritten
import BlockEditor.Proofs.Catalog.Aborted
import BlockEditor.Proofs.Store.FaultyFormats
import BlockEditor.Proofs.Json.Inside
import BlockEditor.Proofs.Json.Put
import BlockEditor.Proofs.Record.Reread
import BlockEditor.Proofs.Store.Rewritten
import BlockEditor.Proofs.Catalog.Committed
import BlockEditor.Proofs.Block.Taken
import BlockEditor.Proofs.Document.Removed
import BlockEditor.Proofs.Document.Hit
import BlockEditor.Proofs.Block.Midpoint
import BlockEditor.Proofs.Record.Conforming
import BlockEditor.Proofs.Record.Normalized
import BlockEditor.Proofs.Document.Normalized
import BlockEditor.Proofs.Schema.Faults
import BlockEditor.Proofs.Schema.Retyped
import BlockEditor.Proofs.Catalog.Registered
import BlockEditor.Proofs.Block.PathText
import BlockEditor.Proofs.Catalog.Localized
import BlockEditor.Proofs.Catalog.Palette
import BlockEditor.Proofs.Store.Names
import BlockEditor.Proofs.Store.Inside
import BlockEditor.Raw.Document
import BlockEditor.Proofs.Raw.Drop
import BlockEditor.Proofs.Raw.Document
import BlockEditor.Proofs.Raw.WellFormed
