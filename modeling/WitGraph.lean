import WitGraph.Abi.CoreType
import WitGraph.Abi.Fault
import WitGraph.Abi.Flattening
import WitGraph.Abi.Shape
import WitGraph.Abi.Signature
import WitGraph.Abi.Traits
import WitGraph.Cli.Arguments
import WitGraph.Cli.Failure
import WitGraph.Cli.Folder
import WitGraph.Cli.Host
import WitGraph.Cli.Report
import WitGraph.Cli.Run
import WitGraph.Copying
import WitGraph.Dependency
import WitGraph.Document.Fault
import WitGraph.Document.Linking
import WitGraph.Document.Reading
import WitGraph.Document.Record
import WitGraph.Document.Writing
import WitGraph.Graph.Annotation
import WitGraph.Graph.Basic
import WitGraph.Graph.Function
import WitGraph.Graph.Id
import WitGraph.Graph.Kind
import WitGraph.Graph.TypeRef
import WitGraph.Ident
import WitGraph.Ident.Order
import WitGraph.Json.Basic
import WitGraph.Json.Number
import WitGraph.Json.Printer
import WitGraph.Json.Reader
import WitGraph.Json.Shape
import WitGraph.Layout.Arithmetic
import WitGraph.Layout.Extent
import WitGraph.Layout.Table
import WitGraph.Liveness
import WitGraph.Lookup
import WitGraph.Main
import WitGraph.OrderedMap
import WitGraph.Proofs.Abi.Appending
import WitGraph.Proofs.Abi.Cases
import WitGraph.Proofs.Abi.Grounded
import WitGraph.Proofs.Abi.Mirroring
import WitGraph.Proofs.Abi.Shape
import WitGraph.Proofs.Abi.Signature
import WitGraph.Proofs.Abi.Slots
import WitGraph.Proofs.Abi.Traits
import WitGraph.Proofs.Arenas
import WitGraph.Proofs.Cli.Output
import WitGraph.Proofs.Copying.Faithful
import WitGraph.Proofs.Copying.Filling
import WitGraph.Proofs.Copying.Places
import WitGraph.Proofs.Copying.Provenance
import WitGraph.Proofs.Copying.Recursion
import WitGraph.Proofs.Copying.Sequence
import WitGraph.Proofs.Copying.Settled
import WitGraph.Proofs.Copying.Transfer
import WitGraph.Proofs.Copying.Whole
import WitGraph.Proofs.Dependency
import WitGraph.Proofs.Dependency.Inquiry
import WitGraph.Proofs.Document.Blame
import WitGraph.Proofs.Document.Bounds
import WitGraph.Proofs.Document.Consistent
import WitGraph.Proofs.Document.Denoting
import WitGraph.Proofs.Document.Described
import WitGraph.Proofs.Document.Elements
import WitGraph.Proofs.Document.Faults
import WitGraph.Proofs.Document.Functions
import WitGraph.Proofs.Document.Linked
import WitGraph.Proofs.Document.Modern
import WitGraph.Proofs.Document.OlderForms
import WitGraph.Proofs.Document.Plain
import WitGraph.Proofs.Document.Rearranging
import WitGraph.Proofs.Document.Records
import WitGraph.Proofs.Document.Respelling
import WitGraph.Proofs.Document.Restoring
import WitGraph.Proofs.Document.RoundTrip
import WitGraph.Proofs.Document.Types
import WitGraph.Proofs.Document.WellLinked
import WitGraph.Proofs.Document.Writable
import WitGraph.Proofs.Grounded
import WitGraph.Proofs.Ident
import WitGraph.Proofs.Ident.Marks
import WitGraph.Proofs.Ident.Names
import WitGraph.Proofs.Ident.Spelling
import WitGraph.Proofs.Items
import WitGraph.Proofs.Json.Changes
import WitGraph.Proofs.Json.Rendering
import WitGraph.Proofs.Layout.Aligned
import WitGraph.Proofs.Layout.Canonical
import WitGraph.Proofs.Layout.Fields
import WitGraph.Proofs.Layout.Filling
import WitGraph.Proofs.Layout.Flags
import WitGraph.Proofs.Layout.Pairs
import WitGraph.Proofs.Layout.Payloads
import WitGraph.Proofs.Layout.Range
import WitGraph.Proofs.Layout.Settled
import WitGraph.Proofs.Layout.Words
import WitGraph.Proofs.LiveTypes
import WitGraph.Proofs.Liveness
import WitGraph.Proofs.Lookup
import WitGraph.Proofs.Lookup.Worlds
import WitGraph.Proofs.Nodes
import WitGraph.Proofs.Numeral
import WitGraph.Proofs.OrderedMap
import WitGraph.Proofs.Pruning.Abi
import WitGraph.Proofs.Pruning.Again
import WitGraph.Proofs.Pruning.Contents
import WitGraph.Proofs.Pruning.Dependency
import WitGraph.Proofs.Pruning.Derived
import WitGraph.Proofs.Pruning.Exact
import WitGraph.Proofs.Pruning.Kept
import WitGraph.Proofs.Pruning.Provenance
import WitGraph.Proofs.Pruning.ReadBack
import WitGraph.Proofs.Pruning.Rounds
import WitGraph.Proofs.Pruning.SelfContained
import WitGraph.Proofs.Pruning.Survival
import WitGraph.Proofs.Pruning.WholeWorld
import WitGraph.Proofs.References
import WitGraph.Proofs.Renaming
import WitGraph.Proofs.Search
import WitGraph.Proofs.Segments
import WitGraph.Proofs.Success
import WitGraph.Proofs.Traversals
import WitGraph.Proofs.Version
import WitGraph.Proofs.Worklist
import WitGraph.Pruning
import WitGraph.Search.DepthFirst
import WitGraph.Search.Marks
import WitGraph.Text.Cut
import WitGraph.Text.Escape
import WitGraph.Text.Printable
import WitGraph.Text.Symbol
import WitGraph.Version
import WitGraph.Version.Order
