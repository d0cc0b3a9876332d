import ApiModel.BaseUrl
import ApiModel.CommandLine
import ApiModel.Conversion
import ApiModel.Decimal.Binary64
import ApiModel.Decimal.Shortest
import ApiModel.Decode
import ApiModel.Document.Basic
import ApiModel.Document.Load
import ApiModel.Document.Pointer
import ApiModel.Document.Properties
import ApiModel.Document.Reference
import ApiModel.Error
import ApiModel.FileHeader
import ApiModel.Http
import ApiModel.Json.Basic
import ApiModel.Json.Printer
import ApiModel.Json.Reader
import ApiModel.Main
import ApiModel.MediaType
import ApiModel.Model.Basic
import ApiModel.Model.Summary
import ApiModel.Model.TypeNames
import ApiModel.Model.Writer
import ApiModel.ModelTree
import ApiModel.NameRegistry
import ApiModel.NamedSchemas
import ApiModel.Naming
import ApiModel.Note
import ApiModel.Object.Info
import ApiModel.Object.Operation
import ApiModel.Object.Schema
import ApiModel.Object.Security
import ApiModel.Object.Server
import ApiModel.Options
import ApiModel.OrderedMap
import ApiModel.OrderedSet
import ApiModel.Parameters
import ApiModel.Payloads
import ApiModel.Proofs.Comparison.Building
import ApiModel.Proofs.Comparison.Padded
import ApiModel.Proofs.Comparison.PaddedModel
import ApiModel.Proofs.Comparison.PaddedTree
import ApiModel.Proofs.Comparison.Reordered
import ApiModel.Proofs.Comparison.Simulates
import ApiModel.Proofs.Comparison.Walking
import ApiModel.Proofs.Conversion.Aliases
import ApiModel.Proofs.Conversion.Checks
import ApiModel.Proofs.Conversion.Converted
import ApiModel.Proofs.Conversion.Grouping
import ApiModel.Proofs.Conversion.Safety
import ApiModel.Proofs.Conversion.SecurityIds
import ApiModel.Proofs.Conversion.Segments
import ApiModel.Proofs.Document.Chains
import ApiModel.Proofs.Document.Complete
import ApiModel.Proofs.Document.Composed
import ApiModel.Proofs.Document.Declared
import ApiModel.Proofs.Document.Decoded
import ApiModel.Proofs.Document.Distinct
import ApiModel.Proofs.Document.Echoes
import ApiModel.Proofs.Document.Filling
import ApiModel.Proofs.Document.Keyed
import ApiModel.Proofs.Document.Links
import ApiModel.Proofs.Document.Loaded
import ApiModel.Proofs.Document.Located
import ApiModel.Proofs.Document.Merging
import ApiModel.Proofs.Document.Pointers
import ApiModel.Proofs.Document.References
import ApiModel.Proofs.Document.Resolution
import ApiModel.Proofs.Document.Rooted
import ApiModel.Proofs.Document.Routes
import ApiModel.Proofs.Document.Sections
import ApiModel.Proofs.Document.Shared
import ApiModel.Proofs.Document.Shuffled
import ApiModel.Proofs.Document.Sited
import ApiModel.Proofs.Listing
import ApiModel.Proofs.Model.Arguments
import ApiModel.Proofs.Model.Finite
import ApiModel.Proofs.Model.Nullable
import ApiModel.Proofs.Model.Operations
import ApiModel.Proofs.Model.Rendered
import ApiModel.Proofs.Model.Security
import ApiModel.Proofs.Model.Usage
import ApiModel.Proofs.ModelTree.Build
import ApiModel.Proofs.ModelTree.ComponentNames
import ApiModel.Proofs.ModelTree.Exact
import ApiModel.Proofs.ModelTree.Forest
import ApiModel.Proofs.ModelTree.Moves
import ApiModel.Proofs.ModelTree.Placement
import ApiModel.Proofs.ModelTree.Planned
import ApiModel.Proofs.ModelTree.Rounds
import ApiModel.Proofs.ModelTree.Run
import ApiModel.Proofs.ModelTree.Shape
import ApiModel.Proofs.ModelTree.Standing
import ApiModel.Proofs.Names.Claimed
import ApiModel.Proofs.Names.Dotted
import ApiModel.Proofs.Names.Field
import ApiModel.Proofs.Names.Initial
import ApiModel.Proofs.Names.Marks
import ApiModel.Proofs.Names.Registry
import ApiModel.Proofs.Outcome
import ApiModel.Proofs.Reachability.Closure
import ApiModel.Proofs.Reachability.Order
import ApiModel.Proofs.Reachability.Search
import ApiModel.Proofs.Reachability.Visits
import ApiModel.Proofs.Schema.Alternatives
import ApiModel.Proofs.Schema.Appended
import ApiModel.Proofs.Schema.Decoded
import ApiModel.Proofs.Schema.Frame
import ApiModel.Proofs.Schema.Interned
import ApiModel.Proofs.Schema.NormalForm
import ApiModel.Proofs.Schema.Ownership
import ApiModel.Proofs.Schema.Passes
import ApiModel.Proofs.Schema.Sites
import ApiModel.Proofs.Schema.Slot
import ApiModel.Proofs.Text
import ApiModel.Proofs.Text.Octets
import ApiModel.Proofs.Union.Exact
import ApiModel.Proofs.Union.Interfaces
import ApiModel.Proofs.Union.Nesting
import ApiModel.Proofs.Union.Resolved
import ApiModel.Proofs.Union.Tags
import ApiModel.Proofs.Url.Absolute
import ApiModel.Proofs.Url.BaseUrl
import ApiModel.Reachability
import ApiModel.Schema.Arena
import ApiModel.Schema.Class
import ApiModel.Schema.Classify
import ApiModel.Schema.Extension
import ApiModel.Schema.Normal
import ApiModel.Schema.Unvisited
import ApiModel.Security
import ApiModel.Text.CharClass
import ApiModel.Text.CharTable
import ApiModel.Text.Percent
import ApiModel.Text.Quoted
import ApiModel.Text.Words
import ApiModel.Timestamp
import ApiModel.TypeUsage
import ApiModel.Union
import ApiModel.Url.Address
import ApiModel.Url.Basic
import ApiModel.Url.Host
import ApiModel.Yaml.BlockText
import ApiModel.Yaml.Cursor
import ApiModel.Yaml.Document
import ApiModel.Yaml.Folding
import ApiModel.Yaml.Node
import ApiModel.Yaml.Scalar
import ApiModel.Yaml.Token
