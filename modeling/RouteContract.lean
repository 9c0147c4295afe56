import RouteContract.Exchange.Guard
import RouteContract.Exchange.Inspector
import RouteContract.Main
import RouteContract.Shape.Document
import RouteContract.Shape.Outline
import RouteContract.Proofs.Data.Result
import RouteContract.Proofs.Data.Table
import RouteContract.Proofs.Json.Place
import RouteContract.Proofs.Shape.Expansion
import RouteContract.Proofs.Shape.Site
import RouteContract.Proofs.Shape.BackReference
import RouteContract.Proofs.Schema.Keyword
import RouteContract.Proofs.Number.Numeral
import RouteContract.Proofs.Pointer
import RouteContract.Proofs.Schema.Lookup
import RouteContract.Proofs.Shape.Meaning
import RouteContract.Proofs.Shape.Target
import RouteContract.Proofs.Shape.Call
import RouteContract.Proofs.Shape.Guarded
import RouteContract.Proofs.Shape.Unruled
import RouteContract.Proofs.Shape.Ordering
import RouteContract.Proofs.Shape.Union
import RouteContract.Proofs.Shape.Intersection
import RouteContract.Proofs.Shape.Verdict
import RouteContract.Proofs.Shape.Stuck
import RouteContract.Proofs.Shape.Correspondence
import RouteContract.Proofs.Pattern.Reading
import RouteContract.Proofs.Route.Reading
import RouteContract.Proofs.Data.Grouping
import RouteContract.Proofs.Registry.Routing
import RouteContract.Proofs.Number.Rounding
import RouteContract.Proofs.Number.Shortest
import RouteContract.Proofs.Number.DecimalText
import RouteContract.Proofs.Json.Numeral
import RouteContract.Proofs.Json.Text
import RouteContract.Proofs.Json.RoundTrip
import RouteContract.Proofs.Contract.Document
import RouteContract.Proofs.Storage.Snapshot
import RouteContract.Proofs.Registry.Persistence
import RouteContract.Proofs.Json.Pointer
import RouteContract.Proofs.Schema.Coercion
import RouteContract.Proofs.Schema.Part
import RouteContract.Proofs.Schema.Origin
import RouteContract.Proofs.Schema.Report
import RouteContract.Proofs.Schema.Address
import RouteContract.Proofs.Schema.Passing
import RouteContract.Proofs.Schema.Overreach
import RouteContract.Proofs.Schema.Check
import RouteContract.Proofs.Exchange.Guard
import RouteContract.Proofs.Exchange.Request
import RouteContract.Proofs.Exchange.Response
import RouteContract.Proofs.OpenApi.Rebase
import RouteContract.Proofs.OpenApi.Document
import RouteContract.Proofs.OpenApi.Parameter
import RouteContract.Proofs.OpenApi.InPlace
import RouteContract.Proofs.Route.Lookup
import RouteContract.Proofs.Registry.Atomicity
import RouteContract.Proofs.Pattern.Bar
import RouteContract.Proofs.Pattern.Alternation
import RouteContract.Proofs.Schema.Loss
import RouteContract.Proofs.Schema.Meeting
import RouteContract.Proofs.Schema.WellFormed
import RouteContract.Proofs.Schema.Answer
import RouteContract.Proofs.Schema.Choking
import RouteContract.Proofs.Schema.Outcome
import RouteContract.Proofs.Registry.Missing
import RouteContract.Proofs.OpenApi.Merge
import RouteContract.Proofs.OpenApi.Dispatch
import RouteContract.Proofs.Data.Identity
import RouteContract.Proofs.Exchange.Pending
import RouteContract.Proofs.Exchange.Traffic
import RouteContract.Proofs.Exchange.Release
import RouteContract.Proofs.Exchange.Inspector
import RouteContract.Proofs.Pattern.Exploration
import RouteContract.Proofs.Route.Template
import RouteContract.Proofs.Route.Matching
import RouteContract.Proofs.Json.Percent
import RouteContract.Proofs.Shape.Lookup
import RouteContract.Proofs.Text.Split
import RouteContract.Proofs.Shape.Enumeration
import RouteContract.Proofs.Schema.Merge
import RouteContract.Proofs.Shape.Annotation
import RouteContract.Proofs.Schema.Application
import RouteContract.Proofs.Schema.Evaluation
import RouteContract.Proofs.Schema.Naming
import RouteContract.Proofs.Schema.Hop
import RouteContract.Proofs.Schema.Walk
import RouteContract.Proofs.Shape.Link
import RouteContract.Proofs.Sources.Growth
import RouteContract.Proofs.Sources.Depiction
import RouteContract.Proofs.Sources.Record
import RouteContract.Proofs.Sources.Describing
import RouteContract.Proofs.Sources.Filling
import RouteContract.Proofs.Sources.Steps
import RouteContract.Proofs.Sources.Fields
import RouteContract.Proofs.Sources.Recursion
import RouteContract.Proofs.Text.Lines
import RouteContract.Proofs.Json.Token
import RouteContract.Proofs.Json.Reading
import RouteContract.Proofs.Json.Lines
import RouteContract.Proofs.Documentation
import RouteContract.Proofs.Sources.Failure
import RouteContract.Proofs.Data.Traversal
import RouteContract.Proofs.Sources.Union
import RouteContract.Proofs.Sources.Layers
import RouteContract.Proofs.Sources.Peeling
import RouteContract.Proofs.Sources.Declaration
import RouteContract.Proofs.Sources.UseSite
import RouteContract.Proofs.Json.Segments
import RouteContract.Proofs.Route.Stored
import RouteContract.Proofs.Registry.Folding
