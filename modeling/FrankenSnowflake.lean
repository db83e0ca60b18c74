import FrankenSnowflake.Cli.Confirmation
import FrankenSnowflake.Core.Jsonv2Laxity
import FrankenSnowflake.Core.SqlRead
import FrankenSnowflake.Core.SqlLexerLocal
import FrankenSnowflake.Frame.ZeroCopyDecoder
import FrankenSnowflake.Catalog.Diff
import FrankenSnowflake.SqlApi.LifecycleRaw
import FrankenSnowflake.SqlApi.LifecycleTerminal
import FrankenSnowflake.Cache.SharingRuns
import FrankenSnowflake.Cache.Replay
import FrankenSnowflake.Cache.TornTail
import FrankenSnowflake.Http.RetryContract
import FrankenSnowflake.Cli.WriteOnce
import FrankenSnowflake.Mcp.Cancellation
import FrankenSnowflake.Cli.ExportAtomic
import FrankenSnowflake.Export.CopyIntoContained
import FrankenSnowflake.Core.ExternalUnload
import FrankenSnowflake.Core.SqlLexerBytes
import FrankenSnowflake.Core.SqlTrivia
import FrankenSnowflake.Cli.QueryRun
import FrankenSnowflake.Core.TypedOverflow
import FrankenSnowflake.SqlApi.CostQuota
import FrankenSnowflake.SqlApi.Wire
import FrankenSnowflake.Export.ParquetCell
import FrankenSnowflake.Core.Endpoint
import FrankenSnowflake.Export.Snappy
import FrankenSnowflake.Cache.FailedWrite
import FrankenSnowflake.Cli.RunCommand
import FrankenSnowflake.Foundation.NamePath
import FrankenSnowflake.Graph.Model
import FrankenSnowflake.Graph.Entity
import FrankenSnowflake.Graph.NodeKeys
import FrankenSnowflake.Catalog.Planner
import FrankenSnowflake.Catalog.Predicate
import FrankenSnowflake.Catalog.RawPlanner
import FrankenSnowflake.Foundation.Template
import FrankenSnowflake.Catalog.SqlText
import FrankenSnowflake.Catalog.NamedColumn
import FrankenSnowflake.Catalog.Bindings
import FrankenSnowflake.Catalog.AxisText
import FrankenSnowflake.Catalog.PlanId
import FrankenSnowflake.Foundation.Uri
import FrankenSnowflake.Http.RouteUrls
import FrankenSnowflake.Auth.Assertion
import FrankenSnowflake.Auth.DocumentedWif
import FrankenSnowflake.Catalog.Overlay
import FrankenSnowflake.Catalog.StageLocation
import FrankenSnowflake.Catalog.Relations
import FrankenSnowflake.Core.QuoteSearch
import FrankenSnowflake.Http.HttpDate
import FrankenSnowflake.Http.HttpDateExact
import FrankenSnowflake.Cli.Envelope
import FrankenSnowflake.Cli.TextIndex
import FrankenSnowflake.Catalog.PredicateJson
import FrankenSnowflake.Foundation.SqlCondition
import FrankenSnowflake.Catalog.PlanParts
import FrankenSnowflake.Catalog.PlanPieces
import FrankenSnowflake.Catalog.PlanBindings
import FrankenSnowflake.Catalog.PlanContained
import FrankenSnowflake.Catalog.PlanShape
import FrankenSnowflake.Foundation.BreadthFirst
import FrankenSnowflake.Graph.Indexes
import FrankenSnowflake.Graph.Walks
