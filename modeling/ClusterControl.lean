import ClusterControl.Cluster.Basic
import ClusterControl.Cluster.Connect
import ClusterControl.Cluster.Manifests
import ClusterControl.Cluster.Resources
import ClusterControl.Cluster.Waits
import ClusterControl.Connection.Config
import ClusterControl.Connection.Lifecycle
import ClusterControl.Decimal.Exact
import ClusterControl.Decimal.Layout
import ClusterControl.Decimal.Reader
import ClusterControl.Decimal.Rounded
import ClusterControl.Decimal.Shortest
import ClusterControl.Failure
import ClusterControl.Mesh.Linkerd
import ClusterControl.Op
import ClusterControl.Platform.Basic
import ClusterControl.Platform.Detection
import ClusterControl.Platform.Nodes
import ClusterControl.Platform.Strategy
import ClusterControl.Proofs.Cluster.Answers
import ClusterControl.Proofs.Cluster.Awaits
import ClusterControl.Proofs.Cluster.Bounds
import ClusterControl.Proofs.Cluster.Cancelled
import ClusterControl.Proofs.Cluster.Connecting
import ClusterControl.Proofs.Cluster.Finishing
import ClusterControl.Proofs.Cluster.Manifests
import ClusterControl.Proofs.Cluster.Rejections
import ClusterControl.Proofs.Cluster.Resources
import ClusterControl.Proofs.Cluster.Secrets
import ClusterControl.Proofs.Cluster.Shared
import ClusterControl.Proofs.Connection.Closed
import ClusterControl.Proofs.Connection.Construction
import ClusterControl.Proofs.Connection.Credentials
import ClusterControl.Proofs.Connection.Holdings
import ClusterControl.Proofs.Connection.Lifespan
import ClusterControl.Proofs.Connection.Operations
import ClusterControl.Proofs.Connection.PrimitiveSteps
import ClusterControl.Proofs.Connection.Unused
import ClusterControl.Proofs.Lists
import ClusterControl.Proofs.Mesh.Escapes
import ClusterControl.Proofs.Mesh.Installation
import ClusterControl.Proofs.Mesh.Jobs
import ClusterControl.Proofs.Mesh.Removal
import ClusterControl.Proofs.Mesh.Roles
import ClusterControl.Proofs.Mesh.Runs
import ClusterControl.Proofs.Mesh.Sinks
import ClusterControl.Proofs.Mesh.Verdict
import ClusterControl.Proofs.Op.Onward
import ClusterControl.Proofs.Op.Orderly
import ClusterControl.Proofs.Op.Trace
import ClusterControl.Proofs.Op.Twins
import ClusterControl.Proofs.Platform.Addresses
import ClusterControl.Proofs.Platform.Decision
import ClusterControl.Proofs.Platform.FirstMatch
import ClusterControl.Proofs.Platform.Inquiries
import ClusterControl.Proofs.Platform.Nodes
import ClusterControl.Proofs.Platform.Strategies
import ClusterControl.Proofs.Resource.Access
import ClusterControl.Proofs.Resource.NotFound
import ClusterControl.Proofs.Resource.Requests
import ClusterControl.Proofs.Resource.Services
import ClusterControl.Proofs.Text.Base64
import ClusterControl.Proofs.Time.Exact
import ClusterControl.Proofs.Time.Linear
import ClusterControl.Proofs.Wait.Answers
import ClusterControl.Proofs.Wait.Bounds
import ClusterControl.Proofs.Wait.Cancellation
import ClusterControl.Proofs.Wait.Conditions
import ClusterControl.Proofs.Wait.Limits
import ClusterControl.Proofs.Wait.Phases
import ClusterControl.Proofs.Wait.Proper
import ClusterControl.Proofs.Wait.Refusals
import ClusterControl.Proofs.Wait.Reports
import ClusterControl.Proofs.Wait.Rounds
import ClusterControl.Proofs.Wait.SingleExchange
import ClusterControl.Proofs.Wait.Sinks
import ClusterControl.Proofs.Wait.Sooner
import ClusterControl.Proofs.Wait.Success
import ClusterControl.Proofs.Wait.Tries
import ClusterControl.Proofs.Wait.TwoPhases
import ClusterControl.Record
import ClusterControl.Request
import ClusterControl.Resource.Access
import ClusterControl.Resource.Custom
import ClusterControl.Resource.Kind
import ClusterControl.Resource.Manifest
import ClusterControl.Resource.Ref
import ClusterControl.Script
import ClusterControl.Settings.Basic
import ClusterControl.Settings.Dotenv
import ClusterControl.Settings.Logging
import ClusterControl.Settings.Reference
import ClusterControl.Text.Base64
import ClusterControl.Text.Blank
import ClusterControl.Text.Case
import ClusterControl.Text.Hex
import ClusterControl.Text.Printable
import ClusterControl.Text.Quoted
import ClusterControl.Time.Basic
import ClusterControl.Time.Double
import ClusterControl.Time.Rational
import ClusterControl.Value.Basic
import ClusterControl.Value.Text
import ClusterControl.Wait.Condition
import ClusterControl.Wait.Definition
import ClusterControl.Wait.Poll
import ClusterControl.Wait.Progress
import ClusterControl.World
