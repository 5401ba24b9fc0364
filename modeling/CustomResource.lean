import CustomResource.Api.Answer
import CustomResource.Api.Deletion
import CustomResource.Api.Error
import CustomResource.Api.ObjectList
import CustomResource.Api.Request
import CustomResource.Client.Definitions
import CustomResource.Client.Instances
import CustomResource.Clock.Calendar
import CustomResource.Clock.Duration
import CustomResource.Clock.Timestamp
import CustomResource.CommandLine.Basic
import CustomResource.CommandLine.LogFilter
import CustomResource.Controller.Handler
import CustomResource.Controller.Loop
import CustomResource.Decode.Basic
import CustomResource.Decode.Error
import CustomResource.Decode.Record
import CustomResource.Decode.Shape
import CustomResource.Decode.Variant
import CustomResource.Definition.Basic
import CustomResource.Definition.Readiness
import CustomResource.Definition.Schema
import CustomResource.Definition.Shape
import CustomResource.Definition.Status
import CustomResource.Demo.Session
import CustomResource.Demo.Walkthrough
import CustomResource.Error
import CustomResource.Json.Basic
import CustomResource.Json.Document
import CustomResource.Json.Patch
import CustomResource.Json.Pointer
import CustomResource.Json.Printer
import CustomResource.Json.Reader
import CustomResource.Kubeconfig.Basic
import CustomResource.Kubeconfig.Connect
import CustomResource.Kubeconfig.Credentials
import CustomResource.Kubeconfig.Error
import CustomResource.Kubeconfig.Files
import CustomResource.Kubeconfig.InCluster
import CustomResource.Kubeconfig.Load
import CustomResource.Kubeconfig.Reader
import CustomResource.Kubeconfig.Target
import CustomResource.Main
import CustomResource.Numeral.Binary64
import CustomResource.Numeral.Shortest
import CustomResource.Program.Basic
import CustomResource.Program.Poll
import CustomResource.Program.Task
import CustomResource.Resource.Kind
import CustomResource.Resource.Metadata
import CustomResource.Resource.Namespace
import CustomResource.Resource.Object
import CustomResource.Resource.Spec
import CustomResource.Resource.Status
import CustomResource.Settings
import CustomResource.Simulation.Demonstration
import CustomResource.Simulation.FileTree
import CustomResource.Simulation.Isolation
import CustomResource.Simulation.Script
import CustomResource.Simulation.Watching
import CustomResource.Simulation.World
import CustomResource.Text.Base64
import CustomResource.Text.Digits
import CustomResource.Text.Hidden
import CustomResource.Text.Ipv6
import CustomResource.Text.Pattern
import CustomResource.Text.PatternReader
import CustomResource.Text.Pem
import CustomResource.Text.Pieces
import CustomResource.Text.Quoted
import CustomResource.Text.Space
import CustomResource.Text.Uri
import CustomResource.Text.Utf8
import CustomResource.Tls.Certificate
import CustomResource.Tls.Der
import CustomResource.Tls.Identity
import CustomResource.Watch.Event
import CustomResource.Watch.Informer
import CustomResource.Watch.Store
import CustomResource.Watch.Watcher
import CustomResource.Yaml.Flow
import CustomResource.Proofs.Watch.Informer
import CustomResource.Proofs.Watch.History
import CustomResource.Proofs.Watch.Announcements
import CustomResource.Proofs.Watch.Relist
import CustomResource.Proofs.Watch.Increments
import CustomResource.Proofs.Watch.Identity
import CustomResource.Proofs.Api.StatusPatch
import CustomResource.Proofs.Controller.Requests
import CustomResource.Proofs.Controller.Processing
import CustomResource.Proofs.Client.Outcome
import CustomResource.Proofs.Client.Rollback
import CustomResource.Proofs.Controller.Cancellation
import CustomResource.Proofs.Demo.Requests
import CustomResource.Proofs.Demo.Failures
import CustomResource.Proofs.Program.Path
import CustomResource.Proofs.Demo.Duo
import CustomResource.Proofs.Demo.Shutdown
import CustomResource.Proofs.Text.Digits
import CustomResource.Proofs.Clock.Timestamp
import CustomResource.Proofs.Json.Parts
import CustomResource.Proofs.Json.Reading
import CustomResource.Proofs.Json.Order
import CustomResource.Proofs.Json.Ranges
import CustomResource.Proofs.Decode.Records
import CustomResource.Proofs.Decode.Origin
import CustomResource.Proofs.Decode.Stable
import CustomResource.Proofs.Decode.Form
import CustomResource.Proofs.Resource.Metadata
import CustomResource.Proofs.Resource.Reencoding
import CustomResource.Proofs.Definition.Validation
import CustomResource.Proofs.Definition.Agreement
import CustomResource.Proofs.Program.Schedule
import CustomResource.Proofs.Program.Decision
import CustomResource.Proofs.Program.Interleaving
import CustomResource.Proofs.Json.Members
import CustomResource.Proofs.Decode.Members
import CustomResource.Proofs.Resource.Documents
import CustomResource.Proofs.Client.Sequence
import CustomResource.Proofs.Client.Shelf
import CustomResource.Proofs.Client.Agreement
import CustomResource.Proofs.Client.Writers
import CustomResource.Proofs.Client.Waiting
import CustomResource.Proofs.Resource.Patches
import CustomResource.Proofs.Client.Updates
import CustomResource.Proofs.Resource.Lifecycle
import CustomResource.Proofs.Controller.Delivery
import CustomResource.Proofs.Decode.Alike
import CustomResource.Proofs.Resource.Unordered
import CustomResource.Proofs.Definition.Readiness
import CustomResource.Proofs.Watch.Atomicity
import CustomResource.Proofs.Client.Targets
import CustomResource.Proofs.Api.Refusals
import CustomResource.Proofs.Demo.Tolerance
