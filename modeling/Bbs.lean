import Bbs.Base64
import Bbs.Channel
import Bbs.Etcd.ActualLRPDB
import Bbs.Etcd.Calls
import Bbs.Etcd.Changes
import Bbs.Etcd.Client
import Bbs.Etcd.Groups
import Bbs.Etcd.Histories
import Bbs.Etcd.Nodes
import Bbs.Etcd.Placement
import Bbs.Etcd.RawStart
import Bbs.Etcd.ReadPaths
import Bbs.Etcd.Schema
import Bbs.Etcd.Trees
import Bbs.Events.Counts
import Bbs.Events.Effects
import Bbs.Events.Hub
import Bbs.Events.Membership
import Bbs.Events.Source
import Bbs.Events.Streams
import Bbs.Handlers.Auctions
import Bbs.Handlers.Domains
import Bbs.Handlers.Events
import Bbs.Interaction.Interleaving
import Bbs.Interaction.Program
import Bbs.Interaction.Traces
import Bbs.Json
import Bbs.Lease
import Bbs.LenientJson
import Bbs.Lifecycle.Atomicity
import Bbs.Lifecycle.CrashAuction
import Bbs.Lifecycle.CrashCleanup
import Bbs.Lifecycle.CrashLoop
import Bbs.Lifecycle.Domains
import Bbs.Lifecycle.Linearization
import Bbs.Lifecycle.Ownership
import Bbs.Lifecycle.Retiring
import Bbs.Lifecycle.Retries
import Bbs.Lifecycle.Runs
import Bbs.Lifecycle.Serial
import Bbs.Lifecycle.StartRace
import Bbs.Lifecycle.Tags
import Bbs.Lifecycle.Validity
import Bbs.Models.ActionEncoding
import Bbs.Models.ActionValidation
import Bbs.Models.Actions
import Bbs.Models.ActualLRP
import Bbs.Models.Backoff
import Bbs.Models.DesiredLRP
import Bbs.Models.Encoding
import Bbs.Models.Errors
import Bbs.Models.Events
import Bbs.Models.Requests
import Bbs.Models.RestartCalculator
import Bbs.Models.RouteLimit
import Bbs.Models.RuleEncoding
import Bbs.Models.RuleValidation
import Bbs.Models.SecurityGroups
import Bbs.Models.Task
import Bbs.Models.TaskEncoding
import Bbs.Models.Transitions
import Bbs.NestedJson
import Bbs.Net
import Bbs.Path
import Bbs.Pipeline.ClientView
import Bbs.Pipeline.Delivery
import Bbs.Pipeline.Emission
import Bbs.Protobuf.Fields
import Bbs.Protobuf.Reader
import Bbs.Protobuf.Recursion
import Bbs.Protobuf.Safety
import Bbs.Protobuf.Varint
import Bbs.Protobuf.Writer
import Bbs.Rpc.Lifecycle
import Bbs.Rpc.Refusals
import Bbs.Rpc.Transfers
import Bbs.Rpc.Transport
import Bbs.Stamps
import Bbs.Text
import Bbs.Url
import Bbs.Utf8
import Bbs.Versioned
import Bbs.Watch.Dispatcher
import Bbs.Watch.Histories
import Bbs.Watch.Leaks
import Bbs.Watch.Replay
import Bbs.Watch.Supervision
import Bbs.Watch.Watcher
import Bbs.Wire.Actions
import Bbs.Wire.ActualLRP
import Bbs.Wire.Canonical
import Bbs.Wire.DesiredLRP
import Bbs.Wire.Events
import Bbs.Wire.Exchange
import Bbs.Wire.Task
import Bbs.Workpool
