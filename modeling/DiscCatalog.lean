import DiscCatalog.Frame
import DiscCatalog.Errno
import DiscCatalog.Store
import DiscCatalog.Host
import DiscCatalog.Host.Walk
import DiscCatalog.Host.File
import DiscCatalog.Host.Tree
import DiscCatalog.Repository
import DiscCatalog.Server
import DiscCatalog.Client
import DiscCatalog.Channel.Script
import DiscCatalog.Client.Call
import DiscCatalog.Channel.NamedPipe
import DiscCatalog.Channel.Medium
import DiscCatalog.Channel.Bench
import DiscCatalog.Session
import DiscCatalog.Toml.Document
import DiscCatalog.Settings.File
import DiscCatalog.CommandLine.Arguments
import DiscCatalog.CommandLine.Errand
import DiscCatalog.CommandLine.Terminal
import DiscCatalog.Main
import DiscCatalog.Proofs.Frame.RoundTrip
import DiscCatalog.Proofs.Server.Watch
import DiscCatalog.Proofs.Session.Refinement
import DiscCatalog.Proofs.Archive.Failures
import DiscCatalog.Proofs.Server.Sessions
import DiscCatalog.Proofs.Server.Effects
import DiscCatalog.Proofs.Session.Search
import DiscCatalog.Proofs.Channel.Requests
import DiscCatalog.Proofs.Channel.Answers
import DiscCatalog.Proofs.Channel.Routing
import DiscCatalog.Proofs.Client.Interrupted
import DiscCatalog.Proofs.Session.Interchange
import DiscCatalog.Proofs.Frame.Layout
import DiscCatalog.Proofs.Server.Attended
import DiscCatalog.Proofs.Channel.Lifetimes
import DiscCatalog.Proofs.Archive.Contest
import DiscCatalog.Proofs.Frame.Language
import DiscCatalog.Proofs.Server.Streams
import DiscCatalog.Proofs.CommandLine.Search
import DiscCatalog.Proofs.Session.Rejections
import DiscCatalog.Proofs.Client.Discipline
import DiscCatalog.Proofs.Client.Stepping
import DiscCatalog.Proofs.Server.Course
import DiscCatalog.Proofs.Client.Snapshots
import DiscCatalog.Proofs.Store.History
import DiscCatalog.Proofs.Archive.LastRows
import DiscCatalog.Proofs.Server.UnusedSlots
import DiscCatalog.Proofs.Frame.Origin
import DiscCatalog.Proofs.Settings.Loading
