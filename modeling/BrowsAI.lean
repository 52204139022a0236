import BrowsAI.Library.Utf8
import BrowsAI.Library.Unfold
import BrowsAI.Library.OrdMap
import BrowsAI.Library.LastOf
import BrowsAI.Library.LinkPattern
import BrowsAI.Library.Runs
import BrowsAI.Library.Saturating
import BrowsAI.Library.Occurs
import BrowsAI.AgentTree.Basic
import BrowsAI.DomObserver.RawDocument
import BrowsAI.DomObserver.WellFormed
import BrowsAI.DomObserver.Removal
import BrowsAI.LayoutObserver.HitTest
import BrowsAI.SemanticCompiler.Compile
import BrowsAI.SemanticCompiler.Rooted
import BrowsAI.PageText.NodeText
import BrowsAI.PageText.Emitter
import BrowsAI.PageText.Visits
import BrowsAI.PageText.Layout
import BrowsAI.PageText.Refinement
import BrowsAI.PageText.Termination
import BrowsAI.PageText.Markup
import BrowsAI.PageText.Spans
import BrowsAI.PageText.Links
import BrowsAI.PageText.Coverage
import BrowsAI.PageText.Hidden
import BrowsAI.PageText.Blank
import BrowsAI.PageText.Envelope
import BrowsAI.PageText.Openings
import BrowsAI.PageText.Lines
import BrowsAI.PageText.Tags
import BrowsAI.Storage.OriginStorage
import BrowsAI.Storage.Generations
import BrowsAI.Storage.RoundTrip
import BrowsAI.Profiles.Identity
import BrowsAI.Network.Url
import BrowsAI.Cookies.CookieJar
import BrowsAI.Cache.HttpCache
import BrowsAI.ServiceWorker.Registry
import BrowsAI.Network.Stack
import BrowsAI.Network.Accounting
import BrowsAI.Network.BodyLimit
import BrowsAI.Network.Fetch
import BrowsAI.Network.Invalidation
import BrowsAI.Network.Isolation
import BrowsAI.Network.Redirects
import BrowsAI.Databases.IndexedDb
import BrowsAI.Databases.Transactions
import BrowsAI.Agents.Sessions
import BrowsAI.Agents.Runs
import BrowsAI.Agents.Challenges
import BrowsAI.Agents.Steps
import BrowsAI.Agents.Budgets
import BrowsAI.Agents.SolveQuota
import BrowsAI.SecretStore.Broker
import BrowsAI.SecretStore.History
import BrowsAI.SecretStore.Invariants
import BrowsAI.SecretStore.Releases
import BrowsAI.Credentials.Broker
import BrowsAI.Credentials.Passwords
import BrowsAI.AgentProtocol.Leases
import BrowsAI.AgentProtocol.Exclusion
import BrowsAI.Ipc.Router
import BrowsAI.Ipc.Channel
import BrowsAI.ProcessModel.Supervisor
import BrowsAI.Recovery.State
import BrowsAI.Recovery.Plan
import BrowsAI.Recovery.FileStore
import BrowsAI.Recovery.Rotation
import BrowsAI.Recovery.Printed
import BrowsAI.Recovery.Checkpoints
import BrowsAI.Library.Indexed
import BrowsAI.AgentTree.Equality
import BrowsAI.Diff.Tree
import BrowsAI.SemanticIr.Challenges
import BrowsAI.Diff.Conservation
import BrowsAI.SemanticCompiler.Recompile
import BrowsAI.Diff.Recompile
import BrowsAI.EventObserver.ChangeStream
import BrowsAI.Diff.Stream
import BrowsAI.Library.StateLog
import BrowsAI.Agents.Takeovers
import BrowsAI.Agents.TakeoverAudit
import BrowsAI.Agents.TakeoverLifeCycle
import BrowsAI.Agents.TakeoverDeadlines
import BrowsAI.Transactions.Queue
import BrowsAI.Transactions.Events
import BrowsAI.Permissions.Manager
import BrowsAI.Permissions.Wire
import BrowsAI.Permissions.History
import BrowsAI.Sandbox.Broker
import BrowsAI.Navigation.State
import BrowsAI.Tabs.Manager
import BrowsAI.Tabs.Focus
import BrowsAI.Library.Zipper
import BrowsAI.Network.WebUrl
import BrowsAI.Navigation.History
import BrowsAI.Tabs.Histories
import BrowsAI.Workspaces.State
import BrowsAI.Workspaces.Restore
import BrowsAI.Library.Descendants
import BrowsAI.Frames.Tree
import BrowsAI.Frames.WellFormed
import BrowsAI.Frames.Traversal
import BrowsAI.Frames.Access
import BrowsAI.Library.HashChain
import BrowsAI.Audit.Journal
import BrowsAI.Audit.Retention
import BrowsAI.Profiles.Config
import BrowsAI.Profiles.Consistency
import BrowsAI.Profiles.Fingerprint
import BrowsAI.Profiles.Manager
import BrowsAI.Profiles.Migration
import BrowsAI.Profiles.Coherence
import BrowsAI.Profiles.Application
import BrowsAI.ProcessModel.Lifecycle
import BrowsAI.ProcessModel.Supervision
import BrowsAI.Library.Cells
import BrowsAI.Serve.IdleShutdown
import BrowsAI.SemanticCompiler.Isomorphism
import BrowsAI.DomObserver.References
import BrowsAI.Input.Trajectory
import BrowsAI.Agents.Solving
import BrowsAI.Library.Stretches
import BrowsAI.Agents.Cursor
import BrowsAI.Library.Pages
import BrowsAI.Diff.Paging
import BrowsAI.Diff.SnapshotStore
import BrowsAI.Storage.Quota
import BrowsAI.Databases.Schema
import BrowsAI.Library.Worklist
import BrowsAI.StructuralIr.Compile
import BrowsAI.SemanticIr.Enrichment
import BrowsAI.SemanticIr.Surfacing
import BrowsAI.LayoutObserver.Dirty
import BrowsAI.Transactions.Policy
import BrowsAI.ActionPlanner.Plan
import BrowsAI.ActionPlanner.Checks
import BrowsAI.AgentProtocol.Query
import BrowsAI.Cookies.Persistence
import BrowsAI.Cookies.PathMatch
import BrowsAI.ApplicationIr.SemanticCache
import BrowsAI.ApplicationIr.SiteLearning
import BrowsAI.SecretStore.Lifetimes
import BrowsAI.Profiles.MobileHint
import BrowsAI.Profiles.Retention
import BrowsAI.CompatibilityCheck.Scheduler
import BrowsAI.Library.Utf8Lossy
import BrowsAI.Library.TextLines
import BrowsAI.Serve.QueryString
import BrowsAI.Serve.StringPage
import BrowsAI.Serve.Browse
import BrowsAI.Apis.Endpoints
import BrowsAI.ChallengeObserver.Network
import BrowsAI.ChallengeObserver.Dom
import BrowsAI.CompatibilityCheck.Sites
import BrowsAI.CompatibilityCheck.Report
import BrowsAI.CompatibilityCheck.Clusters
import BrowsAI.Cache.CacheStorage
import BrowsAI.Cache.Persistence
import BrowsAI.Library.Words
import BrowsAI.Agents.Redaction
import BrowsAI.Logging.SecretSafeLogger
import BrowsAI.Downloads.Manager
import BrowsAI.ShadowDom.Registry
import BrowsAI.ShadowDom.Privilege
import BrowsAI.Agents.ScriptLives
import BrowsAI.RuntimeEvents.Observer
import BrowsAI.PageText.HeadingLevels
import BrowsAI.Library.Boundaries
import BrowsAI.PageText.Truncation
import BrowsAI.PageText.ExtractUrl
import BrowsAI.Library.Processes
import BrowsAI.Recovery.Interleaving
import BrowsAI.Recovery.CrashSafety
import BrowsAI.Recovery.StaleLock
import BrowsAI.SecretStore.Accounts
import BrowsAI.Identities.Vault
import BrowsAI.Library.Leads
import BrowsAI.Payments.Vault
import BrowsAI.Totp.Broker
import BrowsAI.Library.ByteLines
import BrowsAI.Serve.Http
import BrowsAI.EngineServo.Engine
import BrowsAI.Serve.Domains
import BrowsAI.EngineServo.Projection
import BrowsAI.EngineServo.ProjectedTree
import BrowsAI.EngineServo.HiddenValues
import BrowsAI.Library.Stacking
import BrowsAI.Desktop.Shell
import BrowsAI.Serve.Handlers
import BrowsAI.Serve.HostBrowsers
import BrowsAI.CompatibilityCheck.HtmlReport
import BrowsAI.SemanticIr.Normalize
import BrowsAI.SemanticCompiler.Observed
