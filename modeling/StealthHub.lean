import StealthHub.Data.Table
import StealthHub.Data.Text
import StealthHub.Data.Acyclic
import StealthHub.Data.Sorting
import StealthHub.Effect.Crash
import StealthHub.Effect.Interleave
import StealthHub.Effect.Fence
import StealthHub.Reconcile.Verdict
import StealthHub.Reconcile.Worker
import StealthHub.Reconcile.Files
import StealthHub.Reconcile.Mirror
import StealthHub.Reconcile.Convergence
import StealthHub.Reconcile.Control
import StealthHub.Reconcile.Ordered
import StealthHub.Reconcile.Freshness
import StealthHub.Reconcile.Interrupted
import StealthHub.Routing.Mihomo
import StealthHub.Routing.Topology
import StealthHub.Routing.Explained
import StealthHub.Routing.Inspection
import StealthHub.Routing.Validation
import StealthHub.Routing.Document
import StealthHub.Routing.Groups
import StealthHub.Routing.Reported
import StealthHub.Adapters.ProtocolsSpec
import StealthHub.Panel.Subscription
import StealthHub.Users.Authorization
import StealthHub.Users.Wakeup
import StealthHub.Storage.Database
import StealthHub.Storage.Profiles
import StealthHub.Storage.Generations
import StealthHub.Storage.Policies
import StealthHub.Storage.References
import StealthHub.Storage.Bootstrap
import StealthHub.Storage.Upgrade
import StealthHub.Storage.ProductOwned
import StealthHub.Reconcile.Privileged
import StealthHub.Reconcile.Selection
import StealthHub.Reconcile.Removal
import StealthHub.Adapters.UserSync
import StealthHub.Panel.Admission
import StealthHub.Panel.Operations
import StealthHub.Panel.ServerSecrets
import StealthHub.Panel.Migration
import StealthHub.Panel.Servable
import StealthHub.Panel.LoginLimiter
import StealthHub.Panel.Settings
import StealthHub.Panel.Sessions
import StealthHub.Panel.Setup
import StealthHub.Storage.PolicyReads
import StealthHub.Panel.RuleSources
import StealthHub.Routing.Payloads
import StealthHub.Storage.BulkEntries
import StealthHub.Routing.PoolGraph
import StealthHub.Reconcile.Dependencies
import StealthHub.Storage.PolicyRows
import StealthHub.Storage.Versions
import StealthHub.Reconcile.Gate
import StealthHub.Reconcile.Adoption
import StealthHub.Adapters.TlsReadiness
import StealthHub.Adapters.Rollback
import StealthHub.Adapters.ClientReads
import StealthHub.Panel.SharedSecrets
import StealthHub.Modules.Containment
import StealthHub.Panel.FetchTargets
import StealthHub.Adapters.Discovery
import StealthHub.Adapters.Unambiguous
import StealthHub.Adapters.Renderable
import StealthHub.Panel.StartupMigration
import StealthHub.Panel.Secrecy
import StealthHub.Routing.Wildcard
import StealthHub.Adapters.Compatible
import StealthHub.Compatibility
import StealthHub.Adapters.ServerNames
import StealthHub.Storage.RoutingEdits
import StealthHub.Storage.Telemetry
import StealthHub.Panel.Compilability
import StealthHub.Manager.Secrets
import StealthHub.Updater.Status
import StealthHub.Updater.InUse
import StealthHub.Updater.Served
import StealthHub.Updater.Release
