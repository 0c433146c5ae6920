import Panella.Lib.Machine
import Panella.Lib.Table
import Panella.AuditTamper
import Panella.AuditWriter
import Panella.GovernedPaths
import Panella.StatusMachine
import Panella.ReceiptFirst
import Panella.RtbfSticky
import Panella.ReceiptAgrees
import Panella.OneDurableRow
import Panella.DurableRow
import Panella.SourceKeys
import Panella.Markers
import Panella.Attribution
import Panella.FailsClosed
import Panella.Convergence
import Panella.Stats
import Panella.McpSubmit
import Panella.StoreProbe
import Panella.Lifecycle
import Panella.PreferenceExtraction
import Panella.DomainKeys
import Panella.Distribution
import Panella.RtbfComplete
import Panella.Migration
import Panella.ExistenceOracle
import Panella.Resolver.ChoiceSet
import Panella.Resolver.RunBudget
import Panella.Resolver.NormalForm
import Panella.ClusterRun
import Panella.CanonicalOrder
import Panella.RowReaders
import Panella.Revocation
import Panella.TokenAuthority
import Panella.Timestamps
import Panella.BreakGlass
import Panella.BreakGlassAudit
import Panella.ClaimReleased
import Panella.AtomSet
import Panella.PriorSet
import Panella.SetConverges
import Panella.Resolver.Truncation
import Panella.Resolver.FitSlice
import Panella.Resolver.Fallback
import Panella.Resolver.Routing
import Panella.AuditVerifiers
import Panella.RateLimiter
import Panella.CounterFlush
import Panella.WriteQuota
import Panella.InitOverlay
import Panella.EnvFile
import Panella.WingRanking
import Panella.Reconcile
import Panella.BridgeAlerts
import Panella.Restore
import Panella.QuotaPreflight
import Panella.SidecarPurge
import Panella.PinPlain
import Panella.TagSerial
import Panella.Retries
import Panella.Up
import Panella.Backup
import Panella.McpServer
import Panella.RouterWalk
import Panella.StatsRoute
