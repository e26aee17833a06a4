import ProxboxApi.Runs
import ProxboxApi.DeletionRequests
import ProxboxApi.Idempotency
import ProxboxApi.CacheCoherence
import ProxboxApi.RestCreate
import ProxboxApi.PageChains
import ProxboxApi.Convergence
import ProxboxApi.NameUniqueness
import ProxboxApi.NameReach
import ProxboxApi.CephRedaction
import ProxboxApi.CephPlan
import ProxboxApi.CephApply
import ProxboxApi.CephSafety
import ProxboxApi.CephOnce
import ProxboxApi.VirtualDisks
import ProxboxApi.SelectionExact
import ProxboxApi.IdentityVerdict
import ProxboxApi.Outcomes
import ProxboxApi.Reconcile
import ProxboxApi.SyncSchemas
import ProxboxApi.VmInterfaces
import ProxboxApi.InterfaceFrame
import ProxboxApi.IpOwnership
import ProxboxApi.IpSafety
import ProxboxApi.BulkReconcile
import ProxboxApi.BulkAgreement
import ProxboxApi.Steps
import ProxboxApi.VerbHandlers
import ProxboxApi.VerbAudit
import ProxboxApi.RoleResolution
import ProxboxApi.OrphanSweep
import ProxboxApi.IntentDispatch
import ProxboxApi.IntentParams
import ProxboxApi.JournalAnchors
import ProxboxApi.StaleMarking
import ProxboxApi.SecretScrub
import ProxboxApi.SnapshotCleanup
import ProxboxApi.BackupVmCache
import ProxboxApi.BackupCleanup
import ProxboxApi.CloudGate
import ProxboxApi.DeviceAdoption
import ProxboxApi.DeviceAgreement
import ProxboxApi.InterfaceIps
import ProxboxApi.TaskHistory
import ProxboxApi.TaskOwnership
import ProxboxApi.TaskAgreement
import ProxboxApi.Scan
import ProxboxApi.TaskArchive
import ProxboxApi.InterfaceIpAgreement
import ProxboxApi.StaleIps
import ProxboxApi.FirstMatch
import ProxboxApi.PrimaryIps
import ProxboxApi.PrimaryIpOwners
import ProxboxApi.SnapshotSync
import ProxboxApi.SnapshotConvergence
import ProxboxApi.RustQueue
import ProxboxApi.VmDispatch
import ProxboxApi.DispatchRuns
import ProxboxApi.VmTags
import ProxboxApi.GeneratedProxy
import ProxboxApi.SessionGuard
import ProxboxApi.WriteGates
import ProxboxApi.OverwriteFlags
import ProxboxApi.OverwriteAdoption
import ProxboxApi.Attempts
import ProxboxApi.CloudLease
import ProxboxApi.CloudProvision
import ProxboxApi.LeaseRuns
import ProxboxApi.LeaseSettlement
import ProxboxApi.LeaseOutcome
import ProxboxApi.CephWriters
import ProxboxApi.FirewallWrites
import ProxboxApi.IntentApply
import ProxboxApi.ApiKeys
import ProxboxApi.AuthLockout
import ProxboxApi.Credentials
import ProxboxApi.Ssrf
import ProxboxApi.EventWindows
import ProxboxApi.NameAgreement
import ProxboxApi.SidecarQueue
import ProxboxApi.SidecarVerdict
import ProxboxApi.ArchivePages
import ProxboxApi.Retention
import ProxboxApi.EndpointCache
import ProxboxApi.ScopedTimeout
import ProxboxApi.BackupOwnership
import ProxboxApi.GuestInterfaces
import ProxboxApi.GuestAggregation
import ProxboxApi.Binary64
import ProxboxApi.DiskSizes
import ProxboxApi.TypedPick
import ProxboxApi.DiskTotals
import ProxboxApi.DescriptionMetadata
import ProxboxApi.DescriptionSafety
import ProxboxApi.ServerRuns
import ProxboxApi.ProvisionAgreement
import ProxboxApi.ProvisionTasks
import ProxboxApi.ProvisionReports
import ProxboxApi.FirewallPaths
import ProxboxApi.TagRuns
import ProxboxApi.CacheBounds
import ProxboxApi.SettingsCache
import ProxboxApi.GuestConvergence
import ProxboxApi.SingleFlight
import ProxboxApi.Generators
import ProxboxApi.SsePayloads
import ProxboxApi.SseStream
import ProxboxApi.PydanticApart
import ProxboxApi.HonestServer
import ProxboxApi.NameFixpoint
import ProxboxApi.NameSecondRun
import ProxboxApi.RateLimit
import ProxboxApi.TerminalSessions
import ProxboxApi.LogRedaction
import ProxboxApi.ScanWords
