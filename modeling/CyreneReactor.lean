import CyreneReactor.Data.Table
import CyreneReactor.Domain
import CyreneReactor.Interaction.Section
import CyreneReactor.Service.Commands
import CyreneReactor.Lifecycle.Commands
import CyreneReactor.Lifecycle.Serial
import CyreneReactor.Lifecycle.Discipline
import CyreneReactor.Service.Script
import CyreneReactor.Guarantees.Documents
import CyreneReactor.Guarantees.Stopping
import CyreneReactor.Guarantees.CrashRecovery
import CyreneReactor.Guarantees.Creation
import CyreneReactor.Guarantees.Interleaving
import CyreneReactor.PackageRuntime.Ledger
import CyreneReactor.PackageRuntime.Owner
import CyreneReactor.Interaction.LockFree
import CyreneReactor.PackageRuntime.Operations
import CyreneReactor.PackageRuntime.Discipline
import CyreneReactor.PackageRuntime.Activation
import CyreneReactor.PackageRuntime.Verified
import CyreneReactor.Interaction.Schedule
import CyreneReactor.PackageRuntime.Script
import CyreneReactor.Guarantees.OperationLedger
import CyreneReactor.Guarantees.Receipts
import CyreneReactor.Data.JsonText
import CyreneReactor.Interaction.Noninterference
import CyreneReactor.ModelImports.Store
import CyreneReactor.ModelImports.Request
import CyreneReactor.ModelImports.Service
import CyreneReactor.ModelImports.Discipline
import CyreneReactor.ModelImports.Verified
import CyreneReactor.ModelImports.Script
import CyreneReactor.Guarantees.ImportAdmission
import CyreneReactor.Guarantees.ImportIsolation
import CyreneReactor.Diagnostics.Text
import CyreneReactor.Diagnostics.Record
import CyreneReactor.Diagnostics.Validity
import CyreneReactor.Diagnostics.Store
import CyreneReactor.Diagnostics.Service
import CyreneReactor.Diagnostics.Discipline
import CyreneReactor.Diagnostics.Verified
import CyreneReactor.Diagnostics.Recorded
import CyreneReactor.Diagnostics.Script
import CyreneReactor.Guarantees.DiagnosticRecords
import CyreneReactor.Guarantees.DiagnosticHarvest
import CyreneReactor.Interaction.Machine
import CyreneReactor.Data.Counting
import CyreneReactor.Runtime.Exceptions
import CyreneReactor.Runtime.TaskScheduler
import CyreneReactor.Runtime.Custody
import CyreneReactor.Guarantees.Scheduling
import CyreneReactor.Runtime.Stream
import CyreneReactor.Runtime.Delivery
import CyreneReactor.Runtime.Serving
import CyreneReactor.Guarantees.Streaming
import CyreneReactor.Runtime.Servicer
import CyreneReactor.Guarantees.ErrorStatus
import CyreneReactor.Guarantees.ServicerAgreement
import CyreneReactor.Runtime.Residency
import CyreneReactor.Runtime.ResidencyBooks
import CyreneReactor.Guarantees.Residency
import CyreneReactor.Runtime.PluginAdapter
import CyreneReactor.Guarantees.PluginCleanup
import CyreneReactor.Data.Paging
import CyreneReactor.Interaction.Answers
import CyreneReactor.Diagnostics.Paging
import CyreneReactor.Guarantees.DiagnosticPaging
import CyreneReactor.Drafts.Store
import CyreneReactor.Drafts.Api
import CyreneReactor.Drafts.Books
import CyreneReactor.Guarantees.DerivedKeys
import CyreneReactor.Exchange.Handoff
import CyreneReactor.Guarantees.EndpointAgreement
import CyreneReactor.Guarantees.EvidenceMigration
import CyreneReactor.Guarantees.QuietPolls
import CyreneReactor.Guarantees.StreamBuffering
import CyreneReactor.Guarantees.HotReloading
import CyreneReactor.Guarantees.Transparency
import CyreneReactor.Guarantees.DegradedFlag
import CyreneReactor.Guarantees.RemoteReadiness
import CyreneReactor.Guarantees.RemoteFailures
import CyreneReactor.Lifecycle.Verdicts
import CyreneReactor.Guarantees.LaunchVerdicts
import CyreneReactor.Guarantees.Retention
import CyreneReactor.Guarantees.TokenOrigin
import CyreneReactor.Guarantees.WorkspaceProjection
import CyreneReactor.Guarantees.SchedulingOrder
import CyreneReactor.Guarantees.LatestOperation
import CyreneReactor.Guarantees.Connection
import CyreneReactor.Guarantees.LogRedaction
import CyreneReactor.Guarantees.LogBounds
import CyreneReactor.Guarantees.SafeFilenames
import CyreneReactor.Guarantees.HandoffOrigin
import CyreneReactor.Guarantees.WorkspaceAuthorization
import CyreneReactor.Data.Numbers
import CyreneReactor.Alerts.Manager
import CyreneReactor.Guarantees.AlertHistory
import CyreneReactor.Guarantees.PathConfinement
import CyreneReactor.Guarantees.DraftDeployment
import CyreneReactor.Guarantees.ImportCrashes
import CyreneReactor.Guarantees.LedgerCrashes
import CyreneReactor.Interaction.Snapshot
import CyreneReactor.PackageRuntime.Admission
import CyreneReactor.Guarantees.EngineAdmission
import CyreneReactor.Interaction.Termination
import CyreneReactor.Guarantees.BufferWaits
import CyreneReactor.Guarantees.PlacementOrder
import CyreneReactor.Guarantees.SecretPatterns
import CyreneReactor.Guarantees.StructuredRedaction
import CyreneReactor.Guarantees.LatencyPercentiles
import CyreneReactor.Guarantees.EventStream
import CyreneReactor.Guarantees.CommandLock
import CyreneReactor.Guarantees.ActivityTracking
import CyreneReactor.Guarantees.Linearizability
import CyreneReactor.Interaction.Recall
