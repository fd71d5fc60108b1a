import AccountOS.Treasury.Correctness.SettlementOutcome
import AccountOS.Treasury.Correctness.DoubleSpend
import AccountOS.Treasury.Correctness.LostUpdate
import AccountOS.Ledger.Ledger
import AccountOS.Rules.RuleEngine
import AccountOS.Queue.RetryProcessor
import AccountOS.Queue.WebhookProcessor
import AccountOS.Queue.Correctness.AtMostOnce
import AccountOS.Queue.Correctness.Configuration
import AccountOS.Queue.Correctness.Redelivery
import AccountOS.Queue.Correctness.Allocations
import AccountOS.Identity.IdentityService
import AccountOS.Rules.RuleSchema
import AccountOS.Rules.RulesService
import AccountOS.Rules.Correctness.PercentageSum
import AccountOS.Rules.Correctness.Acceptance
import AccountOS.Sql.Trigger
import AccountOS.Store.AppendOnly
import AccountOS.Queue.Correctness.RetryAgreement
import AccountOS.Ledger.Correctness.RunningTotals
import AccountOS.Treasury.Correctness.Postings
import AccountOS.Treasury.Correctness.Conservation
import AccountOS.Treasury.Correctness.Completion
import AccountOS.Treasury.Close
import AccountOS.Treasury.Correctness.ClosedBuckets
import AccountOS.Conc.Alone
import AccountOS.Store.Alone
import AccountOS.Queue.Correctness.StrandedRetries
import AccountOS.Queue.Producers
import AccountOS.Queue.Correctness.ForgedInflows
import AccountOS.Conc.Interference
import AccountOS.Sql.Slice
import AccountOS.Queue.Correctness.Tenants
import AccountOS.Queue.Correctness.TenantCalls
import AccountOS.Queue.Correctness.TenantIsolation
import AccountOS.Accounts.AccountLifecycle
import AccountOS.Accounts.Correctness.WritePaths
import AccountOS.Conc.Trace
import AccountOS.Rules.Correctness.SchemaCompleteness
import AccountOS.Rules.Correctness.EventKinds
import AccountOS.Accounts.Correctness.TerminalStates
import AccountOS.Rules.Correctness.Calls
import AccountOS.Rules.Correctness.ArchivedRules
import AccountOS.Identity.Correctness.StaleRules
import AccountOS.Rules.Correctness.ConcurrentReplacement
import AccountOS.Queue.Correctness.SuspendedGate
import AccountOS.Queue.Correctness.ExecutionCalls
import AccountOS.Queue.Correctness.FinishedExecutions
import AccountOS.Queue.Correctness.ClosedExecutions
import AccountOS.Queue.Correctness.AllocationCalls
import AccountOS.Queue.Correctness.InflowTotals
import AccountOS.Treasury.Correctness.ReservationRelease
import AccountOS.Treasury.Correctness.AuditTrail
import AccountOS.Treasury.Correctness.ExactlyOnce
import AccountOS.Sql.Deadlock
import AccountOS.Treasury.Correctness.WaitingForBuckets
import AccountOS.Conc.RelyGuarantee
import AccountOS.Treasury.Provision
import AccountOS.Store.Contract
import AccountOS.Identity.Correctness.NameHistory
import AccountOS.Sql.Ownership
import AccountOS.Store.Tenancy
import AccountOS.Tenancy.Correctness.Requests
import AccountOS.Tenancy.Correctness.Workers
import AccountOS.Tenancy.Correctness.Isolation
import AccountOS.Common.IdempotencyInterceptor
import AccountOS.Common.Correctness.Idempotency
import AccountOS.Accounts.Correctness.Compensation
import AccountOS.Common.SchedulerService
import AccountOS.Tenancy.Correctness.Footprint
import AccountOS.Common.Correctness.Triggers
import AccountOS.Common.Correctness.TimeRules
import AccountOS.Num.Rounding
import AccountOS.Store.Doubles
import AccountOS.Queue.Correctness.PercentageSplit
import AccountOS.Rules.Correctness.Evaluation
import AccountOS.Queue.Correctness.FlaggedInflows
import AccountOS.Queue.Correctness.CustomReleases
import AccountOS.Conc.Retries
import AccountOS.Queue.Correctness.RetryLifeCycle
import AccountOS.Rules.Correctness.ReplacementFailures
import AccountOS.Accounts.Correctness.ClosingFailures
import AccountOS.Common.Correctness.DisputeWindows
import AccountOS.Sql.Paging
import AccountOS.Store.FindMany
import AccountOS.Ledger.Queries
import AccountOS.Ledger.Correctness.Paging
import AccountOS.Treasury.Statement
import AccountOS.Treasury.Correctness.StatementPaging
import AccountOS.Csv.Rfc4180
import AccountOS.Num.Decimal
import AccountOS.Store.Texts
import AccountOS.Ledger.Correctness.Export
import AccountOS.Ledger.Correctness.ExportedAmounts
import AccountOS.Conc.Calls
import AccountOS.Common.Correctness.Replays
import AccountOS.Conc.Noted
import AccountOS.Treasury.Correctness.Destinations
import AccountOS.Codec.Hex
import AccountOS.Auth.CryptoUtils
import AccountOS.Auth.AuthService
import AccountOS.Auth.AuthController
import AccountOS.Conc.Within
import AccountOS.Auth.Correctness.Steps
import AccountOS.Auth.Correctness.KeyLifeCycle
import AccountOS.Auth.Correctness.Credentials
import AccountOS.Http.Server
import AccountOS.Http.Correctness.Gate
import AccountOS.Http.Correctness.Services
import AccountOS.Nomba.NombaClient
import AccountOS.Nomba.Correctness.Tokens
import AccountOS.Sql.Offset
import AccountOS.Sql.Growth
import AccountOS.Store.OffsetListing
import AccountOS.Store.LiveListing
import AccountOS.Tenancy.Reads
import AccountOS.Tenancy.Correctness.ReadIsolation
import AccountOS.Tenancy.Correctness.Growth
import AccountOS.Tenancy.Correctness.LivePaging
import AccountOS.Tenancy.Correctness.Withdrawals
import AccountOS.Tenancy.Correctness.Payouts
import AccountOS.Tenancy.Correctness.SettlementStates
