import CryptoPay.Async.Prog
import CryptoPay.Async.System
import CryptoPay.Async.RelyGuarantee
import CryptoPay.Async.Sequential
import CryptoPay.Data.Table
import CryptoPay.Shared.Errors
import CryptoPay.Payments.Amount
import CryptoPay.Payments.StateMachines
import CryptoPay.Database.Schema
import CryptoPay.Database.Prisma
import CryptoPay.Payments.Matching
import CryptoPay.Blockchain.Adapter
import CryptoPay.Payments.Steps
import CryptoPay.Payments.Commits
import CryptoPay.Payments.Coupling
import CryptoPay.Payments.Requests
import CryptoPay.Payments.Batches
import CryptoPay.Payments.CalmRuns
import CryptoPay.Payments.CalmMatching
import CryptoPay.Payments.CalmSteps
import CryptoPay.Data.Patches
import CryptoPay.Payments.Outline
import CryptoPay.Payments.StepOutlines
import CryptoPay.Payments.LoneRuns
import CryptoPay.Payments.EventLog
import CryptoPay.Blockchain.Oracle
import CryptoPay.Api.Invoices
import CryptoPay.Api.Outlines
import CryptoPay.Blockchain.Fake
import CryptoPay.Blockchain.FakeIndexes
import CryptoPay.Api.Payments
import CryptoPay.Api.Ticks
import CryptoPay.Api.FakeRuns
import CryptoPay.Worker.BlockchainScan
import CryptoPay.Worker.PaymentConfirm
import CryptoPay.Worker.Outlines
import CryptoPay.Worker.Jobs
import CryptoPay.Worker.Pipeline
import CryptoPay.Worker.InvoiceTransitions
import CryptoPay.Worker.MoneySafety
import CryptoPay.Blockchain.Evm
import CryptoPay.Blockchain.Node
import CryptoPay.Worker.AddressFilter
import CryptoPay.Worker.CursorFootprint
import CryptoPay.Worker.Passes
import CryptoPay.Worker.ReorgGrace
import CryptoPay.Worker.ReorgOutcomes
import CryptoPay.Worker.ScanCursor
import CryptoPay.Worker.ScanCoverage
import CryptoPay.Worker.ForkCoverage
import CryptoPay.Worker.Finality
import CryptoPay.Worker.ExactlyOnce
import CryptoPay.Worker.SettledOnce
import CryptoPay.Worker.ScanPass
import CryptoPay.Worker.CalmPasses
import CryptoPay.Worker.ConfirmOrder
import CryptoPay.Worker.Visits
import CryptoPay.Worker.OwnNetwork
import CryptoPay.Worker.Undisturbed
import CryptoPay.Worker.CatchUp
import CryptoPay.Async.History
import CryptoPay.Async.Timed
import CryptoPay.Data.Backlog
import CryptoPay.Webhooks.Tables
import CryptoPay.Webhooks.Effects
import CryptoPay.Webhooks.Deliver
import CryptoPay.Webhooks.Queues
import CryptoPay.Webhooks.Expected
import CryptoPay.Webhooks.Steps
import CryptoPay.Webhooks.Pairs
import CryptoPay.Webhooks.FanOut
import CryptoPay.Webhooks.Overlap
import CryptoPay.Webhooks.Lone
import CryptoPay.Webhooks.Isolation
import CryptoPay.Webhooks.Starvation
import CryptoPay.Webhooks.Revocation
import CryptoPay.Webhooks.Lifecycle
import CryptoPay.Api.Creations
import CryptoPay.Api.Schemas
import CryptoPay.Auth.TokenTable
import CryptoPay.Auth.RefreshTokenService
import CryptoPay.Auth.Rotations
import CryptoPay.Auth.Families
import CryptoPay.Auth.TheftDetection
import CryptoPay.Api.ModeChanges
import CryptoPay.Api.Custody
import CryptoPay.Api.Payable
import CryptoPay.Async.Embedding
import CryptoPay.Shared.Encryption
import CryptoPay.Accounts.UserTable
import CryptoPay.Accounts.AuthService
import CryptoPay.Accounts.Conduct
import CryptoPay.Accounts.Suspension
import CryptoPay.Accounts.Enrolment
import CryptoPay.Accounts.TwoFactor
import CryptoPay.Data.Windows
import CryptoPay.Accounts.Lockout
import CryptoPay.Accounts.Registration
import CryptoPay.Accounts.Enumeration
import CryptoPay.Accounts.Sessions
import CryptoPay.Async.Components
import CryptoPay.Worker.Announcements
import CryptoPay.Tenancy.Notifications
import CryptoPay.Shared.Redis
import CryptoPay.Tenancy.Tables
import CryptoPay.Tenancy.Services
import CryptoPay.Data.Doubles
import CryptoPay.Data.Views
import CryptoPay.Data.Addresses
import CryptoPay.Data.Paging
import CryptoPay.Data.Pairs
import CryptoPay.Data.Ranges
import CryptoPay.Shared.Numbers
import CryptoPay.Webhooks.Signatures
import CryptoPay.Webhooks.SsrfGuard
import CryptoPay.Api.CsrfGuard
import CryptoPay.Blockchain.Interchange
import CryptoPay.Tenancy.Holdings
import CryptoPay.Tenancy.Requests
import CryptoPay.Tenancy.ObjectIsolation
import CryptoPay.Async.TwoRuns
import CryptoPay.Async.Journal
import CryptoPay.Async.Lockstep
import CryptoPay.Api.RateLimits
import CryptoPay.Api.WindowEnds
import CryptoPay.Api.TwoPipelines
import CryptoPay.Api.Replays
import CryptoPay.Api.Footprint
import CryptoPay.Api.Watermark
import CryptoPay.Api.Sources
import CryptoPay.Api.CalmTicks
import CryptoPay.Api.Stalls
import CryptoPay.Webhooks.Connections
import CryptoPay.Organizations.OrganizationsService
import CryptoPay.Organizations.Ownership
import CryptoPay.Organizations.Updates
import CryptoPay.Tenancy.AuditTrail
import CryptoPay.Worker.CommitFootprint
import CryptoPay.Worker.PastTransfers
import CryptoPay.Worker.Accounted
import CryptoPay.Tenancy.OperationWrites
import CryptoPay.Tenancy.ApiKeyLifetime
import CryptoPay.Data.Base64
import CryptoPay.Tenancy.ApiKeyCreation
import CryptoPay.Tenancy.WebhookSecrets
import CryptoPay.Tenancy.Routes
import CryptoPay.Tenancy.Privileges
import CryptoPay.Tenancy.InvoicePages
import CryptoPay.Webhooks.Posts
import CryptoPay.Worker.Convergence
