import AiSaas.Lib.Tables
import AiSaas.Lib.Runs
import AiSaas.Lib.Transactions
import AiSaas.Lib.Mealy
import AiSaas.Python
import AiSaas.Billing.Models
import AiSaas.Database
import AiSaas.Metering.CreditLedger
import AiSaas.Billing.Payment
import AiSaas.Billing.Store
import AiSaas.Lib.Dicts
import AiSaas.Lib.Backtracking
import AiSaas.Lib.Escrow
import AiSaas.Lib.Ascii
import AiSaas.LocalRuntime
import AiSaas.Metering.Solvency
import AiSaas.Conservation
import AiSaas.Metering.Lifecycle
import AiSaas.Billing.Payments
import AiSaas.Billing.Entitlement
import AiSaas.Billing.Adapters.Base
import AiSaas.Billing.Adapters.LemonSqueezy
import AiSaas.Billing.Adapters.Mock
import AiSaas.Billing.Service
import AiSaas.Billing.Webhooks
import AiSaas.Metering.Quota
import AiSaas.RunService.Models
import AiSaas.RunService.Redaction
import AiSaas.RunService.Patterns
import AiSaas.RunService.SecretWords
import AiSaas.RunService.Secrets
import AiSaas.Re
import AiSaas.Lines
import AiSaas.RunService.Store
import AiSaas.RunService.Writes
import AiSaas.Lib.Logs
import AiSaas.RunService.Replay
import AiSaas.Lib.Processes
import AiSaas.RunService.Operations
import AiSaas.RunService.Service
import AiSaas.AgentWorker.Runtime
import AiSaas.AgentWorker.Trails
import AiSaas.AgentWorker.Facts
import AiSaas.AgentWorker.Charges
import AiSaas.RunService.Announcements
import AiSaas.AgentWorker.Cancellation
import AiSaas.AgentWorker.ModelCalls
import AiSaas.AgentWorker.Approval
import AiSaas.RunService.Holds
import AiSaas.Lib.Solo
import AiSaas.RunService.Returns
import AiSaas.RunService.Retry
import AiSaas.AgentWorker.Workload
import AiSaas.AgentWorker.Standing
import AiSaas.AgentWorker.Course
import AiSaas.AgentWorker.Restart
import AiSaas.Kernel.Approvals
import AiSaas.Kernel.Idempotency
import AiSaas.Kernel.Ledger
import AiSaas.Identity.Boundary
import AiSaas.Identity.OAuth
import AiSaas.Admin.Audit
import AiSaas.ProposalReview.Readiness
import AiSaas.Billing.Confirmation
import AiSaas.Kernel.Threads
import AiSaas.Kernel.Staleness
import AiSaas.Billing.Adapters.TossWebhooks
import AiSaas.ControlApi.RepositoryCatalog
import AiSaas.ProposalReview.Isolation
import AiSaas.ProposalReview.Decisions
import AiSaas.Kernel.Outputs
import AiSaas.Migrations.Confirmation
import AiSaas.Kernel.Budgets
import AiSaas.SandboxWorker.Commands
import AiSaas.ControlApi.Auth
import AiSaas.Observability.Redaction
import AiSaas.Observability.Tracing
import AiSaas.ProjectPacks.Repository
import AiSaas.ProjectPacks.Proposal
import AiSaas.ProjectPacks.Evidence
import AiSaas.ProjectPacks.Revalidation
import AiSaas.Scripts.ExtractVerdict
import AiSaas.ProposalReview.Synthesis
import AiSaas.Lib.Turns
import AiSaas.ProposalReview.Shares
import AiSaas.Migrations.Repair
import AiSaas.Migrations.Preflight
import AiSaas.ProposalReview.Filtering
import AiSaas.Scripts.VerdictFromComment
import AiSaas.Pricing.Providers
import AiSaas.ControlApi.ImportSnapshot
import AiSaas.Faq.Text
import AiSaas.Faq.Service
import AiSaas.Lib.Greedy
import AiSaas.ProposalReview.Documents
import AiSaas.ProposalReview.Requirements
import AiSaas.Lib.UnifiedDiff
import AiSaas.SandboxWorker.DiffArtifact
import AiSaas.Lib.Occurrences
import AiSaas.Migrations.SqlText
import AiSaas.Migrations.Statements
import AiSaas.Migrations.Destructive
import AiSaas.Pricing.Catalog
import AiSaas.Pricing.Agreement
import AiSaas.ProposalReview.Selection
import AiSaas.Lib.Search
import AiSaas.ControlApi.Discovery
import AiSaas.ControlApi.Resolution
import AiSaas.Kernel.Credentials
import AiSaas.Kernel.Coverage
import AiSaas.Kernel.Noninterference
import AiSaas.Kernel.Statements
import AiSaas.AgentOrchestrator.Records
import AiSaas.AgentOrchestrator.Endings
import AiSaas.AgentOrchestrator.Workflow
import AiSaas.AgentOrchestrator.Steps
import AiSaas.AgentOrchestrator.Trails
import AiSaas.AgentOrchestrator.Gates
import AiSaas.Migrations.Recovery
import AiSaas.Pricing.Settlement
import AiSaas.Pricing.Settled
import AiSaas.Pricing.Payments
import AiSaas.Lib.Shares
import AiSaas.Lib.RelyGuarantee
import AiSaas.Kernel.Tenancy
import AiSaas.Kernel.Ownership
import AiSaas.AgentOrchestrator.Tenants
