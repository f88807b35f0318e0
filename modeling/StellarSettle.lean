import StellarSettle.Analytics.CatchUp
import StellarSettle.Analytics.SnapshotReplicas
import StellarSettle.Auth.CurrentUser
import StellarSettle.Auth.SingleUse
import StellarSettle.Caches.EventViews
import StellarSettle.Caches.InvoiceCache
import StellarSettle.Caches.TtlLifetimes
import StellarSettle.Caches.TtlReference
import StellarSettle.Concurrency.Cancellation
import StellarSettle.Concurrency.CrossService
import StellarSettle.Concurrency.FrozenHoldings
import StellarSettle.Concurrency.Funding
import StellarSettle.Concurrency.FundingOrchestration
import StellarSettle.Concurrency.InvestOnce
import StellarSettle.Concurrency.InvestmentStatus
import StellarSettle.Concurrency.ListedHoldings
import StellarSettle.Concurrency.ListingSales
import StellarSettle.Concurrency.LostUpdate
import StellarSettle.Concurrency.MaturityDeadlines
import StellarSettle.Concurrency.PaymentVerification
import StellarSettle.Concurrency.PendingExtensions
import StellarSettle.Concurrency.SettledInvoices
import StellarSettle.Concurrency.SinglePayout
import StellarSettle.Concurrency.StatusHistory
import StellarSettle.Concurrency.VerificationRetry
import StellarSettle.Effects.AfterCommit
import StellarSettle.Effects.DispatchedJobs
import StellarSettle.Effects.ExpiryWarnings
import StellarSettle.Fees.FeeScheduleCache
import StellarSettle.Gateway.CircuitBreaker
import StellarSettle.Gateway.ContractGuard
import StellarSettle.Gateway.PauseGuard
import StellarSettle.Gateway.RateLimitBounds
import StellarSettle.Gateway.WalletWindows
import StellarSettle.Indexer.Checkpoint
import StellarSettle.Indexer.Delivery
import StellarSettle.Indexer.PagingLoop
import StellarSettle.Indexer.PollCycles
import StellarSettle.Indexer.TopicSpelling
import StellarSettle.Investments.AutoInvestRules
import StellarSettle.Investments.FundedAmount
import StellarSettle.Investments.InvestmentShares
import StellarSettle.Investments.RequestedAmount
import StellarSettle.Investments.StellarPaymentClaims
import StellarSettle.Invoices.BatchRejections
import StellarSettle.Invoices.DraftOwners
import StellarSettle.Invoices.NetAmount
import StellarSettle.Issuers.DividendCycle
import StellarSettle.Issuers.IssuerReputation
import StellarSettle.Kyc.KycWebhook
import StellarSettle.Kyc.SingleVerification
import StellarSettle.Observability.Redaction
import StellarSettle.Pagination.ClaimHistory
import StellarSettle.Pagination.DistributionHistory
import StellarSettle.Pagination.InvoicePages
import StellarSettle.Pagination.MillisecondCursors
import StellarSettle.Pagination.NotificationList
import StellarSettle.Pagination.PortfolioSums
import StellarSettle.Pagination.QueryPagination
import StellarSettle.Projections.AuctionBids
import StellarSettle.Projections.Contributions
import StellarSettle.Projections.CycleBacking
import StellarSettle.Projections.EarningsBreakdown
import StellarSettle.Projections.EventReplay
import StellarSettle.Projections.MergeTally
import StellarSettle.Projections.PositionalPayload
import StellarSettle.Projections.ReadModelCaches
import StellarSettle.Projections.StoredAmounts
import StellarSettle.Projections.SubscriptionStatus
import StellarSettle.Reconciliation.ConfirmationTicks
import StellarSettle.Settlement.AdminSettlement
import StellarSettle.Settlement.Authorization
import StellarSettle.Settlement.Conservation
import StellarSettle.Settlement.DecimalBigint
import StellarSettle.Settlement.PayoutCheck
import StellarSettle.Settlement.Redistribution
import StellarSettle.Webhooks.WebhookDispatcher
