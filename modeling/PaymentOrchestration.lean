import PaymentOrchestration.Concurrency.Protocol
import PaymentOrchestration.Party.Basic
import PaymentOrchestration.Common.Strings
import PaymentOrchestration.Party.Services
import PaymentOrchestration.Party.Calls
import PaymentOrchestration.Books.Basic
import PaymentOrchestration.Books.Invariant
import PaymentOrchestration.Books.Effects
import PaymentOrchestration.Books.Refinement
import PaymentOrchestration.Books.CreateTrail
import PaymentOrchestration.Books.History
import PaymentOrchestration.Scenario
import PaymentOrchestration.Transactions.Idempotency
import PaymentOrchestration.Books.Replay
import PaymentOrchestration.Transactions.AuditReplay
import PaymentOrchestration.Transactions.ChargeAudit
import PaymentOrchestration.Transactions.DoubleCapture
import PaymentOrchestration.Books.Lookups
import PaymentOrchestration.Webhooks.FailedPayment
import PaymentOrchestration.Webhooks.NamedPayment
import PaymentOrchestration.Transactions.Completed
import PaymentOrchestration.Concurrency.Trace
import PaymentOrchestration.Gateways.Adapters
import PaymentOrchestration.Gateways.LiveCharge
import PaymentOrchestration.Transactions.Confirmation
import PaymentOrchestration.Webhooks.WebhooksController
import PaymentOrchestration.Webhooks.LiveSignature
import PaymentOrchestration.Webhooks.PayUSignature
import PaymentOrchestration.Books.Settlement
import PaymentOrchestration.Concurrency.Issues
import PaymentOrchestration.Concurrency.Observed
import PaymentOrchestration.Webhooks.OffQueue
import PaymentOrchestration.Watched
import PaymentOrchestration.Webhooks.Custody
import PaymentOrchestration.Webhooks.Mailbag
import PaymentOrchestration.Webhooks.MailbagRefinement
import PaymentOrchestration.Webhooks.AtMostOnce
import PaymentOrchestration.Webhooks.Acknowledged
import PaymentOrchestration.Party.Calm
import PaymentOrchestration.Party.CalmCalls
import PaymentOrchestration.Party.Ground
import PaymentOrchestration.Webhooks.PoppedEvent
import PaymentOrchestration.Transactions.Uncontested
import PaymentOrchestration.Breaker.Automaton
import PaymentOrchestration.Breaker.Calls
import PaymentOrchestration.Breaker.Refinement
import PaymentOrchestration.Breaker.Serial
import PaymentOrchestration.Breaker.Caller
import PaymentOrchestration.Breaker.LostUpdate
import PaymentOrchestration.Breaker.Ranking
import PaymentOrchestration.Redis.InMemory
import PaymentOrchestration.Redis.InMemoryQueue
import PaymentOrchestration.Webhooks.Attribution
import PaymentOrchestration.Transactions.LockLog
import PaymentOrchestration.Transactions.LockProtocol
import PaymentOrchestration.Transactions.LockKeeping
import PaymentOrchestration.Transactions.LockRuns
import PaymentOrchestration.Transactions.LeakedLock
import PaymentOrchestration.Transactions.ForeignLock
import PaymentOrchestration.Concurrency.Amid
import PaymentOrchestration.Transactions.Account
import PaymentOrchestration.Transactions.Attempts
import PaymentOrchestration.Transactions.Failover
import PaymentOrchestration.Webhooks.Redelivery
import PaymentOrchestration.Transactions.CreationAudit
import PaymentOrchestration.Transactions.ShownHistory
import PaymentOrchestration.Breaker.Probe
import PaymentOrchestration.Webhooks.ResponseHash
import PaymentOrchestration.Webhooks.StripeHeader
import PaymentOrchestration.Gateways.Credentials
import PaymentOrchestration.Breaker.Latency
import PaymentOrchestration.Concurrency.Endings
import PaymentOrchestration.Transactions.Turbulence
import PaymentOrchestration.Transactions.LongAnswers
import PaymentOrchestration.Transactions.LiveSuccess
import PaymentOrchestration.Webhooks.StoredId
import PaymentOrchestration.Party.Round
import PaymentOrchestration.Webhooks.EarlyWebhook
import PaymentOrchestration.Transactions.Route
import PaymentOrchestration.Concurrency.Finishing
import PaymentOrchestration.Books.Progress
import PaymentOrchestration.Transactions.Rounds
import PaymentOrchestration.Transactions.ChargeKeys
import PaymentOrchestration.Transactions.Snapshots
import PaymentOrchestration.Breaker.Tally
import PaymentOrchestration.Breaker.Statistics
import PaymentOrchestration.Transactions.Records
import PaymentOrchestration.Transactions.TransactionsController
import PaymentOrchestration.Transactions.ChargeOnce
import PaymentOrchestration.Transactions.AskedAmounts
import PaymentOrchestration.Webhooks.SignedWebhook
import PaymentOrchestration.Breaker.DoubleLatency
