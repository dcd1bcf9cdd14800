import PaymentOrchestration.Common.Enums
import PaymentOrchestration.Common.Json

/-!
This module contains the rows of the four tables, the request bodies and the exceptions. Columns
that no modelled function reads (`created_at` of a payment, `updated_at`, `received_at`) are left
out.
-/

namespace PaymentOrchestration

structure Transaction where
  id : String
  idempotencyKey : String
  merchantId : String
  amount : Nat
  currency : String
  currentState : TransactionState
  selectedGateway : Option GatewayProvider
  gatewayTxnId : Option String
  fallbackGateways : List GatewayProvider
  attemptCount : Nat
  finalReconciledAt : Option Nat
  deriving DecidableEq, Repr

/--
What `txnRepo.create` is given. The other columns have defaults.
-/
structure NewTransaction where
  idempotencyKey : String
  merchantId : String
  amount : Nat
  currency : String
  currentState : TransactionState
  selectedGateway : Option GatewayProvider
  fallbackGateways : List GatewayProvider
  deriving DecidableEq, Repr

def NewTransaction.row (txn : NewTransaction) (id : String) : Transaction where
  id := id
  idempotencyKey := txn.idempotencyKey
  merchantId := txn.merchantId
  amount := txn.amount
  currency := txn.currency
  currentState := txn.currentState
  selectedGateway := txn.selectedGateway
  gatewayTxnId := none
  fallbackGateways := txn.fallbackGateways
  attemptCount := 0
  finalReconciledAt := none

structure AuditLog where
  transactionId : String
  fromState : Option TransactionState
  toState : TransactionState
  gateway : Option GatewayProvider
  reason : Option String
  rawGatewayResponse : Option Json
  -- Set by the database: the start of the enclosing database transaction.
  createdAt : Nat := 0

structure WebhookEvent where
  id : String
  gateway : GatewayProvider
  eventId : String
  eventType : String
  payload : Json
  signatureVerified : Bool
  processed : Bool
  processedAt : Option Nat

structure IncomingWebhook where
  gateway : GatewayProvider
  -- The two texts as their columns keep them.
  eventId : String
  eventType : String
  payload : Json
  signatureVerified : Bool
  -- Whether the event id that the handler has found can be written as a text.
  convertible : Bool := true

def IncomingWebhook.row (event : IncomingWebhook) (id : String) : WebhookEvent where
  id := id
  gateway := event.gateway
  eventId := event.eventId
  eventType := event.eventType
  payload := event.payload
  signatureVerified := event.signatureVerified
  processed := false
  processedAt := none

structure GatewayStats where
  gateway : GatewayProvider
  successCount : Nat
  failureCount : Nat
  avgLatencyMs : Nat
  costBps : Nat
  circuitState : CircuitState
  consecutiveFailures : Nat
  deriving DecidableEq, Repr

-- The controller rejects a request without a key before it calls the service.
structure CreateTransactionDto where
  idempotencyKey : String
  merchantId : String
  amount : Nat
  currency : String
  deriving DecidableEq, Repr

structure GatewayChargeRequest where
  transactionId : String
  amount : Nat
  currency : String
  idempotencyKey : String
  deriving DecidableEq, Repr

structure GatewayChargeResponse where
  success : Bool
  -- `none` is `undefined`, `some none` is `null`.
  gatewayTxnId : Option (Option String)
  rawResponse : Json
  error : Option String
  latencyMs : Nat

inductive Err where
  | conflict (message : String)
  | serviceUnavailable (message : String)
  | badRequest (message : String)
  | notFound (message : String)
  | queryFailed (code : Option String) (message : String)
  | redis (message : String)
  | error (message : String)
  deriving DecidableEq, Repr

/--
What a template literal throws for an object that it cannot write as a text.
-/
def Err.cannotConvert : Err :=
  .error "Cannot convert object to primitive value"

def Err.message (err : Err) : String :=
  match err with
  | .conflict message | .serviceUnavailable message | .badRequest message | .notFound message
  | .queryFailed _ message | .redis message | .error message => message

end PaymentOrchestration
