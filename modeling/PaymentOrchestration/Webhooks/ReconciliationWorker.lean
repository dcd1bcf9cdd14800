import PaymentOrchestration.Redis.RedisService
import PaymentOrchestration.Transactions.StateMachine

/-!
This module contains `ReconciliationWorkerService`: it takes the ids of stored webhook events off
the queue and drives the payments they are about to RECONCILED.
-/

namespace PaymentOrchestration

namespace ReconciliationWorker

open StateMachine

def queueName : String :=
  "payment_orchestrator:reconciliation_queue"

def extractGatewayTxnId (gateway : GatewayProvider) (payload : Json) : Option Json :=
  if !payload.truthy then
    none
  else
    match gateway with
    | .STRIPE =>
      let object := Json.field? "object" (payload.field "data")
      Json.orNull (Json.or (Json.field? "id" object) (payload.field "id"))
    | .RAZORPAY =>
      let payment := Json.field? "payment" (payload.field "payload")
      let entity := Json.field? "entity" payment
      Json.orNull (Json.or (Json.field? "id" entity)
        (Json.or (Json.field? "order_id" entity) (payload.field "id")))
    | .PAYU =>
      Json.orNull (Json.or (payload.field "mihpayid")
        (Json.or (payload.field "txnid") (payload.field "id")))
    | .UPI => Json.orNull (Json.or (payload.field "upi_txn_id") (payload.field "id"))

-- `(event.payload as any)?.idempotencyKey || '___none___'`
def payloadKey (payload : Json) : Json :=
  (Json.orNull (payload.field "idempotencyKey")).getD (.str "___none___")

def lookupConditions (gatewayTxnId : Json) (payload : Json) : List TxnWhere :=
  [.gatewayTxnId gatewayTxnId, .idempotencyKey (payloadKey payload)]

def routedMetadata (gateway : GatewayProvider) (reason : String) : TransitionMetadata where
  gateway := some (some gateway)
  reason := some reason

def processingMetadata (gateway : GatewayProvider) : TransitionMetadata where
  gateway := some (some gateway)
  incrementAttempt := true
  reason := some "Webhook reconciliation processing attempt"

def successMetadata (D : Deployment) (gateway : GatewayProvider) (gatewayTxnId : Json)
    (rawResponse : Json) : TransitionMetadata where
  gateway := some (some gateway)
  gatewayTxnId := some (some (D.bind gatewayTxnId))
  rawGatewayResponse := some rawResponse
  reason := some "Webhook reconciliation success transition"

def reconciledMetadata (gateway : GatewayProvider) (rawResponse : Json) : TransitionMetadata where
  gateway := some (some gateway)
  reason := some "Webhook reconciliation completed"
  rawGatewayResponse := some rawResponse

-- `if (state === expected) { const updated = await ...; state = updated.currentState; }`
def stepFrom (expected : TransactionState) (step : Program Transaction)
    (state : TransactionState) : Program TransactionState := do
  if state = expected then
    let updated ← step
    return updated.currentState
  else
    return state

def driveToReconciled (D : Deployment) (txn : Transaction) (gateway : GatewayProvider)
    (gatewayTxnId : Json) (rawResponse : Json) : Program Unit := do
  let currentId := txn.id
  let state := txn.currentState
  if state = .RECONCILED then
    return ()
  else
    let state ← stepFrom .INITIATED (transition currentId .ROUTED
      (routedMetadata gateway "Webhook reconciliation auto-routing")) state
    let state ← stepFrom .RETRY_PENDING (transition currentId .ROUTED
      (routedMetadata gateway "Webhook reconciliation auto-routing after retry")) state
    let state ← stepFrom .ROUTED (transition currentId .PROCESSING
      (processingMetadata gateway)) state
    let state ← stepFrom .PROCESSING (transition currentId .SUCCESS
      (successMetadata D gateway gatewayTxnId rawResponse)) state
    let _ ← stepFrom .SUCCESS (transition currentId .RECONCILED
      (reconciledMetadata gateway rawResponse)) state

-- `event.processed = true; event.processedAt = new Date(); await webhookRepo.save(event)`
def markProcessed (event : WebhookEvent) : Program Unit := do
  let now ← perform .now
  perform (.saveEvent { event with processed := true, processedAt := some now })

-- The `catch` of the source logs the error and throws it again.
def processEvent (D : Deployment) (recordId : String) : Program Unit := do
  match ← perform (.findEvent recordId) with
  | none => return ()
  | some event =>
    if event.processed then
      return ()
    else
      match extractGatewayTxnId event.gateway event.payload with
      | none => markProcessed event
      | some gatewayTxnId =>
        -- The log line writes the id.
        if !gatewayTxnId.convertible then
          throw .cannotConvert
        else
          match ← perform (.findTransaction (lookupConditions gatewayTxnId event.payload)) with
          | none => markProcessed event
          | some txn =>
            driveToReconciled D txn event.gateway gatewayTxnId event.payload
            markProcessed event

/--
One round of the loop in `pollQueue`. The loop catches what a round throws and starts the next one.
-/
def pollQueue (D : Deployment) : Program Unit := do
  match ← RedisService.brpop queueName with
  | none => return ()
  | some eventRecordId => processEvent D eventRecordId

end ReconciliationWorker

end PaymentOrchestration
