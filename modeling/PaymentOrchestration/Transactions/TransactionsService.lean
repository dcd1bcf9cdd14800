import PaymentOrchestration.Gateways.RoutingEngine
import PaymentOrchestration.Transactions.StateMachine

/-!
This module contains `TransactionsService.create`: the idempotency guard, the row of a new payment
and the failover loop over its gateways.
-/

namespace PaymentOrchestration

namespace TransactionsService

open StateMachine RoutingEngine

def redisKey (idempotencyKey : String) : String :=
  s!"idempotency:{idempotencyKey}"

def findByKey (idempotencyKey : String) : Program (Option Transaction) :=
  perform (.findTransaction [.idempotencyKey (.str idempotencyKey)])

-- `redisService.set(redisKey, { status: 'completed', transaction }, undefined, 'EX', 86400)`
def setCompleted (idempotencyKey : String) (transaction : Transaction) : Program Unit := do
  let _ ← RedisService.set (redisKey idempotencyKey) (.completed transaction) none (some .EX)
    (some 86400)

/--
The call that did not get the lock: it answers from the cache or from the database.
-/
def replay (dto : CreateTransactionDto) : Program Transaction := do
  match ← RedisService.get (redisKey dto.idempotencyKey) with
  | some .processing =>
    throw (.conflict "Payment request is already processing. Please try again shortly.")
  | some (.completed transaction) => return transaction
  -- `JSON.parse` of a text that is none of ours
  | some (.raw _) => throw (.error "Unexpected token in JSON")
  | none =>
    match ← findByKey dto.idempotencyKey with
    | some existing =>
      setCompleted dto.idempotencyKey existing
      return existing
    | none => throw (.conflict "Payment request is already processing.")

def chargeRequest (dto : CreateTransactionDto) (transactionId : String)
    (currentGateway : GatewayProvider) : GatewayChargeRequest where
  transactionId := transactionId
  amount := dto.amount
  currency := dto.currency
  idempotencyKey := s!"{dto.idempotencyKey}_{currentGateway}"

-- `err.message || 'Timeout / Network Error'`
def errorText (err : Err) : String :=
  if err.message = "" then "Timeout / Network Error" else err.message

/--
`Promise.race` of the charge call and the 1500 ms timer.
-/
def callGateway (request : GatewayChargeRequest) (currentGateway : GatewayProvider)
    (startTime : Nat) : Program GatewayChargeResponse := do
  let n ← perform (.charge currentGateway request)
  try
    perform (.race n)
  catch err => do
    let endTime ← perform .now
    pure {
      success := false
      gatewayTxnId := none
      rawResponse := .obj [("error", .str (errorText err))]
      error := some (errorText err)
      latencyMs := endTime - startTime
    }

-- `chargeResult.error` inside a template
def errorOf (chargeResult : GatewayChargeResponse) : String :=
  chargeResult.error.getD "undefined"

def routedMetadata (currentGateway : GatewayProvider) : TransitionMetadata where
  gateway := some (some currentGateway)
  reason := some s!"Gateway {currentGateway} selected for attempt"

def processingMetadata (currentGateway : GatewayProvider) : TransitionMetadata where
  gateway := some (some currentGateway)
  incrementAttempt := true
  reason := some s!"Initiating API call to {currentGateway}"

def successMetadata (currentGateway : GatewayProvider) (chargeResult : GatewayChargeResponse)
    : TransitionMetadata where
  gateway := some (some currentGateway)
  gatewayTxnId := chargeResult.gatewayTxnId
  rawGatewayResponse := some chargeResult.rawResponse
  reason := some "Payment charge succeeded"

def retryMetadata (currentGateway : GatewayProvider) (chargeResult : GatewayChargeResponse)
    : TransitionMetadata where
  gateway := some (some currentGateway)
  reason := some s!"Attempt failed on {currentGateway}: {errorOf chargeResult}"
  rawGatewayResponse := some chargeResult.rawResponse

def failedMetadata (currentGateway : GatewayProvider) (chargeResult : GatewayChargeResponse)
    : TransitionMetadata where
  gateway := some (some currentGateway)
  reason := some s!"All attempts failed. Last error: {errorOf chargeResult}"
  rawGatewayResponse := some chargeResult.rawResponse

/--
The first half of a round of the loop: up to the charge result and `latencyMs`.
-/
def attempt (dto : CreateTransactionDto) (id : String) (currentGateway : GatewayProvider)
    : Program (GatewayChargeResponse × Nat) := do
  let _ ← transition id .ROUTED (routedMetadata currentGateway)
  let _ ← transition id .PROCESSING (processingMetadata currentGateway)
  let startTime ← perform .now
  let chargeResult ← callGateway (chargeRequest dto id currentGateway) currentGateway startTime
  -- `chargeResult.latencyMs || (Date.now() - startTime)`
  let endTime ← perform .now
  let latencyMs :=
    if chargeResult.latencyMs = 0 then endTime - startTime else chargeResult.latencyMs
  return (chargeResult, latencyMs)

/--
The execution loop for the current gateway and the fallback list. Every round ends in a return or
takes the next gateway off the list.
-/
def execute (dto : CreateTransactionDto) (id : String) (currentGateway : GatewayProvider)
    (fallbackList : List GatewayProvider) : Program Transaction := do
  let (chargeResult, latencyMs) ← attempt dto id currentGateway
  if chargeResult.success then
    let updatedTxn ← transition id .SUCCESS (successMetadata currentGateway chargeResult)
    recordSuccess currentGateway latencyMs
    setCompleted dto.idempotencyKey updatedTxn
    return updatedTxn
  else
    recordFailure currentGateway latencyMs
    match fallbackList with
    | nextGateway :: fallbackList =>
      let _ ← transition id .RETRY_PENDING (retryMetadata currentGateway chargeResult)
      execute dto id nextGateway fallbackList
    | [] =>
      let failedTxn ← transition id .FAILED (failedMetadata currentGateway chargeResult)
      setCompleted dto.idempotencyKey failedTxn
      return failedTxn

def newTransaction (dto : CreateTransactionDto) (primaryGateway : GatewayProvider)
    (fallbackGateways : List GatewayProvider) : NewTransaction where
  idempotencyKey := dto.idempotencyKey
  merchantId := dto.merchantId
  amount := dto.amount
  currency := dto.currency
  currentState := .INITIATED
  selectedGateway := some primaryGateway
  fallbackGateways := fallbackGateways

def creationAudit (saved : Transaction) (primaryGateway : GatewayProvider) : AuditLog where
  transactionId := saved.id
  fromState := none
  toState := .INITIATED
  gateway := some primaryGateway
  reason := some "transaction created"
  rawGatewayResponse := none

theorem fits_creationAudit {D : Deployment} {saved : Transaction} {primaryGateway : GatewayProvider}
    : Exec.AuditLog.fits D (creationAudit saved primaryGateway) = true := by
  have hreason : Exec.varchar 500 "transaction created" = true := Exec.varchar_of_holds (by decide)
  simp [Exec.AuditLog.fits, creationAudit, hreason]

/--
The `try` block of the call that got the lock.
-/
def createLocked (D : Deployment) (dto : CreateTransactionDto) : Program Transaction := do
  match ← findByKey dto.idempotencyKey with
  | some existing =>
    setCompleted dto.idempotencyKey existing
    return existing
  | none =>
    match ← getRankedGateways D dto.amount with
    | [] =>
      throw (.serviceUnavailable
        "No payment gateways are currently configured in the environment.")
    | primaryGateway :: fallbackGateways =>
      let saved ← perform (.insertTransaction (newTransaction dto primaryGateway fallbackGateways))
      perform (.insertAudit (creationAudit saved primaryGateway))
      execute dto saved.id primaryGateway fallbackGateways

def create (D : Deployment) (dto : CreateTransactionDto) : Program Transaction := do
  let isLockAcquired ←
    RedisService.set (redisKey dto.idempotencyKey) .processing (some .NX) (some .EX) (some 10)
  if !isLockAcquired then
    replay dto
  else
    try
      createLocked D dto
    catch error => do
      let _ ← RedisService.del (redisKey dto.idempotencyKey)
      throw error

end TransactionsService

end PaymentOrchestration
