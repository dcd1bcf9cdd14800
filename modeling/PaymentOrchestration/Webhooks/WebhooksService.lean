import PaymentOrchestration.Webhooks.ReconciliationWorker

/-!
This module contains `WebhooksService.ingest` and the queue it feeds.
-/

namespace PaymentOrchestration

namespace WebhooksService

def pushEvent (eventId : String) : Program Unit := do
  let _ ← RedisService.lpush ReconciliationWorker.queueName eventId

def isUniqueViolation (err : Err) : Bool :=
  match err with
  | .queryFailed (some code) _ => code = "23505"
  | _ => false

-- The answer is `duplicate`.
def ingest (event : IncomingWebhook) : Program Bool := do
  try
    let record ← perform (.insertEvent event)
    pushEvent record.id
    pure false
  catch err =>
    if isUniqueViolation err then
      -- The log line writes the event id.
      if event.convertible then
        pure true
      else
        throw .cannotConvert
    else
      throw err

end WebhooksService

end PaymentOrchestration
