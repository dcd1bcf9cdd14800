import PaymentOrchestration.Concurrency.Issues
import PaymentOrchestration.System

/-!
This module is about the commands that touch neither the table of webhook events nor the queue of
their ids. Calls of `create` and transitions of the state machine issue no others.
-/

namespace PaymentOrchestration

open ReconciliationWorker StateMachine

def MockOp.offQueue (op : MockOp) : Prop :=
  match op with
  | .get _ => True
  | .set key _ _ => key ≠ queueName
  | .del key => key ≠ queueName
  | .lpush _ _ => False
  | .brpop _ => False

def ClientOp.offQueue (op : ClientOp) : Prop :=
  match op with
  | .lpush _ _ => False
  | .brpop _ => False
  | _ => True

def Cmd.offQueue (cmd : Cmd) : Prop :=
  match cmd with
  | .mock op => op.offQueue
  | .client op => op.offQueue
  | .fallback op => op.offQueue
  | .findEvent _ => False
  | .insertEvent _ => False
  | .saveEvent _ => False
  | _ => True

/--
The command is about Redis, the statistics, a charge or the clock: it is beside the tables of
payments and webhook events and beside the queue.
-/
def Cmd.beside (cmd : Cmd) : Prop :=
  match cmd with
  | .mock op => op.offQueue
  | .client op => op.offQueue
  | .fallback op => op.offQueue
  | .findStats => True
  | .findStatsOf _ => True
  | .saveStats _ => True
  | .charge _ _ => True
  | .race _ => True
  | .now => True
  | _ => False

-- The commands of the routing engine and of the caches.
def Cmd.routing (cmd : Cmd) : Prop :=
  match cmd with
  | .mock op => op.offQueue
  | .client op => op.offQueue
  | .fallback op => op.offQueue
  | .findStats => True
  | .findStatsOf _ => True
  | .saveStats _ => True
  | _ => False

-- The commands of a transition of the state machine.
def Cmd.ofTransition (cmd : Cmd) : Prop :=
  match cmd with
  | .begin => True
  | .selectForUpdate _ => True
  | .now => True
  | .saveTransaction _ => True
  | .saveAudit _ => True
  | .commit => True
  | .rollback => True
  | _ => False

-- The commands of a round of the failover loop up to the result of the charge.
def Cmd.ofAttempt (cmd : Cmd) : Prop :=
  match cmd with
  | .charge _ _ => True
  | .race _ => True
  | cmd => cmd.ofTransition

-- The commands of a round of the failover loop.
def Cmd.ofRound (cmd : Cmd) : Prop :=
  cmd.ofTransition ∨ cmd.beside

-- The commands of a delivery of a webhook.
def Cmd.ofIngest (cmd : Cmd) : Prop :=
  match cmd with
  | .mock (.lpush queue _) => queue = queueName
  | .client (.lpush queue _) => queue = queueName
  | .insertEvent _ => True
  | _ => False

-- The commands of a round of the reconciliation worker.
def Cmd.ofWorker (cmd : Cmd) : Prop :=
  match cmd with
  | .mock (.brpop queue) => queue = queueName
  | .client (.brpop queue) => queue = queueName
  | .findEvent _ => True
  | .findTransaction _ => True
  | .saveEvent record => record.processed = true
  | cmd => cmd.ofTransition

theorem Cmd.ofTransition.offQueue {cmd : Cmd} (h : cmd.ofTransition) : cmd.offQueue := by
  cases cmd <;> trivial

theorem Cmd.beside.offQueue {cmd : Cmd} (h : cmd.beside) : cmd.offQueue := by
  cases cmd <;> first | exact h | trivial

theorem Cmd.routing.beside {cmd : Cmd} (h : cmd.routing) : cmd.beside := by
  cases cmd <;> first | exact h | trivial

theorem Cmd.ofRound.offQueue {cmd : Cmd} (h : cmd.ofRound) : cmd.offQueue := by
  rcases h with h | h
  . exact h.offQueue
  . exact h.offQueue

theorem Cmd.ofTransition.ofAttempt {cmd : Cmd} (h : cmd.ofTransition) : cmd.ofAttempt := by
  cases cmd <;> first | exact h | trivial

theorem Cmd.ofAttempt.ofRound {cmd : Cmd} (h : cmd.ofAttempt) : cmd.ofRound := by
  cases cmd with
  | charge _ _ => exact .inr trivial
  | race _ => exact .inr trivial
  | _ => exact .inl h

theorem Cmd.ofTransition.ofWorker {cmd : Cmd} (h : cmd.ofTransition) : cmd.ofWorker := by
  cases cmd <;> first | exact h | trivial

variable {D : Deployment}

theorem issues_perform {A : Cmd → Prop} {cmd : Cmd} (h : A cmd) : (perform cmd).Issues A := by
  exact Prog.Issues.perform h

theorem offQueue_of_routing {α : Type} {p : Program α} (h : p.Issues Cmd.routing)
    : p.Issues Cmd.offQueue := by
  apply h.mono
  intro cmd hcmd
  exact hcmd.beside.offQueue

namespace RedisService

theorem issues_get {key : String} : (RedisService.get key).Issues Cmd.routing := by
  unfold RedisService.get
  apply Prog.Issues.bind
  . apply issues_perform
    trivial
  . intro value
    split
    . trivial
    . apply Prog.Issues.tryCatch
      . apply issues_perform
        trivial
      . intro e
        apply issues_perform
        trivial

theorem issues_set {key : String} {value : Stored} {mode : Option SetMode}
    {durationMode : Option DurationMode} {duration : Option Nat} (hkey : key ≠ queueName)
    : (RedisService.set key value mode durationMode duration).Issues Cmd.routing := by
  unfold RedisService.set
  apply Prog.Issues.bind
  . apply issues_perform
    exact hkey
  . intro value
    split
    . trivial
    . apply Prog.Issues.tryCatch
      . split
        all_goals
          apply issues_perform
          trivial
      . intro e
        apply issues_perform
        exact hkey

theorem issues_del {key : String} (hkey : key ≠ queueName)
    : (RedisService.del key).Issues Cmd.routing := by
  unfold RedisService.del
  apply Prog.Issues.bind
  . apply issues_perform
    exact hkey
  . intro value
    split
    . trivial
    . apply Prog.Issues.tryCatch
      . apply issues_perform
        trivial
      . intro e
        apply issues_perform
        exact hkey

end RedisService

namespace RoutingEngine

theorem circuitKey_ne_queueName (gateway : GatewayProvider) : circuitKey gateway ≠ queueName := by
  cases gateway <;> decide

theorem issues_checkCooldown {stats : GatewayStats}
    : (checkCooldown stats).Issues Cmd.routing := by
  unfold checkCooldown
  split
  . apply Prog.Issues.bind RedisService.issues_get
    intro isTripped
    split
    . apply Prog.Issues.bind
      . apply issues_perform
        trivial
      . intro _
        trivial
    . trivial
  . trivial

theorem issues_getRankedGateways {amount : Nat}
    : (getRankedGateways D amount).Issues Cmd.routing := by
  unfold getRankedGateways
  apply Prog.Issues.bind
  . apply issues_perform
    trivial
  . intro stats
    apply Prog.Issues.bind
    . apply Prog.Issues.all
      intro stats _
      apply Prog.Issues.bind issues_checkCooldown
      intro _
      trivial
    . intro _
      trivial

theorem issues_recordSuccess {gateway : GatewayProvider} {latencyMs : Nat}
    : (recordSuccess gateway latencyMs).Issues Cmd.routing := by
  unfold recordSuccess
  apply Prog.Issues.bind
  . apply issues_perform
    trivial
  . intro stats
    split
    . trivial
    . dsimp only
      split
      . apply Prog.Issues.bind (RedisService.issues_del (circuitKey_ne_queueName _))
        intro _
        apply issues_perform
        trivial
      . apply issues_perform
        trivial

theorem issues_recordFailure {gateway : GatewayProvider} {latencyMs : Nat}
    : (recordFailure gateway latencyMs).Issues Cmd.routing := by
  unfold recordFailure
  apply Prog.Issues.bind
  . apply issues_perform
    trivial
  . intro stats
    split
    . trivial
    . dsimp only
      split
      . apply Prog.Issues.bind (RedisService.issues_set (circuitKey_ne_queueName _))
        intro _
        apply issues_perform
        trivial
      . apply issues_perform
        trivial

end RoutingEngine

namespace StateMachine

theorem issues_transition {id : String} {toState : TransactionState}
    {metadata : TransitionMetadata} : (transition id toState metadata).Issues Cmd.ofTransition := by
  unfold transition inTransaction
  apply Prog.Issues.tryCatch
  . apply Prog.Issues.bind
    . apply issues_perform
      trivial
    . intro _
      apply Prog.Issues.bind
      . apply Prog.Issues.bind
        . apply issues_perform
          trivial
        . intro row
          split
          . trivial
          . dsimp only
            split
            . trivial
            . apply Prog.Issues.bind
              . apply issues_perform
                trivial
              . intro now
                apply Prog.Issues.bind
                . apply issues_perform
                  trivial
                . intro _
                  apply Prog.Issues.bind
                  . apply issues_perform
                    trivial
                  . intro _
                    trivial
      . intro result
        apply Prog.Issues.bind
        . apply issues_perform
          trivial
        . intro _
          trivial
  . intro err
    apply Prog.Issues.bind
    . apply issues_perform
      trivial
    . intro _
      trivial

theorem transition_ofRound {id : String} {toState : TransactionState}
    {metadata : TransitionMetadata} : (transition id toState metadata).Issues Cmd.ofRound := by
  apply issues_transition.mono
  intro cmd h
  exact .inl h

theorem transition_ofAttempt {id : String} {toState : TransactionState}
    {metadata : TransitionMetadata} : (transition id toState metadata).Issues Cmd.ofAttempt := by
  apply issues_transition.mono
  intro cmd h
  exact h.ofAttempt

end StateMachine

theorem ofRound_of_routing {α : Type} {p : Program α} (h : p.Issues Cmd.routing)
    : p.Issues Cmd.ofRound := by
  apply h.mono
  intro cmd hcmd
  exact .inr hcmd.beside

namespace TransactionsService

theorem redisKey_ne_queueName (key : String) : redisKey key ≠ queueName := by
  intro h
  have := congrArg String.toList h
  simp [redisKey, queueName, toString] at this

theorem issues_setCompleted {key : String} {transaction : Transaction}
    : (setCompleted key transaction).Issues Cmd.routing := by
  unfold setCompleted
  apply Prog.Issues.bind (RedisService.issues_set (redisKey_ne_queueName _))
  intro _
  trivial

theorem issues_findByKey {key : String} : (findByKey key).Issues Cmd.offQueue := by
  apply issues_perform
  trivial

theorem issues_replay {dto : CreateTransactionDto} : (replay dto).Issues Cmd.offQueue := by
  unfold replay
  apply Prog.Issues.bind (offQueue_of_routing RedisService.issues_get)
  intro value
  split
  . trivial
  . trivial
  . trivial
  . apply Prog.Issues.bind issues_findByKey
    intro row
    split
    . apply Prog.Issues.bind (offQueue_of_routing issues_setCompleted)
      intro _
      trivial
    . trivial

theorem issues_attempt {dto : CreateTransactionDto} {id : String} {g : GatewayProvider}
    : (attempt dto id g).Issues Cmd.ofAttempt := by
  unfold attempt
  apply Prog.Issues.bind transition_ofAttempt
  intro _
  apply Prog.Issues.bind transition_ofAttempt
  intro _
  apply Prog.Issues.bind
  . apply issues_perform
    trivial
  . intro startTime
    apply Prog.Issues.bind
    . unfold callGateway
      apply Prog.Issues.bind
      . apply issues_perform
        trivial
      . intro n
        apply Prog.Issues.tryCatch
        . apply issues_perform
          trivial
        . intro err
          apply Prog.Issues.bind
          . apply issues_perform
            trivial
          . intro _
            trivial
    . intro chargeResult
      apply Prog.Issues.bind
      . apply issues_perform
        trivial
      . intro _
        trivial

theorem attempt_ofRound {dto : CreateTransactionDto} {id : String} {g : GatewayProvider}
    : (attempt dto id g).Issues Cmd.ofRound := by
  apply issues_attempt.mono
  intro cmd h
  exact h.ofRound

theorem issues_execute {dto : CreateTransactionDto} {id : String} {g : GatewayProvider}
    {fb : List GatewayProvider} : (execute dto id g fb).Issues Cmd.ofRound := by
  induction fb generalizing g with
  | nil =>
    unfold execute
    apply Prog.Issues.bind attempt_ofRound
    intro result
    dsimp only
    split
    . apply Prog.Issues.bind transition_ofRound
      intro _
      apply Prog.Issues.bind (ofRound_of_routing RoutingEngine.issues_recordSuccess)
      intro _
      apply Prog.Issues.bind (ofRound_of_routing issues_setCompleted)
      intro _
      trivial
    . apply Prog.Issues.bind (ofRound_of_routing RoutingEngine.issues_recordFailure)
      intro _
      apply Prog.Issues.bind transition_ofRound
      intro _
      apply Prog.Issues.bind (ofRound_of_routing issues_setCompleted)
      intro _
      trivial
  | cons g' fb ih =>
    unfold execute
    apply Prog.Issues.bind attempt_ofRound
    intro result
    dsimp only
    split
    . apply Prog.Issues.bind transition_ofRound
      intro _
      apply Prog.Issues.bind (ofRound_of_routing RoutingEngine.issues_recordSuccess)
      intro _
      apply Prog.Issues.bind (ofRound_of_routing issues_setCompleted)
      intro _
      trivial
    . apply Prog.Issues.bind (ofRound_of_routing RoutingEngine.issues_recordFailure)
      intro _
      apply Prog.Issues.bind transition_ofRound
      intro _
      exact ih

theorem issues_createLocked {dto : CreateTransactionDto}
    : (createLocked D dto).Issues Cmd.offQueue := by
  unfold createLocked
  apply Prog.Issues.bind issues_findByKey
  intro row
  split
  . apply Prog.Issues.bind (offQueue_of_routing issues_setCompleted)
    intro _
    trivial
  . apply Prog.Issues.bind (offQueue_of_routing RoutingEngine.issues_getRankedGateways)
    intro gateways
    split
    . trivial
    . apply Prog.Issues.bind
      . apply issues_perform
        trivial
      . intro saved
        apply Prog.Issues.bind
        . apply issues_perform
          trivial
        . intro _
          apply issues_execute.mono
          intro cmd hcmd
          exact hcmd.offQueue

theorem issues_create {dto : CreateTransactionDto} : (create D dto).Issues Cmd.offQueue := by
  unfold create
  apply Prog.Issues.bind (offQueue_of_routing (RedisService.issues_set (redisKey_ne_queueName _)))
  intro isLockAcquired
  split
  . exact issues_replay
  . apply Prog.Issues.tryCatch issues_createLocked
    intro error
    apply Prog.Issues.bind (offQueue_of_routing (RedisService.issues_del (redisKey_ne_queueName _)))
    intro _
    trivial

end TransactionsService

namespace ReconciliationWorker

theorem issues_stepFrom {A : Cmd → Prop} {expected state : TransactionState}
    {step : Program Transaction} (h : step.Issues A) : (stepFrom expected step state).Issues A := by
  unfold stepFrom
  split
  . apply Prog.Issues.bind h
    intro _
    trivial
  . trivial

theorem issues_driveToReconciled {txn : Transaction} {gateway : GatewayProvider}
    {gatewayTxnId rawResponse : Json}
    : (driveToReconciled D txn gateway gatewayTxnId rawResponse).Issues Cmd.ofTransition := by
  unfold driveToReconciled
  dsimp only
  split
  . trivial
  . apply Prog.Issues.bind (issues_stepFrom issues_transition)
    intro _
    apply Prog.Issues.bind (issues_stepFrom issues_transition)
    intro _
    apply Prog.Issues.bind (issues_stepFrom issues_transition)
    intro _
    apply Prog.Issues.bind (issues_stepFrom issues_transition)
    intro _
    apply Prog.Issues.bind (issues_stepFrom issues_transition)
    intro _
    trivial

theorem issues_markProcessed {event : WebhookEvent}
    : (markProcessed event).Issues Cmd.ofWorker := by
  unfold markProcessed
  apply Prog.Issues.bind
  . apply issues_perform
    trivial
  . intro now
    apply issues_perform
    rfl

theorem issues_processEvent {recordId : String}
    : (processEvent D recordId).Issues Cmd.ofWorker := by
  unfold processEvent
  apply Prog.Issues.bind
  . apply issues_perform
    trivial
  . intro event
    split
    . trivial
    . split
      . trivial
      . split
        . exact issues_markProcessed
        . split
          . trivial
          . apply Prog.Issues.bind
            . apply issues_perform
              trivial
            . intro txn
              split
              . exact issues_markProcessed
              . apply Prog.Issues.bind
                . apply issues_driveToReconciled.mono
                  intro cmd hcmd
                  exact hcmd.ofWorker
                . intro _
                  exact issues_markProcessed

theorem issues_pollQueue : (pollQueue D).Issues Cmd.ofWorker := by
  unfold pollQueue RedisService.brpop
  apply Prog.Issues.bind
  . apply Prog.Issues.bind
    . apply issues_perform
      rfl
    . intro item
      split
      . trivial
      . apply issues_perform
        rfl
  . intro id
    split
    . trivial
    . exact issues_processEvent

end ReconciliationWorker

namespace WebhooksService

theorem issues_ingest {event : IncomingWebhook} : (ingest event).Issues Cmd.ofIngest := by
  unfold ingest
  apply Prog.Issues.tryCatch
  . apply Prog.Issues.bind
    . apply issues_perform
      trivial
    . intro record
      apply Prog.Issues.bind
      . unfold pushEvent RedisService.lpush
        apply Prog.Issues.bind
        . apply Prog.Issues.bind
          . apply issues_perform
            rfl
          . intro length
            split
            . trivial
            . apply issues_perform
              rfl
        . intro _
          trivial
      . intro _
        trivial
  . intro err
    split
    . split <;> trivial
    . trivial

end WebhooksService

end PaymentOrchestration
