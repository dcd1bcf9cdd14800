import PaymentOrchestration.Machine

/-!
This module contains `StateMachineService.transition`, the only writer of `current_state`.
-/

namespace PaymentOrchestration

/-
`none` stands for an absent (`undefined`) field, `some none` for `null`.
-/
structure TransitionMetadata where
  gateway : Option (Option GatewayProvider) := none
  gatewayTxnId : Option (Option String) := none
  reason : Option String := none
  rawGatewayResponse : Option Json := none
  incrementAttempt : Bool := false

namespace StateMachine

-- The mutations of step 3. `now` is the time of `new Date()`.
def mutate (transaction : Transaction) (toState : TransactionState) (metadata : TransitionMetadata)
    (now : Nat) : Transaction :=
  { transaction with
    currentState := toState
    selectedGateway := metadata.gateway.getD transaction.selectedGateway
    gatewayTxnId := metadata.gatewayTxnId.getD transaction.gatewayTxnId
    attemptCount :=
      if metadata.incrementAttempt then transaction.attemptCount + 1 else transaction.attemptCount
    finalReconciledAt :=
      if toState = .RECONCILED then some now else transaction.finalReconciledAt }

def auditRow (fromState : TransactionState) (updatedTransaction : Transaction)
    (toState : TransactionState) (metadata : TransitionMetadata) : AuditLog where
  transactionId := updatedTransaction.id
  fromState := some fromState
  toState := toState
  gateway :=
    match metadata.gateway with
    | some (some gateway) => some gateway
    | _ => updatedTransaction.selectedGateway
  reason := metadata.reason
  rawGatewayResponse := metadata.rawGatewayResponse

/--
`entityManager.transaction`.
-/
def inTransaction {α : Type} (runInTransaction : Program α) : Program α := do
  try
    perform .begin
    let result ← runInTransaction
    perform .commit
    pure result
  catch err =>
    perform .rollback
    throw err

def transition (transactionId : String) (toState : TransactionState)
    (metadata : TransitionMetadata) : Program Transaction :=
  inTransaction do
    match ← perform (.selectForUpdate transactionId) with
    | none => throw (.notFound s!"Transaction with ID {transactionId} not found")
    | some transaction =>
      let fromState := transaction.currentState
      if toState ∉ VALID_TRANSITIONS fromState then
        throw (.badRequest
          s!"Invalid state transition: cannot transition from {fromState} to {toState}")
      else
        let now ← perform .now
        let updatedTransaction := mutate transaction toState metadata now
        perform (.saveTransaction updatedTransaction)
        perform (.saveAudit (auditRow fromState updatedTransaction toState metadata))
        return updatedTransaction

end StateMachine

end PaymentOrchestration
