import Mathlib.Data.List.Basic

/-!
This module contains the enumerations of `common/enums` and the table of valid transitions.
-/

namespace PaymentOrchestration

inductive TransactionState where
  | INITIATED
  | ROUTED
  | PROCESSING
  | RETRY_PENDING
  | SUCCESS
  | FAILED
  | RECONCILED
  deriving DecidableEq, Repr

instance : ToString TransactionState where
  toString
    | .INITIATED => "INITIATED"
    | .ROUTED => "ROUTED"
    | .PROCESSING => "PROCESSING"
    | .RETRY_PENDING => "RETRY_PENDING"
    | .SUCCESS => "SUCCESS"
    | .FAILED => "FAILED"
    | .RECONCILED => "RECONCILED"

def VALID_TRANSITIONS (state : TransactionState) : List TransactionState :=
  match state with
  | .INITIATED => [.ROUTED]
  | .ROUTED => [.PROCESSING]
  | .PROCESSING => [.SUCCESS, .FAILED, .RETRY_PENDING]
  | .RETRY_PENDING => [.ROUTED, .FAILED]
  | .SUCCESS => [.RECONCILED]
  | .FAILED => []
  | .RECONCILED => []

/--
The states a payment can end in: it was captured, given up or confirmed by its gateway.
-/
def TransactionState.final (state : TransactionState) : Bool :=
  match state with
  | .SUCCESS | .FAILED | .RECONCILED => true
  | _ => false

inductive GatewayProvider where
  | STRIPE
  | RAZORPAY
  | PAYU
  | UPI
  deriving DecidableEq, Repr

instance : ToString GatewayProvider where
  toString
    | .STRIPE => "STRIPE"
    | .RAZORPAY => "RAZORPAY"
    | .PAYU => "PAYU"
    | .UPI => "UPI"

inductive CircuitState where
  | CLOSED
  | OPEN
  | HALF_OPEN
  deriving DecidableEq, Repr

end PaymentOrchestration
