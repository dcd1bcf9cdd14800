import PaymentOrchestration.Concurrency.Protocol
import PaymentOrchestration.System

/-!
This module contains the protocol that every process of the service keeps to. It is an abstract
model of the service: how far a call has got, which rows it has seen and which step it may take
next, without the program text.
-/

namespace PaymentOrchestration

open StateMachine

/--
One transition of the state machine, from the row it locked.
-/
structure TransitionStep where
  row : Transaction
  toState : TransactionState
  metadata : TransitionMetadata
  now : Nat

namespace TransitionStep

def result (step : TransitionStep) : Transaction :=
  mutate step.row step.toState step.metadata step.now

def audit (step : TransitionStep) : AuditLog :=
  auditRow step.row.currentState step.result step.toState step.metadata

end TransitionStep

inductive TxPhase where
  | idle
  | begun
  | locked (row : Transaction)
  | saved (row row' : Transaction)
  | audited (row row' : Transaction) (audit : AuditLog)

/--
Where a round of the failover loop stands.
-/
inductive Stage where
  | ready
  | routed
  | processing
  | charging (n : Nat)
  | succeeded (response : GatewayChargeResponse)
  | failed

inductive CreatePhase where
  | start
  -- a row of an earlier call
  | found (transaction : Transaction)
  | cached (transaction : Transaction)
  -- `row` is the one this call has inserted
  | looping (row : Transaction) (gateway : GatewayProvider) (fallback : List GatewayProvider)
      (stage : Stage)
  | settled (row transaction : Transaction)
  | aborted

inductive WorkerPhase where
  | polling
  | loaded (event : WebhookEvent)
  -- `txn` is the row the lookup found, `state` the one it was last seen in
  | driving (event : WebhookEvent) (txn : Transaction) (state : TransactionState)
  | aborted

inductive Role where
  | creating (dto : CreateTransactionDto) (phase : CreatePhase)
  | working (phase : WorkerPhase)
  | ingesting

structure Party where
  role : Role
  tx : TxPhase

/--
The transitions a role may make next.
-/
inductive Permit (D : Deployment) : Role → TransitionStep → Prop where
  | route (dto row g fb st metadata now) (hid : st.id = row.id)
      (hvalid : .ROUTED ∈ VALID_TRANSITIONS st.currentState)
      (hmeta : metadata = TransactionsService.routedMetadata g)
    : Permit D (.creating dto (.looping row g fb .ready)) ⟨st, .ROUTED, metadata, now⟩
  | process (dto row g fb st metadata now) (hid : st.id = row.id)
      (hvalid : .PROCESSING ∈ VALID_TRANSITIONS st.currentState)
      (hmeta : metadata = TransactionsService.processingMetadata g)
    : Permit D (.creating dto (.looping row g fb .routed)) ⟨st, .PROCESSING, metadata, now⟩
  | succeed (dto row g fb r st metadata now) (hid : st.id = row.id)
      (hvalid : .SUCCESS ∈ VALID_TRANSITIONS st.currentState)
      (hmeta : metadata = TransactionsService.successMetadata g r)
    : Permit D (.creating dto (.looping row g fb (.succeeded r))) ⟨st, .SUCCESS, metadata, now⟩
  | retry (dto row g g' fb r st metadata now) (hid : st.id = row.id)
      (hvalid : .RETRY_PENDING ∈ VALID_TRANSITIONS st.currentState)
      (hmeta : metadata = TransactionsService.retryMetadata g r)
    : Permit D (.creating dto (.looping row g (g' :: fb) .failed))
        ⟨st, .RETRY_PENDING, metadata, now⟩
  | fail (dto row g r st metadata now) (hid : st.id = row.id)
      (hvalid : .FAILED ∈ VALID_TRANSITIONS st.currentState)
      (hmeta : metadata = TransactionsService.failedMetadata g r)
    : Permit D (.creating dto (.looping row g [] .failed)) ⟨st, .FAILED, metadata, now⟩
  | workerRoute (event txn state reason st metadata now) (hid : st.id = txn.id)
      (hstate : state = .INITIATED ∨ state = .RETRY_PENDING)
      (hvalid : .ROUTED ∈ VALID_TRANSITIONS st.currentState)
      (hmeta : metadata = ReconciliationWorker.routedMetadata event.gateway reason)
    : Permit D (.working (.driving event txn state)) ⟨st, .ROUTED, metadata, now⟩
  | workerProcess (event txn st metadata now) (hid : st.id = txn.id)
      (hvalid : .PROCESSING ∈ VALID_TRANSITIONS st.currentState)
      (hmeta : metadata = ReconciliationWorker.processingMetadata event.gateway)
    : Permit D (.working (.driving event txn .ROUTED)) ⟨st, .PROCESSING, metadata, now⟩
  | workerSucceed (event txn x st metadata now) (hid : st.id = txn.id)
      (hx : ReconciliationWorker.extractGatewayTxnId event.gateway event.payload = some x)
      (hvalid : .SUCCESS ∈ VALID_TRANSITIONS st.currentState)
      (hmeta : metadata =
        ReconciliationWorker.successMetadata D event.gateway x event.payload)
    : Permit D (.working (.driving event txn .PROCESSING)) ⟨st, .SUCCESS, metadata, now⟩
  | workerReconcile (event txn st metadata now) (hid : st.id = txn.id)
      (hvalid : .RECONCILED ∈ VALID_TRANSITIONS st.currentState)
      (hmeta : metadata = ReconciliationWorker.reconciledMetadata event.gateway event.payload)
    : Permit D (.working (.driving event txn .SUCCESS)) ⟨st, .RECONCILED, metadata, now⟩

namespace Role

-- The event a worker is working on.
def event (role : Role) : Option WebhookEvent :=
  match role with
  | .working (.loaded event) => some event
  | .working (.driving event _ _) => some event
  | _ => none

/--
The row a role makes transitions on.
-/
def target (role : Role) : Option String :=
  match role with
  | .creating _ (.looping row _ _ _) => some row.id
  | .working (.driving _ txn _) => some txn.id
  | _ => none

-- The role after its own transition to `row` has been committed.
def advance (role : Role) (row : Transaction) : Role :=
  match role with
  | .creating dto (.looping row₀ g fb .ready) => .creating dto (.looping row₀ g fb .routed)
  | .creating dto (.looping row₀ g fb .routed) => .creating dto (.looping row₀ g fb .processing)
  | .creating dto (.looping row₀ _ _ (.succeeded _)) => .creating dto (.settled row₀ row)
  | .creating dto (.looping row₀ _ [] .failed) => .creating dto (.settled row₀ row)
  | .creating dto (.looping row₀ _ (g :: fb) .failed) => .creating dto (.looping row₀ g fb .ready)
  | .working (.driving event txn _) => .working (.driving event txn row.currentState)
  | role => role

def abort (role : Role) : Role :=
  match role with
  | .creating dto _ => .creating dto .aborted
  | .working _ => .working .aborted
  | .ingesting => .ingesting

-- The role after it was answered `value` by a `get`.
def got (role : Role) (value : Option Stored) : Role :=
  match role, value with
  | .creating dto .start, some (.completed transaction) => .creating dto (.cached transaction)
  | role, _ => role

-- The only payment that `create` looks up in the cache is its own.
def mayGet (role : Role) (key : String) : Prop :=
  match role with
  | .creating dto .start =>
    ∀ k, key = TransactionsService.redisKey k → k = dto.idempotencyKey
  | _ => True

def mayFind (role : Role) (conditions : List TxnWhere) : Prop :=
  (∃ dto, role = .creating dto .start ∧
    conditions = [.idempotencyKey (.str dto.idempotencyKey)]) ∨
  (∃ event x, role = .working (.loaded event) ∧
    ReconciliationWorker.extractGatewayTxnId event.gateway event.payload = some x ∧
    conditions = ReconciliationWorker.lookupConditions x event.payload ∧ event.processed = false)

def mayWrite (role : Role) (key : String) (value : Stored) : Prop :=
  match value with
  | .completed transaction =>
    match role with
    | .creating dto (.found found) =>
      found = transaction ∧ key = TransactionsService.redisKey dto.idempotencyKey
    | .creating dto (.settled _ settled) =>
      settled = transaction ∧ key = TransactionsService.redisKey dto.idempotencyKey
    | _ => False
  | _ => True

def read (role : Role) (row : Option Transaction) : Role :=
  match role, row with
  | .creating dto .start, some row => .creating dto (.found row)
  | .working (.loaded event), some row => .working (.driving event row row.currentState)
  | role, _ => role

def inserted (role : Role) (txn : NewTransaction) (row : Transaction) : Role :=
  match role, txn.selectedGateway with
  | .creating dto _, some g => .creating dto (.looping row g txn.fallbackGateways .ready)
  | role, _ => role

def charged (role : Role) (n : Nat) : Role :=
  match role with
  | .creating dto (.looping row g fb _) => .creating dto (.looping row g fb (.charging n))
  | role => role

def raced (role : Role) (r : Except Err GatewayChargeResponse) : Role :=
  match role, r with
  | .creating dto (.looping row g fb _), .ok response =>
    if response.success then
      .creating dto (.looping row g fb (.succeeded response))
    else
      .creating dto (.looping row g fb .failed)
  | .creating dto (.looping row g fb _), .error _ => .creating dto (.looping row g fb .failed)
  | role, _ => role

end Role

namespace Party

def allowed (D : Deployment) (party : Party) (cmd : Cmd) : Prop :=
  match cmd with
  | .mock (.get key) => party.role.mayGet key
  | .fallback (.get key) => party.role.mayGet key
  | .client (.get key) => party.role.mayGet key
  | .mock (.set key value _) => party.role.mayWrite key value
  | .fallback (.set key value _) => party.role.mayWrite key value
  | .client (.set key value _ _) => party.role.mayWrite key value
  | .findTransaction conditions => party.role.mayFind conditions
  | .insertTransaction txn =>
    ∃ dto g fb, party.role = .creating dto .start ∧ (g :: fb).Nodup ∧
      txn = TransactionsService.newTransaction dto g fb
  | .insertAudit audit =>
    ∃ dto row g fb, party.role = .creating dto (.looping row g fb .ready) ∧
      audit = TransactionsService.creationAudit row g
  | .begin => party.tx = .idle
  | .selectForUpdate id => party.tx = .begun ∧ party.role.target = some id
  | .saveTransaction row' =>
    ∃ step, party.tx = .locked step.row ∧ Permit D party.role step ∧ row' = step.result
  | .saveAudit audit =>
    ∃ step, party.tx = .saved step.row step.result ∧ Permit D party.role step ∧ audit = step.audit
  | .commit => ∃ row row' audit, party.tx = .audited row row' audit
  | .findEvent _ => party.role = .working .polling
  | .insertEvent _ => party.role = .ingesting
  | .saveEvent event' =>
    ∃ event now, party.role.event = some event ∧ event.processed = false ∧
      event' = { event with processed := true, processedAt := some now }
  | .charge gateway request =>
    ∃ dto row fb, party.role = .creating dto (.looping row gateway fb .processing) ∧
      request = TransactionsService.chargeRequest dto row.id gateway
  | .race n => ∃ dto row g fb, party.role = .creating dto (.looping row g fb (.charging n))
  | _ => True

def gets (key : String) (value : Option Stored) : Prop :=
  ∀ transaction, value = some (.completed transaction) →
    key = TransactionsService.redisKey transaction.idempotencyKey

def answers (D : Deployment) (party : Party) (cmd : Cmd) (r : Except Err cmd.Resp) : Prop :=
  match cmd, r with
  -- what happens inside the instance does not fail
  | .mock _, .error _ => False
  | .fallback _, .error _ => False
  | .rollback, .error _ => False
  | .charge _ _, .error _ => False
  | .now, .error _ => False
  | .mock (.get key), .ok (some value) => gets key value
  | .client (.get key), .ok value => gets key value
  | .fallback (.get key), .ok value => gets key value
  | .findTransaction conditions, .ok (some row) => ∃ c ∈ conditions, c.holds D row
  | .insertTransaction txn, .ok row => row = txn.row row.id
  | .selectForUpdate id, .ok (some row) =>
    row.id = id ∧
      ∀ dto phase, party.role = .creating dto phase → row.idempotencyKey = dto.idempotencyKey
  | .findStats, .ok stats => (stats.map GatewayStats.gateway).Nodup
  | _, _ => True

def next (party : Party) (cmd : Cmd) (r : Except Err cmd.Resp) : Party :=
  match cmd, r with
  | .mock (.get _), .ok (some value) => { party with role := party.role.got value }
  | .client (.get _), .ok value => { party with role := party.role.got value }
  | .fallback (.get _), .ok value => { party with role := party.role.got value }
  | .findTransaction _, .ok row => { party with role := party.role.read row }
  | .insertTransaction txn, .ok row => { party with role := party.role.inserted txn row }
  | .insertTransaction _, .error _ => { party with role := party.role.abort }
  | .begin, .ok _ => { party with tx := .begun }
  | .selectForUpdate _, .ok (some row) => { party with tx := .locked row }
  | .saveTransaction row', .ok _ =>
    match party.tx with
    | .locked row => { party with tx := .saved row row' }
    | _ => party
  | .saveAudit audit, .ok _ =>
    match party.tx with
    | .saved row row' => { party with tx := .audited row row' audit }
    | _ => party
  | .commit, .ok _ =>
    match party.tx with
    | .audited _ row' _ => ⟨party.role.advance row', .idle⟩
    | _ => party
  | .commit, .error _ => ⟨party.role.abort, .idle⟩
  | .rollback, _ => { party with tx := .idle }
  | .findEvent _, .ok (some event) => { party with role := .working (.loaded event) }
  | .charge _ _, .ok n => { party with role := party.role.charged n }
  | .race _, r => { party with role := party.role.raced r }
  | _, _ => party

def crash (party : Party) : Party :=
  { party with tx := .idle }

end Party

@[reducible]
def partyProtocol (D : Deployment) : Protocol Cmd Cmd.Resp Err where
  State := Party
  allowed := Party.allowed D
  answers := Party.answers D
  next := Party.next
  crash := Party.crash

def Task.party (task : Task) : Party :=
  match task with
  | .create dto => ⟨.creating dto .start, .idle⟩
  | .ingest _ => ⟨.ingesting, .idle⟩
  | .pollQueue => ⟨.working .polling, .idle⟩

theorem Task.party_tx (task : Task) : task.party.tx = .idle := by
  cases task <;> rfl

/--
The state a party may finish in. What a call of `create` returns is a row it has found, cached or
settled.
-/
def Task.finish (task : Task) (r : Except Err Reply) (party : Party) : Prop :=
  party.tx = .idle ∧
  match task with
  | .create dto =>
    ∃ phase, party.role = .creating dto phase ∧
      ∀ reply, r = .ok reply → ∃ t, reply = .transaction t ∧
        (phase = .found t ∨ phase = .cached t ∨ ∃ row, phase = .settled row t)
  | _ => True

end PaymentOrchestration
