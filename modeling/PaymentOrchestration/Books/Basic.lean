import PaymentOrchestration.Party.Basic

/-!
This module contains the books of the service: the tables, what is cached as completed, the charge
calls and where each call of the service stands. Sessions, locks, expiry times and the memory of
single instances are gone, a transition of the state machine is one step.
-/

namespace PaymentOrchestration

open StateMachine

structure Books where
  transactions : List Transaction
  auditLog : List AuditLog
  webhookEvents : List WebhookEvent
  charges : List Charge
  -- Some store has or had this transaction as completed under this key.
  completed : String → Transaction → Prop
  history : List Event
  role : Pid → Role

namespace TransitionStep

-- The audit row as the database stores it.
def entry (step : TransitionStep) (createdAt : Nat) : AuditLog :=
  { step.audit with createdAt := createdAt }

end TransitionStep

namespace Books

def setRole (b : Books) (i : Pid) (role : Role) : Books :=
  { b with role := Function.update b.role i role }

-- A transition is committed: row, audit row and history change together.
def commit (b : Books) (i : Pid) (step : TransitionStep) (createdAt : Nat) : Books :=
  { b with
    transactions := Ledger.writeRow step.result b.transactions
    auditLog := b.auditLog ++ [step.entry createdAt]
    history := b.history ++ [.committed i (step.entry createdAt)] }

def insert (b : Books) (i : Pid) (row : Transaction) : Books :=
  { b with
    transactions := b.transactions ++ [row]
    history := b.history ++ [.inserted i row] }

def saveEvent (event : WebhookEvent) (events : List WebhookEvent) : List WebhookEvent :=
  events.map (fun old => if old.id = event.id then event else old)

inductive Step (D : Deployment) : Books → Books → Prop where
  -- Values expire, are lost or overwritten.
  | forget (b : Books) (completed : String → Transaction → Prop)
      (hcompleted : ∀ key t, completed key t → b.completed key t)
    : Step D b { b with completed := completed }
  | store (b : Books) (i : Pid) (completed : String → Transaction → Prop)
      (hcompleted : ∀ key t, completed key t →
        b.completed key t ∨ (b.role i).mayWrite key (.completed t))
    : Step D b { b with completed := completed }
  | hit (b : Books) (i : Pid) (dto : CreateTransactionDto) (key : String) (t : Transaction)
      (hrole : b.role i = .creating dto .start) (hkey : (b.role i).mayGet key)
      (hcompleted : b.completed key t)
    : Step D b (b.setRole i (.creating dto (.cached t)))
  | find (b : Books) (i : Pid) (conditions : List TxnWhere) (row : Option Transaction)
      (hfind : (b.role i).mayFind conditions)
      (hsome : ∀ t, row = some t → t ∈ b.transactions ∧ ∃ c ∈ conditions, c.holds D t)
      (hnone : row = none → ∀ t ∈ b.transactions, ∀ c ∈ conditions, c.holds D t = false)
    : Step D b
        { b.setRole i ((b.role i).read row) with
          history := b.history ++ [.read i conditions row] }
  | insert (b : Books) (i : Pid) (dto : CreateTransactionDto) (g : GatewayProvider)
      (fb : List GatewayProvider) (row : Transaction) (role : Role)
      (hrole : b.role i = .creating dto .start) (hnodup : (g :: fb).Nodup)
      (hrow : row = (TransactionsService.newTransaction dto g fb).row row.id)
      (hid : row.id ∉ b.transactions.map (·.id))
      (hkey : row.idempotencyKey ∉ b.transactions.map (·.idempotencyKey))
      (hrole' : role = .creating dto (.looping row g fb .ready) ∨ role = .creating dto .aborted)
    : Step D b ((b.insert i row).setRole i role)
  | announce (b : Books) (i : Pid) (dto : CreateTransactionDto) (row : Transaction)
      (g : GatewayProvider) (fb : List GatewayProvider) (createdAt : Nat)
      (hrole : b.role i = .creating dto (.looping row g fb .ready))
    : Step D b
        { b with auditLog := b.auditLog ++
          [{ TransactionsService.creationAudit row g with createdAt := createdAt }] }
  | commit (b : Books) (i : Pid) (step : TransitionStep) (createdAt : Nat) (role : Role)
      (hpermit : Permit D (b.role i) step) (hrow : step.row ∈ b.transactions)
      (hrole' : role = (b.role i).advance step.result ∨ role = (b.role i).abort)
    : Step D b ((b.commit i step createdAt).setRole i role)
  | ingest (b : Books) (event : WebhookEvent)
      (hid : event.id ∉ b.webhookEvents.map (·.id))
    : Step D b { b with webhookEvents := b.webhookEvents ++ [event] }
  | load (b : Books) (i : Pid) (event : WebhookEvent) (hrole : b.role i = .working .polling)
      (hevent : event ∈ b.webhookEvents)
    : Step D b
        { b.setRole i (.working (.loaded event)) with
          history := b.history ++ [.loaded i event] }
  | mark (b : Books) (i : Pid) (event : WebhookEvent) (now : Nat)
      (hevent : (b.role i).event = some event)
    : Step D b
        { b with webhookEvents :=
          saveEvent { event with processed := true, processedAt := some now } b.webhookEvents }
  | charge (b : Books) (i : Pid) (dto : CreateTransactionDto) (row : Transaction)
      (g : GatewayProvider) (fb : List GatewayProvider)
      (hrole : b.role i = .creating dto (.looping row g fb .processing))
    : Step D b
        { b.setRole i (.creating dto (.looping row g fb (.charging b.charges.length))) with
          charges := b.charges ++
            [⟨i, g, TransactionsService.chargeRequest dto row.id g, .pending false, false⟩]
          history := b.history ++
            [.charged i g (TransactionsService.chargeRequest dto row.id g)] }
  | answer (b : Books) (i : Pid) (dto : CreateTransactionDto) (row : Transaction)
      (g : GatewayProvider) (fb : List GatewayProvider) (n : Nat) (charge : Charge)
      (response : GatewayChargeResponse)
      (hrole : b.role i = .creating dto (.looping row g fb (.charging n)))
      (hcharge : b.charges[n]? = some charge) (hstatus : charge.status = .answered response)
    : Step D b (b.setRole i ((b.role i).raced (.ok response)))
  | threw (b : Books) (i : Pid) (dto : CreateTransactionDto) (row : Transaction)
      (g : GatewayProvider) (fb : List GatewayProvider) (n : Nat) (charge : Charge)
      (message : String) (captured : Bool)
      (hrole : b.role i = .creating dto (.looping row g fb (.charging n)))
      (hcharge : b.charges[n]? = some charge) (hstatus : charge.status = .threw message captured)
    : Step D b (b.setRole i (.creating dto (.looping row g fb .failed)))
  | timeout (b : Books) (i : Pid) (dto : CreateTransactionDto) (row : Transaction)
      (g : GatewayProvider) (fb : List GatewayProvider) (n : Nat) (charge : Charge)
      (captured : Bool) (hrole : b.role i = .creating dto (.looping row g fb (.charging n)))
      (hcharge : b.charges[n]? = some charge) (hstatus : charge.status = .pending captured)
    : Step D b
        { b.setRole i (.creating dto (.looping row g fb .failed)) with
          charges := b.charges.set n { charge with timedOut := true } }
  | settle (b : Books) (n : Nat) (charge : Charge) (captured : Bool) (status : ChargeStatus)
      (hcharge : b.charges[n]? = some charge) (hstatus : charge.status = .pending captured)
    : Step D b { b with charges := b.charges.set n { charge with status := status } }
  | abort (b : Books) (i : Pid)
    : Step D b (b.setRole i (b.role i).abort)

abbrev Run (D : Deployment) : Books → Books → Prop :=
  Relation.ReflTransGen (Step D)

/--
The books of a service that has not started to work yet.
-/
structure Start (tasks : Pid → Task) (b : Books) : Prop where
  transactions : b.transactions = []
  auditLog : b.auditLog = []
  webhookEvents : b.webhookEvents = []
  charges : b.charges = []
  completed : ∀ key t, ¬b.completed key t
  history : b.history = []
  role : ∀ i, b.role i = (tasks i).party.role

def Reachable (D : Deployment) (tasks : Pid → Task) (b : Books) : Prop :=
  ∃ b₀ : Books, b₀.Start tasks ∧ b₀.Run D b

end Books

end PaymentOrchestration
