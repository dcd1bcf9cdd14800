import Mathlib.Algebra.Group.Nat.Defs
import PaymentOrchestration.World

/-!
This module contains the semantics of the commands and the machine they run on.
-/

namespace PaymentOrchestration

/--
What the code takes from its process and from third-party code: the environment variables, the
scores its number arithmetic gives to a gateway, the text the database driver binds for a JSON value
that is no string, and which values the database takes into a `jsonb` column.
-/
structure Deployment where
  env : String → Option String
  score : GatewayStats → CircuitState → Nat → ℚ
  bindText : Json → String
  jsonb : Json → Bool

namespace Deployment

variable (D : Deployment)

def bind (value : Json) : String :=
  match value with
  | .str s => s
  | value => D.bindText value

end Deployment

def TxnWhere.holds (D : Deployment) (condition : TxnWhere) (row : Transaction) : Bool :=
  match condition with
  | .gatewayTxnId value => row.gatewayTxnId = some (D.bind value)
  | .idempotencyKey value => row.idempotencyKey = D.bind value

def matching (D : Deployment) (conditions : List TxnWhere) (rows : List Transaction)
    : List Transaction :=
  rows.filter (fun row => conditions.any (fun condition => condition.holds D row))

namespace Exec

def connectionError : Err :=
  .queryFailed none "Connection terminated unexpectedly"

def redisError : Err :=
  .redis "Connection is closed."

def uniqueViolation : Err :=
  .queryFailed (some "23505") "duplicate key value violates unique constraint"

-- The service tells no error of the class 22 from another one.
def dataException : Err :=
  .queryFailed (some "22000") "data exception"

/--
A text column takes no U+0000, and of an excess over its length only spaces.
-/
def varchar (length : Nat) (s : String) : Bool :=
  !s.toList.contains '\x00' && (s.toList.drop length).all (· == ' ')

-- An excess of spaces is dropped.
def clip (length : Nat) (s : String) : String :=
  if (s.toList.drop length).all (· == ' ') then
    String.ofList (s.toList.take length)
  else
    s

-- What a text column can hold.
def holds (length : Nat) (s : String) : Bool :=
  !s.toList.contains '\x00' && s.toList.length ≤ length

theorem varchar_of_holds {length : Nat} {s : String} (h : holds length s = true)
    : varchar length s = true := by
  rw [holds, Bool.and_eq_true, decide_eq_true_eq] at h
  have hdrop : s.toList.drop length = [] := List.drop_eq_nil_of_le h.right
  rw [varchar, Bool.and_eq_true, hdrop]
  exact ⟨h.left, rfl⟩

variable {ρ : Type}

/--
A statement that commits on its own: `result` is its answer and its effect when nothing goes wrong.
-/
def statement (fault : Fault) (w : World) (error : Err) (result : Except Err ρ × World)
    : Option (Except Err ρ × World) :=
  match fault with
  | .none => some result
  | .before => some (.error error, w)
  | .after => some (.error error, result.2)

/--
A statement inside an open database transaction. It has no effect on the tables yet, so it does not
matter whether it or its answer is lost.
-/
def inSession (pid : Pid) (fault : Fault) (w : World)
    (result : Session → Option (Except Err ρ × World)) : Option (Except Err ρ × World) :=
  match w.ledger.sessions pid with
  | none => none
  | some session =>
    match fault with
    | .none => result session
    | _ => some (.error connectionError, w)

def setSession (pid : Pid) (session : Session) (w : World) : World :=
  { w with ledger :=
    { w.ledger with sessions := Function.update w.ledger.sessions pid (some session) } }

def mock (pid : Pid) (op : MockOp) (w : World) : Option op.Reply × World :=
  let mem := w.mem pid.inst
  if mem.isMockMode then
    let (reply, store) := op.run mem.mockStore
    (some reply, { w with mem := Function.update w.mem pid.inst ⟨true, store⟩ })
  else
    (none, w)

def client (op : ClientOp) (w : World) : op.Reply × World :=
  let (reply, redis) := op.run w.clock w.redis
  (reply, { w with redis := redis })

def fallback (pid : Pid) (op : MockOp) (w : World) : op.Reply × World :=
  let (reply, store) := op.run (w.mem pid.inst).mockStore
  (reply, { w with mem := Function.update w.mem pid.inst ⟨true, store⟩ })

def findTransaction (D : Deployment) (pid : Pid) (conditions : List TxnWhere) (o : Oracle)
    (w : World) : Option (Except Err (Option Transaction) × World) :=
  let rows := matching D conditions w.ledger.transactions
  let row := rows[o.pick]?
  if o.fault ≠ .none then
    some (.error connectionError, w)
  else if rows ≠ [] ∧ row = none then
    none
  else
    some (.ok row, { w with history := w.history ++ [.read pid conditions row] })

def NewTransaction.fits (txn : NewTransaction) : Bool :=
  varchar 255 txn.idempotencyKey ∧ varchar 100 txn.merchantId ∧ txn.amount < 2 ^ 63 ∧
    varchar 10 txn.currency

def insertTransaction (pid : Pid) (txn : NewTransaction) (o : Oracle) (w : World)
    : Option (Except Err Transaction × World) :=
  if o.id ∈ w.ledger.transactions.map (·.id) then
    none
  else if ¬NewTransaction.fits txn then
    some (.error dataException, w)
  else if txn.idempotencyKey ∈ w.ledger.transactions.map (·.idempotencyKey) then
    some (.error uniqueViolation, w)
  else
    let row := txn.row o.id
    statement o.fault w connectionError
      (.ok row,
        { w with
          ledger := w.ledger.insert row
          history := w.history ++ [.inserted pid row] })

def AuditLog.fits (D : Deployment) (row : AuditLog) : Bool :=
  row.reason.all (varchar 500) && row.rawGatewayResponse.all D.jsonb

def insertAudit (D : Deployment) (row : AuditLog) (o : Oracle) (w : World)
    : Option (Except Err Unit × World) :=
  if ¬AuditLog.fits D row then
    some (.error dataException, w)
  else
    let row := { row with createdAt := w.clock }
    statement o.fault w connectionError
      (.ok (), { w with ledger := { w.ledger with auditLog := w.ledger.auditLog ++ [row] } })

def begin (pid : Pid) (o : Oracle) (w : World) : Option (Except Err Unit × World) :=
  match o.fault with
  | .none => some (.ok (), setSession pid ⟨w.clock, none, none, []⟩ w)
  | _ => some (.error connectionError, w)

-- A row that another database transaction holds makes the statement wait.
def selectForUpdate (pid : Pid) (id : String) (o : Oracle) (w : World)
    : Option (Except Err (Option Transaction) × World) :=
  inSession pid o.fault w fun session =>
    match w.ledger.transactions.find? (·.id = id) with
    | none => some (.ok none, w)
    | some row =>
      if w.ledger.locks id ≠ none ∧ w.ledger.locks id ≠ some pid then
        none
      else
        let w := setSession pid { session with lock := some id } w
        some (.ok (some row),
          { w with ledger :=
            { w.ledger with locks := Function.update w.ledger.locks id (some pid) } })

def Transaction.fits (row : Transaction) : Bool :=
  row.gatewayTxnId.all (varchar 255)

def saveTransaction (pid : Pid) (row : Transaction) (o : Oracle) (w : World)
    : Option (Except Err Unit × World) :=
  inSession pid o.fault w fun session =>
    if ¬Transaction.fits row then
      some (.error dataException, w)
    else
      some (.ok (), setSession pid { session with update := some row } w)

def saveAudit (D : Deployment) (pid : Pid) (row : AuditLog) (o : Oracle) (w : World)
    : Option (Except Err Unit × World) :=
  inSession pid o.fault w fun session =>
    if ¬AuditLog.fits D row then
      some (.error dataException, w)
    else
      let row := { row with createdAt := session.startedAt }
      some (.ok (), setSession pid { session with audits := session.audits ++ [row] } w)

-- A commit that fails has rolled the database transaction back, or only its answer is lost.
def commit (pid : Pid) (o : Oracle) (w : World) : Option (Except Err Unit × World) :=
  match w.ledger.sessions pid with
  | none => none
  | some session =>
    let rolledBack := { w with ledger := w.ledger.release pid }
    statement o.fault rolledBack connectionError
      (.ok (),
        { w with
          ledger := (w.ledger.apply session).release pid
          history := w.history ++ session.audits.map (.committed pid) })

def rollback (pid : Pid) (w : World) : World :=
  { w with ledger := w.ledger.release pid }

def findEvent (pid : Pid) (id : String) (o : Oracle) (w : World)
    : Option (Except Err (Option WebhookEvent) × World) :=
  if o.fault ≠ .none then
    some (.error connectionError, w)
  else
    match w.webhookEvents.find? (·.id = id) with
    | none => some (.ok none, w)
    | some event =>
      some (.ok (some event), { w with history := w.history ++ [.loaded pid event] })

def IncomingWebhook.fits (D : Deployment) (event : IncomingWebhook) : Bool :=
  holds 255 event.eventId && holds 100 event.eventType && D.jsonb event.payload

def insertEvent (D : Deployment) (event : IncomingWebhook) (o : Oracle) (w : World)
    : Option (Except Err WebhookEvent × World) :=
  if o.id ∈ w.webhookEvents.map (·.id) then
    none
  else if ¬IncomingWebhook.fits D event then
    some (.error dataException, w)
  else if (event.gateway, event.eventId) ∈ w.webhookEvents.map (fun e => (e.gateway, e.eventId)) then
    some (.error uniqueViolation, w)
  else
    let row := event.row o.id
    statement o.fault w connectionError
      (.ok row, { w with webhookEvents := w.webhookEvents ++ [row] })

def saveEvent (event : WebhookEvent) (o : Oracle) (w : World)
    : Option (Except Err Unit × World) :=
  statement o.fault w connectionError
    (.ok (),
      { w with webhookEvents :=
        w.webhookEvents.map (fun old => if old.id = event.id then event else old) })

-- `save` writes the columns that differ from the row as it reads it once more: in one step this is the
-- whole row.
def saveStats (stats : GatewayStats) (o : Oracle) (w : World) : Option (Except Err Unit × World) :=
  statement o.fault w connectionError
    (.ok (),
      { w with gatewayStats :=
        w.gatewayStats.map (fun old => if old.gateway = stats.gateway then stats else old) })

def query (fault : Fault) (w : World) (answer : ρ) : Option (Except Err ρ × World) :=
  match fault with
  | .none => some (.ok answer, w)
  | _ => some (.error connectionError, w)

def charge (pid : Pid) (gateway : GatewayProvider) (request : GatewayChargeRequest) (w : World)
    : Nat × World :=
  (w.charges.length,
    { w with
      charges := w.charges ++ [⟨pid, gateway, request, .pending false, false⟩]
      history := w.history ++ [.charged pid gateway request] })

-- The answer that comes first wins. A call that is still pending leaves the race to the timer.
def race (n : Nat) (o : Oracle) (w : World)
    : Option (Except Err GatewayChargeResponse × World) :=
  match w.charges[n]? with
  | none => none
  | some charge =>
    match charge.status with
    | .answered response => some (.ok response, w)
    | .threw message _ => some (.error (.error message), w)
    | .pending _ =>
      if o.timer then
        some (.error (.error "Gateway call timed out"),
          { w with charges := w.charges.set n { charge with timedOut := true } })
      else
        none

end Exec

def exec (D : Deployment) (pid : Pid) (cmd : Cmd) (o : Oracle) (w : World)
    : Option (Except Err cmd.Resp × World) :=
  match cmd with
  | .mock op => let (reply, w) := Exec.mock pid op w; some (.ok reply, w)
  | .client op =>
    let (reply, w') := Exec.client op w
    Exec.statement o.fault w Exec.redisError (.ok reply, w')
  | .fallback op => let (reply, w) := Exec.fallback pid op w; some (.ok reply, w)
  | .findTransaction conditions => Exec.findTransaction D pid conditions o w
  | .insertTransaction txn => Exec.insertTransaction pid txn o w
  | .insertAudit row => Exec.insertAudit D row o w
  | .begin => Exec.begin pid o w
  | .selectForUpdate id => Exec.selectForUpdate pid id o w
  | .saveTransaction row => Exec.saveTransaction pid row o w
  | .saveAudit row => Exec.saveAudit D pid row o w
  | .commit => Exec.commit pid o w
  | .rollback => some (.ok (), Exec.rollback pid w)
  | .findEvent id => Exec.findEvent pid id o w
  | .insertEvent event => Exec.insertEvent D event o w
  | .saveEvent event => Exec.saveEvent event o w
  | .findStats => Exec.query o.fault w w.gatewayStats
  | .findStatsOf gateway => Exec.query o.fault w (w.gatewayStats.find? (·.gateway = gateway))
  | .saveStats stats => Exec.saveStats stats o w
  | .charge gateway request =>
    let (n, w) := Exec.charge pid gateway request w
    some (.ok n, w)
  | .race n => Exec.race n o w
  | .now => some (.ok w.clock, w)

/--
What happens by itself: time passes, Redis loses a key, an instance falls back to its in-memory
store, a charge call makes progress at its gateway.
-/
inductive EnvAct where
  | tick (ms : Nat)
  | lose (key : String)
  | fallBack (inst : Nat)
  | settle (n : Nat) (status : ChargeStatus)

def envStep (e : EnvAct) (w : World) : Option World :=
  match e with
  | .tick ms => some { w with clock := w.clock + ms }
  | .lose key =>
    some { w with redis := { w.redis with entries := Function.update w.redis.entries key none } }
  | .fallBack inst =>
    some { w with mem := Function.update w.mem inst ⟨true, (w.mem inst).mockStore⟩ }
  | .settle n status =>
    match w.charges[n]? with
    | some charge =>
      match charge.status with
      | .pending _ => some { w with charges := w.charges.set n { charge with status := status } }
      | _ => none
    | none => none

/-
An instance goes down and comes up again: its memory is gone and the database rolls back what it had
open.
-/
def crashInst (inst : Nat) (w : World) : World :=
  { w with
    mem := Function.update w.mem inst ⟨false, fun _ => none⟩
    ledger :=
      { w.ledger with
        sessions := fun pid => if pid.inst = inst then none else w.ledger.sessions pid
        locks := fun id =>
          match w.ledger.locks id with
          | some pid => if pid.inst = inst then none else some pid
          | none => none } }

@[reducible]
def machine (D : Deployment) : Machine Cmd Cmd.Resp Err where
  World := World
  Pid := Pid
  Node := Nat
  Oracle := Oracle
  Env := EnvAct
  node := Pid.inst
  exec := exec D
  env := envStep
  crash := crashInst

end PaymentOrchestration
