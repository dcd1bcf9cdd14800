import PaymentOrchestration.Common.Entities
import PaymentOrchestration.Concurrency.Pool

/-!
This module contains the world that the instances of the service share: the database, the Redis
server, the gateways' charge calls and the memory of each instance, with the commands that programs
issue to them.
-/

namespace PaymentOrchestration

/--
A process is one call of the service on one of its instances.
-/
structure Pid where
  inst : Nat
  num : Nat
  deriving DecidableEq, Repr

/-
Values under a Redis key. The two JSON texts that `create` writes are kept in parsed form, every
other value is a raw string.
-/
inductive Stored where
  | processing
  | completed (transaction : Transaction)
  | raw (s : String)
  deriving DecidableEq, Repr

-- The empty text counts as a missing value where the source tests a value.
def Stored.truthy (value : Stored) : Bool :=
  match value with
  | .raw s => s ≠ ""
  | _ => true

-- `!value`
def Stored.missing (value : Option Stored) : Bool :=
  !value.any truthy

inductive SetMode where
  | NX
  | XX
  deriving DecidableEq, Repr

inductive DurationMode where
  | EX
  | PX
  deriving DecidableEq, Repr

def DurationMode.millis (mode : DurationMode) (duration : Nat) : Nat :=
  match mode with
  | .EX => 1000 * duration
  | .PX => duration

-- `this.mockStore` of an instance of `RedisService`.
abbrev MockStore := String → Option Stored

inductive MockOp where
  | get (key : String)
  | set (key : String) (value : Stored) (mode : Option SetMode)
  | del (key : String)
  | lpush (queue : String) (item : String)
  | brpop (queue : String)

-- `set` answers whether it was `'OK'`.
@[reducible]
def MockOp.Reply (op : MockOp) : Type :=
  match op with
  | .get _ => Option Stored
  | .set _ _ _ => Bool
  | .del _ => Nat
  | .lpush _ _ => Nat
  | .brpop _ => Option String

def MockOp.run (op : MockOp) (store : MockStore) : op.Reply × MockStore :=
  match op with
  | .get key => ((store key).filter Stored.truthy, store)
  | .set key value mode =>
    if mode = some .NX ∧ (store key).isSome then
      (false, store)
    else
      (true, Function.update store key (some value))
  | .del key => (if (store key).isSome then 1 else 0, Function.update store key none)
  | .lpush queue item => (1, Function.update store queue (some (.raw item)))
  | .brpop queue =>
    match store queue with
    | some (.raw item) =>
      if item = "" then (none, store) else (some item, Function.update store queue none)
    | _ => (none, store)

structure Entry where
  value : Stored
  expireAt : Option Nat
  deriving DecidableEq, Repr

/--
The Redis server. A key is gone once its time is over.
-/
structure Redis where
  entries : String → Option Entry
  lists : String → List String

namespace Redis

def lookup (redis : Redis) (now : Nat) (key : String) : Option Stored :=
  match redis.entries key with
  | some entry =>
    match entry.expireAt with
    | some t => if now < t then some entry.value else none
    | none => some entry.value
  | none => none

end Redis

inductive ClientOp where
  | get (key : String)
  | set (key : String) (value : Stored) (expiry : Option (DurationMode × Nat))
      (mode : Option SetMode)
  | del (key : String)
  | lpush (queue : String) (item : String)
  | brpop (queue : String)

@[reducible]
def ClientOp.Reply (op : ClientOp) : Type :=
  match op with
  | .get _ => Option Stored
  | .set _ _ _ _ => Bool
  | .del _ => Nat
  | .lpush _ _ => Nat
  | .brpop _ => Option String

def ClientOp.run (op : ClientOp) (now : Nat) (redis : Redis) : op.Reply × Redis :=
  match op with
  | .get key => (redis.lookup now key, redis)
  | .set key value expiry mode =>
    let present := (redis.lookup now key).isSome
    if (mode = some .NX ∧ present) ∨ (mode = some .XX ∧ ¬present) then
      (false, redis)
    else
      let entry : Entry := ⟨value, expiry.map (fun e => now + e.1.millis e.2)⟩
      (true, { redis with entries := Function.update redis.entries key (some entry) })
  | .del key =>
    (if (redis.lookup now key).isSome then 1 else 0,
      { redis with entries := Function.update redis.entries key none })
  | .lpush queue item =>
    let items := item :: redis.lists queue
    (items.length, { redis with lists := Function.update redis.lists queue items })
  | .brpop queue =>
    match (redis.lists queue).getLast? with
    | some item =>
      (some item,
        { redis with lists := Function.update redis.lists queue (redis.lists queue).dropLast })
    | none => (none, redis)

structure Mem where
  isMockMode : Bool
  mockStore : MockStore

/--
An open database transaction: the row it holds with `FOR UPDATE` and what it will write when it
commits.
-/
structure Session where
  startedAt : Nat
  lock : Option String
  update : Option Transaction
  audits : List AuditLog

/--
The tables `transactions` and `audit_log`, with the open database transactions on them.
-/
structure Ledger where
  transactions : List Transaction
  auditLog : List AuditLog
  sessions : Pid → Option Session
  locks : String → Option Pid

namespace Ledger

def insert (ledger : Ledger) (row : Transaction) : Ledger :=
  { ledger with transactions := ledger.transactions ++ [row] }

-- The database transaction of `by` is over, without effect on the tables.
def release (ledger : Ledger) (pid : Pid) : Ledger :=
  { ledger with
    sessions := Function.update ledger.sessions pid none
    locks := fun id => if ledger.locks id = some pid then none else ledger.locks id }

def writeRow (row : Transaction) (rows : List Transaction) : List Transaction :=
  rows.map (fun old => if old.id = row.id then row else old)

def apply (ledger : Ledger) (session : Session) : Ledger :=
  { ledger with
    transactions :=
      match session.update with
      | some row => writeRow row ledger.transactions
      | none => ledger.transactions
    auditLog := ledger.auditLog ++ session.audits }

end Ledger

/-
What has become of an `adapter.charge` call. A call that throws or never answers may still have
captured the payment at the gateway.
-/
inductive ChargeStatus where
  | pending (captured : Bool)
  | answered (response : GatewayChargeResponse)
  | threw (message : String) (captured : Bool)

def ChargeStatus.captured (status : ChargeStatus) : Bool :=
  match status with
  | .pending captured => captured
  | .answered response => response.success
  | .threw _ captured => captured

structure Charge where
  pid : Pid
  gateway : GatewayProvider
  request : GatewayChargeRequest
  status : ChargeStatus
  -- The 1500 ms timer has won the race against this call.
  timedOut : Bool

-- A condition of `findOne({ where: [...] })`, with the value bound to its column.
inductive TxnWhere where
  | gatewayTxnId (value : Json)
  | idempotencyKey (value : Json)

/--
What has happened so far. Nothing in the service reads it.
-/
inductive Event where
  | inserted (pid : Pid) (row : Transaction)
  | committed (pid : Pid) (row : AuditLog)
  | charged (pid : Pid) (gateway : GatewayProvider) (request : GatewayChargeRequest)
  | read (pid : Pid) (conditions : List TxnWhere) (row : Option Transaction)
  | loaded (pid : Pid) (event : WebhookEvent)

structure World where
  clock : Nat
  redis : Redis
  mem : Nat → Mem
  ledger : Ledger
  webhookEvents : List WebhookEvent
  gatewayStats : List GatewayStats
  charges : List Charge
  history : List Event

inductive Cmd where
  -- `if (this.isMockMode) { ... }` around an operation on `this.mockStore`
  | mock (op : MockOp)
  | client (op : ClientOp)
  -- `this.isMockMode = true;` and the same operation
  | fallback (op : MockOp)
  | findTransaction (conditions : List TxnWhere)
  | insertTransaction (txn : NewTransaction)
  | insertAudit (row : AuditLog)
  | begin
  | selectForUpdate (id : String)
  | saveTransaction (row : Transaction)
  | saveAudit (row : AuditLog)
  | commit
  | rollback
  | findEvent (id : String)
  | insertEvent (event : IncomingWebhook)
  | saveEvent (event : WebhookEvent)
  | findStats
  | findStatsOf (gateway : GatewayProvider)
  | saveStats (stats : GatewayStats)
  | charge (gateway : GatewayProvider) (request : GatewayChargeRequest)
  -- wait for the charge call with this number or for the timer
  | race (n : Nat)
  | now

@[reducible]
def Cmd.Resp (cmd : Cmd) : Type :=
  match cmd with
  | .mock op => Option op.Reply
  | .client op => op.Reply
  | .fallback op => op.Reply
  | .findTransaction _ => Option Transaction
  | .insertTransaction _ => Transaction
  | .insertAudit _ => Unit
  | .begin => Unit
  | .selectForUpdate _ => Option Transaction
  | .saveTransaction _ => Unit
  | .saveAudit _ => Unit
  | .commit => Unit
  | .rollback => Unit
  | .findEvent _ => Option WebhookEvent
  | .insertEvent _ => WebhookEvent
  | .saveEvent _ => Unit
  | .findStats => List GatewayStats
  | .findStatsOf _ => Option GatewayStats
  | .saveStats _ => Unit
  | .charge _ _ => Nat
  | .race _ => GatewayChargeResponse
  | .now => Nat

abbrev Program (α : Type) := Prog Cmd Cmd.Resp Err α

def perform (cmd : Cmd) : Program cmd.Resp :=
  Prog.perform cmd

/--
How a statement to a remote store can go wrong: it may be lost or only its answer may be.
-/
inductive Fault where
  | none
  | before
  | after
  deriving DecidableEq, Repr

structure Oracle where
  fault : Fault := .none
  -- the `gen_random_uuid()` of an insert
  id : String := ""
  -- which of several matching rows `findOne` returns
  pick : Nat := 0
  -- the timer of `Promise.race` goes off
  timer : Bool := false

end PaymentOrchestration
