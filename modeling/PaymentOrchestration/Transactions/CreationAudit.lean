import PaymentOrchestration.Webhooks.OffQueue

/-!
This module contains the protocol of the creation audit: a call that has inserted a payment writes
the first audit row of it next, and no other call writes such a row.
-/

namespace PaymentOrchestration

open Protocol

/-
The id of the payment whose creation audit is due.
-/
abbrev Due := Option String

namespace Due

def allowed (s : Due) (cmd : Cmd) : Prop :=
  match cmd with
  | .insertAudit audit =>
    ∃ row g, s = some row.id ∧ audit = TransactionsService.creationAudit row g
  | _ => s = none

def next (s : Due) (cmd : Cmd) (r : Except Err cmd.Resp) : Due :=
  match cmd, r with
  | .insertTransaction _, .ok row => some row.id
  | .insertAudit _, _ => none
  | _, _ => s

end Due

@[reducible]
def dueProtocol : Protocol Cmd Cmd.Resp Err where
  State := Due
  allowed := Due.allowed
  answers := fun _ _ _ => True
  next := Due.next
  crash := fun _ => none

-- Neither a payment nor its creation audit is inserted.
def Cmd.plain (cmd : Cmd) : Prop :=
  match cmd with
  | .insertTransaction _ => False
  | .insertAudit _ => False
  | _ => True

variable {α : Type} {D : Deployment}

theorem Cmd.plain.due {cmd : Cmd} (h : cmd.plain)
    : Due.allowed none cmd ∧ ∀ (s : Due) (r : Except Err cmd.Resp), s.next cmd r = s := by
  cases cmd with
  | insertTransaction txn => cases h
  | insertAudit audit => cases h
  | _ => exact ⟨rfl, fun s r => by cases r <;> rfl⟩

theorem Cmd.ofTransition.plain {cmd : Cmd} (h : cmd.ofTransition) : cmd.plain := by
  cases cmd <;> trivial

theorem Cmd.beside.plain {cmd : Cmd} (h : cmd.beside) : cmd.plain := by
  cases cmd <;> trivial

theorem Cmd.ofRound.plain {cmd : Cmd} (h : cmd.ofRound) : cmd.plain := by
  rcases h with h | h
  . exact h.plain
  . exact h.plain

theorem Cmd.ofIngest.plain {cmd : Cmd} (h : cmd.ofIngest) : cmd.plain := by
  cases cmd <;> trivial

theorem Cmd.ofWorker.plain {cmd : Cmd} (h : cmd.ofWorker) : cmd.plain := by
  cases cmd <;> trivial

theorem due_perform {cmd : Cmd} {Q : Except Err cmd.Resp → Due → Prop} {s : Due}
    : dueProtocol.wp (perform cmd) Q s ↔ s.allowed cmd ∧ ∀ r, Q r (s.next cmd r) := by
  unfold perform
  rw [Protocol.wp_perform]
  simp

/--
A program that inserts nothing is through with nothing due.
-/
theorem due_plain {p : Program α} {Q : Except Err α → Due → Prop} (hp : p.Issues Cmd.plain)
    (hQ : ∀ r, Q r none) : dueProtocol.wp p Q none := by
  have hsteady : dueProtocol.Steady none p (fun _ => True) := by
    apply Prog.Issues.steady _ hp
    intro cmd hcmd
    exact ⟨hcmd.due.left, fun r _ => hcmd.due.right none r⟩
  apply hsteady.wp
  . intro a _
    exact hQ _
  . intro e
    exact hQ _

theorem due_routing {p : Program α} {Q : Except Err α → Due → Prop} (hp : p.Issues Cmd.routing)
    (hQ : ∀ r, Q r none) : dueProtocol.wp p Q none := by
  apply due_plain _ hQ
  apply hp.mono
  intro cmd hcmd
  exact hcmd.beside.plain

-- Nothing is due any more.
def Cleared (_ : Except Err α) (s : Due) : Prop :=
  s = none

namespace TransactionsService

theorem due_setCompleted {key : String} {transaction t : Transaction}
    : dueProtocol.wp ((setCompleted key transaction).bind (fun _ => .pure t)) Cleared none := by
  rw [wp_bind]
  apply due_routing issues_setCompleted
  intro r
  cases r <;> rfl

theorem due_findByKey {key : String} {Q : Except Err (Option Transaction) → Due → Prop}
    (hQ : ∀ r, Q r none) : dueProtocol.wp (findByKey key) Q none := by
  unfold findByKey
  rw [due_perform]
  exact ⟨rfl, hQ⟩

theorem due_replay {dto : CreateTransactionDto} : dueProtocol.wp (replay dto) Cleared none := by
  unfold replay
  rw [Prog.bind_def, wp_bind]
  apply due_routing RedisService.issues_get
  intro r
  cases r with
  | error e => rfl
  | ok value =>
    dsimp only
    split
    . rfl
    . rfl
    . rfl
    . rw [Prog.bind_def, wp_bind]
      apply due_findByKey
      intro r
      cases r with
      | error e => rfl
      | ok row =>
        dsimp only
        split
        . exact due_setCompleted
        . rfl

theorem due_execute {dto : CreateTransactionDto} {id : String} {g : GatewayProvider}
    {fb : List GatewayProvider} : dueProtocol.wp (execute dto id g fb) Cleared none := by
  apply due_plain
  . apply issues_execute.mono
    intro cmd hcmd
    exact hcmd.plain
  . intro r
    rfl

/--
Between the two inserts there is nothing else.
-/
theorem due_createLocked {dto : CreateTransactionDto}
    : dueProtocol.wp (createLocked D dto) Cleared none := by
  unfold createLocked
  rw [Prog.bind_def, wp_bind]
  apply due_findByKey
  intro r
  cases r with
  | error e => rfl
  | ok existing =>
    dsimp only
    split
    . exact due_setCompleted
    . rw [Prog.bind_def, wp_bind]
      apply due_routing RoutingEngine.issues_getRankedGateways
      intro r
      cases r with
      | error e => rfl
      | ok gateways =>
        dsimp only
        split
        . rfl
        . next primaryGateway fallbackGateways =>
          rw [Prog.bind_def, wp_bind, due_perform]
          refine ⟨rfl, fun r => ?_⟩
          cases r with
          | error e => rfl
          | ok saved =>
            dsimp only
            rw [Prog.bind_def, wp_bind, due_perform]
            refine ⟨⟨saved, primaryGateway, rfl, rfl⟩, fun r => ?_⟩
            cases r with
            | error e => rfl
            | ok _ => exact due_execute

theorem due_create {dto : CreateTransactionDto}
    : dueProtocol.wp (create D dto) Cleared none := by
  unfold create
  rw [Prog.bind_def, wp_bind]
  apply due_routing (RedisService.issues_set (redisKey_ne_queueName _))
  intro r
  cases r with
  | error e => rfl
  | ok isLockAcquired =>
    dsimp only
    split
    . exact due_replay
    . rw [Prog.tryCatch_def, wp_tryCatch]
      apply wp_mono due_createLocked
      intro r s hs
      cases r with
      | ok t => exact hs
      | error e =>
        rw [show s = none from hs]
        dsimp only
        rw [Prog.bind_def, wp_bind]
        apply due_routing (RedisService.issues_del (redisKey_ne_queueName _))
        intro r
        cases r <;> rfl

end TransactionsService

/--
Every task keeps to the protocol.
-/
theorem Task.due_program (task : Task) : dueProtocol.wp (task.program D) Cleared none := by
  cases task with
  | create dto =>
    unfold program
    dsimp only
    rw [Prog.bind_def, wp_bind]
    apply wp_mono TransactionsService.due_create
    intro r s hs
    cases r <;> exact hs
  | ingest event =>
    apply due_plain
    . apply Prog.Issues.bind
      . apply WebhooksService.issues_ingest.mono
        intro cmd hcmd
        exact hcmd.plain
      . intro _
        trivial
    . intro _
      rfl
  | pollQueue =>
    apply due_plain
    . apply Prog.Issues.bind
      . apply ReconciliationWorker.issues_pollQueue.mono
        intro cmd hcmd
        exact hcmd.plain
      . intro _
        trivial
    . intro _
      rfl

end PaymentOrchestration
