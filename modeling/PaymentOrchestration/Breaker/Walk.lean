import PaymentOrchestration.Webhooks.OffQueue

/-!
This module contains the protocol of the failover walk: a call that has inserted its payment sends
charges to the gateways of its ranking one after the other, and none to a gateway it has left
behind.
-/

namespace PaymentOrchestration

open Protocol

/-
The gateways a call has not called yet, once it has inserted its payment.
-/
abbrev Walk := Option (List GatewayProvider)

def NewTransaction.gateways (txn : NewTransaction) : List GatewayProvider :=
  txn.selectedGateway.toList ++ txn.fallbackGateways

namespace Walk

def allowed (s : Walk) (cmd : Cmd) : Prop :=
  match cmd with
  | .insertTransaction _ => s = none
  | .charge g _ => ∃ rest, s = some (g :: rest)
  | _ => True

def next (s : Walk) (cmd : Cmd) (r : Except Err cmd.Resp) : Walk :=
  match cmd, r with
  | .insertTransaction txn, .ok _ => some txn.gateways
  -- Whether there is a row now or not, the call gives up.
  | .insertTransaction _, .error _ => some []
  | .charge _ _, _ => s.map List.tail
  | _, _ => s

end Walk

@[reducible]
def walkProtocol : Protocol Cmd Cmd.Resp Err where
  State := Walk
  allowed := Walk.allowed
  answers := fun _ _ _ => True
  next := Walk.next
  crash := id

-- Neither a payment is inserted nor a charge sent.
def Cmd.resting (cmd : Cmd) : Prop :=
  match cmd with
  | .insertTransaction _ => False
  | .charge _ _ => False
  | _ => True

-- No charge is sent to the gateway.
def Cmd.spares (g : GatewayProvider) (cmd : Cmd) : Prop :=
  match cmd with
  | .charge gateway _ => gateway ≠ g
  | _ => True

variable {α : Type} {D : Deployment} {s : Walk}

theorem Cmd.resting.walk {cmd : Cmd} (h : cmd.resting)
    : s.allowed cmd ∧ ∀ r : Except Err cmd.Resp, s.next cmd r = s := by
  cases cmd with
  | insertTransaction txn => cases h
  | charge gateway request => cases h
  | _ => exact ⟨trivial, fun r => by cases r <;> rfl⟩

theorem Cmd.routing.resting {cmd : Cmd} (h : cmd.routing) : cmd.resting := by
  cases cmd <;> trivial

theorem Cmd.ofTransition.resting {cmd : Cmd} (h : cmd.ofTransition) : cmd.resting := by
  cases cmd <;> trivial

theorem Cmd.ofIngest.resting {cmd : Cmd} (h : cmd.ofIngest) : cmd.resting := by
  cases cmd <;> trivial

theorem Cmd.ofWorker.resting {cmd : Cmd} (h : cmd.ofWorker) : cmd.resting := by
  cases cmd <;> trivial

theorem walk_perform {cmd : Cmd} {Q : Except Err cmd.Resp → Walk → Prop}
    : walkProtocol.wp (perform cmd) Q s ↔ s.allowed cmd ∧ ∀ r, Q r (s.next cmd r) := by
  unfold perform
  rw [Protocol.wp_perform]
  simp

theorem walk_resting {p : Program α} {Q : Except Err α → Walk → Prop}
    (hp : p.Issues Cmd.resting) (hQ : ∀ r, Q r s) : walkProtocol.wp p Q s := by
  have hsteady : walkProtocol.Steady s p (fun _ => True) := by
    apply Prog.Issues.steady _ hp
    intro cmd hcmd
    exact ⟨hcmd.walk.left, fun r _ => hcmd.walk.right r⟩
  apply hsteady.wp
  . intro a _
    exact hQ _
  . intro e
    exact hQ _

theorem walk_routing {p : Program α} {Q : Except Err α → Walk → Prop}
    (hp : p.Issues Cmd.routing) (hQ : ∀ r, Q r s) : walkProtocol.wp p Q s := by
  apply walk_resting _ hQ
  apply hp.mono
  intro cmd hcmd
  exact hcmd.resting

theorem walk_transition {id : String} {toState : TransactionState} {metadata : TransitionMetadata}
    {Q : Except Err Transaction → Walk → Prop} (hQ : ∀ r, Q r s)
    : walkProtocol.wp (StateMachine.transition id toState metadata) Q s := by
  apply walk_resting _ hQ
  apply StateMachine.issues_transition.mono
  intro cmd hcmd
  exact hcmd.resting

-- Where a call ends does not matter.
def Anywhere (_ : Except Err α) (_ : Walk) : Prop :=
  True

namespace TransactionsService

variable {dto : CreateTransactionDto}

theorem walk_setCompleted {key : String} {transaction t : Transaction}
    : walkProtocol.wp ((setCompleted key transaction).bind (fun _ => .pure t)) Anywhere s := by
  rw [wp_bind]
  apply walk_routing issues_setCompleted
  intro r
  cases r <;> trivial

theorem walk_findByKey {key : String} {Q : Except Err (Option Transaction) → Walk → Prop}
    (hQ : ∀ r, Q r s) : walkProtocol.wp (findByKey key) Q s := by
  unfold findByKey
  rw [walk_perform]
  exact ⟨trivial, hQ⟩

theorem walk_replay : walkProtocol.wp (replay dto) Anywhere s := by
  unfold replay
  rw [Prog.bind_def, wp_bind]
  apply walk_routing RedisService.issues_get
  intro r
  cases r with
  | error e => trivial
  | ok value =>
    dsimp only
    split
    . trivial
    . trivial
    . trivial
    . rw [Prog.bind_def, wp_bind]
      apply walk_findByKey
      intro r
      cases r with
      | error e => trivial
      | ok row =>
        dsimp only
        split
        . exact walk_setCompleted
        . trivial

theorem walk_callGateway {request : GatewayChargeRequest} {g : GatewayProvider}
    {rest : List GatewayProvider} {startTime : Nat}
    {Q : Except Err GatewayChargeResponse → Walk → Prop} (hQ : ∀ r, Q r (some rest))
    : walkProtocol.wp (callGateway request g startTime) Q (some (g :: rest)) := by
  unfold callGateway
  rw [Prog.bind_def, wp_bind, walk_perform]
  refine ⟨⟨rest, rfl⟩, fun r => ?_⟩
  cases r with
  | error e => exact hQ _
  | ok n =>
    dsimp only
    rw [Prog.tryCatch_def, wp_tryCatch, walk_perform]
    refine ⟨trivial, fun r => ?_⟩
    cases r with
    | ok response => exact hQ _
    | error err =>
      dsimp only
      rw [Prog.bind_def, wp_bind, walk_perform]
      refine ⟨trivial, fun r => ?_⟩
      cases r with
      | error e => exact hQ _
      | ok endTime => exact hQ _

/--
A round that gets an answer has left its gateway behind.
-/
theorem walk_attempt {id : String} {g : GatewayProvider} {rest : List GatewayProvider}
    {Q : Except Err (GatewayChargeResponse × Nat) → Walk → Prop}
    (hok : ∀ result, Q (.ok result) (some rest)) (herror : ∀ e s, Q (.error e) s)
    : walkProtocol.wp (attempt dto id g) Q (some (g :: rest)) := by
  unfold attempt
  rw [Prog.bind_def, wp_bind]
  apply walk_transition
  intro r
  cases r with
  | error e => exact herror _ _
  | ok _ =>
    dsimp only
    rw [Prog.bind_def, wp_bind]
    apply walk_transition
    intro r
    cases r with
    | error e => exact herror _ _
    | ok _ =>
      dsimp only
      rw [Prog.bind_def, wp_bind, walk_perform]
      refine ⟨trivial, fun r => ?_⟩
      cases r with
      | error e => exact herror _ _
      | ok startTime =>
        dsimp only
        rw [Prog.bind_def, wp_bind]
        apply walk_callGateway
        intro r
        cases r with
        | error e => exact herror _ _
        | ok chargeResult =>
          dsimp only
          rw [Prog.bind_def, wp_bind, walk_perform]
          refine ⟨trivial, fun r => ?_⟩
          cases r with
          | error e => exact herror _ _
          | ok endTime => exact hok _

theorem walk_succeed {t : Transaction} {g : GatewayProvider} {latencyMs : Nat}
    : walkProtocol.wp
        ((RoutingEngine.recordSuccess g latencyMs).bind
          (fun _ => (setCompleted dto.idempotencyKey t).bind (fun _ => .pure t)))
        Anywhere s := by
  rw [wp_bind]
  apply walk_routing RoutingEngine.issues_recordSuccess
  intro r
  cases r with
  | error e => trivial
  | ok _ => exact walk_setCompleted

/--
The induction is on the gateways that are left.
-/
theorem walk_execute {id : String} {g : GatewayProvider} {fb : List GatewayProvider}
    : walkProtocol.wp (execute dto id g fb) Anywhere (some (g :: fb)) := by
  induction fb generalizing g with
  | nil =>
    unfold execute
    rw [Prog.bind_def, wp_bind]
    apply walk_attempt _ (fun _ _ => trivial)
    rintro ⟨chargeResult, latencyMs⟩
    dsimp only
    split
    . rw [Prog.bind_def, wp_bind]
      apply walk_transition
      intro r
      cases r with
      | error e => trivial
      | ok t => exact walk_succeed
    . rw [Prog.bind_def, wp_bind]
      apply walk_routing RoutingEngine.issues_recordFailure
      intro r
      cases r with
      | error e => trivial
      | ok _ =>
        dsimp only
        rw [Prog.bind_def, wp_bind]
        apply walk_transition
        intro r
        cases r with
        | error e => trivial
        | ok failedTxn => exact walk_setCompleted
  | cons g' fb ih =>
    unfold execute
    rw [Prog.bind_def, wp_bind]
    apply walk_attempt _ (fun _ _ => trivial)
    rintro ⟨chargeResult, latencyMs⟩
    dsimp only
    split
    . rw [Prog.bind_def, wp_bind]
      apply walk_transition
      intro r
      cases r with
      | error e => trivial
      | ok t => exact walk_succeed
    . rw [Prog.bind_def, wp_bind]
      apply walk_routing RoutingEngine.issues_recordFailure
      intro r
      cases r with
      | error e => trivial
      | ok _ =>
        dsimp only
        rw [Prog.bind_def, wp_bind]
        apply walk_transition
        intro r
        cases r with
        | error e => trivial
        | ok _ => exact ih

theorem walk_createLocked : walkProtocol.wp (createLocked D dto) Anywhere none := by
  unfold createLocked
  rw [Prog.bind_def, wp_bind]
  apply walk_findByKey
  intro r
  cases r with
  | error e => trivial
  | ok existing =>
    dsimp only
    split
    . exact walk_setCompleted
    . rw [Prog.bind_def, wp_bind]
      apply walk_routing RoutingEngine.issues_getRankedGateways
      intro r
      cases r with
      | error e => trivial
      | ok gateways =>
        dsimp only
        split
        . trivial
        . next primaryGateway fallbackGateways =>
          rw [Prog.bind_def, wp_bind, walk_perform]
          refine ⟨rfl, fun r => ?_⟩
          cases r with
          | error e => trivial
          | ok saved =>
            dsimp only
            rw [Prog.bind_def, wp_bind, walk_perform]
            refine ⟨trivial, fun r => ?_⟩
            cases r with
            | error e => trivial
            | ok _ => exact walk_execute

theorem walk_create : walkProtocol.wp (create D dto) Anywhere none := by
  unfold create
  rw [Prog.bind_def, wp_bind]
  apply walk_routing (RedisService.issues_set (redisKey_ne_queueName _))
  intro r
  cases r with
  | error e => trivial
  | ok isLockAcquired =>
    dsimp only
    split
    . exact walk_replay
    . rw [Prog.tryCatch_def, wp_tryCatch]
      apply wp_mono walk_createLocked
      intro r s _
      cases r with
      | ok t => trivial
      | error e =>
        dsimp only
        rw [Prog.bind_def, wp_bind]
        apply walk_routing (RedisService.issues_del (redisKey_ne_queueName _))
        intro r
        cases r <;> trivial

end TransactionsService

/--
Every task keeps to the protocol.
-/
theorem Task.walk_program (task : Task) : walkProtocol.wp (task.program D) Anywhere none := by
  cases task with
  | create dto =>
    unfold program
    dsimp only
    rw [Prog.bind_def, wp_bind]
    apply wp_mono TransactionsService.walk_create
    intro r s _
    cases r <;> trivial
  | ingest event =>
    apply walk_resting _ (fun _ => trivial)
    apply Prog.Issues.bind
    . apply WebhooksService.issues_ingest.mono
      intro cmd hcmd
      exact hcmd.resting
    . intro _
      trivial
  | pollQueue =>
    apply walk_resting _ (fun _ => trivial)
    apply Prog.Issues.bind
    . apply ReconciliationWorker.issues_pollQueue.mono
      intro cmd hcmd
      exact hcmd.resting
    . intro _
      trivial

/--
A gateway that a call has left behind, or that was not in its ranking, is not called any more.
-/
theorem issues_spares {p : Program α} {Q : Except Err α → Walk → Prop} {g : GatewayProvider}
    {gateways : List GatewayProvider} (hp : walkProtocol.wp p Q (some gateways))
    (hg : g ∉ gateways) : p.Issues (Cmd.spares g) := by
  induction p generalizing gateways with
  | pure a => trivial
  | throw e => trivial
  | op cmd k ih =>
    rcases hp with ⟨hallowed, hk⟩
    have hspares : cmd.spares g ∧
        ∀ r : Except Err cmd.Resp, ∃ gateways', Walk.next (some gateways) cmd r = some gateways' ∧
          g ∉ gateways' := by
      cases cmd with
      | insertTransaction txn => cases hallowed
      | charge gateway request =>
        rcases hallowed with ⟨rest, heq⟩
        injection heq with heq
        rw [heq, List.mem_cons, not_or] at hg
        refine ⟨Ne.symm hg.left, fun r => ⟨rest, ?_, hg.right⟩⟩
        rw [heq]
        rfl
      | _ => exact ⟨trivial, fun r => ⟨gateways, by cases r <;> rfl, hg⟩⟩
    refine ⟨hspares.left, fun r _ => ⟨rfl, ?_⟩⟩
    rcases hspares.right r with ⟨gateways', hnext, hg'⟩
    have hr := hk r trivial
    rw [show walkProtocol.next (some gateways) cmd r = some gateways' from hnext] at hr
    exact ih r hr hg'
  | alt p q ihp ihq => exact ⟨ihp hp.left hg, ihq hp.right hg⟩

end PaymentOrchestration
