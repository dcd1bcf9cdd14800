import PaymentOrchestration.Party.Calm

/-!
This module checks the calls of the service against the protocol of a calm call.
-/

namespace PaymentOrchestration

open Protocol ReconciliationWorker StateMachine

variable {α : Type} {s : Calm}

namespace TransactionsService

variable {dto : CreateTransactionDto} {id : String} {seen : TransactionState}

/--
What holds when `create` ends.
-/
def Settles (r : Except Err Transaction) (s : Calm) : Prop :=
  s = .starting ∨ ∃ t, r = .ok t ∧ t.currentState.final = true

theorem calm_setCompleted {t : Transaction} (hs : s ≠ .free) (ht : t.currentState.final = true)
    : calmProtocol.wp ((setCompleted dto.idempotencyKey t).bind (fun _ => .pure t)) Settles s := by
  unfold setCompleted
  rw [wp_bind, Prog.bind_def, wp_bind]
  apply RedisService.calm_set hs (redisKey_ne_queueName _)
  intro _
  exact .inr ⟨t, rfl, ht⟩

theorem calm_now {Q : Except Err Nat → Calm → Prop} (hs : s ≠ .free) (hQ : ∀ now, Q (.ok now) s)
    : calmProtocol.wp (perform .now) Q s := by
  apply calm_beside
  . trivial
  . intro r hr
    cases r with
    | error e => exact absurd (hr.resolve_left hs) id
    | ok now => exact hQ now

theorem calm_callGateway {request : GatewayChargeRequest} {g : GatewayProvider} {startTime : Nat}
    {Q : Except Err GatewayChargeResponse → Calm → Prop} (hs : s ≠ .free)
    (hQ : ∀ response, Q (.ok response) s)
    : calmProtocol.wp (callGateway request g startTime) Q s := by
  unfold callGateway
  rw [Prog.bind_def, wp_bind]
  apply calm_beside
  . trivial
  . intro r hr
    cases r with
    | error e => exact absurd (hr.resolve_left hs) id
    | ok n =>
      dsimp only
      rw [Prog.tryCatch_def, wp_tryCatch]
      apply calm_beside
      . trivial
      . intro r _
        cases r with
        | ok response => exact hQ response
        | error e =>
          dsimp only
          rw [Prog.bind_def, wp_bind]
          apply calm_now hs
          intro endTime
          exact hQ _

theorem calm_attempt {g : GatewayProvider}
    {Q : Except Err (GatewayChargeResponse × Nat) → Calm → Prop}
    (hseen : .ROUTED ∈ VALID_TRANSITIONS seen) (hfinal : seen.final = false)
    (hQ : ∀ result, Q (.ok result) (.moving none id .PROCESSING .closed))
    : calmProtocol.wp (attempt dto id g) Q (.moving none id seen .closed) := by
  unfold attempt
  rw [Prog.bind_def, wp_bind]
  apply calm_transition hseen (fun _ => hfinal)
  intro row now _
  dsimp only
  rw [Prog.bind_def, wp_bind]
  apply calm_transition (by decide) (fun _ => rfl)
  intro row now _
  dsimp only
  rw [Prog.bind_def, wp_bind]
  apply calm_now (by simp)
  intro startTime
  dsimp only
  rw [Prog.bind_def, wp_bind]
  apply calm_callGateway (by simp)
  intro response
  dsimp only
  rw [Prog.bind_def, wp_bind]
  apply calm_now (by simp)
  intro endTime
  exact hQ _

theorem calm_afterSuccess {g : GatewayProvider} {r : GatewayChargeResponse} {latencyMs : Nat}
    : calmProtocol.wp
        (do
          let updatedTxn ← transition id .SUCCESS (successMetadata g r)
          RoutingEngine.recordSuccess g latencyMs
          setCompleted dto.idempotencyKey updatedTxn
          return updatedTxn)
        Settles (.moving none id .PROCESSING .closed) := by
  rw [Prog.bind_def, wp_bind]
  apply calm_transition (by decide) (fun _ => rfl)
  intro row now _
  dsimp only
  rw [Prog.bind_def, wp_bind]
  apply RoutingEngine.calm_recordSuccess (by simp)
  exact calm_setCompleted (by simp) rfl

theorem calm_execute {g : GatewayProvider} {fb : List GatewayProvider}
    (hseen : .ROUTED ∈ VALID_TRANSITIONS seen) (hfinal : seen.final = false)
    : calmProtocol.wp (execute dto id g fb) Settles (.moving none id seen .closed) := by
  induction fb generalizing g seen with
  | nil =>
    unfold execute
    rw [Prog.bind_def, wp_bind]
    apply calm_attempt hseen hfinal
    rintro ⟨r, latencyMs⟩
    dsimp only
    split
    . exact calm_afterSuccess
    . rw [Prog.bind_def, wp_bind]
      apply RoutingEngine.calm_recordFailure (by simp)
      dsimp only
      rw [Prog.bind_def, wp_bind]
      apply calm_transition (by decide) (fun _ => rfl)
      intro row now _
      exact calm_setCompleted (by simp) rfl
  | cons g' fb ih =>
    unfold execute
    rw [Prog.bind_def, wp_bind]
    apply calm_attempt hseen hfinal
    rintro ⟨r, latencyMs⟩
    dsimp only
    split
    . exact calm_afterSuccess
    . rw [Prog.bind_def, wp_bind]
      apply RoutingEngine.calm_recordFailure (by simp)
      dsimp only
      rw [Prog.bind_def, wp_bind]
      apply calm_transition (by decide) (fun _ => rfl)
      intro row now _
      exact ih (by decide) rfl

-- Before it has a row the call may fail in any way.
theorem settles_starting (r : Except Err Transaction) : Settles r .starting := by
  exact .inl rfl

theorem calm_starting {p : Program α} {Q : Except Err α → Calm → Prop} (hp : p.Issues Cmd.routing)
    (hQ : ∀ r, Q r .starting) : calmProtocol.wp p Q .starting := by
  apply (calm_of_routing hp).wp
  . intro a _
    exact hQ _
  . intro e
    exact hQ _

theorem calm_findByKey {Q : Except Err (Option Transaction) → Calm → Prop}
    (hQ : ∀ r, Q r .starting) : calmProtocol.wp (findByKey dto.idempotencyKey) Q .starting := by
  unfold findByKey
  rw [calm_perform]
  refine ⟨.inr (.inl rfl), fun r _ => ?_⟩
  rcases r with e | _ | row
  . exact hQ _
  . exact hQ _
  . exact hQ _

theorem calm_replay : calmProtocol.wp (replay dto) Settles .starting := by
  unfold replay
  rw [Prog.bind_def, wp_bind]
  apply calm_starting RedisService.issues_get
  intro r
  rcases r with e | value
  . exact settles_starting _
  . dsimp only
    split
    . exact settles_starting _
    . exact settles_starting _
    . exact settles_starting _
    . rw [Prog.bind_def, wp_bind]
      apply calm_findByKey
      intro r
      rcases r with e | _ | existing
      . exact settles_starting _
      . exact settles_starting _
      . dsimp only
        rw [Prog.bind_def, wp_bind]
        apply calm_starting issues_setCompleted
        intro r
        cases r <;> exact settles_starting _

theorem calm_createLocked {D : Deployment}
    : calmProtocol.wp (createLocked D dto) Settles .starting := by
  unfold createLocked
  rw [Prog.bind_def, wp_bind]
  apply calm_findByKey
  intro r
  rcases r with e | _ | existing
  . exact settles_starting _
  . dsimp only
    rw [Prog.bind_def, wp_bind]
    apply calm_starting RoutingEngine.issues_getRankedGateways
    intro r
    rcases r with e | _ | ⟨g, fb⟩
    . exact settles_starting _
    . exact settles_starting _
    . dsimp only
      rw [Prog.bind_def, wp_bind, calm_perform]
      refine ⟨.inr ⟨rfl, rfl⟩, fun r hr => ?_⟩
      rcases r with e | row
      . exact settles_starting _
      . have hrow : row = (newTransaction dto g fb).row row.id := by
          exact hr.resolve_left (by simp)
        have hstate : row.currentState = .INITIATED := by
          rw [hrow]
          rfl
        dsimp only [Calm.next, Calm.inserted]
        rw [hstate, Prog.bind_def, wp_bind, calm_perform]
        refine ⟨.inr ⟨row.id, .INITIATED, rfl⟩, fun r hr => ?_⟩
        rcases r with e | _
        . exact absurd (hr.resolve_left (by simp)) id
        . exact calm_execute (by decide) rfl
  . dsimp only
    rw [Prog.bind_def, wp_bind]
    apply calm_starting issues_setCompleted
    intro r
    cases r <;> exact settles_starting _

theorem calm_create {D : Deployment} : calmProtocol.wp (create D dto) Settles .starting := by
  unfold create
  rw [Prog.bind_def, wp_bind]
  apply calm_starting (RedisService.issues_set (redisKey_ne_queueName _))
  intro r
  rcases r with e | isLockAcquired
  . exact settles_starting _
  . dsimp only
    split
    . exact calm_replay
    . rw [Prog.tryCatch_def, wp_tryCatch]
      apply wp_mono calm_createLocked
      intro r s hsettles
      cases r with
      | ok t => exact hsettles
      | error e =>
        -- a call that fails has no row
        rcases hsettles with hs | ⟨t, ht, _⟩
        . subst hs
          dsimp only
          rw [Prog.bind_def, wp_bind]
          apply calm_starting (RedisService.issues_del (redisKey_ne_queueName _))
          intro r
          cases r <;> exact settles_starting _
        . cases ht

end TransactionsService

namespace ReconciliationWorker

variable {event : WebhookEvent} {id : String} {seen : TransactionState}

/--
What holds when a round of the worker ends.
-/
def Marks (_ : Except Err Unit) (s : Calm) : Prop :=
  s = .polling ∨ (∃ event, s = .loaded event ∧ event.processed = true) ∨ ∃ id, s = .done id

theorem calm_markProcessed (hs : s ≠ .free) (hevent : s.event = some event)
    : calmProtocol.wp (markProcessed event) Marks s := by
  unfold markProcessed
  rw [Prog.bind_def, wp_bind]
  apply TransactionsService.calm_now hs
  intro now
  dsimp only
  rw [calm_perform]
  refine ⟨⟨rfl, .inr ⟨event, hevent, rfl⟩⟩, fun r _ => ?_⟩
  refine .inr (.inr ⟨event.id, ?_⟩)
  simp only [Calm.next]
  unfold Calm.event at hevent
  split at hevent
  . injection hevent with hevent
    subst hevent
    rfl
  . subst hevent
    rfl
  . cases hevent

theorem calm_stepFrom {expected toState : TransactionState} {metadata : TransitionMetadata}
    {Q : Except Err TransactionState → Calm → Prop}
    (hto : toState ∈ VALID_TRANSITIONS expected)
    (hok : ∀ state, Q (.ok state) (.moving (some event) id state .closed))
    : calmProtocol.wp (stepFrom expected (transition id toState metadata) seen) Q
        (.moving (some event) id seen .closed) := by
  unfold stepFrom
  split
  . next heq =>
    subst heq
    rw [Prog.bind_def, wp_bind]
    apply calm_transition hto (by simp)
    intro row now _
    exact hok _
  . exact hok seen

theorem calm_driveToReconciled {D : Deployment} {txn : Transaction} {gateway : GatewayProvider}
    {gatewayTxnId rawResponse : Json} {Q : Except Err Unit → Calm → Prop}
    (hok : ∀ state, Q (.ok ()) (.moving (some event) txn.id state .closed))
    : calmProtocol.wp (driveToReconciled D txn gateway gatewayTxnId rawResponse) Q
        (.moving (some event) txn.id txn.currentState .closed) := by
  unfold driveToReconciled
  dsimp only
  split
  . exact hok _
  . rw [Prog.bind_def, wp_bind]
    apply calm_stepFrom (by decide)
    intro state₁
    dsimp only
    rw [Prog.bind_def, wp_bind]
    apply calm_stepFrom (by decide)
    intro state₂
    dsimp only
    rw [Prog.bind_def, wp_bind]
    apply calm_stepFrom (by decide)
    intro state₃
    dsimp only
    rw [Prog.bind_def, wp_bind]
    apply calm_stepFrom (by decide)
    intro state₄
    dsimp only
    rw [Prog.bind_def, wp_bind]
    apply calm_stepFrom (by decide)
    exact hok

theorem calm_processEvent {D : Deployment} {recordId : String}
    : calmProtocol.wp (processEvent D recordId) Marks (.holding recordId) := by
  unfold processEvent
  rw [Prog.bind_def, wp_bind, calm_perform]
  refine ⟨.inr rfl, fun r hr => ?_⟩
  rcases hr with hr | ⟨event, hr, hid, hlegible⟩
  . cases hr
  . subst hr
    dsimp only
    split
    . next hprocessed => exact .inr (.inl ⟨event, rfl, hprocessed⟩)
    . next hprocessed =>
      split
      . exact calm_markProcessed (by simp [Calm.next, Calm.found]) rfl
      . next x hx =>
        have hconvertible : x.convertible = true := by
          simpa [WebhookEvent.legible, hprocessed, hx] using hlegible
        rw [hconvertible, Bool.not_true, if_neg (by simp), Prog.bind_def, wp_bind, calm_perform]
        refine ⟨.inr (.inr ⟨event, rfl⟩), fun r hr => ?_⟩
        rcases r with e | _ | txn
        . exact absurd (hr.resolve_left (by simp [Calm.next, Calm.found])) id
        . exact calm_markProcessed (by simp [Calm.next, Calm.found]) rfl
        . dsimp only
          rw [Prog.bind_def, wp_bind]
          apply calm_driveToReconciled
          intro state
          exact calm_markProcessed (by simp) rfl

theorem calm_pollQueue {D : Deployment} : calmProtocol.wp (pollQueue D) Marks .polling := by
  unfold pollQueue RedisService.brpop
  rw [Prog.bind_def, wp_bind, Prog.bind_def, wp_bind, calm_perform]
  refine ⟨.inr ⟨rfl, rfl⟩, fun r hr => ?_⟩
  rcases r with e | _ | _ | id
  . exact absurd (hr.resolve_left (by simp)) (by simp)
  . -- The instance works with the Redis server.
    dsimp only
    rw [calm_perform]
    refine ⟨.inr ⟨rfl, rfl⟩, fun r _ => ?_⟩
    rcases r with e | _ | id
    . exact .inl rfl
    . exact .inl rfl
    . exact calm_processEvent
  . exact .inl rfl
  . exact calm_processEvent

end ReconciliationWorker

/--
A call for which the ground does not move ends well.
-/
theorem Task.calm_program {D : Deployment} (task : Task)
    (htask : ∀ event, task ≠ .ingest event)
    : calmProtocol.wp (task.program D) task.calmly task.calm := by
  cases task with
  | create dto =>
    unfold program
    dsimp only [Task.calm]
    rw [Prog.bind_def, wp_bind]
    apply wp_mono TransactionsService.calm_create
    intro r s hsettles
    cases r with
    | error e =>
      rcases hsettles with hs | ⟨t, ht, _⟩
      . exact .inl hs
      . cases ht
    | ok t =>
      rcases hsettles with hs | ⟨t', ht, hfinal⟩
      . exact .inl hs
      . injection ht with ht
        subst ht
        exact .inr ⟨t, rfl, hfinal⟩
  | ingest event => exact absurd rfl (htask event)
  | pollQueue =>
    unfold program
    dsimp only [Task.calm]
    rw [Prog.bind_def, wp_bind]
    apply wp_mono ReconciliationWorker.calm_pollQueue
    intro r s hmarks
    cases r <;> exact hmarks

/-!
Of the processes nobody looks at one thing is known: a webhook event that they write is marked.
-/

def Cmd.marking (cmd : Cmd) : Prop :=
  match cmd with
  | .saveEvent record => record.processed = true
  | _ => True

theorem Cmd.offQueue.marking {cmd : Cmd} (h : cmd.offQueue) : cmd.marking := by
  cases cmd <;> trivial

theorem Task.marking_program {D : Deployment} (task : Task)
    : (task.program D).Issues Cmd.marking := by
  cases task with
  | create dto =>
    apply Prog.Issues.bind
    . apply TransactionsService.issues_create.mono
      intro cmd hcmd
      exact hcmd.marking
    . intro _
      trivial
  | ingest event =>
    apply Prog.Issues.bind
    . apply WebhooksService.issues_ingest.mono
      intro cmd hcmd
      cases cmd <;> trivial
    . intro _
      trivial
  | pollQueue =>
    apply Prog.Issues.bind
    . apply ReconciliationWorker.issues_pollQueue.mono
      intro cmd hcmd
      cases cmd <;> first | exact hcmd | trivial
    . intro _
      trivial

theorem calm_free {p : Program α} (hp : p.Issues Cmd.marking)
    : calmProtocol.wp p (fun _ _ => True) .free := by
  have hsteady : calmProtocol.Steady .free p (fun _ => True) := by
    apply Prog.Issues.steady _ hp
    intro cmd hcmd
    constructor
    . cases cmd with
      | saveEvent record => exact ⟨hcmd, .inl rfl⟩
      | mock op => cases op <;> exact .inl rfl
      | client op => cases op <;> exact .inl rfl
      | _ => exact .inl rfl
    . intro r _
      cases cmd with
      | mock op =>
        cases op with
        | brpop queue => rcases r with e | _ | _ | id <;> rfl
        | _ => cases r <;> rfl
      | client op =>
        cases op with
        | brpop queue => rcases r with e | _ | id <;> rfl
        | _ => cases r <;> rfl
      | findTransaction conditions => rcases r with e | _ | row <;> rfl
      | findEvent id => rcases r with e | _ | event <;> rfl
      | _ => cases r <;> rfl
  apply hsteady.wp
  . intro _ _
    trivial
  . intro _
    trivial

end PaymentOrchestration
