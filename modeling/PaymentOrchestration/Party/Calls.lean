import PaymentOrchestration.Party.Services

/-!
This module checks the calls of the service against the protocol: `create`, the rounds of the
reconciliation worker and `ingest`.
-/

namespace PaymentOrchestration

open Protocol StateMachine

variable {D : Deployment} {α : Type}

namespace TransactionsService

theorem redisKey_inj {k k' : String} (h : redisKey k = redisKey k') : k = k' := by
  unfold redisKey at h
  apply String.ext
  have := congrArg String.toList h
  simpa [toString] using this

/--
What holds when `create` ends.
-/
def Created (dto : CreateTransactionDto) (r : Except Err Transaction) (s : Party) : Prop :=
  s.tx = .idle ∧ ∃ phase, s.role = .creating dto phase ∧
    ∀ t, r = .ok t → phase = .found t ∨ phase = .cached t ∨ ∃ row, phase = .settled row t

variable {dto : CreateTransactionDto}

theorem created_error (e : Err) (phase : CreatePhase)
    : Created dto (.error e) ⟨.creating dto phase, .idle⟩ := by
  exact ⟨rfl, phase, rfl, by simp⟩

theorem created_of_steady {s : Party} {p : Program Unit} {t : Transaction} {phase : CreatePhase}
    {Φ : Unit → Prop} (hs : s = ⟨.creating dto phase, .idle⟩)
    (hp : (partyProtocol D).Steady s p Φ)
    (hphase : phase = .found t ∨ phase = .cached t ∨ ∃ row, phase = .settled row t)
    : (partyProtocol D).wp (p.bind (fun _ => .pure t)) (Created dto) s := by
  subst hs
  rw [wp_bind]
  apply hp.wp
  . intro _ _
    refine ⟨rfl, phase, rfl, ?_⟩
    rintro t' ⟨⟩
    exact hphase
  . intro e
    exact created_error e phase

theorem steady_setCompleted {s : Party} {t : Transaction} {phase : CreatePhase}
    (hs : s = ⟨.creating dto phase, .idle⟩)
    (hphase : phase = .found t ∨ ∃ row, phase = .settled row t)
    : (partyProtocol D).Steady s (setCompleted dto.idempotencyKey t) (fun _ => True) := by
  subst hs
  unfold setCompleted
  rw [Prog.bind_def]
  apply Steady.bind
  . apply RedisService.steady_set
    rcases hphase with h | ⟨row, h⟩
    all_goals
      subst h
      exact ⟨rfl, rfl⟩
  . intro _ _
    trivial

theorem wp_findByKey {Q : Except Err (Option Transaction) → Party → Prop}
    (hfound : ∀ t, t.idempotencyKey = dto.idempotencyKey →
      Q (.ok (some t)) ⟨.creating dto (.found t), .idle⟩)
    (hnone : Q (.ok none) ⟨.creating dto .start, .idle⟩)
    (herror : ∀ e, Q (.error e) ⟨.creating dto .start, .idle⟩)
    : (partyProtocol D).wp (findByKey dto.idempotencyKey) Q ⟨.creating dto .start, .idle⟩ := by
  unfold findByKey
  rw [wp_perform]
  refine ⟨.inl ⟨dto, rfl, rfl⟩, fun r hr => ?_⟩
  rcases r with e | _ | t
  . exact herror e
  . exact hnone
  . apply hfound
    rcases hr with ⟨c, hc, hholds⟩
    simp only [List.mem_singleton] at hc
    subst hc
    exact of_decide_eq_true hholds

-- An earlier row is written to the cache and returned.
theorem wp_return_existing {t : Transaction}
    : (partyProtocol D).wp
        ((setCompleted dto.idempotencyKey t).bind (fun _ => .pure t)) (Created dto)
        ⟨.creating dto (.found t), .idle⟩ := by
  apply created_of_steady rfl
  . exact steady_setCompleted rfl (.inl rfl)
  . exact .inl rfl

theorem mayGet_redisKey (dto : CreateTransactionDto)
    : (Role.creating dto .start).mayGet (redisKey dto.idempotencyKey) := by
  intro k h
  exact (redisKey_inj h).symm

theorem wp_replay
    : (partyProtocol D).wp (replay dto) (Created dto) ⟨.creating dto .start, .idle⟩ := by
  unfold replay
  rw [Prog.bind_def, wp_bind]
  apply RedisService.wp_get (mayGet_redisKey _)
  intro value _
  rcases value with _ | _ | t | _
  . dsimp only
    rw [Prog.bind_def, wp_bind]
    apply wp_findByKey
    . intro t _
      exact wp_return_existing
    . exact created_error _ _
    . intro e
      exact created_error _ _
  . exact created_error _ _
  . refine ⟨rfl, .cached t, rfl, ?_⟩
    rintro t' ⟨⟩
    exact .inr (.inl rfl)
  . exact created_error _ _

theorem wp_callGateway {request : GatewayChargeRequest} {row : Transaction} {g : GatewayProvider}
    {fb : List GatewayProvider} {startTime : Nat}
    {Q : Except Err GatewayChargeResponse → Party → Prop}
    (hrequest : request = chargeRequest dto row.id g)
    (hsucceeded : ∀ r, r.success = true →
      Q (.ok r) ⟨.creating dto (.looping row g fb (.succeeded r)), .idle⟩)
    (hfailed : ∀ r, r.success = false →
      Q (.ok r) ⟨.creating dto (.looping row g fb .failed), .idle⟩)
    : (partyProtocol D).wp (callGateway request g startTime) Q
        ⟨.creating dto (.looping row g fb .processing), .idle⟩ := by
  unfold callGateway
  rw [Prog.bind_def, wp_bind, wp_perform]
  refine ⟨⟨dto, row, fb, rfl, hrequest⟩, fun r hr => ?_⟩
  rcases r with e | n
  . cases hr
  . dsimp only
    rw [Prog.tryCatch_def, wp_tryCatch, wp_perform]
    refine ⟨⟨dto, row, g, fb, rfl⟩, fun r _ => ?_⟩
    rcases r with e | r
    . dsimp only
      rw [Prog.bind_def, wp_bind, wp_perform]
      refine ⟨trivial, fun r hr => ?_⟩
      rcases r with e | endTime
      . cases hr
      . exact hfailed _ rfl
    . cases hsuccess : r.success with
      | true => simpa [Party.next, Role.charged, Role.raced, hsuccess] using hsucceeded r hsuccess
      | false => simpa [Party.next, Role.charged, Role.raced, hsuccess] using hfailed r hsuccess

theorem wp_settle {row t : Transaction} {p : Program Unit}
    (hp : ∀ s, (partyProtocol D).Steady s p (fun _ => True))
    : (partyProtocol D).wp
        (p.bind (fun _ => (setCompleted dto.idempotencyKey t).bind (fun _ => .pure t)))
        (Created dto) ⟨.creating dto (.settled row t), .idle⟩ := by
  rw [wp_bind]
  apply (hp _).wp
  . intro _ _
    apply created_of_steady rfl
    . exact steady_setCompleted rfl (.inr ⟨row, rfl⟩)
    . exact .inr (.inr ⟨row, rfl⟩)
  . intro e
    exact created_error e _

theorem created_after_transition {e : Err} {role : Role} {phase : CreatePhase}
    (h : role = .creating dto phase ∨ role = (Role.creating dto phase).abort)
    : Created dto (.error e) ⟨role, .idle⟩ := by
  rcases h with h | h
  all_goals
    subst h
    exact created_error _ _

theorem wp_now {s : Party} {Q : Except Err Nat → Party → Prop} (hok : ∀ n, Q (.ok n) s)
    : (partyProtocol D).wp (perform .now) Q s := by
  rw [wp_perform]
  refine ⟨trivial, fun r hr => ?_⟩
  rcases r with e | n
  . cases hr
  . exact hok n

theorem wp_attempt {row : Transaction} {g : GatewayProvider} {fb : List GatewayProvider}
    {Q : Except Err (GatewayChargeResponse × Nat) → Party → Prop}
    (hsucceeded : ∀ r latencyMs, r.success = true →
      Q (.ok (r, latencyMs)) ⟨.creating dto (.looping row g fb (.succeeded r)), .idle⟩)
    (hfailed : ∀ r latencyMs, r.success = false →
      Q (.ok (r, latencyMs)) ⟨.creating dto (.looping row g fb .failed), .idle⟩)
    (herror : ∀ e phase, Q (.error e) ⟨.creating dto phase, .idle⟩)
    : (partyProtocol D).wp (attempt dto row.id g) Q
        ⟨.creating dto (.looping row g fb .ready), .idle⟩ := by
  have herror' : ∀ e role stage, (role = .creating dto (.looping row g fb stage) ∨
      role = (Role.creating dto (.looping row g fb stage)).abort) → Q (.error e) ⟨role, .idle⟩ := by
    intro e role stage hrole
    rcases hrole with h | h
    all_goals
      rw [h]
      apply herror
  unfold attempt
  rw [Prog.bind_def, wp_bind]
  apply wp_transition rfl rfl
  . intro row' now hid hvalid
    exact .route _ _ _ _ _ _ _ hid hvalid rfl
  . intro row' now hid hvalid _
    dsimp only
    rw [Prog.bind_def, wp_bind]
    apply wp_transition rfl rfl
    . intro row' now hid hvalid
      exact .process _ _ _ _ _ _ _ hid hvalid rfl
    . intro row' now hid hvalid _
      dsimp only
      rw [Prog.bind_def, wp_bind]
      apply wp_now
      intro startTime
      dsimp only
      rw [Prog.bind_def, wp_bind]
      apply wp_callGateway rfl
      . intro r hr
        dsimp only
        rw [Prog.bind_def, wp_bind]
        apply wp_now
        intro endTime
        exact hsucceeded r _ hr
      . intro r hr
        dsimp only
        rw [Prog.bind_def, wp_bind]
        apply wp_now
        intro endTime
        exact hfailed r _ hr
    . intro e role hrole
      exact herror' e role _ hrole
  . intro e role hrole
    exact herror' e role _ hrole

theorem wp_afterSuccess {row : Transaction} {g : GatewayProvider} {fb : List GatewayProvider}
    {r : GatewayChargeResponse} {latencyMs : Nat} {rest : Program Transaction}
    (hr : r.success = true)
    : (partyProtocol D).wp
        (if r.success then do
          let updatedTxn ← transition row.id .SUCCESS (successMetadata g r)
          RoutingEngine.recordSuccess g latencyMs
          setCompleted dto.idempotencyKey updatedTxn
          return updatedTxn
        else rest)
        (Created dto) ⟨.creating dto (.looping row g fb (.succeeded r)), .idle⟩ := by
  rw [if_pos hr, Prog.bind_def, wp_bind]
  apply wp_transition rfl rfl
  . intro row' now hid hvalid
    exact .succeed _ _ _ _ _ _ _ _ hid hvalid rfl
  . intro row' now _ _ _
    apply wp_settle
    intro s
    exact RoutingEngine.steady_recordSuccess
  . intro e role hrole
    exact created_after_transition hrole

/--
The failover loop keeps to the protocol, round by round.
-/
theorem wp_execute {row : Transaction} {g : GatewayProvider} {fb : List GatewayProvider}
    : (partyProtocol D).wp (execute dto row.id g fb) (Created dto)
        ⟨.creating dto (.looping row g fb .ready), .idle⟩ := by
  induction fb generalizing g with
  | nil =>
    unfold execute
    rw [Prog.bind_def, wp_bind]
    apply wp_attempt
    . intro r latencyMs hr
      exact wp_afterSuccess hr
    . intro r latencyMs hr
      dsimp only
      rw [if_neg (by simp [hr]), Prog.bind_def, wp_bind]
      apply RoutingEngine.steady_recordFailure.wp
      . intro _ _
        dsimp only
        rw [Prog.bind_def, wp_bind]
        apply wp_transition rfl rfl
        . intro row' now hid hvalid
          exact .fail _ _ _ _ _ _ _ hid hvalid rfl
        . intro row' now _ _ _
          apply created_of_steady rfl
          . exact steady_setCompleted rfl (.inr ⟨row, rfl⟩)
          . exact .inr (.inr ⟨row, rfl⟩)
        . intro e role hrole
          exact created_after_transition hrole
      . intro e
        exact created_error _ _
    . exact created_error
  | cons g' fb ih =>
    unfold execute
    rw [Prog.bind_def, wp_bind]
    apply wp_attempt
    . intro r latencyMs hr
      exact wp_afterSuccess hr
    . intro r latencyMs hr
      dsimp only
      rw [if_neg (by simp [hr]), Prog.bind_def, wp_bind]
      apply RoutingEngine.steady_recordFailure.wp
      . intro _ _
        dsimp only
        rw [Prog.bind_def, wp_bind]
        apply wp_transition rfl rfl
        . intro row' now hid hvalid
          exact .retry _ _ _ _ _ _ _ _ _ hid hvalid rfl
        . intro row' now _ _ _
          exact ih
        . intro e role hrole
          exact created_after_transition hrole
      . intro e
        exact created_error _ _
    . exact created_error

theorem wp_createLocked
    : (partyProtocol D).wp (createLocked D dto) (Created dto) ⟨.creating dto .start, .idle⟩ := by
  unfold createLocked
  rw [Prog.bind_def, wp_bind]
  apply wp_findByKey
  . intro t _
    exact wp_return_existing
  . dsimp only
    rw [Prog.bind_def, wp_bind]
    apply RoutingEngine.steady_getRankedGateways.wp
    . intro gateways hnodup
      rcases gateways with _ | ⟨g, fb⟩
      . exact created_error _ _
      . dsimp only
        rw [Prog.bind_def, wp_bind, wp_perform]
        refine ⟨⟨dto, g, fb, rfl, hnodup, rfl⟩, fun r hr => ?_⟩
        rcases r with e | row
        . exact created_error _ _
        . dsimp only
          rw [Prog.bind_def, wp_bind, wp_perform]
          refine ⟨⟨dto, row, g, fb, rfl, rfl⟩, fun r hr => ?_⟩
          rcases r with e | _
          . exact created_error _ _
          . exact wp_execute
    . exact fun e => created_error _ _
  . exact fun e => created_error _ _

theorem wp_create
    : (partyProtocol D).wp (create D dto) (Created dto) ⟨.creating dto .start, .idle⟩ := by
  unfold create
  rw [Prog.bind_def, wp_bind]
  have hset : (partyProtocol D).Steady ⟨.creating dto .start, .idle⟩
      (RedisService.set (redisKey dto.idempotencyKey) .processing (some .NX) (some .EX) (some 10))
      (fun _ => True) := by
    apply RedisService.steady_set
    exact trivial
  apply hset.wp
  . intro isLockAcquired _
    dsimp only
    split
    . exact wp_replay
    . rw [Prog.tryCatch_def, wp_tryCatch]
      apply wp_mono wp_createLocked
      rintro r ⟨role, tx⟩ ⟨htx, phase, hrole, h⟩
      dsimp only at htx hrole
      subst htx hrole
      cases r with
      | ok t => exact ⟨rfl, phase, rfl, h⟩
      | error e =>
        dsimp only
        rw [Prog.bind_def, wp_bind]
        apply RedisService.steady_del.wp
        . intro _ _
          exact created_error _ _
        . intro e
          exact created_error _ _
  . intro e
    exact created_error _ _

end TransactionsService

namespace ReconciliationWorker

/--
What holds when a round of the worker ends.
-/
def Worked (_ : Except Err Unit) (s : Party) : Prop :=
  s.tx = .idle

theorem wp_markProcessed {event : WebhookEvent} {s : Party} (htx : s.tx = .idle)
    (hevent : s.role.event = some event) (hprocessed : event.processed = false)
    : (partyProtocol D).wp (markProcessed event) Worked s := by
  unfold markProcessed
  rw [Prog.bind_def, wp_bind, wp_perform]
  refine ⟨trivial, fun r hr => ?_⟩
  rcases r with e | now
  . cases hr
  . dsimp only
    rw [wp_perform]
    refine ⟨⟨event, now, hevent, hprocessed, rfl⟩, fun r _ => ?_⟩
    exact htx

theorem wp_stepFrom {event : WebhookEvent} {txn : Transaction} {expected toState : TransactionState}
    {metadata : TransitionMetadata} {state : TransactionState}
    {Q : Except Err TransactionState → Party → Prop}
    (hpermit : state = expected → ∀ row now, row.id = txn.id →
      toState ∈ VALID_TRANSITIONS row.currentState →
      Permit D (.working (.driving event txn expected)) ⟨row, toState, metadata, now⟩)
    (hok : ∀ state', Q (.ok state') ⟨.working (.driving event txn state'), .idle⟩)
    (herror : ∀ e role, Q (.error e) ⟨role, .idle⟩)
    : (partyProtocol D).wp (stepFrom expected (transition txn.id toState metadata) state) Q
        ⟨.working (.driving event txn state), .idle⟩ := by
  unfold stepFrom
  split
  . next heq =>
    subst heq
    rw [Prog.bind_def, wp_bind]
    apply wp_transition rfl rfl
    . exact hpermit rfl
    . intro row now _ _ _
      exact hok _
    . intro e role _
      exact herror e role
  . exact hok state

theorem wp_driveToReconciled {event : WebhookEvent} {txn : Transaction} {gatewayTxnId : Json}
    {Q : Except Err Unit → Party → Prop}
    (hx : extractGatewayTxnId event.gateway event.payload = some gatewayTxnId)
    (hok : ∀ state, Q (.ok ()) ⟨.working (.driving event txn state), .idle⟩)
    (herror : ∀ e role, Q (.error e) ⟨role, .idle⟩)
    : (partyProtocol D).wp
        (driveToReconciled D txn event.gateway gatewayTxnId event.payload) Q
        ⟨.working (.driving event txn txn.currentState), .idle⟩ := by
  unfold driveToReconciled
  dsimp only
  split
  . exact hok _
  . rw [Prog.bind_def, wp_bind]
    apply wp_stepFrom _ _ herror
    . intro _ row now hid hvalid
      exact .workerRoute _ _ _ _ _ _ _ hid (.inl rfl) hvalid rfl
    . intro state₁
      dsimp only
      rw [Prog.bind_def, wp_bind]
      apply wp_stepFrom _ _ herror
      . intro _ row now hid hvalid
        exact .workerRoute _ _ _ _ _ _ _ hid (.inr rfl) hvalid rfl
      . intro state₂
        dsimp only
        rw [Prog.bind_def, wp_bind]
        apply wp_stepFrom _ _ herror
        . intro _ row now hid hvalid
          exact .workerProcess _ _ _ _ _ hid hvalid rfl
        . intro state₃
          dsimp only
          rw [Prog.bind_def, wp_bind]
          apply wp_stepFrom _ _ herror
          . intro _ row now hid hvalid
            exact .workerSucceed _ _ _ _ _ _ hid hx hvalid rfl
          . intro state₄
            dsimp only
            rw [Prog.bind_def, wp_bind]
            apply wp_stepFrom _ _ herror
            . intro _ row now hid hvalid
              exact .workerReconcile _ _ _ _ _ hid hvalid rfl
            . exact hok

theorem wp_processEvent {recordId : String}
    : (partyProtocol D).wp (processEvent D recordId) Worked ⟨.working .polling, .idle⟩ := by
  unfold processEvent
  rw [Prog.bind_def, wp_bind, wp_perform]
  refine ⟨rfl, fun r _ => ?_⟩
  rcases r with e | _ | event
  . exact rfl
  . exact rfl
  . dsimp only
    split
    . exact rfl
    . next hprocessed =>
      rw [Bool.not_eq_true] at hprocessed
      split
      . exact wp_markProcessed rfl rfl hprocessed
      . next gatewayTxnId hx =>
        split
        . exact rfl
        . rw [Prog.bind_def, wp_bind, wp_perform]
          refine ⟨.inr ⟨event, gatewayTxnId, rfl, hx, rfl, hprocessed⟩, fun r hr => ?_⟩
          rcases r with e | _ | txn
          . exact rfl
          . exact wp_markProcessed rfl rfl hprocessed
          . dsimp only
            rw [Prog.bind_def, wp_bind]
            apply wp_driveToReconciled hx
            . intro state
              exact wp_markProcessed rfl rfl hprocessed
            . intro e role
              exact rfl

theorem wp_pollQueue
    : (partyProtocol D).wp (pollQueue D) Worked ⟨.working .polling, .idle⟩ := by
  unfold pollQueue
  rw [Prog.bind_def, wp_bind]
  apply RedisService.steady_brpop.wp
  . intro eventRecordId _
    cases eventRecordId with
    | none => exact rfl
    | some eventRecordId => exact wp_processEvent
  . intro e
    exact rfl

end ReconciliationWorker

namespace WebhooksService

theorem steady_ingest {event : IncomingWebhook} {s : Party} (hrole : s.role = .ingesting)
    : (partyProtocol D).Steady s (ingest event) (fun _ => True) := by
  unfold ingest
  rw [Prog.tryCatch_def]
  apply Steady.tryCatch
  . rw [Prog.bind_def]
    apply Steady.bind (Φ := fun _ => True)
    . apply steady_perform
      . exact hrole
      . intro r hr
        exact ⟨rfl, by simp⟩
    . intro record _
      rw [Prog.bind_def]
      apply Steady.bind (Φ := fun _ => True)
      . unfold pushEvent
        rw [Prog.bind_def]
        exact RedisService.steady_lpush.bind (fun _ _ => trivial)
      . intro _ _
        trivial
  . intro e
    split
    . split <;> trivial
    . trivial

end WebhooksService

/--
Every task of the service keeps to the protocol.
-/
theorem Task.wp_program (task : Task)
    : (partyProtocol D).wp (task.program D) task.finish task.party := by
  cases task with
  | create dto =>
    unfold program
    dsimp only [Task.party]
    rw [Prog.bind_def, wp_bind]
    apply wp_mono TransactionsService.wp_create
    rintro r s ⟨htx, phase, hrole, h⟩
    cases r with
    | error e => exact ⟨htx, phase, hrole, by simp⟩
    | ok t =>
      refine ⟨htx, phase, hrole, ?_⟩
      rintro _ ⟨⟩
      exact ⟨t, rfl, h t rfl⟩
  | ingest event =>
    unfold program
    dsimp only [Task.party]
    rw [Prog.bind_def, wp_bind]
    apply (WebhooksService.steady_ingest rfl).wp
    . intro _ _
      exact ⟨rfl, trivial⟩
    . intro e
      exact ⟨rfl, trivial⟩
  | pollQueue =>
    unfold program
    dsimp only [Task.party]
    rw [Prog.bind_def, wp_bind]
    apply wp_mono ReconciliationWorker.wp_pollQueue
    intro r s htx
    cases r with
    | error e => exact ⟨htx, trivial⟩
    | ok _ => exact ⟨htx, trivial⟩

end PaymentOrchestration
