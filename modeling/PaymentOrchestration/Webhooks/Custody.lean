import PaymentOrchestration.Watched
import PaymentOrchestration.Webhooks.OffQueue

/-!
This module contains the way of a webhook event through the service: what an observer sees of the
queue, and the protocol that says who holds an event between its delivery and its reconciliation.
-/

namespace PaymentOrchestration

open Protocol ReconciliationWorker

inductive QueueEvent where
  | pushed (pid : Pid) (queue item : String)
  | popped (pid : Pid) (queue item : String)
  deriving DecidableEq

/--
A push counts as soon as it has taken effect, a pop when its answer has reached the caller.
-/
def queueEvents (pid : Pid) (cmd : Cmd) (o : Oracle) (w : World) : List QueueEvent :=
  match cmd with
  | .mock (.lpush queue item) =>
    if (w.mem pid.inst).isMockMode then [.pushed pid queue item] else []
  | .mock (.brpop queue) =>
    if (w.mem pid.inst).isMockMode then
      match (MockOp.run (.brpop queue) (w.mem pid.inst).mockStore).1 with
      | some item => [.popped pid queue item]
      | none => []
    else
      []
  | .client (.lpush queue item) => if o.fault = .before then [] else [.pushed pid queue item]
  | .client (.brpop queue) =>
    if o.fault = .none then
      match (ClientOp.run (.brpop queue) w.clock w.redis).1 with
      | some item => [.popped pid queue item]
      | none => []
    else
      []
  | .fallback (.lpush queue item) => [.pushed pid queue item]
  | .fallback (.brpop queue) =>
    match (MockOp.run (.brpop queue) (w.mem pid.inst).mockStore).1 with
    | some item => [.popped pid queue item]
    | none => []
  | _ => []

abbrev WatchedQueue (D : Deployment) := Watched D queueEvents

/--
What a process has in its hands. A call that is through keeps what it had last.
-/
inductive Hand where
  | creating
  | delivering (event : IncomingWebhook)
  -- there is a row of the event already
  | repeated (event : IncomingWebhook)
  -- the row of the event is inserted, its id is not pushed yet
  | stored (record : WebhookEvent)
  | pushed (record : WebhookEvent)
  | polling
  | holding (id : String)
  | loaded (event : WebhookEvent)
  | driving (event : WebhookEvent)

namespace Hand

-- The row that the process has inserted.
def written (hand : Hand) : Option WebhookEvent :=
  match hand with
  | .stored record => some record
  | .pushed record => some record
  | _ => none

-- The id that the process has popped.
def held (hand : Hand) : Option String :=
  match hand with
  | .holding id => some id
  | .loaded event => some event.id
  | .driving event => some event.id
  | _ => none

def event (hand : Hand) : Option WebhookEvent :=
  match hand with
  | .loaded event => some event
  | .driving event => some event
  | _ => none

def allowed (hand : Hand) (cmd : Cmd) : Prop :=
  match cmd with
  | .mock (.lpush queue item) =>
    ∃ record, hand = .stored record ∧ queue = queueName ∧ item = record.id
  | .client (.lpush queue item) =>
    ∃ record, hand = .stored record ∧ queue = queueName ∧ item = record.id
  | .mock (.brpop queue) => hand = .polling ∧ queue = queueName
  | .client (.brpop queue) => hand = .polling ∧ queue = queueName
  | .insertEvent event => hand = .delivering event
  | .findEvent id => hand = .holding id
  | .saveEvent event' =>
    ∃ event now, hand.event = some event ∧
      event' = { event with processed := true, processedAt := some now }
  | .findTransaction _ => hand = .creating ∨ ∃ event, hand = .loaded event
  | cmd => cmd.offQueue

def answers (_ : Hand) (cmd : Cmd) (r : Except Err cmd.Resp) : Prop :=
  match cmd, r with
  | .mock _, .error _ => False
  | .client _, .error e => e = Exec.redisError
  | .insertEvent event, .ok record => record = event.row record.id
  | .findEvent id, .ok (some event) => event.id = id
  | _, _ => True

def next (hand : Hand) (cmd : Cmd) (r : Except Err cmd.Resp) : Hand :=
  match cmd, r with
  | .insertEvent _, .ok record => .stored record
  | .insertEvent event, .error e =>
    if WebhooksService.isUniqueViolation e then .repeated event else hand
  | .mock (.lpush _ _), .ok (some _) =>
    match hand with
    | .stored record => .pushed record
    | hand => hand
  | .client (.lpush _ _), _ =>
    match hand with
    | .stored record => .pushed record
    | hand => hand
  | .mock (.brpop _), .ok (some (some id)) => .holding id
  | .client (.brpop _), .ok (some id) => .holding id
  | .findEvent _, .ok (some event) => .loaded event
  | .findTransaction _, .ok (some _) =>
    match hand with
    | .loaded event => .driving event
    | hand => hand
  | _, _ => hand

end Hand

@[reducible]
def custodyProtocol : Protocol Cmd Cmd.Resp Err where
  State := Hand
  allowed := Hand.allowed
  answers := Hand.answers
  next := Hand.next
  crash := id

def Task.hand (task : Task) : Hand :=
  match task with
  | .create _ => .creating
  | .ingest event => .delivering event
  | .pollQueue => .polling

/--
A delivery that reports a new event has inserted it and is through with the push, one that reports a
duplicate has found a row of the event. No delivery ends with a row that it has only stored.
-/
def Task.handover (task : Task) (r : Except Err Reply) (hand : Hand) : Prop :=
  match task with
  | .create _ => True
  | .ingest event =>
    (∀ record, hand ≠ .stored record) ∧
      (r = .ok (.duplicate false) →
        ∃ record, hand = .pushed record ∧ record = event.row record.id) ∧
      (r = .ok (.duplicate true) → hand = .repeated event)
  | .pollQueue => True

variable {α : Type} {s : Hand}

theorem custody_perform {cmd : Cmd} {Q : Except Err cmd.Resp → Hand → Prop}
    : custodyProtocol.wp (perform cmd) Q s
        ↔
      s.allowed cmd ∧ ∀ r, s.answers cmd r → Q r (s.next cmd r) := by
  unfold perform
  rw [Protocol.wp_perform]

theorem Cmd.offQueue.kept {cmd : Cmd} (h : cmd.offQueue)
    (hs : s = .creating ∨ ∀ conditions, cmd ≠ .findTransaction conditions)
    : s.allowed cmd ∧ ∀ r, s.next cmd r = s := by
  cases cmd with
  | findTransaction conditions =>
    rcases hs with hs | hs
    . subst hs
      refine ⟨.inl rfl, ?_⟩
      intro r
      rcases r with e | _ | row <;> rfl
    . exact absurd rfl (hs conditions)
  | mock op =>
    cases op with
    | lpush queue item => cases h
    | brpop queue => cases h
    | _ => exact ⟨h, fun r => by cases r <;> rfl⟩
  | client op =>
    cases op with
    | lpush queue item => cases h
    | brpop queue => cases h
    | _ => exact ⟨h, fun r => by cases r <;> rfl⟩
  | insertEvent event => cases h
  | findEvent id => cases h
  | saveEvent event => cases h
  | _ => exact ⟨h, fun r => by cases r <;> rfl⟩

theorem custody_of_ofTransition {p : Program α} (hp : p.Issues Cmd.ofTransition)
    : custodyProtocol.Steady s p (fun _ => True) := by
  apply Prog.Issues.steady _ hp
  intro cmd hcmd
  have hne : ∀ conditions, cmd ≠ .findTransaction conditions := by
    intro conditions heq
    subst heq
    cases hcmd
  have hkept := hcmd.offQueue.kept (s := s) (.inr hne)
  exact ⟨hkept.left, fun r _ => hkept.right r⟩

theorem custody_create {D : Deployment} {dto : CreateTransactionDto}
    : custodyProtocol.Steady .creating (TransactionsService.create D dto) (fun _ => True) := by
  apply Prog.Issues.steady _ TransactionsService.issues_create
  intro cmd hcmd
  have hkept := hcmd.kept (s := .creating) (.inl rfl)
  exact ⟨hkept.left, fun r _ => hkept.right r⟩

namespace ReconciliationWorker

variable {D : Deployment} {Q : Except Err Unit → Hand → Prop}

theorem custody_markProcessed {event : WebhookEvent} (hevent : s.event = some event)
    (hQ : ∀ r, Q r s) : custodyProtocol.wp (markProcessed event) Q s := by
  unfold markProcessed
  rw [Prog.bind_def, wp_bind, custody_perform]
  refine ⟨trivial, fun r _ => ?_⟩
  cases r with
  | error e => exact hQ _
  | ok now =>
    dsimp only
    rw [custody_perform]
    refine ⟨⟨event, now, hevent, rfl⟩, fun r _ => ?_⟩
    exact hQ r

theorem custody_processEvent {recordId : String}
    : custodyProtocol.wp (processEvent D recordId) (fun _ _ => True) (.holding recordId) := by
  unfold processEvent
  rw [Prog.bind_def, wp_bind, custody_perform]
  refine ⟨rfl, fun r _ => ?_⟩
  rcases r with e | _ | event
  . trivial
  . trivial
  . dsimp only
    split
    . trivial
    . split
      . apply custody_markProcessed rfl
        intro _
        trivial
      . split
        . trivial
        . rw [Prog.bind_def, wp_bind, custody_perform]
          refine ⟨.inr ⟨event, rfl⟩, fun r _ => ?_⟩
          rcases r with e | _ | txn
          . trivial
          . apply custody_markProcessed rfl
            intro _
            trivial
          . dsimp only
            rw [Prog.bind_def, wp_bind]
            apply (custody_of_ofTransition issues_driveToReconciled).wp
            . intro _ _
              apply custody_markProcessed rfl
              intro _
              trivial
            . intro e
              trivial

theorem custody_pollQueue
    : custodyProtocol.wp (pollQueue D) (fun _ _ => True) .polling := by
  unfold pollQueue RedisService.brpop
  rw [Prog.bind_def, wp_bind, Prog.bind_def, wp_bind, custody_perform]
  refine ⟨⟨rfl, rfl⟩, fun r _ => ?_⟩
  rcases r with e | _ | _ | id
  . trivial
  . -- The instance works with the Redis server.
    dsimp only
    rw [custody_perform]
    refine ⟨⟨rfl, rfl⟩, fun r _ => ?_⟩
    rcases r with e | _ | id
    . trivial
    . trivial
    . exact custody_processEvent
  . trivial
  . exact custody_processEvent

end ReconciliationWorker

namespace WebhooksService

theorem custody_pushEvent {record : WebhookEvent}
    : custodyProtocol.wp (pushEvent record.id)
        (fun r s => s = .pushed record ∧ ∀ e, r = .error e → e = Exec.redisError)
        (.stored record) := by
  unfold pushEvent RedisService.lpush
  rw [Prog.bind_def, wp_bind, Prog.bind_def, wp_bind, custody_perform]
  refine ⟨⟨record, rfl, rfl, rfl⟩, fun r hr => ?_⟩
  rcases r with e | _ | length
  . cases hr
  . -- The instance works with the Redis server.
    dsimp only
    rw [custody_perform]
    refine ⟨⟨record, rfl, rfl, rfl⟩, fun r hr => ?_⟩
    cases r with
    | error e =>
      refine ⟨rfl, ?_⟩
      rintro _ ⟨⟩
      exact hr
    | ok length => exact ⟨rfl, by simp⟩
  . exact ⟨rfl, by simp⟩

theorem custody_ingest {event : IncomingWebhook}
    : custodyProtocol.wp (ingest event)
        (fun r s => (∀ record, s ≠ .stored record) ∧
          (r = .ok false → ∃ record, s = .pushed record ∧ record = event.row record.id) ∧
          (r = .ok true → s = .repeated event))
        (.delivering event) := by
  unfold ingest
  rw [Prog.tryCatch_def, wp_tryCatch, Prog.bind_def, wp_bind, custody_perform]
  refine ⟨rfl, fun r hr => ?_⟩
  cases r with
  | error e =>
    dsimp only
    split
    . next hunique =>
      split
      . exact ⟨by simp [Hand.next, hunique], by simp, by simp [Hand.next, hunique]⟩
      . exact ⟨by simp [Hand.next, hunique], by simp, by simp⟩
    . next hunique => exact ⟨by simp [Hand.next, hunique], by simp, by simp⟩
  | ok record =>
    dsimp only
    rw [Prog.bind_def, wp_bind]
    apply wp_mono custody_pushEvent
    rintro r s ⟨hs, he⟩
    subst hs
    cases r with
    | ok _ => exact ⟨by simp, fun _ => ⟨record, rfl, hr⟩, by simp⟩
    | error e =>
      rw [he e rfl]
      exact ⟨by simp, by simp, by simp⟩

end WebhooksService

/--
Every task of the service keeps to the way of the events.
-/
theorem Task.custody {D : Deployment} (task : Task)
    : custodyProtocol.wp (task.program D) task.handover task.hand := by
  cases task with
  | create dto =>
    unfold program
    dsimp only [Task.hand]
    rw [Prog.bind_def, wp_bind]
    apply custody_create.wp
    . intro _ _
      trivial
    . intro e
      trivial
  | ingest event =>
    unfold program
    dsimp only [Task.hand]
    rw [Prog.bind_def, wp_bind]
    apply wp_mono WebhooksService.custody_ingest
    rintro r s ⟨hs, hnew, hrepeated⟩
    cases r with
    | error e => exact ⟨hs, by simp, by simp⟩
    | ok duplicate =>
      refine ⟨hs, ?_, ?_⟩
      . rintro ⟨⟩
        exact hnew rfl
      . rintro ⟨⟩
        exact hrepeated rfl
  | pollQueue =>
    unfold program
    dsimp only [Task.hand]
    rw [Prog.bind_def, wp_bind]
    apply wp_mono ReconciliationWorker.custody_pollQueue
    intro r s _
    cases r <;> trivial

end PaymentOrchestration
