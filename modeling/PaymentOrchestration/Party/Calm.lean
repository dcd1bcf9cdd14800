import PaymentOrchestration.Webhooks.OffQueue

/-!
This module contains the protocol of a single call under which the ground does not move: its
statements do not fail, and the payment it works on stays in the state the call has last seen it in.
What the other processes do is left open.
-/

namespace PaymentOrchestration

open Protocol ReconciliationWorker StateMachine

-- A worker that loads the event gets past the log line with the id.
def WebhookEvent.legible (event : WebhookEvent) : Bool :=
  event.processed || (extractGatewayTxnId event.gateway event.payload).all Json.convertible

/--
Where a transition stands and what it is about to commit.
-/
inductive Draft where
  | closed
  | opened
  | saved (toState : TransactionState)
  | logged (toState : TransactionState)

inductive Calm where
  -- a process that nobody looks at
  | free
  -- a call of `create` that has no row yet
  | starting
  | polling
  | holding (id : String)
  | loaded (event : WebhookEvent)
  -- `seen` is the state the payment was last seen in, `event` is what a worker works on
  | moving (event : Option WebhookEvent) (id : String) (seen : TransactionState) (draft : Draft)
  -- the event has been marked
  | done (id : String)

namespace Calm

def event (s : Calm) : Option WebhookEvent :=
  match s with
  | .loaded event => some event
  | .moving event _ _ _ => event
  | _ => none

/--
What is open to the payment as it was last seen is still open.
-/
def admits (s : Calm) (row : Transaction) : Prop :=
  match s with
  | .moving _ _ seen _ =>
    ∀ toState ∈ VALID_TRANSITIONS seen, toState ∈ VALID_TRANSITIONS row.currentState
  | _ => True

def allowed (s : Calm) (cmd : Cmd) : Prop :=
  match cmd with
  | .saveEvent record =>
    record.processed = true ∧ (s = .free ∨ ∃ event, s.event = some event ∧ record.id = event.id)
  | .mock (.brpop queue) => s = .free ∨ (s = .polling ∧ queue = queueName)
  | .client (.brpop queue) => s = .free ∨ (s = .polling ∧ queue = queueName)
  | .findEvent id => s = .free ∨ s = .holding id
  | .findTransaction _ => s = .free ∨ s = .starting ∨ ∃ event, s = .loaded event
  | .insertTransaction txn => s = .free ∨ (s = .starting ∧ txn.currentState = .INITIATED)
  | .insertAudit _ => s = .free ∨ ∃ id seen, s = .moving none id seen .closed
  | .begin => s = .free ∨ ∃ event id seen, s = .moving event id seen .closed
  | .selectForUpdate id =>
    s = .free ∨ ∃ event seen, s = .moving event id seen .opened ∧
      -- `create` does not go on with a payment that it has settled
      (event = none → seen.final = false)
  | .saveTransaction row => s = .free ∨ ∃ event seen, s = .moving event row.id seen .opened
  | .saveAudit audit => s = .free ∨ ∃ event id seen, s = .moving event id seen (.saved audit.toState)
  | .commit => s = .free ∨ ∃ event id seen toState, s = .moving event id seen (.logged toState)
  | cmd => s = .free ∨ cmd.beside

def answers (s : Calm) (cmd : Cmd) (r : Except Err cmd.Resp) : Prop :=
  s = .free ∨
  match cmd, r with
  | .mock _, .error _ => False
  | .fallback _, .error _ => False
  | .charge _ _, .error _ => False
  | .now, .error _ => False
  | .findStatsOf _, .error _ => False
  | .saveStats _, .error _ => False
  | .findTransaction _, .error _ => False
  | .insertTransaction txn, .ok row => row = txn.row row.id
  | .insertAudit _, .error _ => False
  | .begin, .error _ => False
  | .selectForUpdate id, r => ∃ row, r = .ok (some row) ∧ row.id = id ∧ s.admits row
  | .saveTransaction _, .error _ => False
  | .saveAudit _, .error _ => False
  | .commit, .error _ => False
  | .findEvent id, r => ∃ event, r = .ok (some event) ∧ event.id = id ∧ event.legible = true
  | _, _ => True

def inserted (s : Calm) (row : Transaction) : Calm :=
  match s with
  | .starting => .moving none row.id row.currentState .closed
  | s => s

def popped (s : Calm) (id : String) : Calm :=
  match s with
  | .polling => .holding id
  | s => s

def found (s : Calm) (event : WebhookEvent) : Calm :=
  match s with
  | .holding _ => .loaded event
  | s => s

def read (s : Calm) (row : Transaction) : Calm :=
  match s with
  | .loaded event => .moving (some event) row.id row.currentState .closed
  | s => s

def marked (s : Calm) : Calm :=
  match s with
  | .loaded event => .done event.id
  | .moving (some event) _ _ _ => .done event.id
  | s => s

def begun (s : Calm) : Calm :=
  match s with
  | .moving event id seen .closed => .moving event id seen .opened
  | s => s

def saved (s : Calm) (row : Transaction) : Calm :=
  match s with
  | .moving event id seen .opened => .moving event id seen (.saved row.currentState)
  | s => s

def logged (s : Calm) : Calm :=
  match s with
  | .moving event id seen (.saved toState) => .moving event id seen (.logged toState)
  | s => s

def committed (s : Calm) : Calm :=
  match s with
  | .moving event id _ (.logged toState) => .moving event id toState .closed
  | s => s

def next (s : Calm) (cmd : Cmd) (r : Except Err cmd.Resp) : Calm :=
  match cmd, r with
  | .insertTransaction _, .ok row => s.inserted row
  | .mock (.brpop _), .ok (some (some id)) => s.popped id
  | .client (.brpop _), .ok (some id) => s.popped id
  | .findEvent _, .ok (some event) => s.found event
  | .findTransaction _, .ok (some row) => s.read row
  | .saveEvent _, _ => s.marked
  | .begin, .ok _ => s.begun
  | .saveTransaction row, .ok _ => s.saved row
  | .saveAudit _, .ok _ => s.logged
  | .commit, .ok _ => s.committed
  | _, _ => s

def crash (s : Calm) : Calm :=
  match s with
  | .moving event id seen _ => .moving event id seen .closed
  | s => s

end Calm

@[reducible]
def calmProtocol : Protocol Cmd Cmd.Resp Err where
  State := Calm
  allowed := Calm.allowed
  answers := Calm.answers
  next := Calm.next
  crash := Calm.crash

def Task.calm (task : Task) : Calm :=
  match task with
  | .create _ => .starting
  | .ingest _ => .free
  | .pollQueue => .polling

/--
What a call of `create` returns is settled if it has a row of its own, a worker has marked what it
has popped.
-/
def Task.calmly (task : Task) (r : Except Err Reply) (s : Calm) : Prop :=
  match task with
  | .create _ => s = .starting ∨ ∃ t, r = .ok (.transaction t) ∧ t.currentState.final = true
  | .ingest _ => True
  | .pollQueue =>
    s = .polling ∨ (∃ event, s = .loaded event ∧ event.processed = true) ∨ ∃ id, s = .done id

variable {α : Type} {s : Calm}

theorem Calm.next_free {cmd : Cmd} {r : Except Err cmd.Resp} : Calm.free.next cmd r = .free := by
  unfold next
  split <;> rfl

namespace Calm

/--
What a statement can make of the state of a call.
-/
inductive Turn : Calm → (cmd : Cmd) → Except Err cmd.Resp → Calm → Prop where
  | stay {s : Calm} {cmd : Cmd} {r : Except Err cmd.Resp} : Turn s cmd r s
  | inserted {txn : NewTransaction} {row : Transaction}
    : Turn .starting (.insertTransaction txn) (.ok row)
        (.moving none row.id row.currentState .closed)
  | mock {queue id : String}
    : Turn .polling (.mock (.brpop queue)) (.ok (some (some id))) (.holding id)
  | client {queue id : String} : Turn .polling (.client (.brpop queue)) (.ok (some id)) (.holding id)
  | found {key id : String} {event : WebhookEvent}
    : Turn (.holding id) (.findEvent key) (.ok (some event)) (.loaded event)
  | read {conditions : List TxnWhere} {event : WebhookEvent} {row : Transaction}
    : Turn (.loaded event) (.findTransaction conditions) (.ok (some row))
        (.moving (some event) row.id row.currentState .closed)
  | marked {s : Calm} {record event : WebhookEvent} {r : Except Err Unit} (h : s.event = some event)
    : Turn s (.saveEvent record) r (.done event.id)
  | drafted {event : Option WebhookEvent} {id : String} {seen : TransactionState}
      {draft draft' : Draft} {cmd : Cmd} {r : Except Err cmd.Resp}
    : Turn (.moving event id seen draft) cmd r (.moving event id seen draft')
  | committed {event : Option WebhookEvent} {id : String} {seen toState : TransactionState}
    : Turn (.moving event id seen (.logged toState)) .commit (.ok ())
        (.moving event id toState .closed)

theorem turn (s : Calm) (cmd : Cmd) (r : Except Err cmd.Resp) : Turn s cmd r (s.next cmd r) := by
  cases cmd with
  | mock op =>
    cases op with
    | brpop queue =>
      rcases r with e | _ | _ | id
      . exact .stay
      . exact .stay
      . exact .stay
      . cases s with
        | polling => exact .mock
        | _ => exact .stay
    | _ => cases r <;> exact .stay
  | client op =>
    cases op with
    | brpop queue =>
      rcases r with e | _ | id
      . exact .stay
      . exact .stay
      . cases s with
        | polling => exact .client
        | _ => exact .stay
    | _ => cases r <;> exact .stay
  | findEvent key =>
    rcases r with e | _ | event
    . exact .stay
    . exact .stay
    . cases s with
      | holding id => exact .found
      | _ => exact .stay
  | findTransaction conditions =>
    rcases r with e | _ | row
    . exact .stay
    . exact .stay
    . cases s with
      | loaded event => exact .read
      | _ => exact .stay
  | insertTransaction txn =>
    cases r with
    | error e => exact .stay
    | ok row =>
      cases s with
      | starting => exact .inserted
      | _ => exact .stay
  | saveEvent record =>
    cases s with
    | loaded event => exact .marked rfl
    | moving event id seen draft =>
      cases event with
      | none => exact .stay
      | some event => exact .marked rfl
    | _ => exact .stay
  | commit =>
    cases r with
    | error e => exact .stay
    | ok _ =>
      cases s with
      | moving event id seen draft =>
        cases draft with
        | logged toState => exact .committed
        | _ => exact .stay
      | _ => exact .stay
  | begin | saveTransaction row | saveAudit audit =>
    cases r with
    | error e => exact .stay
    | ok _ =>
      cases s with
      | moving event id seen draft => cases draft <;> exact .drafted
      | _ => exact .stay
  | _ => cases r <;> exact .stay

end Calm

theorem calm_perform {cmd : Cmd} {Q : Except Err cmd.Resp → Calm → Prop}
    : calmProtocol.wp (perform cmd) Q s
        ↔
      s.allowed cmd ∧ ∀ r, s.answers cmd r → Q r (s.next cmd r) := by
  unfold perform
  rw [Protocol.wp_perform]

theorem Cmd.beside.calm {cmd : Cmd} (h : cmd.beside)
    : s.allowed cmd ∧ ∀ r, s.next cmd r = s := by
  cases cmd with
  | mock op =>
    cases op with
    | lpush queue item => cases h
    | brpop queue => cases h
    | _ => exact ⟨.inr h, fun r => by cases r <;> rfl⟩
  | client op =>
    cases op with
    | lpush queue item => cases h
    | brpop queue => cases h
    | _ => exact ⟨.inr h, fun r => by cases r <;> rfl⟩
  | fallback op => exact ⟨.inr h, fun r => by cases r <;> rfl⟩
  | findStats => exact ⟨.inr h, fun r => by cases r <;> rfl⟩
  | findStatsOf gateway => exact ⟨.inr h, fun r => by cases r <;> rfl⟩
  | saveStats stats => exact ⟨.inr h, fun r => by cases r <;> rfl⟩
  | charge gateway request => exact ⟨.inr h, fun r => by cases r <;> rfl⟩
  | race n => exact ⟨.inr h, fun r => by cases r <;> rfl⟩
  | now => exact ⟨.inr h, fun r => by cases r <;> rfl⟩
  | _ => cases h

theorem calm_of_routing {p : Program α} (hp : p.Issues Cmd.routing)
    : calmProtocol.Steady s p (fun _ => True) := by
  apply Prog.Issues.steady _ hp
  intro cmd hcmd
  exact ⟨hcmd.beside.calm.left, fun r _ => hcmd.beside.calm.right r⟩

-- A command that is beside the rest is answered, and nothing else happens.
theorem calm_beside {cmd : Cmd} {Q : Except Err cmd.Resp → Calm → Prop} (h : cmd.beside)
    (hQ : ∀ r, s.answers cmd r → Q r s) : calmProtocol.wp (perform cmd) Q s := by
  rw [calm_perform]
  refine ⟨h.calm.left, fun r hr => ?_⟩
  have hnext : s.next cmd r = s := h.calm.right r
  rw [hnext]
  exact hQ r hr

namespace StateMachine

/--
A transition that was open when the payment was last seen is made.
-/
theorem calm_transition {event : Option WebhookEvent} {id : String} {seen toState : TransactionState}
    {metadata : TransitionMetadata} {Q : Except Err Transaction → Calm → Prop}
    (hto : toState ∈ VALID_TRANSITIONS seen) (hfinal : event = none → seen.final = false)
    (hok : ∀ row now, row.id = id →
      Q (.ok (mutate row toState metadata now)) (.moving event id toState .closed))
    : calmProtocol.wp (transition id toState metadata) Q (.moving event id seen .closed) := by
  unfold transition inTransaction
  rw [Prog.tryCatch_def, wp_tryCatch, Prog.bind_def, wp_bind, calm_perform]
  refine ⟨.inr ⟨event, id, seen, rfl⟩, fun r hr => ?_⟩
  cases r with
  | error e => rcases hr with hr | hr <;> cases hr
  | ok _ =>
    dsimp only
    rw [Prog.bind_def, wp_bind, Prog.bind_def, wp_bind, calm_perform]
    refine ⟨.inr ⟨event, seen, rfl, hfinal⟩, fun r hr => ?_⟩
    rcases hr with hr | ⟨row, hr, hid, hadmits⟩
    . cases hr
    . subst hr
      have hvalid : toState ∈ VALID_TRANSITIONS row.currentState := hadmits toState hto
      dsimp only
      rw [if_neg (by simpa using hvalid), Prog.bind_def, wp_bind, calm_perform]
      refine ⟨.inr trivial, fun r hr => ?_⟩
      cases r with
      | error e => rcases hr with hr | hr <;> cases hr
      | ok now =>
        dsimp only
        rw [Prog.bind_def, wp_bind, calm_perform]
        refine ⟨.inr ⟨event, seen, by rw [show (mutate row toState metadata now).id = id from hid]; rfl⟩,
          fun r hr => ?_⟩
        cases r with
        | error e => rcases hr with hr | hr <;> cases hr
        | ok _ =>
          dsimp only
          rw [Prog.bind_def, wp_bind, calm_perform]
          refine ⟨.inr ⟨event, id, seen, rfl⟩, fun r hr => ?_⟩
          cases r with
          | error e => rcases hr with hr | hr <;> cases hr
          | ok _ =>
            dsimp only
            rw [Prog.pure_def, wp_pure]
            dsimp only
            rw [Prog.bind_def, wp_bind, calm_perform]
            refine ⟨.inr ⟨event, id, seen, toState, rfl⟩, fun r hr => ?_⟩
            cases r with
            | error e => rcases hr with hr | hr <;> cases hr
            | ok _ => exact hok row now hid

end StateMachine

/-!
Next to a payment that does not move, Redis and the statistics do not make a call fail.
-/

namespace RedisService

theorem calm_set {key : String} {value : Stored} {mode : Option SetMode}
    {durationMode : Option DurationMode} {duration : Option Nat}
    {Q : Except Err Bool → Calm → Prop} (hs : s ≠ .free) (hkey : key ≠ queueName)
    (hQ : ∀ ok, Q (.ok ok) s)
    : calmProtocol.wp (RedisService.set key value mode durationMode duration) Q s := by
  have hfallback : calmProtocol.wp (perform (.fallback (.set key value mode))) Q s := by
    apply calm_beside
    . exact hkey
    . intro r hr
      cases r with
      | error e => exact absurd (hr.resolve_left hs) id
      | ok ok => exact hQ ok
  unfold RedisService.set
  rw [Prog.bind_def, wp_bind]
  apply calm_beside
  . exact hkey
  . intro r hr
    rcases r with e | _ | ok
    . exact absurd (hr.resolve_left hs) id
    . dsimp only
      rw [Prog.tryCatch_def, wp_tryCatch]
      split
      all_goals
        apply calm_beside
        . trivial
        . intro r _
          cases r with
          | error e => exact hfallback
          | ok ok => exact hQ ok
    . exact hQ ok

theorem calm_del {key : String} {Q : Except Err Nat → Calm → Prop} (hs : s ≠ .free)
    (hkey : key ≠ queueName) (hQ : ∀ count, Q (.ok count) s)
    : calmProtocol.wp (RedisService.del key) Q s := by
  have hfallback : calmProtocol.wp (perform (.fallback (.del key))) Q s := by
    apply calm_beside
    . exact hkey
    . intro r hr
      cases r with
      | error e => exact absurd (hr.resolve_left hs) id
      | ok count => exact hQ count
  unfold RedisService.del
  rw [Prog.bind_def, wp_bind]
  apply calm_beside
  . exact hkey
  . intro r hr
    rcases r with e | _ | count
    . exact absurd (hr.resolve_left hs) id
    . dsimp only
      rw [Prog.tryCatch_def, wp_tryCatch]
      apply calm_beside
      . trivial
      . intro r _
        cases r with
        | error e => exact hfallback
        | ok count => exact hQ count
    . exact hQ count

end RedisService

namespace RoutingEngine

theorem calm_saveStats {stats : GatewayStats} {Q : Except Err Unit → Calm → Prop} (hs : s ≠ .free)
    (hQ : Q (.ok ()) s) : calmProtocol.wp (perform (.saveStats stats)) Q s := by
  apply calm_beside
  . trivial
  . intro r hr
    cases r with
    | error e => exact absurd (hr.resolve_left hs) id
    | ok _ => exact hQ

theorem calm_recordSuccess {gateway : GatewayProvider} {latencyMs : Nat}
    {Q : Except Err Unit → Calm → Prop} (hs : s ≠ .free) (hQ : Q (.ok ()) s)
    : calmProtocol.wp (recordSuccess gateway latencyMs) Q s := by
  unfold recordSuccess
  rw [Prog.bind_def, wp_bind]
  apply calm_beside
  . trivial
  . intro r hr
    rcases r with e | _ | stats
    . exact absurd (hr.resolve_left hs) id
    . exact hQ
    . dsimp only
      split
      . rw [Prog.bind_def, wp_bind]
        apply RedisService.calm_del hs (circuitKey_ne_queueName _)
        intro _
        exact calm_saveStats hs hQ
      . exact calm_saveStats hs hQ

theorem calm_recordFailure {gateway : GatewayProvider} {latencyMs : Nat}
    {Q : Except Err Unit → Calm → Prop} (hs : s ≠ .free) (hQ : Q (.ok ()) s)
    : calmProtocol.wp (recordFailure gateway latencyMs) Q s := by
  unfold recordFailure
  rw [Prog.bind_def, wp_bind]
  apply calm_beside
  . trivial
  . intro r hr
    rcases r with e | _ | stats
    . exact absurd (hr.resolve_left hs) id
    . exact hQ
    . dsimp only
      split
      . rw [Prog.bind_def, wp_bind]
        apply RedisService.calm_set hs (circuitKey_ne_queueName _)
        intro _
        exact calm_saveStats hs hQ
      . exact calm_saveStats hs hQ

end RoutingEngine

end PaymentOrchestration
