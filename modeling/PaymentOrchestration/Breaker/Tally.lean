import PaymentOrchestration.Breaker.Calls
import PaymentOrchestration.Webhooks.OffQueue

/-!
This module contains the protocol of the gateway statistics: a call writes back rows it has read, and
records an outcome only for a charge call of its own whose race is over, once for each.
-/

namespace PaymentOrchestration

open Protocol

/--
The charge call a process is about to record.
-/
inductive Ticket where
  | none
  | charged (g : GatewayProvider) (n : Nat)
  -- The race is over, the gateway is about to be credited or blamed.
  | due (g : GatewayProvider) (n : Nat) (success : Bool)

structure Tally where
  seen : List GatewayStats
  ticket : Ticket

-- The row after this outcome has been recorded.
def RoutingEngine.recorded (success : Bool) (latencyMs : Nat) (row : GatewayStats) : GatewayStats :=
  if success then succeeded latencyMs row else failed latencyMs row

-- What the failover loop takes the result of the race for.
def won (r : Except Err GatewayChargeResponse) : Bool :=
  match r with
  | .ok response => response.success
  | .error _ => false

namespace Tally

/--
What the process may write back for the row it has read.
-/
inductive Amends (s : Tally) (row : GatewayStats) : GatewayStats → Prop where
  | promote (hstate : row.circuitState = .OPEN) : Amends s row (RoutingEngine.promoted row)
  | record (n : Nat) (success : Bool) (latencyMs : Nat)
      (hticket : s.ticket = .due row.gateway n success)
    : Amends s row (RoutingEngine.recorded success latencyMs row)

def allowed (s : Tally) (cmd : Cmd) : Prop :=
  match cmd with
  | .saveStats stats => ∃ row ∈ s.seen, s.Amends row stats
  | .race n => ∃ g, s.ticket = .charged g n
  | _ => True

def answers (_ : Tally) (cmd : Cmd) (r : Except Err cmd.Resp) : Prop :=
  match cmd, r with
  | .findStatsOf g, .ok (some row) => row.gateway = g
  | _, _ => True

def next (s : Tally) (cmd : Cmd) (r : Except Err cmd.Resp) : Tally :=
  match cmd, r with
  | .findStats, .ok rows => { s with seen := s.seen ++ rows }
  | .findStatsOf _, .ok (some row) => { s with seen := s.seen ++ [row] }
  | .saveStats _, _ => { s with ticket := .none }
  | .charge g _, .ok n => { s with ticket := .charged g n }
  | .race _, r =>
    match s.ticket with
    | .charged g n => { s with ticket := .due g n (won r) }
    | _ => s
  | _, _ => s

end Tally

@[reducible]
def tallyProtocol : Protocol Cmd Cmd.Resp Err where
  State := Tally
  allowed := Tally.allowed
  answers := Tally.answers
  next := Tally.next
  crash := id

-- The command is about neither the statistics nor a charge call.
def Cmd.untallied (cmd : Cmd) : Prop :=
  match cmd with
  | .findStats | .findStatsOf _ | .saveStats _ | .charge _ _ | .race _ => False
  | _ => True

variable {α : Type} {D : Deployment} {s : Tally}

theorem Cmd.untallied.tally {cmd : Cmd} (h : cmd.untallied)
    : s.allowed cmd ∧ ∀ r : Except Err cmd.Resp, s.next cmd r = s := by
  cases cmd with
  | findStats | findStatsOf g | saveStats stats | charge g request | race n => cases h
  | _ => exact ⟨trivial, fun r => by cases r <;> rfl⟩

theorem Cmd.ofTransition.untallied {cmd : Cmd} (h : cmd.ofTransition) : cmd.untallied := by
  cases cmd <;> trivial

theorem Cmd.ofIngest.untallied {cmd : Cmd} (h : cmd.ofIngest) : cmd.untallied := by
  cases cmd <;> trivial

theorem Cmd.ofWorker.untallied {cmd : Cmd} (h : cmd.ofWorker) : cmd.untallied := by
  cases cmd <;> trivial

namespace RedisService

theorem untallied_get {key : String} : (get key).Issues Cmd.untallied := by
  unfold get
  apply Prog.Issues.bind (Prog.Issues.perform trivial)
  intro value
  split
  . trivial
  . apply Prog.Issues.tryCatch (Prog.Issues.perform trivial)
    intro e
    exact Prog.Issues.perform trivial

theorem untallied_set {key : String} {value : Stored} {mode : Option SetMode}
    {durationMode : Option DurationMode} {duration : Option Nat}
    : (set key value mode durationMode duration).Issues Cmd.untallied := by
  unfold set
  apply Prog.Issues.bind (Prog.Issues.perform trivial)
  intro value
  split
  . trivial
  . apply Prog.Issues.tryCatch
    . split <;> exact Prog.Issues.perform trivial
    . intro e
      exact Prog.Issues.perform trivial

theorem untallied_del {key : String} : (del key).Issues Cmd.untallied := by
  unfold del
  apply Prog.Issues.bind (Prog.Issues.perform trivial)
  intro value
  split
  . trivial
  . apply Prog.Issues.tryCatch (Prog.Issues.perform trivial)
    intro e
    exact Prog.Issues.perform trivial

end RedisService

theorem tally_perform {cmd : Cmd} {Q : Except Err cmd.Resp → Tally → Prop}
    : tallyProtocol.wp (perform cmd) Q s
        ↔
      s.allowed cmd ∧ ∀ r, s.answers cmd r → Q r (s.next cmd r) := by
  unfold perform
  rw [Protocol.wp_perform]

theorem steady_untallied {p : Program α} (hp : p.Issues Cmd.untallied)
    : tallyProtocol.Steady s p (fun _ => True) := by
  apply Prog.Issues.steady _ hp
  intro cmd hcmd
  exact ⟨hcmd.tally.left, fun r _ => hcmd.tally.right r⟩

theorem tally_untallied {p : Program α} {Q : Except Err α → Tally → Prop}
    (hp : p.Issues Cmd.untallied) (hQ : ∀ r, Q r s) : tallyProtocol.wp p Q s := by
  apply (steady_untallied hp).wp
  . intro a _
    exact hQ _
  . intro e
    exact hQ _

theorem tally_transition {id : String} {toState : TransactionState} {metadata : TransitionMetadata}
    {Q : Except Err Transaction → Tally → Prop} (hQ : ∀ r, Q r s)
    : tallyProtocol.wp (StateMachine.transition id toState metadata) Q s := by
  apply tally_untallied _ hQ
  apply StateMachine.issues_transition.mono
  intro cmd hcmd
  exact hcmd.untallied

-- Where a call ends does not matter.
def Adrift (_ : Except Err α) (_ : Tally) : Prop :=
  True

namespace RoutingEngine

-- The rankings of all gateways can go on side by side: none of them records anything.
theorem tally_checkCooldown {stats : GatewayStats} (hticket : s.ticket = .none)
    (hstats : stats ∈ s.seen) : tallyProtocol.Steady s (checkCooldown stats) (fun _ => True) := by
  unfold checkCooldown
  split
  . next hstate =>
    apply Protocol.Steady.bind (steady_untallied RedisService.untallied_get)
    intro isTripped _
    split
    . apply Protocol.Steady.bind (Φ := fun _ => True)
      . apply Protocol.steady_perform
        . exact ⟨stats, hstats, .promote hstate⟩
        . intro r _
          refine ⟨?_, fun _ _ => trivial⟩
          rcases s with ⟨seen, ticket⟩
          subst hticket
          cases r <;> rfl
      . intro _ _
        trivial
    . trivial
  . trivial

theorem tally_getRankedGateways {amount : Nat} {Q : Except Err (List GatewayProvider) → Tally → Prop}
    (hticket : s.ticket = .none) (hQ : ∀ r seen, Q r ⟨seen, .none⟩)
    : tallyProtocol.wp (getRankedGateways D amount) Q s := by
  rcases s with ⟨seen, ticket⟩
  subst hticket
  unfold getRankedGateways
  rw [Prog.bind_def, wp_bind, tally_perform]
  refine ⟨trivial, fun r _ => ?_⟩
  cases r with
  | error e => exact hQ _ _
  | ok rows =>
    dsimp only
    rw [Prog.bind_def, wp_bind]
    have hall : tallyProtocol.Steady ⟨seen ++ rows, .none⟩
        (Prog.all ((rows.filter fun stats =>
          decide (D.env "NODE_ENV" = some "test") || isGatewayConfigured D stats.gateway).map
            (candidate D amount))) (fun _ => True) := by
      apply Protocol.Steady.mono
      . apply Protocol.steady_all (Φ := fun _ _ => True)
        intro stats hstats
        unfold candidate
        apply Protocol.Steady.bind (tally_checkCooldown rfl _)
        . intro _ _
          trivial
        . exact List.mem_append_right _ (List.mem_filter.mp hstats).left
      . intro _ _
        trivial
    apply hall.wp
    . intro _ _
      exact hQ _ _
    . intro e
      exact hQ _ _

/--
The row that a call is due to write is the one it has just read, amended.
-/
theorem tally_save {row stats : GatewayStats} {n latencyMs : Nat} {success : Bool}
    {Q : Except Err Unit → Tally → Prop} (hseen : row ∈ s.seen)
    (hticket : s.ticket = .due row.gateway n success)
    (hstats : stats = recorded success latencyMs row) (hQ : ∀ r s, Q r s)
    : tallyProtocol.wp (perform (.saveStats stats)) Q s := by
  rw [tally_perform]
  refine ⟨⟨row, hseen, ?_⟩, fun r _ => hQ _ _⟩
  rw [hstats]
  exact .record n success latencyMs hticket

theorem tally_recordSuccess {g : GatewayProvider} {latencyMs n : Nat}
    {Q : Except Err Unit → Tally → Prop} (hticket : s.ticket = .due g n true)
    (hQ : ∀ r s, Q r s) : tallyProtocol.wp (recordSuccess g latencyMs) Q s := by
  unfold recordSuccess
  rw [Prog.bind_def, wp_bind, tally_perform]
  refine ⟨trivial, fun r hr => ?_⟩
  rcases r with e | _ | row
  . exact hQ _ _
  . exact hQ _ _
  . dsimp only
    subst hr
    have hseen : row ∈ (s.next (.findStatsOf row.gateway) (.ok (some row))).seen := by
      simp [Tally.next]
    have hdue : (s.next (.findStatsOf row.gateway) (.ok (some row))).ticket =
        .due row.gateway n true := hticket
    split
    . rw [Prog.bind_def, wp_bind]
      apply tally_untallied RedisService.untallied_del
      intro r
      cases r with
      | error e => exact hQ _ _
      | ok count => exact tally_save hseen hdue rfl hQ
    . next hstate =>
      rw [ne_eq, not_not] at hstate
      have hrecorded : recorded true latencyMs row = { row with
          successCount := row.successCount + 1
          consecutiveFailures := 0
          avgLatencyMs := smooth row.avgLatencyMs latencyMs } := by
        simp only [recorded, succeeded, if_true, hstate]
      exact tally_save hseen hdue hrecorded.symm hQ

theorem failed_of_trips {row : GatewayStats} {latencyMs : Nat} (h : trips row = true)
    : failed latencyMs row = { row with
        failureCount := row.failureCount + 1
        consecutiveFailures := row.consecutiveFailures + 1
        avgLatencyMs := if latencyMs > 0 then smooth row.avgLatencyMs latencyMs else row.avgLatencyMs
        circuitState := .OPEN } := by
  simp only [failed, h, if_true]

theorem failed_of_not_trips {row : GatewayStats} {latencyMs : Nat} (h : trips row = false)
    : failed latencyMs row = { row with
        failureCount := row.failureCount + 1
        consecutiveFailures := row.consecutiveFailures + 1
        avgLatencyMs :=
          if latencyMs > 0 then smooth row.avgLatencyMs latencyMs else row.avgLatencyMs } := by
  simp only [failed, h, Bool.false_eq_true, if_false]

theorem tally_recordFailure {g : GatewayProvider} {latencyMs n : Nat}
    {Q : Except Err Unit → Tally → Prop} (hticket : s.ticket = .due g n false)
    (hQ : ∀ r s, Q r s) : tallyProtocol.wp (recordFailure g latencyMs) Q s := by
  unfold recordFailure
  rw [Prog.bind_def, wp_bind, tally_perform]
  refine ⟨trivial, fun r hr => ?_⟩
  rcases r with e | _ | row
  . exact hQ _ _
  . exact hQ _ _
  . dsimp only
    subst hr
    have hseen : row ∈ (s.next (.findStatsOf row.gateway) (.ok (some row))).seen := by
      simp [Tally.next]
    have hdue : (s.next (.findStatsOf row.gateway) (.ok (some row))).ticket =
        .due row.gateway n false := hticket
    split
    . next htrips =>
      rw [Prog.bind_def, wp_bind]
      apply tally_untallied RedisService.untallied_set
      intro r
      cases r with
      | error e => exact hQ _ _
      | ok isOk =>
        dsimp only
        have htrips' : trips row = true := by
          simpa [trips] using htrips
        exact tally_save hseen hdue (failed_of_trips htrips').symm hQ
    . next htrips =>
      have htrips' : trips row = false := by
        rw [Bool.eq_false_iff]
        intro htrips'
        apply htrips
        simpa [trips] using htrips'
      exact tally_save hseen hdue (failed_of_not_trips htrips').symm hQ

end RoutingEngine

namespace TransactionsService

variable {dto : CreateTransactionDto}

theorem untallied_setCompleted {key : String} {transaction : Transaction}
    : (setCompleted key transaction).Issues Cmd.untallied := by
  unfold setCompleted
  apply Prog.Issues.bind RedisService.untallied_set
  intro _
  trivial

theorem tally_setCompleted {key : String} {transaction t : Transaction}
    : tallyProtocol.wp ((setCompleted key transaction).bind (fun _ => .pure t)) Adrift s := by
  rw [wp_bind]
  apply tally_untallied untallied_setCompleted
  intro r
  cases r <;> trivial

theorem tally_findByKey {key : String} {Q : Except Err (Option Transaction) → Tally → Prop}
    (hQ : ∀ r, Q r s) : tallyProtocol.wp (findByKey key) Q s := by
  unfold findByKey
  rw [tally_perform]
  refine ⟨trivial, fun r _ => ?_⟩
  have hnext : ∀ conditions, s.next (.findTransaction conditions) r = s := by
    intro conditions
    cases r <;> rfl
  rw [hnext]
  exact hQ r

theorem tally_replay : tallyProtocol.wp (replay dto) Adrift s := by
  unfold replay
  rw [Prog.bind_def, wp_bind]
  apply tally_untallied RedisService.untallied_get
  intro r
  cases r with
  | error e => trivial
  | ok value =>
    dsimp only
    split
    . trivial
    . trivial
    . trivial
    . rw [Prog.bind_def, wp_bind]
      apply tally_findByKey
      intro r
      cases r with
      | error e => trivial
      | ok row =>
        dsimp only
        split
        . exact tally_setCompleted
        . trivial

/--
The caller is due what the answer says, also where the answer stands for an exception.
-/
theorem tally_callGateway {request : GatewayChargeRequest} {g : GatewayProvider} {startTime : Nat}
    {Q : Except Err GatewayChargeResponse → Tally → Prop}
    (hok : ∀ n response seen, Q (.ok response) ⟨seen, .due g n response.success⟩)
    (herror : ∀ e s, Q (.error e) s)
    : tallyProtocol.wp (callGateway request g startTime) Q s := by
  unfold callGateway
  rw [Prog.bind_def, wp_bind, tally_perform]
  refine ⟨trivial, fun r _ => ?_⟩
  cases r with
  | error e => exact herror _ _
  | ok n =>
    dsimp only
    rw [Prog.tryCatch_def, wp_tryCatch, tally_perform]
    refine ⟨⟨g, rfl⟩, fun r _ => ?_⟩
    cases r with
    | ok response => exact hok n response s.seen
    | error err =>
      dsimp only
      rw [Prog.bind_def, wp_bind, tally_perform]
      refine ⟨trivial, fun r _ => ?_⟩
      cases r with
      | error e => exact herror _ _
      | ok endTime => exact hok n _ s.seen

theorem tally_attempt {id : String} {g : GatewayProvider}
    {Q : Except Err (GatewayChargeResponse × Nat) → Tally → Prop}
    (hok : ∀ n response latencyMs seen,
      Q (.ok (response, latencyMs)) ⟨seen, .due g n response.success⟩)
    (herror : ∀ e s, Q (.error e) s) : tallyProtocol.wp (attempt dto id g) Q s := by
  unfold attempt
  rw [Prog.bind_def, wp_bind]
  apply tally_transition
  intro r
  cases r with
  | error e => exact herror _ _
  | ok _ =>
    dsimp only
    rw [Prog.bind_def, wp_bind]
    apply tally_transition
    intro r
    cases r with
    | error e => exact herror _ _
    | ok _ =>
      dsimp only
      rw [Prog.bind_def, wp_bind, tally_perform]
      refine ⟨trivial, fun r _ => ?_⟩
      cases r with
      | error e => exact herror _ _
      | ok startTime =>
        dsimp only
        rw [Prog.bind_def, wp_bind]
        apply tally_callGateway _ herror
        intro n response seen
        dsimp only
        rw [Prog.bind_def, wp_bind, tally_perform]
        refine ⟨trivial, fun r _ => ?_⟩
        cases r with
        | error e => exact herror _ _
        | ok endTime => exact hok n response _ seen

theorem tally_succeed {t : Transaction} {g : GatewayProvider} {latencyMs n : Nat}
    (hticket : s.ticket = .due g n true)
    : tallyProtocol.wp
        ((RoutingEngine.recordSuccess g latencyMs).bind
          (fun _ => (setCompleted dto.idempotencyKey t).bind (fun _ => .pure t)))
        Adrift s := by
  rw [wp_bind]
  apply RoutingEngine.tally_recordSuccess hticket
  intro r s
  cases r with
  | error e => trivial
  | ok _ => exact tally_setCompleted

/--
What a round was due to record does not matter to the next one.
-/
theorem tally_execute {id : String} {g : GatewayProvider} {fb : List GatewayProvider}
    : tallyProtocol.wp (execute dto id g fb) Adrift s := by
  induction fb generalizing g s with
  | nil =>
    unfold execute
    rw [Prog.bind_def, wp_bind]
    apply tally_attempt _ (fun _ _ => trivial)
    intro n chargeResult latencyMs seen
    dsimp only
    split
    . next hsuccess =>
      rw [Prog.bind_def, wp_bind]
      apply tally_transition
      intro r
      cases r with
      | error e => trivial
      | ok t => exact tally_succeed (by rw [hsuccess])
    . next hfailure =>
      rw [Bool.not_eq_true] at hfailure
      rw [Prog.bind_def, wp_bind]
      apply RoutingEngine.tally_recordFailure (by rw [hfailure])
      intro r s
      cases r with
      | error e => trivial
      | ok _ =>
        dsimp only
        rw [Prog.bind_def, wp_bind]
        apply tally_transition
        intro r
        cases r with
        | error e => trivial
        | ok failedTxn => exact tally_setCompleted
  | cons g' fb ih =>
    unfold execute
    rw [Prog.bind_def, wp_bind]
    apply tally_attempt _ (fun _ _ => trivial)
    intro n chargeResult latencyMs seen
    dsimp only
    split
    . next hsuccess =>
      rw [Prog.bind_def, wp_bind]
      apply tally_transition
      intro r
      cases r with
      | error e => trivial
      | ok t => exact tally_succeed (by rw [hsuccess])
    . next hfailure =>
      rw [Bool.not_eq_true] at hfailure
      rw [Prog.bind_def, wp_bind]
      apply RoutingEngine.tally_recordFailure (by rw [hfailure])
      intro r s
      cases r with
      | error e => trivial
      | ok _ =>
        dsimp only
        rw [Prog.bind_def, wp_bind]
        apply tally_transition
        intro r
        cases r with
        | error e => trivial
        | ok _ => exact ih

theorem tally_createLocked (hticket : s.ticket = .none)
    : tallyProtocol.wp (createLocked D dto) Adrift s := by
  unfold createLocked
  rw [Prog.bind_def, wp_bind]
  apply tally_findByKey
  intro r
  cases r with
  | error e => trivial
  | ok existing =>
    dsimp only
    split
    . exact tally_setCompleted
    . rw [Prog.bind_def, wp_bind]
      apply RoutingEngine.tally_getRankedGateways hticket
      intro r seen
      cases r with
      | error e => trivial
      | ok gateways =>
        dsimp only
        split
        . trivial
        . rw [Prog.bind_def, wp_bind, tally_perform]
          refine ⟨trivial, fun r _ => ?_⟩
          cases r with
          | error e => trivial
          | ok saved =>
            dsimp only
            rw [Prog.bind_def, wp_bind, tally_perform]
            refine ⟨trivial, fun r _ => ?_⟩
            cases r with
            | error e => trivial
            | ok _ => exact tally_execute

theorem tally_create (hticket : s.ticket = .none)
    : tallyProtocol.wp (create D dto) Adrift s := by
  unfold create
  rw [Prog.bind_def, wp_bind]
  apply tally_untallied RedisService.untallied_set
  intro r
  cases r with
  | error e => trivial
  | ok isLockAcquired =>
    dsimp only
    split
    . exact tally_replay
    . rw [Prog.tryCatch_def, wp_tryCatch]
      apply wp_mono (tally_createLocked hticket)
      intro r s _
      cases r with
      | ok t => trivial
      | error e =>
        dsimp only
        rw [Prog.bind_def, wp_bind]
        apply tally_untallied RedisService.untallied_del
        intro r
        cases r <;> trivial

end TransactionsService

/--
Every task keeps to the protocol.
-/
theorem Task.tally_program (task : Task)
    : tallyProtocol.wp (task.program D) Adrift ⟨[], .none⟩ := by
  cases task with
  | create dto =>
    unfold program
    dsimp only
    rw [Prog.bind_def, wp_bind]
    apply wp_mono (TransactionsService.tally_create rfl)
    intro r s _
    cases r <;> trivial
  | ingest event =>
    apply tally_untallied _ (fun _ => trivial)
    apply Prog.Issues.bind
    . apply WebhooksService.issues_ingest.mono
      intro cmd hcmd
      exact hcmd.untallied
    . intro _
      trivial
  | pollQueue =>
    apply tally_untallied _ (fun _ => trivial)
    apply Prog.Issues.bind
    . apply ReconciliationWorker.issues_pollQueue.mono
      intro cmd hcmd
      exact hcmd.untallied
    . intro _
      trivial

end PaymentOrchestration
