import PaymentOrchestration.Breaker.Calls
import PaymentOrchestration.Party.Calls
import PaymentOrchestration.Transactions.LockLog

/-!
This module contains the protocol of a process with regard to the lock of one idempotency key: when a
call of `create` may take it, give it up or write the cache without having it.
-/

namespace PaymentOrchestration

open Protocol RoutingEngine StateMachine TransactionsService

inductive LockStage where
  | asking
  -- `sent`: the operation that gives the lock up goes to the server
  | owning (sent : Bool)
  | released
  | refused
  -- the value under the key is read from the server
  | reading
  -- refused, and the cache is empty
  | armed (sent : Bool)
  | over
  deriving DecidableEq

/--
Where a process stands. `free` is one that takes no lock.
-/
inductive Keeper where
  | free
  | calling (pid : Pid) (key : String) (stage : LockStage)

-- The command is not about an idempotency key.
def Cmd.unlocked (cmd : Cmd) : Prop :=
  ∀ op, cmd.op? = some op → ∀ key, op.key ≠ redisKey key

namespace LockStage

def permits (stage : LockStage) (op : MockOp) : Prop :=
  match op, stage with
  | .get _, .refused | .get _, .reading => True
  | .set _ .processing (some .NX), .asking => True
  | .set _ (.completed _) none, .owning _ | .set _ (.completed _) none, .armed _ => True
  | .del _, .owning _ => True
  | _, _ => False

-- What is permitted may go to the server.
def online (stage : LockStage) : Prop :=
  match stage with
  | .refused => False
  | .owning sent => sent = true
  | .armed sent => sent = true
  | _ => True

def answered (stage : LockStage) (op : MockOp) (reply : op.Reply) : LockStage :=
  match op, reply, stage with
  | .set _ _ _, true, .asking => .owning false
  | .set _ _ _, false, .asking => .refused
  | .set _ _ _, _, .owning _ | .del _, _, .owning _ => .released
  | .set _ _ _, _, .armed _ => .over
  | .get _, none, _ => .armed false
  | .get _, some _, _ => .over
  | _, _, stage => stage

def bypassed (stage : LockStage) (op : MockOp) : LockStage :=
  match op, stage with
  | .get _, _ => .reading
  | _, .owning _ => .owning true
  | _, .armed _ => .armed true
  | _, stage => stage

end LockStage

def Cmd.isFallback (cmd : Cmd) : Bool :=
  match cmd with
  | .fallback _ => true
  | _ => false

namespace Keeper

-- `down` says whether the Redis server may fail.
def allowed (down : Prop) (s : Keeper) (cmd : Cmd) : Prop :=
  (cmd.isFallback = true → down) ∧
  (cmd.unlocked ∨
  match s, cmd with
  | .calling _ key stage, .mock op =>
    op.key = redisKey key ∧ stage.permits op ∧ stage ≠ .reading
  | .calling _ key stage, .client op =>
    op.plain.key = redisKey key ∧ stage.permits op.plain ∧ stage.online
  | .calling _ key stage, .fallback op =>
    op.key = redisKey key ∧ stage.permits op ∧ stage ≠ .refused
  | _, _ => False)

def next (s : Keeper) (cmd : Cmd) (r : Except Err cmd.Resp) : Keeper :=
  match s with
  | .free => .free
  | .calling pid key stage =>
    match cmd, r with
    | .mock op, .ok (some reply) =>
      if op.key = redisKey key then .calling pid key (stage.answered op reply) else s
    | .mock op, .ok none =>
      if op.key = redisKey key then .calling pid key (stage.bypassed op) else s
    | .client op, .ok reply =>
      if op.plain.key = redisKey key then
        .calling pid key (stage.answered op.plain (op.plainReply reply))
      else
        s
    | .fallback op, .ok reply =>
      if op.key = redisKey key then .calling pid key (stage.answered op reply) else s
    | _, _ => s

/--
`log` holds the statements of the process that have failed, `gateways` are those of the table of
statistics.
-/
def answers (gateways : List GatewayProvider) (log : List LockEvent) (down : Prop) (s : Keeper)
    (cmd : Cmd) (r : Except Err cmd.Resp) : Prop :=
  match s with
  | .free => True
  | .calling pid _ _ =>
    match cmd, r with
    | .mock _, .error _ | .fallback _, .error _ | .rollback, .error _ | .charge _ _, .error _
    | .now, .error _ => False
    | .client _, .error _ => down
    -- caught
    | .race _, .error _ => True
    | _, .error error => .failed pid error ∈ log
    | .findStats, .ok stats => stats.map GatewayStats.gateway = gateways
    | _, _ => True

end Keeper

@[reducible]
def lockProtocol (gateways : List GatewayProvider) (log : List LockEvent) (down : Prop)
    : Protocol Cmd Cmd.Resp Err where
  State := Keeper
  allowed := Keeper.allowed down
  answers := Keeper.answers gateways log down
  next := Keeper.next
  crash := id

/--
The state machine has refused a transition.
-/
def StateMachine.Rejected (error : Err) : Prop :=
  (∃ id : String, error = .notFound s!"Transaction with ID {id} not found") ∨
  ∃ fromState toState : TransactionState, toState ∉ VALID_TRANSITIONS fromState ∧
    error = .badRequest s!"Invalid state transition: cannot transition from {fromState} to {toState}"

def TransactionsService.noGateways : Err :=
  .serviceUnavailable "No payment gateways are currently configured in the environment."

/--
The call could not go on: one of its statements has failed, a transition was refused or no gateway is
configured.
-/
def Excused (D : Deployment) (gateways : List GatewayProvider) (log : List LockEvent) (pid : Pid)
    (error : Err) : Prop :=
  .failed pid error ∈ log ∨ Rejected error ∨
    error = noGateways ∧ ∀ gateway ∈ gateways, considered D gateway = false

def Task.keeper (i : Pid) (task : Task) : Keeper :=
  match task with
  | .create dto => .calling i dto.idempotencyKey .asking
  | _ => .free

/--
What a call of `create` that has had the lock ends with.
-/
def Task.kept (D : Deployment) (gateways : List GatewayProvider) (log : List LockEvent) (i : Pid)
    (task : Task) (r : Except Err Reply) (s : Keeper) : Prop :=
  match task with
  | .create dto =>
    (s = .calling i dto.idempotencyKey .released ∧
      ∀ error, r = .error error → Excused D gateways log i error) ∨
    s = .calling i dto.idempotencyKey .over ∨
    ∃ sent, s = .calling i dto.idempotencyKey (.armed sent)
  | _ => True

variable {D : Deployment} {gateways : List GatewayProvider} {log : List LockEvent} {α : Type}
  {pid : Pid} {key : String} {stage : LockStage} {T : Err → Prop} {down : Prop}

theorem circuitKey_ne_redisKey (gateway : GatewayProvider) (key : String)
    : RoutingEngine.circuitKey gateway ≠ redisKey key := by
  intro h
  have := congrArg String.toList h
  cases gateway <;> simp [RoutingEngine.circuitKey, redisKey, toString] at this

theorem Cmd.unlocked.next {s : Keeper} {cmd : Cmd} (h : cmd.unlocked)
    (r : Except Err cmd.Resp) : s.next cmd r = s := by
  cases s with
  | free => rfl
  | calling pid key stage =>
    cases cmd with
    | mock op => rcases r with e | _ | reply <;> simp [Keeper.next, h op rfl]
    | client op => cases r <;> simp [Keeper.next, h op.plain rfl]
    | fallback op => cases r <;> simp [Keeper.next, h op rfl]
    | _ => rfl

theorem lock_perform {cmd : Cmd} {Q : Except Err cmd.Resp → Keeper → Prop} {s : Keeper}
    : (lockProtocol gateways log down).wp (perform cmd) Q s
        ↔
      s.allowed down cmd ∧ ∀ r, s.answers gateways log down cmd r → Q r (s.next cmd r) := by
  unfold perform
  rw [Protocol.wp_perform]

theorem within_unlocked {cmd : Cmd} {Φ : cmd.Resp → Prop} (h : cmd.unlocked)
    (hfallback : cmd.isFallback = true → down)
    (hok : ∀ a, (Keeper.calling pid key stage).answers gateways log down cmd (.ok a) → Φ a)
    (herror : ∀ e, (Keeper.calling pid key stage).answers gateways log down cmd (.error e) → T e)
    : (lockProtocol gateways log down).Within (.calling pid key stage) (perform cmd) Φ T := by
  apply within_perform
  . exact ⟨hfallback, .inl h⟩
  . intro r hr
    refine ⟨h.next (s := .calling pid key stage) r, ?_, ?_⟩
    . intro a ha
      subst ha
      exact hok a hr
    . intro e he
      subst he
      exact herror e hr

-- A statement that is about no store may fail, and this is on the log then.
theorem within_statement {cmd : Cmd} (hcmd : cmd.onStore = false) (hrace : ∀ n, cmd ≠ .race n)
    (hT : ∀ e, .failed pid e ∈ log → T e)
    : (lockProtocol gateways log down).Within (.calling pid key stage) (perform cmd) (fun _ => True)
        T := by
  apply within_unlocked
  . intro op hop
    rw [Cmd.onStore, hop] at hcmd
    cases hcmd
  . intro hfallback
    cases cmd with
    | fallback op => cases hcmd
    | _ => cases hfallback
  . simp
  . intro e he
    apply hT
    cases cmd with
    | mock op | client op | fallback op => cases hcmd
    | rollback | charge _ _ | now => exact he.elim
    | race n => exact absurd rfl (hrace n)
    | _ => exact he

namespace RedisService

/-!
Under a key that is not an idempotency key.
-/

variable {key' : String} (hkey : ∀ k, key' ≠ redisKey k)

include hkey in
theorem unlocked_of_key {cmd : Cmd} {op : MockOp} (hop : cmd.op? = some op) (hop' : op.key = key')
    : cmd.unlocked := by
  intro op' h
  rw [hop] at h
  injection h with h
  subst h
  rw [hop']
  exact hkey

include hkey in
theorem within_mock {op : MockOp} (hop : op.key = key')
    : (lockProtocol gateways log down).Within (.calling pid key stage) (perform (.mock op))
        (fun _ => True) T := by
  apply within_unlocked (unlocked_of_key hkey rfl hop)
  . simp [Cmd.isFallback]
  . exact fun _ _ => trivial
  . exact fun _ he => absurd he id

include hkey in
theorem within_client {op : ClientOp} (hop : op.plain.key = key')
    : (lockProtocol gateways log down).Within (.calling pid key stage) (perform (.client op))
        (fun _ => True) (fun _ => down) := by
  apply within_unlocked (unlocked_of_key hkey rfl hop)
  . simp [Cmd.isFallback]
  . exact fun _ _ => trivial
  . exact fun _ he => he

include hkey in
theorem within_fallback {op : MockOp} (hop : op.key = key') (hdown : down)
    : (lockProtocol gateways log down).Within (.calling pid key stage) (perform (.fallback op))
        (fun _ => True) T := by
  apply within_unlocked (unlocked_of_key hkey rfl hop)
  . exact fun _ => hdown
  . exact fun _ _ => trivial
  . exact fun _ he => absurd he id

include hkey in
theorem within_get
    : (lockProtocol gateways log down).Within (.calling pid key stage) (RedisService.get key')
        (fun _ => True) T := by
  unfold RedisService.get
  apply Within.bind (within_mock hkey rfl)
  intro value _
  split
  . trivial
  . apply Within.tryCatch (within_client hkey rfl)
    intro e hdown
    exact within_fallback hkey rfl hdown

include hkey in
theorem within_set {value : Stored} {mode : Option SetMode} {durationMode : Option DurationMode}
    {duration : Option Nat}
    : (lockProtocol gateways log down).Within (.calling pid key stage)
        (RedisService.set key' value mode durationMode duration) (fun _ => True) T := by
  unfold RedisService.set
  apply Within.bind (within_mock hkey rfl)
  intro ok _
  split
  . trivial
  . apply Within.tryCatch (T := fun _ => down)
    . split
      all_goals
        exact within_client hkey rfl
    . intro e hdown
      exact within_fallback hkey rfl hdown

include hkey in
theorem within_del
    : (lockProtocol gateways log down).Within (.calling pid key stage) (RedisService.del key')
        (fun _ => True) T := by
  unfold RedisService.del
  apply Within.bind (within_mock hkey rfl)
  intro count _
  split
  . trivial
  . apply Within.tryCatch (within_client hkey rfl)
    intro e hdown
    exact within_fallback hkey rfl hdown

end RedisService

namespace RoutingEngine

/-!
The rest of a call leaves the lock alone, and says why it fails.
-/

variable (hT : ∀ e, .failed pid e ∈ log → T e)

include hT in
theorem within_checkCooldown {stats : GatewayStats}
    : (lockProtocol gateways log down).Within (.calling pid key stage) (checkCooldown stats)
        (fun _ => True) T := by
  unfold checkCooldown
  split
  . apply Within.bind (RedisService.within_get (circuitKey_ne_redisKey _))
    intro isTripped _
    split
    . apply Within.bind (within_statement rfl (by simp) hT)
      intro _ _
      trivial
    . trivial
  . trivial

include hT in
theorem within_getRankedGateways {amount : Nat}
    : (lockProtocol gateways log down).Within (.calling pid key stage) (getRankedGateways D amount)
        (fun ranked => ranked = [] → ∀ gateway ∈ gateways, considered D gateway = false) T := by
  unfold getRankedGateways
  apply Within.bind (Φ := fun stats => stats.map GatewayStats.gateway = gateways)
  . apply within_unlocked
    . intro op hop
      cases hop
    . simp [Cmd.isFallback]
    . intro stats hstats
      exact hstats
    . exact hT
  . intro stats hstats
    dsimp only
    apply Within.bind
    . apply within_all (Φ := fun _ _ => True)
      intro stats _
      apply Within.bind (within_checkCooldown hT)
      intro _ _
      trivial
    . intro candidates hcandidates hnil gateway hgateway
      -- No candidate means no configured row.
      have hempty : candidates = [] := by
        by_contra hne
        exact rank_ne_nil hne hnil
      rw [hempty, List.forall₂_nil_right_iff, List.filter_eq_nil_iff] at hcandidates
      rw [← hstats, List.mem_map] at hgateway
      rcases hgateway with ⟨row, hrow, hgateway⟩
      rw [← hgateway]
      exact Bool.eq_false_iff.mpr (hcandidates row hrow)

include hT in
theorem within_recordSuccess {gateway : GatewayProvider} {latencyMs : Nat}
    : (lockProtocol gateways log down).Within (.calling pid key stage)
        (recordSuccess gateway latencyMs) (fun _ => True) T := by
  unfold recordSuccess
  apply Within.bind (within_statement rfl (by simp) hT)
  intro stats _
  split
  . trivial
  . dsimp only
    split
    . apply Within.bind (RedisService.within_del (circuitKey_ne_redisKey _))
      intro _ _
      exact within_statement rfl (by simp) hT
    . exact within_statement rfl (by simp) hT

include hT in
theorem within_recordFailure {gateway : GatewayProvider} {latencyMs : Nat}
    : (lockProtocol gateways log down).Within (.calling pid key stage)
        (recordFailure gateway latencyMs) (fun _ => True) T := by
  unfold recordFailure
  apply Within.bind (within_statement rfl (by simp) hT)
  intro stats _
  split
  . trivial
  . dsimp only
    split
    . apply Within.bind (RedisService.within_set (circuitKey_ne_redisKey _))
      intro _ _
      exact within_statement rfl (by simp) hT
    . exact within_statement rfl (by simp) hT

end RoutingEngine

namespace StateMachine

theorem within_transition {id : String} {toState : TransactionState}
    {metadata : TransitionMetadata} (hT : ∀ e, .failed pid e ∈ log → T e)
    (hrejected : ∀ e, Rejected e → T e)
    : (lockProtocol gateways log down).Within (.calling pid key stage) (transition id toState metadata)
        (fun _ => True) T := by
  unfold transition inTransaction
  apply Within.tryCatch (T := T)
  . apply Within.bind (within_statement rfl (by simp) hT)
    intro _ _
    apply Within.bind (Φ := fun _ => True)
    . apply Within.bind (within_statement rfl (by simp) hT)
      intro row _
      split
      . exact hrejected _ (.inl ⟨id, rfl⟩)
      . dsimp only
        split
        . next transaction htransition =>
          exact hrejected _ (.inr ⟨transaction.currentState, toState, htransition, rfl⟩)
        . apply Within.bind (within_statement rfl (by simp) hT)
          intro now _
          apply Within.bind (within_statement rfl (by simp) hT)
          intro _ _
          apply Within.bind (within_statement rfl (by simp) hT)
          intro _ _
          trivial
    . intro result _
      apply Within.bind (within_statement rfl (by simp) hT)
      intro _ _
      trivial
  . intro err herr
    apply Within.bind (within_statement rfl (by simp) hT)
    intro _ _
    exact herr

end StateMachine

namespace TransactionsService

variable {dto : CreateTransactionDto}

theorem within_callGateway {request : GatewayChargeRequest} {g : GatewayProvider} {startTime : Nat}
    (hT : ∀ e, .failed pid e ∈ log → T e)
    : (lockProtocol gateways log down).Within (.calling pid key stage)
        (callGateway request g startTime) (fun _ => True) T := by
  unfold callGateway
  apply Within.bind (within_statement rfl (by simp) hT)
  intro n _
  apply Within.tryCatch (T := fun _ => True)
  . apply within_unlocked
    . intro op hop
      cases hop
    . simp [Cmd.isFallback]
    . exact fun _ _ => trivial
    . exact fun _ _ => trivial
  . intro err _
    apply Within.bind (within_statement rfl (by simp) hT)
    intro _ _
    trivial

theorem within_attempt {id : String} {g : GatewayProvider} (hT : ∀ e, .failed pid e ∈ log → T e)
    (hrejected : ∀ e, Rejected e → T e)
    : (lockProtocol gateways log down).Within (.calling pid key stage) (attempt dto id g)
        (fun _ => True) T := by
  unfold attempt
  apply Within.bind (within_transition hT hrejected)
  intro _ _
  apply Within.bind (within_transition hT hrejected)
  intro _ _
  apply Within.bind (within_statement rfl (by simp) hT)
  intro startTime _
  apply Within.bind (within_callGateway hT)
  intro chargeResult _
  apply Within.bind (within_statement rfl (by simp) hT)
  intro endTime _
  trivial

/-!
The operations on the lock itself.
-/

theorem lock_acquire {Q : Except Err Bool → Keeper → Prop}
    (hacquired : Q (.ok true) (.calling pid key (.owning false)))
    (hrefused : Q (.ok false) (.calling pid key .refused))
    : (lockProtocol gateways log down).wp
        (RedisService.set (redisKey key) .processing (some .NX) (some .EX) (some 10)) Q
        (.calling pid key .asking) := by
  have hQ : ∀ ok : Bool, Q (.ok ok)
      (.calling pid key (LockStage.answered .asking (.set (redisKey key) .processing (some .NX)) ok)) := by
    intro ok
    cases ok
    . exact hrefused
    . exact hacquired
  unfold RedisService.set
  rw [Prog.bind_def, wp_bind, lock_perform]
  refine ⟨⟨by simp [Cmd.isFallback], .inr ⟨rfl, trivial, by simp⟩⟩, fun r hr => ?_⟩
  rcases r with e | _ | ok
  . exact absurd hr id
  . simp only [Keeper.next, MockOp.key, if_true, LockStage.bypassed]
    rw [Prog.tryCatch_def, wp_tryCatch, lock_perform]
    refine ⟨⟨by simp [Cmd.isFallback], .inr ⟨rfl, trivial, trivial⟩⟩, fun r hr => ?_⟩
    rcases r with e | ok
    . dsimp only
      rw [lock_perform]
      refine ⟨⟨fun _ => hr, .inr ⟨rfl, trivial, by simp⟩⟩, fun r hr => ?_⟩
      rcases r with e | ok
      . exact absurd hr id
      . simp only [Keeper.next, MockOp.key, if_true]
        exact hQ ok
    . simp only [Keeper.next, ClientOp.plain, ClientOp.plainReply, MockOp.key, if_true]
      exact hQ ok
  . simp only [Keeper.next, MockOp.key, if_true]
    exact hQ ok

-- A call writes the cache when it has the lock or is armed, and that is the last it does.
theorem lock_setCompleted {t : Transaction} {Q : Except Err Unit → Keeper → Prop}
    (hdto : dto.idempotencyKey = key) {stage' : LockStage}
    (hstage : stage = .owning false ∧ stage' = .released ∨ stage = .armed false ∧ stage' = .over)
    (hQ : Q (.ok ()) (.calling pid key stage'))
    : (lockProtocol gateways log down).wp (setCompleted dto.idempotencyKey t) Q
        (.calling pid key stage) := by
  subst hdto
  unfold setCompleted RedisService.set
  rw [Prog.bind_def, wp_bind, Prog.bind_def, wp_bind, lock_perform]
  rcases hstage with ⟨hstage, hstage'⟩ | ⟨hstage, hstage'⟩
  all_goals
    subst hstage hstage'
    refine ⟨⟨by simp [Cmd.isFallback], .inr ⟨rfl, trivial, by simp⟩⟩, fun r hr => ?_⟩
    rcases r with e | _ | ok
    . exact absurd hr id
    . simp only [Keeper.next, MockOp.key, if_true, LockStage.bypassed]
      rw [Prog.tryCatch_def, wp_tryCatch, lock_perform]
      refine ⟨⟨by simp [Cmd.isFallback], .inr ⟨rfl, trivial, rfl⟩⟩, fun r hr => ?_⟩
      rcases r with e | ok
      . dsimp only
        rw [lock_perform]
        refine ⟨⟨fun _ => hr, .inr ⟨rfl, trivial, by simp⟩⟩, fun r hr => ?_⟩
        rcases r with e | ok
        . exact absurd hr id
        . cases ok <;>
            simpa [Keeper.next, MockOp.key, LockStage.answered] using hQ
      . cases ok <;>
          simpa [Keeper.next, ClientOp.plain, ClientOp.plainReply, MockOp.key,
            LockStage.answered] using hQ
    . cases ok <;> simpa [Keeper.next, MockOp.key, LockStage.answered] using hQ

theorem lock_del {Q : Except Err Nat → Keeper → Prop}
    (hQ : ∀ count, Q (.ok count) (.calling pid key .released))
    : (lockProtocol gateways log down).wp (RedisService.del (redisKey key)) Q
        (.calling pid key (.owning false)) := by
  unfold RedisService.del
  rw [Prog.bind_def, wp_bind, lock_perform]
  refine ⟨⟨by simp [Cmd.isFallback], .inr ⟨rfl, trivial, by simp⟩⟩, fun r hr => ?_⟩
  rcases r with e | _ | count
  . exact absurd hr id
  . simp only [Keeper.next, MockOp.key, if_true, LockStage.bypassed]
    rw [Prog.tryCatch_def, wp_tryCatch, lock_perform]
    refine ⟨⟨by simp [Cmd.isFallback], .inr ⟨rfl, trivial, rfl⟩⟩, fun r hr => ?_⟩
    rcases r with e | count
    . dsimp only
      rw [lock_perform]
      refine ⟨⟨fun _ => hr, .inr ⟨rfl, trivial, by simp⟩⟩, fun r hr => ?_⟩
      rcases r with e | count
      . exact absurd hr id
      . simpa [Keeper.next, MockOp.key, LockStage.answered] using hQ count
    . simpa [Keeper.next, ClientOp.plain, ClientOp.plainReply, MockOp.key,
        LockStage.answered] using hQ count
  . simpa [Keeper.next, MockOp.key, LockStage.answered] using hQ count

theorem lock_get {Q : Except Err (Option Stored) → Keeper → Prop}
    (hmissed : Q (.ok none) (.calling pid key (.armed false)))
    (hfound : ∀ value, Q (.ok (some value)) (.calling pid key .over))
    : (lockProtocol gateways log down).wp (RedisService.get (redisKey key)) Q
        (.calling pid key .refused) := by
  unfold RedisService.get
  rw [Prog.bind_def, wp_bind, lock_perform]
  refine ⟨⟨by simp [Cmd.isFallback], .inr ⟨rfl, trivial, by simp⟩⟩, fun r hr => ?_⟩
  rcases r with e | _ | _ | value
  . exact absurd hr id
  . simp only [Keeper.next, MockOp.key, if_true, LockStage.bypassed]
    rw [Prog.tryCatch_def, wp_tryCatch, lock_perform]
    refine ⟨⟨by simp [Cmd.isFallback], .inr ⟨rfl, trivial, trivial⟩⟩, fun r hr => ?_⟩
    rcases r with e | _ | value
    . dsimp only
      rw [lock_perform]
      refine ⟨⟨fun _ => hr, .inr ⟨rfl, trivial, by simp⟩⟩, fun r hr => ?_⟩
      rcases r with e | _ | value
      . exact absurd hr id
      . simpa [Keeper.next, MockOp.key, LockStage.answered] using hmissed
      . simpa [Keeper.next, MockOp.key, LockStage.answered] using hfound value
    . simpa [Keeper.next, ClientOp.plain, ClientOp.plainReply, MockOp.key,
        LockStage.answered] using hmissed
    . simpa [Keeper.next, ClientOp.plain, ClientOp.plainReply, MockOp.key,
        LockStage.answered] using hfound value
  . simpa [Keeper.next, MockOp.key, LockStage.answered] using hmissed
  . simpa [Keeper.next, MockOp.key, LockStage.answered] using hfound value

/--
How the block inside `try` ends: the lock is given up, or an error is on its way to `catch`.
-/
def Leaves (D : Deployment) (gateways : List GatewayProvider) (log : List LockEvent) (pid : Pid)
    (key : String) (r : Except Err Transaction) (s : Keeper) : Prop :=
  match r with
  | .ok _ => s = .calling pid key .released
  | .error error => s = .calling pid key (.owning false) ∧ Excused D gateways log pid error

theorem excused_of_failed (e : Err) (h : .failed pid e ∈ log) : Excused D gateways log pid e := by
  exact .inl h

theorem excused_of_rejected (e : Err) (h : Rejected e) : Excused D gateways log pid e := by
  exact .inr (.inl h)

-- A part of the block that leaves the lock alone.
theorem lock_part {p : Program α} {f : α → Program Transaction} {Φ : α → Prop}
    (hp : (lockProtocol gateways log down).Within (.calling pid key (.owning false)) p Φ
      (Excused D gateways log pid))
    (hf : ∀ a, Φ a → (lockProtocol gateways log down).wp (f a) (Leaves D gateways log pid key)
      (.calling pid key (.owning false)))
    : (lockProtocol gateways log down).wp (p.bind f) (Leaves D gateways log pid key)
        (.calling pid key (.owning false)) := by
  rw [wp_bind]
  apply hp.wp
  . exact hf
  . intro e he
    exact ⟨rfl, he⟩

theorem lock_cache {t : Transaction} (hdto : dto.idempotencyKey = key)
    : (lockProtocol gateways log down).wp
        (do
          setCompleted dto.idempotencyKey t
          return t)
        (Leaves D gateways log pid key) (.calling pid key (.owning false)) := by
  rw [Prog.bind_def, wp_bind]
  exact lock_setCompleted hdto (.inl ⟨rfl, rfl⟩) rfl

theorem lock_execute {id : String} {g : GatewayProvider} {fb : List GatewayProvider}
    (hdto : dto.idempotencyKey = key)
    : (lockProtocol gateways log down).wp (execute dto id g fb) (Leaves D gateways log pid key)
        (.calling pid key (.owning false)) := by
  have hsuccess : ∀ (r : GatewayChargeResponse) (g : GatewayProvider) (latencyMs : Nat),
      (lockProtocol gateways log down).wp
        (do
          let updatedTxn ← transition id .SUCCESS (successMetadata g r)
          recordSuccess g latencyMs
          setCompleted dto.idempotencyKey updatedTxn
          return updatedTxn)
        (Leaves D gateways log pid key) (.calling pid key (.owning false)) := by
    intro r g latencyMs
    apply lock_part (within_transition excused_of_failed excused_of_rejected)
    intro updatedTxn _
    apply lock_part (within_recordSuccess excused_of_failed)
    intro _ _
    exact lock_cache hdto
  induction fb generalizing g with
  | nil =>
    unfold execute
    apply lock_part (within_attempt excused_of_failed excused_of_rejected)
    rintro ⟨r, latencyMs⟩ _
    dsimp only
    split
    . exact hsuccess r g latencyMs
    . apply lock_part (within_recordFailure excused_of_failed)
      intro _ _
      apply lock_part (within_transition excused_of_failed excused_of_rejected)
      intro failedTxn _
      exact lock_cache hdto
  | cons g' fb ih =>
    unfold execute
    apply lock_part (within_attempt excused_of_failed excused_of_rejected)
    rintro ⟨r, latencyMs⟩ _
    dsimp only
    split
    . exact hsuccess r g latencyMs
    . apply lock_part (within_recordFailure excused_of_failed)
      intro _ _
      apply lock_part (within_transition excused_of_failed excused_of_rejected)
      intro _ _
      exact ih

theorem lock_createLocked (hdto : dto.idempotencyKey = key)
    : (lockProtocol gateways log down).wp (createLocked D dto) (Leaves D gateways log pid key)
        (.calling pid key (.owning false)) := by
  unfold createLocked
  apply lock_part (within_statement rfl (by simp) excused_of_failed)
  intro row _
  split
  . exact lock_cache hdto
  . apply lock_part (within_getRankedGateways excused_of_failed)
    intro ranked hranked
    split
    . exact ⟨rfl, .inr (.inr ⟨rfl, hranked rfl⟩)⟩
    . apply lock_part (within_statement rfl (by simp) excused_of_failed)
      intro saved _
      apply lock_part (within_statement rfl (by simp) excused_of_failed)
      intro _ _
      exact lock_execute hdto

-- How a call that was refused ends.
def Idles (pid : Pid) (key : String) (_ : Except Err Transaction) (s : Keeper) : Prop :=
  s = .calling pid key .over ∨ ∃ sent, s = .calling pid key (.armed sent)

theorem lock_replay (hdto : dto.idempotencyKey = key)
    : (lockProtocol gateways log down).wp (replay dto) (Idles pid key) (.calling pid key .refused) := by
  unfold replay
  rw [Prog.bind_def, wp_bind, hdto]
  apply lock_get
  . dsimp only
    rw [Prog.bind_def, wp_bind]
    apply (within_statement (T := fun _ => True) rfl (by simp) (by simp)).wp
    . intro row _
      dsimp only
      split
      . rw [Prog.bind_def, wp_bind, ← hdto]
        exact lock_setCompleted rfl (.inr ⟨rfl, rfl⟩) (.inl rfl)
      . exact .inr ⟨false, rfl⟩
    . intro e _
      exact .inr ⟨false, rfl⟩
  . intro value
    dsimp only
    cases value <;> exact .inl rfl

theorem lock_create (hdto : dto.idempotencyKey = key)
    : (lockProtocol gateways log down).wp (create D dto)
        (fun r s =>
          (s = .calling pid key .released ∧
            ∀ error, r = .error error → Excused D gateways log pid error) ∨ Idles pid key r s)
        (.calling pid key .asking) := by
  unfold create
  rw [Prog.bind_def, wp_bind, hdto]
  apply lock_acquire
  . simp only [Bool.not_true, Bool.false_eq_true, if_false]
    rw [Prog.tryCatch_def, wp_tryCatch]
    apply wp_mono (lock_createLocked hdto)
    intro r s hleaves
    cases r with
    | ok t => exact .inl ⟨hleaves, by simp⟩
    | error e =>
      rcases hleaves with ⟨hs, hexcused⟩
      subst hs
      dsimp only
      rw [Prog.bind_def, wp_bind]
      apply lock_del
      intro count
      refine .inl ⟨rfl, ?_⟩
      intro error herror
      injection herror with herror
      rw [← herror]
      exact hexcused
  . simp only [Bool.not_false, if_true]
    apply wp_mono (lock_replay hdto)
    intro r s hidles
    exact .inr hidles

end TransactionsService

/-!
The other tasks have nothing to do with the lock.
-/

def Cmd.apart (cmd : Cmd) : Prop :=
  cmd.unlocked ∧ cmd.isFallback = false

theorem apart_of_not_onStore {cmd : Cmd} (h : cmd.onStore = false) : cmd.apart := by
  refine ⟨?_, ?_⟩
  . intro op hop
    rw [Cmd.onStore, hop] at h
    cases h
  . cases cmd with
    | fallback op => cases h
    | _ => rfl

theorem apart_of_queue {cmd : Cmd} {op : MockOp} (hop : cmd.op? = some op)
    (hkey : op.key = ReconciliationWorker.queueName) (hfallback : cmd.isFallback = false)
    : cmd.apart := by
  refine ⟨RedisService.unlocked_of_key ?_ hop hkey, hfallback⟩
  intro k
  exact (redisKey_ne_queueName k).symm

theorem Cmd.ofIngest.apart {cmd : Cmd} (h : cmd.ofIngest) : cmd.apart := by
  cases cmd with
  | mock op =>
    cases op with
    | lpush queue item => exact apart_of_queue rfl h rfl
    | _ => cases h
  | client op =>
    cases op with
    | lpush queue item => exact apart_of_queue rfl h rfl
    | _ => cases h
  | insertEvent event => exact apart_of_not_onStore rfl
  | _ => cases h

theorem Cmd.ofWorker.apart {cmd : Cmd} (h : cmd.ofWorker) : cmd.apart := by
  cases cmd with
  | mock op =>
    cases op with
    | brpop queue => exact apart_of_queue rfl h rfl
    | _ => cases h
  | client op =>
    cases op with
    | brpop queue => exact apart_of_queue rfl h rfl
    | _ => cases h
  | fallback op => cases h
  | _ => exact apart_of_not_onStore rfl

theorem lock_free {p : Program α} (hp : p.Issues Cmd.apart)
    : (lockProtocol gateways log down).wp p (fun _ _ => True) .free := by
  have hsteady : (lockProtocol gateways log down).Steady .free p (fun _ => True) := by
    apply Prog.Issues.steady _ hp
    intro cmd hcmd
    exact ⟨⟨by simp [hcmd.right], .inl hcmd.left⟩, fun _ _ => rfl⟩
  apply hsteady.wp
  . intro _ _
    trivial
  . intro _
    trivial

/--
Every task keeps to the protocol.
-/
theorem Task.lock_program (i : Pid) (task : Task)
    : (lockProtocol gateways log down).wp (task.program D) (task.kept D gateways log i)
        (task.keeper i) := by
  cases task with
  | create dto =>
    unfold program
    dsimp only [Task.keeper]
    rw [Prog.bind_def, wp_bind]
    apply wp_mono (lock_create rfl)
    intro r s h
    cases r with
    | error e =>
      rcases h with ⟨hs, hexcused⟩ | h
      . exact .inl ⟨hs, fun error herror => hexcused error (by injection herror with h; rw [h])⟩
      . exact .inr h
    | ok t =>
      rcases h with ⟨hs, _⟩ | h
      . exact .inl ⟨hs, by simp⟩
      . exact .inr h
  | ingest event =>
    apply wp_mono (lock_free _)
    . intro _ _ _
      trivial
    . apply Prog.Issues.bind
      . apply WebhooksService.issues_ingest.mono
        intro cmd hcmd
        exact hcmd.apart
      . intro _
        trivial
  | pollQueue =>
    apply wp_mono (lock_free _)
    . intro _ _ _
      trivial
    . apply Prog.Issues.bind
      . apply ReconciliationWorker.issues_pollQueue.mono
        intro cmd hcmd
        exact hcmd.apart
      . intro _
        trivial

end PaymentOrchestration
