import PaymentOrchestration.Party.Ground
import PaymentOrchestration.Transactions.LockKeeping

/-!
This module is about runs of the whole service with an observer of its locks: every step is a step of
one process on its own lock or leaves the locks alone, and the log says where a call stands.
-/

namespace PaymentOrchestration

open Machine TransactionsService

section Effects

variable {D : Deployment} {i : Pid} {o : Oracle} {w w' : World} {inst : Nat}

/--
An instance works in memory from a fallback on.
-/
theorem exec_isMockMode {cmd : Cmd} {r : Except Err cmd.Resp} (inst : Nat)
    (hexec : exec D i cmd o w = some (r, w'))
    : (w'.mem inst).isMockMode = (w.mem inst).isMockMode ∨
        cmd.isFallback = true ∧ (w'.mem inst).isMockMode = true := by
  by_cases hcmd : cmd.onStore = false
  . rw [(exec_stores hcmd hexec).right.left]
    exact .inl rfl
  . cases cmd with
    | mock op =>
      simp only [exec, Option.some.injEq, Prod.mk.injEq] at hexec
      rw [← hexec.right]
      left
      unfold Exec.mock
      dsimp only
      split
      . next hmem =>
        by_cases hinst : inst = i.inst
        . subst hinst
          simp [hmem]
        . simp [hinst]
      . rfl
    | client op =>
      rcases Exec.statement_cases hexec with ⟨hw, _⟩ | ⟨hw, _⟩
      all_goals
        rw [hw]
        exact .inl rfl
    | fallback op =>
      simp only [exec, Option.some.injEq, Prod.mk.injEq] at hexec
      rw [← hexec.right]
      by_cases hinst : inst = i.inst
      . subst hinst
        exact .inr ⟨rfl, by simp [Exec.fallback]⟩
      . simp [Exec.fallback, hinst]
    | _ => exact absurd rfl hcmd

theorem env_isMockMode {e : EnvAct} (inst : Nat) (henv : envStep e w = some w')
    : (w'.mem inst).isMockMode = (w.mem inst).isMockMode ∨
        (∃ n, e = .fallBack n) ∧ (w'.mem inst).isMockMode = true := by
  cases e with
  | fallBack n =>
    injection henv with henv
    subst henv
    by_cases hinst : inst = n
    . subst hinst
      exact .inr ⟨⟨_, rfl⟩, by simp⟩
    . simp [hinst]
  | settle n status =>
    simp only [envStep] at henv
    split at henv
    . split at henv
      . injection henv with henv
        subst henv
        exact .inl rfl
      . cases henv
    . cases henv
  | _ =>
    injection henv with henv
    subst henv
    exact .inl rfl

-- The table of statistics keeps its gateways.
theorem exec_gateways {cmd : Cmd} {r : Except Err cmd.Resp}
    (hexec : exec D i cmd o w = some (r, w'))
    : w'.gatewayStats.map GatewayStats.gateway = w.gatewayStats.map GatewayStats.gateway := by
  rcases (exec_touches hexec).gatewayStats with heq | ⟨stats, _, heq⟩
  . rw [heq]
  . rw [heq, List.map_map]
    apply List.map_congr_left
    intro old _
    simp only [Function.comp_apply]
    split
    . next hgateway => exact hgateway.symm
    . rfl

end Effects

/--
What the log says about a process that stands at `stage`.
-/
structure LockStage.Told (stage : LockStage) (x : Pid) (key : String) (log : List LockEvent)
    : Prop where
  acquired : (∃ place, .acquired x place (redisKey key) ∈ log) ↔
    stage = .released ∨ ∃ sent, stage = .owning sent
  missed : ∀ sent, stage = .armed sent → .missed x (redisKey key) ∈ log
  reading : stage = .reading → .reading x (redisKey key) ∈ log
  writing : stage = .owning true ∨ stage = .armed true → .writing x (redisKey key) ∈ log

section Told

variable {x : Pid} {key : String} {stage stage' : LockStage} {log events : List LockEvent}
  {w w' : World} {lost : Prop}

theorem LockStage.Told.frame (h : stage.Told x key log)
    (hevents : ∀ event ∈ events, event.pid = x → event.key? ≠ some (redisKey key))
    : stage.Told x key (log ++ events) := by
  refine ⟨?_, ?_, ?_, ?_⟩
  . rw [← h.acquired]
    constructor
    . rintro ⟨place, hacquired⟩
      rw [List.mem_append] at hacquired
      rcases hacquired with hacquired | hacquired
      . exact ⟨place, hacquired⟩
      . exact absurd rfl (hevents _ hacquired rfl)
    . rintro ⟨place, hacquired⟩
      exact ⟨place, List.mem_append_left _ hacquired⟩
  . intro sent hstage
    exact List.mem_append_left _ (h.missed sent hstage)
  . intro hstage
    exact List.mem_append_left _ (h.reading hstage)
  . intro hstage
    exact List.mem_append_left _ (h.writing hstage)

/--
A step of the process keeps what the log says true.
-/
theorem LockStep.told (hstep : LockStep x key w w' lost stage stage' events)
    (h : stage.Told x key log) : stage'.Told x key (log ++ events) := by
  have hold : ∀ {event : LockEvent}, event ∈ log → event ∈ log ++ events := by
    intro event hevent
    exact List.mem_append_left _ hevent
  have hnew : ∀ {event : LockEvent}, event ∈ events → event ∈ log ++ events := by
    intro event hevent
    exact List.mem_append_right _ hevent
  have hacquired : (∀ place, .acquired x place (redisKey key) ∉ events) →
      (stage' = .released ∨ (∃ sent, stage' = .owning sent) ↔
        stage = .released ∨ ∃ sent, stage = .owning sent) →
      ((∃ place, .acquired x place (redisKey key) ∈ log ++ events) ↔
        stage' = .released ∨ ∃ sent, stage' = .owning sent) := by
    intro hnone hiff
    rw [hiff, ← h.acquired]
    simp [List.mem_append, hnone]
  cases hstep with
  | acquire place hfree hplace =>
    refine ⟨?_, by simp, by simp, by simp⟩
    simp only [LockStage.owning.injEq, exists_eq', or_true, iff_true]
    exact ⟨place, hnew (by simp)⟩
  | refuse => exact ⟨hacquired (by simp) (by simp), by simp, by simp, by simp⟩
  | lose hlost hfree => exact ⟨hacquired (by simp) Iff.rfl, by simp, by simp, by simp⟩
  | look hmem => exact ⟨hacquired (by simp) (by simp), by simp, fun _ => hnew (by simp), by simp⟩
  | miss stage place hstage hplace hmissing =>
    refine ⟨hacquired (by simp) ?_, fun _ _ => hnew (by simp), by simp, by simp⟩
    rcases hstage with hstage | hstage <;> simp [hstage]
  | find stage hstage =>
    refine ⟨hacquired (by simp) ?_, by simp, by simp, by simp⟩
    rcases hstage with hstage | hstage <;> simp [hstage]
  | send stage stage' hmem hstage =>
    rcases hstage with ⟨sent, hstage, hstage'⟩ | ⟨sent, hstage, hstage'⟩
    . subst hstage hstage'
      exact ⟨hacquired (by simp) (by simp), by simp, by simp, fun _ => hnew (by simp)⟩
    . subst hstage hstage'
      exact ⟨hacquired (by simp) (by simp), fun _ _ => hold (h.missed sent rfl), by simp,
        fun _ => hnew (by simp)⟩
  | write stage stage' place value hvalue hplace hstage =>
    rcases hstage with ⟨sent, hstage, hstage'⟩ | ⟨sent, hstage, hstage'⟩
    all_goals
      subst hstage hstage'
      exact ⟨hacquired (by simp) (by simp), by simp, by simp, by simp⟩
  | fail hlost stage value hvalue hstage =>
    exact ⟨hacquired (by simp) Iff.rfl, fun sent h' => hold (h.missed sent h'),
      fun h' => hold (h.reading h'), fun h' => hold (h.writing h')⟩
  | stay stage =>
    exact ⟨hacquired (by simp) Iff.rfl, fun sent h' => hold (h.missed sent h'),
      fun h' => hold (h.reading h'), fun h' => hold (h.writing h')⟩

end Told

/--
Every process stands where the log says.
-/
structure Kept (tasks : Pid → Task) (gateways : List GatewayProvider) (w : World)
    (log : List LockEvent) (state : Pid → Keeper) : Prop where
  stats : w.gatewayStats.map GatewayStats.gateway = gateways
  calling : ∀ i dto, tasks i = .create dto → ∃ stage, state i = .calling i dto.idempotencyKey stage ∧
    stage.Told i dto.idempotencyKey log
  free : ∀ i, (∀ dto, tasks i ≠ .create dto) → state i = .free

theorem Kept.told {tasks : Pid → Task} {gateways : List GatewayProvider} {w : World}
    {log : List LockEvent} {state : Pid → Keeper} (h : Kept tasks gateways w log state) {i : Pid}
    {key : String} {stage : LockStage} (hstate : state i = .calling i key stage)
    : stage.Told i key log := by
  by_cases htask : ∃ dto, tasks i = .create dto
  . rcases htask with ⟨dto, htask⟩
    rcases h.calling i dto htask with ⟨stage', hstate', htold⟩
    rw [hstate] at hstate'
    injection hstate' with _ hkey hstage
    rw [hkey, hstage]
    exact htold
  . rw [h.free i (fun dto hdto => htask ⟨dto, hdto⟩)] at hstate
    cases hstate

/--
A step that concerns no lock. What is stored may get lost.
-/
structure LeavesLocks (w w' : World) (log log' : List LockEvent) : Prop where
  values : ∀ place key, w'.storedAt place (redisKey key) = none ∨
    w'.storedAt place (redisKey key) = w.storedAt place (redisKey key)
  log : ∃ events, log' = log ++ events ∧ ∀ event ∈ events, ∀ key, event.key? ≠ some (redisKey key)

/--
A step of process `x` on its own lock.
-/
structure OwnStep (x : Pid) (key : String) (lost : Prop) (stage stage' : LockStage)
    (events : List LockEvent) (w w' : World) (log log' : List LockEvent) (state state' : Pid → Keeper) : Prop where
  before : state x = .calling x key stage
  after : state' = Function.update state x (.calling x key stage')
  log : log' = log ++ events
  pids : ∀ event ∈ events, event.pid = x
  step : LockStep x key w w' lost stage stage' events
  values : ∀ place key', Rewrites x place (redisKey key') (w.storedAt place (redisKey key'))
    (w'.storedAt place (redisKey key')) events

theorem mem_of_lastWrite {place : Place} {key : String} {log : List LockEvent} {pid : Pid}
    {value : Option Stored} (h : lastWrite place key log = some (pid, value))
    : .wrote pid place key value ∈ log := by
  exact mem_writesAt.mp (List.mem_of_getLast? h)

theorem LockStage.permits.not_onQueue {stage : LockStage} {op : MockOp} (h : stage.permits op)
    : op.onQueue = false := by
  cases op with
  | lpush queue item => cases stage <;> simp [LockStage.permits] at h
  | brpop queue => cases stage <;> simp [LockStage.permits] at h
  | _ => rfl

-- What a process may do with an idempotency key is nothing for a queue.
theorem Keeper.allowed.not_onQueue {down : Prop} {s : Keeper} {cmd : Cmd} (h : s.allowed down cmd)
    : cmd.unlocked ∨ ∀ op, cmd.op? = some op → op.onQueue = false := by
  rcases h with ⟨_, hunlocked | h⟩
  . exact .inl hunlocked
  . right
    intro op hop
    cases s with
    | free => exact h.elim
    | calling pid key stage =>
      cases cmd with
      | mock op' | client op' | fallback op' =>
        injection hop with hop
        subst hop
        exact LockStage.permits.not_onQueue h.right.left
      | _ => exact h.elim

section Moves

variable {D : Deployment} {tasks : Pid → Task} {gateways : List GatewayProvider}
  {L : List LockEvent} {down : Prop} {c c' : Watched D (seesLocks D)}
  {d d' : ((machine D).observed (seesLocks D)).Parties (lockProtocol gateways L down)}
  {a : ((machine D).observed (seesLocks D)).Act}

-- A command that is about no lock.
theorem leavesLocks_of_unlocked {i : Pid} {cmd : Cmd} {o : Oracle} {r : Except Err cmd.Resp} {w w' : World}
    {log : List LockEvent} (hcmd : cmd.unlocked) (hexec : exec D i cmd o w = some (r, w'))
    : LeavesLocks w w' log (log ++ seesLocks D i cmd o w) := by
  have hevents : ∀ event ∈ seesLocks D i cmd o w, ∀ key, event.key? ≠ some (redisKey key) := by
    intro event hevent key
    exact hcmd.not_mem hevent key
  refine ⟨?_, _, rfl, hevents⟩
  intro place key
  right
  have hqueue : ∀ op, cmd.op? = some op → op.key = redisKey key → op.onQueue = false := by
    intro op hop hkey
    exact absurd hkey (hcmd op hop key)
  rcases exec_rewrites hqueue hexec place with ⟨_, heq⟩ | ⟨value, hlast, _⟩
  . exact heq
  . exact absurd rfl (hevents _ (mem_of_lastWrite hlast) key)

/--
What an action does to the locks.
-/
theorem Kept.cases (h : Kept tasks gateways c.world.1 c.world.2 d.state)
    (hmoves : Moves (fun i => (tasks i).program D) a c d c' d')
    : (LeavesLocks c.world.1 c'.world.1 c.world.2 c'.world.2 ∧ d'.state = d.state) ∨
        ∃ x o cmd k dto stage stage' events, a = .run x o ∧ c.pool x = .running (.op cmd k) ∧
          tasks x = .create dto ∧ events = seesLocks D x cmd o c.world.1 ∧
          OwnStep x dto.idempotencyKey (o.fault ≠ .none ∧ ∃ op, cmd = .client op) stage stage' events
            c.world.1 c'.world.1 c.world.2 c'.world.2 d.state d'.state := by
  have hleaves : ∀ {w : World}, LeavesLocks w w c.world.2 c.world.2 := by
    intro w
    exact ⟨fun _ _ => .inr rfl, [], by simp, by simp⟩
  cases hmoves with
  | spawn i hidle => exact .inl ⟨hleaves, rfl⟩
  | left i p q halt => exact .inl ⟨hleaves, rfl⟩
  | right i p q halt => exact .inl ⟨hleaves, rfl⟩
  | env e w henv =>
    rcases (observed_env (seesLocks D)).mp henv with ⟨henv', hlog⟩
    refine .inl ⟨⟨fun place key => env_storedAt henv' place (redisKey key), [], ?_, by simp⟩, rfl⟩
    simpa using hlog
  | crash n =>
    refine .inl ⟨⟨fun place key => crash_storedAt n c.world.1 place (redisKey key), [], ?_, by simp⟩, ?_⟩
    . simp
    . funext i
      simp [Parties.crash]
  | run i o cmd k r w hop hallowed hexec =>
    rcases observed_exec.mp hexec with ⟨hexec', hlog⟩
    have hunlocked : cmd.unlocked → d.state i = Keeper.next (d.state i) cmd r := by
      intro hcmd
      exact (hcmd.next r).symm
    have hcase : cmd.unlocked → (LeavesLocks c.world.1 w.1 c.world.2 w.2 ∧
        Function.update d.state i (Keeper.next (d.state i) cmd r) = d.state) := by
      intro hcmd
      refine ⟨?_, ?_⟩
      . rw [hlog]
        exact leavesLocks_of_unlocked hcmd hexec'
      . rw [← hunlocked hcmd, Function.update_eq_self]
    by_cases htask : ∃ dto, tasks i = .create dto
    . rcases htask with ⟨dto, htask⟩
      rcases h.calling i dto htask with ⟨stage, hstate, _⟩
      have hallowed' : (Keeper.calling i dto.idempotencyKey stage).allowed down cmd := by
        rw [← hstate]
        exact hallowed
      rcases lockStep_of_exec hallowed' hexec' with hcmd | ⟨stage', hnext, hstep⟩
      . exact .inl (hcase hcmd)
      . rcases hallowed'.not_onQueue with hcmd | hqueue
        . exact .inl (hcase hcmd)
        . right
          refine ⟨i, o, cmd, k, dto, stage, stage', _, rfl, hop, htask, rfl, hstate, ?_, hlog, ?_,
            hstep, ?_⟩
          . dsimp only
            rw [hstate, hnext]
          . intro event hevent
            exact (mem_seesLocks hevent).left
          . intro place key'
            exact exec_rewrites (fun op hop _ => hqueue op hop) hexec' place
    . have hfree := h.free i (fun dto hdto => htask ⟨dto, hdto⟩)
      rw [hfree] at hallowed
      rcases hallowed with ⟨_, hcmd | hfalse⟩
      . exact .inl (hcase hcmd)
      . exact hfalse.elim

/--
Every process still stands where the log says.
-/
theorem Kept.step (h : Kept tasks gateways c.world.1 c.world.2 d.state)
    (hmoves : Moves (fun i => (tasks i).program D) a c d c' d')
    : Kept tasks gateways c'.world.1 c'.world.2 d'.state := by
  have hstats : c'.world.1.gatewayStats.map GatewayStats.gateway = gateways := by
    rw [← h.stats]
    rcases act_world hmoves.act with heq | ⟨i, o, cmd, k, r, _, _, hexec⟩ | ⟨e, _, henv⟩ |
      ⟨n, _, hworld⟩
    . rw [heq]
    . exact exec_gateways (observed_exec.mp hexec).left
    . rw [(env_tables ((observed_env (seesLocks D)).mp henv).left).gatewayStats]
    . rw [hworld]
      rfl
  rcases h.cases hmoves with ⟨hleaves, hstate⟩ |
    ⟨x, o, cmd, k, dto, stage, stage', events, _, _, htask, _, hown⟩
  . rcases hleaves.log with ⟨events, hlog, hevents⟩
    refine ⟨hstats, ?_, ?_⟩
    . intro i dto htask
      rcases h.calling i dto htask with ⟨stage, hcalling, htold⟩
      refine ⟨stage, by rw [hstate, hcalling], ?_⟩
      rw [hlog]
      exact htold.frame (fun event hevent _ => hevents event hevent _)
    . intro i hi
      rw [hstate]
      exact h.free i hi
  . refine ⟨hstats, ?_, ?_⟩
    . intro i dto' htask'
      rcases h.calling i dto' htask' with ⟨stage₀, hcalling, htold⟩
      by_cases hi : i = x
      . subst hi
        rw [htask] at htask'
        injection htask' with htask'
        subst htask'
        have hbefore := hown.before
        rw [hcalling] at hbefore
        injection hbefore with _ _ hstage
        subst hstage
        refine ⟨stage', by simp [hown.after], ?_⟩
        rw [hown.log]
        exact hown.step.told htold
      . refine ⟨stage₀, by simp [hown.after, hi, hcalling], ?_⟩
        rw [hown.log]
        apply htold.frame
        intro event hevent hpid
        rw [hown.pids event hevent] at hpid
        exact absurd hpid.symm hi
    . intro i hi
      have hne : i ≠ x := by
        intro hx
        subst hx
        exact hi dto htask
      simp [hown.after, hne, h.free i hi]

/--
An instance starts to work in memory by itself or when the Redis server may fail.
-/
theorem moves_isMockMode (hmoves : Moves (fun i => (tasks i).program D) a c d c' d') (inst : Nat)
    : (c'.world.1.mem inst).isMockMode = (c.world.1.mem inst).isMockMode ∨
        ((c'.world.1.mem inst).isMockMode = true ∧ ((∃ n, a = .env (.fallBack n)) ∨ down)) ∨
        (a = .crash inst ∧ (c'.world.1.mem inst).isMockMode = false) := by
  cases hmoves with
  | spawn i hidle => exact .inl rfl
  | left i p q halt => exact .inl rfl
  | right i p q halt => exact .inl rfl
  | env e w henv =>
    rcases env_isMockMode inst ((observed_env (seesLocks D)).mp henv).left with heq |
      ⟨⟨n, he⟩, htrue⟩
    . exact .inl heq
    . exact .inr (.inl ⟨htrue, .inl ⟨n, by rw [he]⟩⟩)
  | crash n =>
    by_cases hinst : inst = n
    . subst hinst
      exact .inr (.inr ⟨rfl, by simp [crashInst]⟩)
    . exact .inl (by simp [crashInst, hinst])
  | run i o cmd k r w hop hallowed hexec =>
    rcases exec_isMockMode inst (observed_exec.mp hexec).left with heq | ⟨hfallback, htrue⟩
    . exact .inl heq
    . exact .inr (.inl ⟨htrue, .inr (hallowed.left hfallback)⟩)

/--
What is stored has been written, and nobody has written anything else since.
-/
def Written (w : World) (log : List LockEvent) : Prop :=
  ∀ place key value, w.storedAt place (redisKey key) = some value →
    ∃ j, lastWrite place (redisKey key) log = some (j, some value)

theorem LeavesLocks.lastWrite {w w' : World} {log log' : List LockEvent} (h : LeavesLocks w w' log log')
    (place : Place) (key : String)
    : lastWrite place (redisKey key) log' = lastWrite place (redisKey key) log := by
  rcases h.log with ⟨events, hlog, hevents⟩
  rw [hlog]
  apply lastWrite_append_of_none
  rw [lastWrite_eq_none]
  intro pid value hwrote
  exact hevents _ hwrote key rfl

theorem Written.step (hwritten : Written c.world.1 c.world.2)
    (h : Kept tasks gateways c.world.1 c.world.2 d.state)
    (hmoves : Moves (fun i => (tasks i).program D) a c d c' d')
    : Written c'.world.1 c'.world.2 := by
  intro place key value hvalue
  rcases h.cases hmoves with ⟨hleaves, _⟩ |
    ⟨x, o, cmd, k, dto, stage, stage', events, _, _, _, _, hown⟩
  . rw [hleaves.lastWrite]
    rcases hleaves.values place key with hnone | heq
    . rw [hnone] at hvalue
      cases hvalue
    . rw [heq] at hvalue
      exact hwritten place key value hvalue
  . rw [hown.log, lastWrite_append]
    rcases hown.values place key with ⟨hnone, heq⟩ | ⟨value', hlast, hstored⟩
    . rw [hnone, Option.none_or]
      rw [heq] at hvalue
      exact hwritten place key value hvalue
    . rw [hlast, hstored value hvalue]
      exact ⟨x, rfl⟩

-- The answers that a process gets are those of its protocol.
theorem Kept.answers (h : Kept tasks gateways c.world.1 c.world.2 d.state) {i : Pid} {cmd : Cmd}
    {o : Oracle} {r : Except Err cmd.Resp} {w : World}
    (hexec : exec D i cmd o c.world.1 = some (r, w)) (hL : seesLocks D i cmd o c.world.1 ⊆ L)
    (hdown : ∀ op, cmd = .client op → o.fault = .none ∨ down)
    : (d.state i).answers gateways L down cmd r := by
  by_cases htask : ∃ dto, tasks i = .create dto
  . rcases htask with ⟨dto, htask⟩
    rcases h.calling i dto htask with ⟨stage, hstate, _⟩
    rw [hstate]
    cases r with
    | ok a =>
      cases cmd with
      | findStats =>
        rcases Exec.query_cases hexec with ⟨_, ha | ⟨e, he⟩⟩
        . injection ha with ha
          subst ha
          exact h.stats
        . cases he
      | _ => trivial
    | error e =>
      cases cmd with
      | mock op | fallback op | rollback | charge gateway request | now =>
        simp [exec] at hexec
      | client op =>
        rcases hdown op rfl with hfault | hdown
        . simp [exec, Exec.statement, hfault] at hexec
        . exact hdown
      | race n => trivial
      | _ =>
        apply hL
        simp [seesLocks, hexec]
  . rw [h.free i (fun dto hdto => htask ⟨dto, hdto⟩)]
    trivial

end Moves

namespace Watched

variable {D : Deployment} {tasks : Pid → Task} {c : Watched D (seesLocks D)}

theorem Start.kept (h : c.Start)
    : Kept tasks (c.world.1.gatewayStats.map GatewayStats.gateway) c.world.1 c.world.2
        (fun i => (tasks i).keeper i) := by
  refine ⟨rfl, ?_, ?_⟩
  . intro i dto htask
    refine ⟨.asking, by rw [htask]; rfl, ?_⟩
    rw [h.log]
    exact ⟨by simp, by simp, by simp, by simp⟩
  . intro i hi
    unfold Task.keeper
    split
    . next dto htask => exact absurd htask (hi dto)
    . rfl

theorem Start.written (h : c.Start) : Written c.world.1 c.world.2 := by
  rcases h.system.world with ⟨gatewayStats, _, hworld⟩
  intro place key value hvalue
  have hworld' : c.world.1 = World.start gatewayStats := hworld
  rw [hworld'] at hvalue
  cases place <;> cases hvalue

/--
The processes of a run keep to the protocol of their locks. `J` is what else is kept, `down` says
whether the Redis server may fail in the run.
-/
theorem ReachableBy.exists_keepers
    {P : Watched D (seesLocks D) → ((machine D).observed (seesLocks D)).Act → Prop}
    (h : c.ReachableBy tasks P) (down : Prop)
    (hdown : ∀ c i o op k, P c (.run i o) → c.pool i = .running (.op (.client op) k) →
      o.fault = .none ∨ down)
    {J : Watched D (seesLocks D) → (Pid → Keeper) → Prop}
    (hstart : ∀ c, c.Start → J c (fun i => (tasks i).keeper i))
    (hstep : ∀ gateways L a (c c' : Watched D (seesLocks D))
      (d d' : ((machine D).observed (seesLocks D)).Parties (lockProtocol gateways L down)),
      Simulates (fun i => (tasks i).keeper i) (fun i => (tasks i).kept D gateways L i) c d →
      P c a → Kept tasks gateways c.world.1 c.world.2 d.state → Written c.world.1 c.world.2 →
      J c d.state → Moves (fun i => (tasks i).program D) a c d c' d' → J c' d'.state)
    : ∃ state, Kept tasks (c.world.1.gatewayStats.map GatewayStats.gateway) c.world.1 c.world.2 state ∧
        Written c.world.1 c.world.2 ∧ J c state ∧
        (∀ i cmd k, c.pool i = .running (.op cmd k) → (state i).allowed down cmd) ∧
        ∀ i r, (c.pool i).result = some r →
          (tasks i).kept D (c.world.1.gatewayStats.map GatewayStats.gateway) c.world.2 i r (state i) := by
  rcases h with ⟨c₀, hc₀, hrun⟩
  let gateways := c₀.world.1.gatewayStats.map GatewayStats.gateway
  let d₀ : ((machine D).observed (seesLocks D)).Parties (lockProtocol gateways c.world.2 down) :=
    ⟨c₀.world, fun i => (tasks i).keeper i⟩
  have hsim₀ : Simulates (fun i => (tasks i).keeper i)
      (fun i => (tasks i).kept D gateways c.world.2 i) c₀ d₀ := by
    refine ⟨rfl, fun i => ?_⟩
    have hidle : c₀.pool i = .idle := hc₀.system.idle i
    rw [hidle]
    rfl
  have hconforms : ConformsBy (fun i => (tasks i).program D) (fun i => (tasks i).keeper i)
      (fun i => (tasks i).kept D gateways c.world.2 i)
      (fun c₁ a => P c₁ a ∧ ((machine D).observed (seesLocks D)).RunBy
        (fun i => (tasks i).program D) P c₀ c₁ ∧
        ∀ c₂, ((machine D).observed (seesLocks D)).act (fun i => (tasks i).program D) a c₁ = some c₂ →
          ((machine D).observed (seesLocks D)).RunBy (fun i => (tasks i).program D) P c₂ c)
      (fun c₁ (d : ((machine D).observed (seesLocks D)).Parties
          (lockProtocol gateways c.world.2 down)) =>
        Kept tasks gateways c₁.world.1 c₁.world.2 d.state ∧ Written c₁.world.1 c₁.world.2 ∧
          J c₁ d.state) := by
    refine ⟨fun i => Task.lock_program i (tasks i), fun _ => rfl, fun _ _ _ h => h, ?_, ?_⟩
    . intro c₁ d i o cmd k r w _ ⟨hkept, _⟩ ⟨hP, _, hafter⟩ hop hallowed hexec
      rcases observed_exec.mp hexec with ⟨hexec', hlog⟩
      apply hkept.answers hexec'
      . have hmoves : Moves (fun i => (tasks i).program D) (.run i o) c₁ d _ _ :=
          .run i o cmd k r w hop hallowed hexec
        have hsub := (run_log (hafter _ hmoves.act)).subset
        intro event hevent
        apply hsub
        dsimp only
        rw [hlog]
        exact List.mem_append_right _ hevent
      . intro op hcmd
        subst hcmd
        exact hdown c₁ i o op k hP hop
    . intro a c₁ c₂ d d' hsim ⟨hkept, hwritten, hJ⟩ ⟨hP, _, _⟩ hmoves _
      exact ⟨hkept.step hmoves, hwritten.step hkept hmoves,
        hstep gateways _ a c₁ c₂ d d' hsim hP hkept hwritten hJ hmoves⟩
  rcases hsim₀.runBy hconforms ⟨hc₀.kept, hc₀.written, hstart c₀ hc₀⟩ (RunBy.between hrun) with
    ⟨d, hsim, hkept, hwritten, hJ⟩
  refine ⟨d.state, ?_, hwritten, hJ, ?_, ?_⟩
  . rw [hkept.stats]
    exact hkept
  . intro i cmd k hop
    have hfollows := hsim.follows i
    rw [hop] at hfollows
    exact hfollows.left
  . intro i r hr
    rw [hkept.stats]
    exact hsim.result hr

end Watched

end PaymentOrchestration
