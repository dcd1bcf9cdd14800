import PaymentOrchestration.Transactions.LockRuns

/-!
This module shows that no lock is leaked while the Redis server can be reached: a call of `create`
that has had the lock has given it up when it is through, whatever else fails in it.
-/

namespace PaymentOrchestration

open Machine TransactionsService

/--
What process `pid` has written last under a key.
-/
def lastWriteOf (pid : Pid) (place : Place) (key : String) (log : List LockEvent)
    : Option (Option Stored) :=
  (((writesAt place key log).filter (fun x => x.1 = pid)).getLast?).map Prod.snd

namespace Watched

variable {D : Deployment} {tasks : Pid → Task}

/--
The Redis server answers, so no instance falls back to its memory.
-/
def ServerAnswers (c : Watched D (seesLocks D)) (a : ((machine D).observed (seesLocks D)).Act)
    : Prop :=
  match a with
  | .run i o => ∀ op k, c.pool i = .running (.op (.client op) k) → o.fault = .none
  | .env (.fallBack _) => False
  | _ => True

/--
A call of `create` that has had the lock and is through with result `r` has given the lock up.
-/
structure GivesUp (c : Watched D (seesLocks D)) (i : Pid) (key : String) (r : Except Err Reply)
    : Prop where
  -- its last word under the key
  last : ∃ value, lastWriteOf i .server (redisKey key) c.world.2 = some value ∧
    (value = none ∨ ∃ t, value = some (.completed t))
  -- Whoever is refused is refused because of a call that is still at work.
  held : c.world.1.storedAt .server (redisKey key) = some .processing →
    ∃ j, lastWrite .server (redisKey key) c.world.2 = some (j, some .processing) ∧
      (c.pool j).result = none
  excused : ∀ error, r = .error error →
    Excused D (c.world.1.gatewayStats.map GatewayStats.gateway) c.world.2 i error

/--
Only a call that owns the lock may have written it last, and a call that has released it has
overwritten or deleted it.
-/
structure Unleaked (c : Watched D (seesLocks D)) (state : Pid → Keeper) : Prop where
  connected : ∀ inst, (c.world.1.mem inst).isMockMode = false
  held : ∀ j key, lastWrite .server (redisKey key) c.world.2 = some (j, some .processing) →
    ∃ sent, state j = .calling j key (.owning sent)
  released : ∀ i key, state i = .calling i key .released →
    ∃ value, lastWriteOf i .server (redisKey key) c.world.2 = some value ∧
      (value = none ∨ ∃ t, value = some (.completed t))

end Watched

section Own

variable {i : Pid} {place : Place} {key : String} {log events : List LockEvent}

theorem lastWriteOf_append
    : lastWriteOf i place key (log ++ events) =
        (lastWriteOf i place key events).or (lastWriteOf i place key log) := by
  unfold lastWriteOf
  rw [writesAt_append, List.filter_append, List.getLast?_append]
  cases (List.filter (fun x => decide (x.1 = i)) (writesAt place key events)).getLast? <;> rfl

theorem lastWriteOf_eq_none
    : lastWriteOf i place key events = none ↔ ∀ value, .wrote i place key value ∉ events := by
  unfold lastWriteOf
  rw [Option.map_eq_none_iff, List.getLast?_eq_none_iff, List.filter_eq_nil_iff]
  constructor
  . intro h value hmem
    exact h (i, value) (mem_writesAt.mpr hmem) (by simp)
  . intro h x hx hpid
    rw [decide_eq_true_eq] at hpid
    subst hpid
    exact h x.2 (mem_writesAt.mp hx)

end Own

namespace Watched.Unleaked

variable {D : Deployment} {tasks : Pid → Task} {gateways : List GatewayProvider}
  {L : List LockEvent} {c c' : Watched D (seesLocks D)}
  {d d' : ((machine D).observed (seesLocks D)).Parties (lockProtocol gateways L False)}
  {a : ((machine D).observed (seesLocks D)).Act}

theorem start (h : c.Start) : c.Unleaked (fun i => (tasks i).keeper i) := by
  rcases h.system.world with ⟨gatewayStats, _, hworld⟩
  have hworld' : c.world.1 = World.start gatewayStats := hworld
  refine ⟨?_, ?_, ?_⟩
  . intro inst
    rw [hworld']
    rfl
  . intro j key hlast
    rw [h.log] at hlast
    cases hlast
  . intro i key hreleased
    unfold Task.keeper at hreleased
    split at hreleased <;> cases hreleased

/--
The call that has written a lock last still owns it after a step of its own.
-/
theorem held_of_own {x : Pid} {key : String} {lost : Prop} {stage stage' : LockStage}
    {events : List LockEvent} {w w' : World} (hconnected : (w'.mem x.inst).isMockMode = false)
    (hlost : ¬lost) (hstep : LockStep x key w w' lost stage stage' events) {j : Pid}
    {log : List LockEvent}
    (hlast : lastWrite .server (redisKey key) (log ++ events) = some (j, some .processing))
    (hheld : lastWrite .server (redisKey key) log = some (x, some .processing) →
      ∃ sent, stage = .owning sent)
    : (j = x → ∃ sent, stage' = .owning sent) ∧
        (j ≠ x → lastWrite .server (redisKey key) log = some (j, some .processing)) := by
  rw [lastWrite_append] at hlast
  cases hnew : lastWrite .server (redisKey key) events with
  | some write =>
    rw [hnew, Option.some_or] at hlast
    injection hlast with hlast
    subst hlast
    have hwrote := mem_of_lastWrite hnew
    cases hstep with
    | acquire place hfree hplace =>
      simp only [List.mem_pair, LockEvent.wrote.injEq, reduceCtorEq, or_false] at hwrote
      exact ⟨fun _ => ⟨false, rfl⟩, fun hj => absurd hwrote.left hj⟩
    | lose hlost' hfree => exact absurd hlost' hlost
    | fail hlost' stage value hvalue hstage => exact absurd hlost' hlost
    | write stage stage' place value hvalue hplace hstage =>
      simp only [List.mem_singleton, LockEvent.wrote.injEq] at hwrote
      rw [← hwrote.right.right.right] at hvalue
      rcases hvalue with hvalue | ⟨t, hvalue⟩ <;> cases hvalue
    | _ => simp at hwrote
  | none =>
    rw [hnew, Option.none_or] at hlast
    refine ⟨?_, fun _ => hlast⟩
    intro hj
    subst hj
    rcases hheld hlast with ⟨sent, hstage⟩
    subst hstage
    cases hstep with
    | miss stage place hstage hplace hmissing => simp at hstage
    | find stage hstage => simp at hstage
    | send stage stage' hmem hstage =>
      rcases hstage with ⟨_, _, hstage'⟩ | ⟨_, hstage, _⟩
      . exact ⟨true, hstage'⟩
      . cases hstage
    | write stage stage' place value hvalue hplace hstage =>
      rcases hplace with ⟨hplace, _⟩ | ⟨_, hmock⟩
      . subst hplace
        rw [lastWrite_eq_none] at hnew
        exact absurd List.mem_cons_self (hnew j value)
      . rw [hconnected] at hmock
        cases hmock
    | fail hlost' stage value hvalue hstage => exact absurd hlost' hlost
    | stay stage => exact ⟨sent, rfl⟩

/--
A call releases its lock by the last thing it writes.
-/
theorem released_of_own {x : Pid} {key : String} {lost : Prop} {stage : LockStage}
    {events : List LockEvent} {w w' : World} (hconnected : (w'.mem x.inst).isMockMode = false)
    (hstep : LockStep x key w w' lost stage .released events) {log : List LockEvent}
    (hreleased : stage = .released → ∃ value, lastWriteOf x .server (redisKey key) log = some value ∧
      (value = none ∨ ∃ t, value = some (.completed t)))
    : ∃ value, lastWriteOf x .server (redisKey key) (log ++ events) = some value ∧
        (value = none ∨ ∃ t, value = some (.completed t)) := by
  cases hstep with
  | send stage stage' hmem hstage =>
    rcases hstage with ⟨_, _, hstage'⟩ | ⟨_, _, hstage'⟩ <;> cases hstage'
  | write stage stage' place value hvalue hplace hstage =>
    rcases hplace with ⟨hplace, _⟩ | ⟨_, hmock⟩
    . subst hplace
      refine ⟨value, ?_, hvalue⟩
      rw [lastWriteOf_append]
      simp [lastWriteOf, writesAt, LockEvent.written?]
    . rw [hconnected] at hmock
      cases hmock
  | fail hlost stage value hvalue hstage => simp at hstage
  | stay stage =>
    rw [List.append_nil]
    exact hreleased rfl

theorem step (h : c.Unleaked d.state) (hkept : Kept tasks gateways c.world.1 c.world.2 d.state)
    (hP : c.ServerAnswers a) (hmoves : Moves (fun i => (tasks i).program D) a c d c' d')
    : c'.Unleaked d'.state := by
  have hconnected : ∀ inst, (c'.world.1.mem inst).isMockMode = false := by
    intro inst
    rcases moves_isMockMode hmoves inst with heq | ⟨_, ⟨n, ha⟩ | hfalse⟩ | ⟨_, hmode⟩
    . rw [heq]
      exact h.connected inst
    . subst ha
      exact hP.elim
    . exact hfalse.elim
    . exact hmode
  rcases hkept.cases hmoves with ⟨hleaves, hstate⟩ |
    ⟨x, o, cmd, k, dto, stage, stage', events, ha, hop, htask, _, hown⟩
  . refine ⟨hconnected, ?_, ?_⟩
    . intro j key hlast
      rw [hleaves.lastWrite] at hlast
      rw [hstate]
      exact h.held j key hlast
    . intro i key hreleased
      rw [hstate] at hreleased
      rcases hleaves.log with ⟨events, hlog, hevents⟩
      have hnone : lastWriteOf i .server (redisKey key) events = none := by
        rw [lastWriteOf_eq_none]
        intro value hwrote
        exact hevents _ hwrote key rfl
      rw [hlog, lastWriteOf_append, hnone, Option.none_or]
      exact h.released i key hreleased
  . have hlost : ¬(o.fault ≠ .none ∧ ∃ op, cmd = .client op) := by
      rintro ⟨hfault, op, hcmd⟩
      subst ha hcmd
      exact hfault (hP op k hop)
    have hafter : ∀ i, i ≠ x → d'.state i = d.state i := by
      intro i hi
      rw [hown.after, Function.update_of_ne hi]
    have hself : d'.state x = .calling x dto.idempotencyKey stage' := by
      rw [hown.after, Function.update_self]
    refine ⟨hconnected, ?_, ?_⟩
    . intro j key hlast
      rw [hown.log] at hlast
      by_cases hkey : key = dto.idempotencyKey
      . subst hkey
        have hheld := held_of_own (hconnected x.inst) hlost hown.step hlast (by
          intro hlast'
          rcases h.held x _ hlast' with ⟨sent, hx⟩
          rw [hown.before] at hx
          injection hx with _ _ hstage
          exact ⟨sent, hstage⟩)
        by_cases hj : j = x
        . subst hj
          rcases hheld.left rfl with ⟨sent, hstage'⟩
          exact ⟨sent, by rw [hself, hstage']⟩
        . rw [hafter j hj]
          exact h.held j _ (hheld.right hj)
      . have hnone : lastWrite .server (redisKey key) events = none := by
          rw [lastWrite_eq_none]
          intro pid value hwrote
          have hkeys := hown.step.key?_eq hwrote
          injection hkeys with hkeys
          exact hkey (redisKey_inj hkeys)
        rw [lastWrite_append_of_none hnone] at hlast
        rcases h.held j key hlast with ⟨sent, hj⟩
        have hne : j ≠ x := by
          intro heq
          subst heq
          rw [hown.before] at hj
          injection hj with _ hkey' _
          exact hkey hkey'.symm
        exact ⟨sent, by rw [hafter j hne, hj]⟩
    . intro i key hreleased
      rw [hown.log]
      by_cases hi : i = x
      . subst hi
        rw [hself] at hreleased
        injection hreleased with _ hkey hstage'
        subst hkey hstage'
        apply released_of_own (hconnected i.inst) hown.step
        intro hstage
        apply h.released
        rw [hown.before, hstage]
      . have hnone : lastWriteOf i .server (redisKey key) events = none := by
          rw [lastWriteOf_eq_none]
          intro value hwrote
          exact hi (hown.pids _ hwrote)
        rw [hafter i hi] at hreleased
        rw [lastWriteOf_append, hnone, Option.none_or]
        exact h.released i key hreleased

end Watched.Unleaked

namespace Watched

variable {D : Deployment} {tasks : Pid → Task}

/--
No lock is leaked, whatever fails besides the Redis server.
-/
theorem no_leaked_lock {c : Watched D (seesLocks D)} (h : c.ReachableBy tasks ServerAnswers)
    {i : Pid} {dto : CreateTransactionDto} (htask : tasks i = .create dto) {place : Place}
    (hacquired : .acquired i place (redisKey dto.idempotencyKey) ∈ c.world.2)
    {r : Except Err Reply} (hr : (c.pool i).result = some r)
    : c.GivesUp i dto.idempotencyKey r := by
  rcases h.exists_keepers False (fun c i o op k hP hop => .inl (hP op k hop)) (fun c => Unleaked.start)
    (fun gateways L a c c' d d' _ hP hkept _ hJ hmoves => hJ.step hkept hP hmoves) with
    ⟨state, hkept, hwritten, hunleaked, _, hfinish⟩
  rcases hkept.calling i dto htask with ⟨stage, hstate, htold⟩
  have hreleased : state i = .calling i dto.idempotencyKey .released ∧
      ∀ error, r = .error error →
        Excused D (c.world.1.gatewayStats.map GatewayStats.gateway) c.world.2 i error := by
    have hkept' := hfinish i r hr
    rw [htask] at hkept'
    have hhad := htold.acquired.mp ⟨place, hacquired⟩
    rcases hkept' with hreleased | hover | ⟨sent, harmed⟩
    . exact hreleased
    . rw [hstate] at hover
      injection hover with _ _ hstage
      simp [hstage] at hhad
    . rw [hstate] at harmed
      injection harmed with _ _ hstage
      simp [hstage] at hhad
  refine ⟨hunleaked.released i _ hreleased.left, ?_, hreleased.right⟩
  intro hprocessing
  rcases hwritten .server _ _ hprocessing with ⟨j, hlast⟩
  refine ⟨j, hlast, ?_⟩
  rcases hunleaked.held j _ hlast with ⟨sent, hj⟩
  cases hresult : (c.pool j).result with
  | none => rfl
  | some r' =>
    -- A call that is through does not own its lock.
    have hkept' := hfinish j r' hresult
    cases hjtask : tasks j with
    | create dto' =>
      rw [hjtask, Task.kept, hj] at hkept'
      simp at hkept'
    | ingest event =>
      have hfree := hkept.free j (by simp [hjtask])
      rw [hfree] at hj
      cases hj
    | pollQueue =>
      have hfree := hkept.free j (by simp [hjtask])
      rw [hfree] at hj
      cases hj

end Watched

namespace Scenario

-- The Redis server does not fail.
def answered (c : Watched deployment (seesLocks deployment))
    (a : WatchedAct (seesLocks deployment)) : Bool :=
  match a with
  | .run i o =>
    match c.pool i with
    | .running (.op (.client _) _) => o.fault = .none
    | _ => true
  | .env (.fallBack _) => false
  | _ => true

theorem serverAnswers_of_answered {c : Watched deployment (seesLocks deployment)}
    {a : WatchedAct (seesLocks deployment)} (h : answered c a = true) : c.ServerAnswers a := by
  cases a with
  | run i o =>
    intro op k hop
    simpa [answered, hop] using h
  | env e =>
    cases e with
    | fallBack n => cases h
    | _ => trivial
  | _ => trivial

end Scenario

namespace Watched

open Scenario

/--
The insert of the payment fails, and the lock is deleted.
-/
theorem no_leaked_lock_insert
    : ∃ c : Watched deployment (seesLocks deployment), ∃ e,
        (c.pool ⟨0, 0⟩).result = some (.error e) ∧ c.GivesUp ⟨0, 0⟩ "order-7" (.error e) := by
  let acts : List Scenario.Act := .spawn ⟨0, 0⟩ :: steps ⟨0, 0⟩ 4 ++
    .run ⟨0, 0⟩ { fault := .before } :: steps ⟨0, 0⟩ 2
  let p (c : Watched deployment (seesLocks deployment)) : Bool :=
    throws ⟨0, 0⟩ c && decide (.acquired ⟨0, 0⟩ .server (redisKey "order-7") ∈ c.world.2)
  have hrun : (watchedOutcome answered (fun _ => .create order) (watched acts)).any p = true := by
    decide +kernel
  rcases exists_watched (fun c a => serverAnswers_of_answered) hrun with ⟨c, hc, hp⟩
  simp only [p, Bool.and_eq_true, decide_eq_true_eq] at hp
  rcases hp with ⟨hresult, hacquired⟩
  rcases exists_thrown hresult with ⟨e, he⟩
  exact ⟨c, e, he, no_leaked_lock hc rfl hacquired he⟩

end Watched

end PaymentOrchestration
