import PaymentOrchestration.Party.Basic

/-!
This module checks the services that a call uses against the protocol: Redis, the routing engine
and the state machine.
-/

namespace PaymentOrchestration

open Protocol StateMachine

variable {D : Deployment} {α : Type} {s : Party} {Q : Except Err α → Party → Prop}

theorem wp_perform {cmd : Cmd} {Q : Except Err cmd.Resp → Party → Prop}
    : (partyProtocol D).wp (perform cmd) Q s
        ↔
      s.allowed D cmd ∧ ∀ r, s.answers D cmd r → Q r (s.next cmd r) := by
  unfold perform
  rw [Protocol.wp_perform]

theorem steady_perform {cmd : Cmd} {Φ : cmd.Resp → Prop} (hallowed : s.allowed D cmd)
    (h : ∀ r, s.answers D cmd r → s.next cmd r = s ∧ ∀ a, r = .ok a → Φ a)
    : (partyProtocol D).Steady s (perform cmd) Φ := by
  unfold perform
  exact Protocol.steady_perform hallowed h

namespace RedisService

theorem wp_get {key : String} {Q : Except Err (Option Stored) → Party → Prop}
    (hkey : s.role.mayGet key)
    (hok : ∀ value, Party.gets key value → Q (.ok value) { s with role := s.role.got value })
    : (partyProtocol D).wp (RedisService.get key) Q s := by
  unfold RedisService.get
  rw [Prog.bind_def, wp_bind, wp_perform]
  refine ⟨hkey, fun r hr => ?_⟩
  cases r with
  | error e => cases hr
  | ok r =>
    cases r with
    | some value => exact hok value hr
    | none =>
      dsimp only
      rw [Prog.tryCatch_def, wp_tryCatch, wp_perform]
      refine ⟨hkey, fun r hr => ?_⟩
      cases r with
      | ok value => exact hok value hr
      | error e =>
        rw [wp_perform]
        refine ⟨hkey, fun r hr => ?_⟩
        cases r with
        | ok value => exact hok value hr
        | error e => cases hr

theorem steady_get {key : String} {Φ : Option Stored → Prop} (hkey : s.role.mayGet key)
    (h : ∀ value, Party.gets key value → s.role.got value = s.role ∧ Φ value)
    : (partyProtocol D).Steady s (RedisService.get key) Φ := by
  unfold RedisService.get
  rw [Prog.bind_def]
  apply Steady.bind (Φ := fun r => ∀ value, r = some value → Φ value)
  . apply steady_perform
    . exact hkey
    . intro r hr
      rcases r with e | _ | value
      . cases hr
      . exact ⟨rfl, by simp⟩
      . refine ⟨?_, by simp [(h value hr).right]⟩
        simp [Party.next, (h value hr).left]
  . intro r hr
    cases r with
    | some value => exact hr value rfl
    | none =>
      apply Steady.tryCatch
      . apply steady_perform
        . exact hkey
        . intro r hr
          rcases r with e | value
          . exact ⟨rfl, by simp⟩
          . refine ⟨?_, by simp [(h value hr).right]⟩
            simp [Party.next, (h value hr).left]
      . intro e
        apply steady_perform
        . exact hkey
        . intro r hr
          rcases r with e | value
          . cases hr
          . refine ⟨?_, by simp [(h value hr).right]⟩
            simp [Party.next, (h value hr).left]

theorem steady_set {key : String} {value : Stored} {mode : Option SetMode}
    {durationMode : Option DurationMode} {duration : Option Nat}
    (h : s.role.mayWrite key value)
    : (partyProtocol D).Steady s (RedisService.set key value mode durationMode duration)
        (fun _ => True) := by
  unfold RedisService.set
  rw [Prog.bind_def]
  apply Steady.bind (Φ := fun _ => True)
  . apply steady_perform
    . exact h
    . intro r hr
      exact ⟨rfl, by simp⟩
  . intro r hr
    split
    . trivial
    . apply Steady.tryCatch
      . split
        all_goals
          apply steady_perform
          . exact h
          . intro r hr
            exact ⟨rfl, by simp⟩
      . intro e
        apply steady_perform
        . exact h
        . intro r hr
          exact ⟨rfl, by simp⟩

theorem steady_del {key : String}
    : (partyProtocol D).Steady s (RedisService.del key) (fun _ => True) := by
  unfold RedisService.del
  rw [Prog.bind_def]
  apply Steady.bind (Φ := fun _ => True)
  . apply steady_perform
    . exact trivial
    . intro r hr
      exact ⟨rfl, by simp⟩
  . intro r hr
    split
    . trivial
    . apply Steady.tryCatch
      . apply steady_perform
        . exact trivial
        . intro r hr
          exact ⟨rfl, by simp⟩
      . intro e
        apply steady_perform
        . exact trivial
        . intro r hr
          exact ⟨rfl, by simp⟩

theorem steady_lpush {queue item : String}
    : (partyProtocol D).Steady s (RedisService.lpush queue item) (fun _ => True) := by
  unfold RedisService.lpush
  rw [Prog.bind_def]
  apply Steady.bind (Φ := fun _ => True)
  . apply steady_perform
    . exact trivial
    . intro r hr
      exact ⟨rfl, by simp⟩
  . intro r hr
    split
    . trivial
    . apply steady_perform
      . exact trivial
      . intro r hr
        exact ⟨rfl, by simp⟩

theorem steady_brpop {queue : String}
    : (partyProtocol D).Steady s (RedisService.brpop queue) (fun _ => True) := by
  unfold RedisService.brpop
  rw [Prog.bind_def]
  apply Steady.bind (Φ := fun _ => True)
  . apply steady_perform
    . exact trivial
    . intro r hr
      exact ⟨rfl, by simp⟩
  . intro r hr
    split
    . trivial
    . apply steady_perform
      . exact trivial
      . intro r hr
        exact ⟨rfl, by simp⟩

end RedisService

namespace RoutingEngine

theorem circuitKey_ne_redisKey (gateway : GatewayProvider) (key : String)
    : circuitKey gateway ≠ TransactionsService.redisKey key := by
  intro h
  have := congrArg String.toList h
  cases gateway <;> simp [circuitKey, TransactionsService.redisKey, toString] at this

theorem mayGet_circuitKey {gateway : GatewayProvider} {role : Role}
    : role.mayGet (circuitKey gateway) := by
  unfold Role.mayGet
  split
  . intro k h
    exact absurd h (circuitKey_ne_redisKey _ _)
  . trivial

theorem got_of_circuitKey {gateway : GatewayProvider} {value : Option Stored} {role : Role}
    (h : Party.gets (circuitKey gateway) value) : role.got value = role := by
  unfold Role.got
  split
  . next dto transaction =>
    exact absurd (h transaction rfl) (circuitKey_ne_redisKey _ _)
  . rfl

theorem steady_saveStats {stats : GatewayStats}
    : (partyProtocol D).Steady s (perform (.saveStats stats)) (fun _ => True) := by
  apply steady_perform
  . exact trivial
  . intro r hr
    exact ⟨rfl, by simp⟩

theorem steady_findStatsOf {gateway : GatewayProvider}
    : (partyProtocol D).Steady s (perform (.findStatsOf gateway)) (fun _ => True) := by
  apply steady_perform
  . exact trivial
  . intro r hr
    exact ⟨rfl, by simp⟩

theorem steady_recordSuccess {gateway : GatewayProvider} {latencyMs : Nat}
    : (partyProtocol D).Steady s (recordSuccess gateway latencyMs) (fun _ => True) := by
  unfold recordSuccess
  rw [Prog.bind_def]
  apply steady_findStatsOf.bind
  intro r hr
  split
  . trivial
  . dsimp only
    split
    . exact RedisService.steady_del.bind (fun _ _ => steady_saveStats)
    . exact steady_saveStats

theorem steady_recordFailure {gateway : GatewayProvider} {latencyMs : Nat}
    : (partyProtocol D).Steady s (recordFailure gateway latencyMs) (fun _ => True) := by
  unfold recordFailure
  rw [Prog.bind_def]
  apply steady_findStatsOf.bind
  intro r hr
  split
  . trivial
  . dsimp only
    split
    . apply Steady.bind
      . apply RedisService.steady_set
        exact trivial
      . exact fun _ _ => steady_saveStats
    . exact steady_saveStats

theorem steady_checkCooldown {stats : GatewayStats}
    : (partyProtocol D).Steady s (checkCooldown stats)
        (fun stats' => stats'.gateway = stats.gateway) := by
  unfold checkCooldown
  split
  . rw [Prog.bind_def]
    apply Steady.bind (Φ := fun _ => True)
    . apply RedisService.steady_get mayGet_circuitKey
      intro value hvalue
      exact ⟨got_of_circuitKey hvalue, trivial⟩
    . intro isTripped _
      split
      . exact steady_saveStats.bind (fun _ _ => rfl)
      . rfl
  . rfl

theorem steady_candidate {amount : Nat} {stats : GatewayStats}
    : (partyProtocol D).Steady s (candidate D amount stats)
        (fun c => c.provider = stats.gateway) := by
  unfold candidate
  rw [Prog.bind_def]
  apply steady_checkCooldown.bind
  intro stats' hstats'
  exact hstats'

theorem rank_perm (cs : List Candidate)
    : ∃ ds : List Candidate, ds.Sublist cs ∧ (rank cs).Perm (ds.map (·.provider)) := by
  unfold rank
  dsimp only
  split
  . refine ⟨cs, .refl _, ?_⟩
    apply List.Perm.map
    apply List.perm_insertionSort
  . refine ⟨cs.filter (fun c => 0 ≤ c.score), List.filter_sublist, ?_⟩
    apply List.Perm.map
    apply List.perm_insertionSort

theorem rank_nodup {cs : List Candidate} (h : (cs.map (·.provider)).Nodup) : (rank cs).Nodup := by
  rcases rank_perm cs with ⟨ds, hsub, hperm⟩
  rw [hperm.nodup_iff]
  exact h.sublist (hsub.map _)

theorem rank_ne_nil {cs : List Candidate} (h : cs ≠ []) : rank cs ≠ [] := by
  unfold rank
  dsimp only
  split
  . rw [Ne, List.map_eq_nil_iff, ← List.length_eq_zero_iff, List.length_insertionSort,
      List.length_eq_zero_iff]
    exact h
  . next hsorted =>
    rw [Ne, List.map_eq_nil_iff]
    simpa using hsorted

theorem map_provider_eq {stats : List GatewayStats} {cs : List Candidate}
    (h : List.Forall₂ (fun stats c => c.provider = stats.gateway) stats cs)
    : cs.map (·.provider) = stats.map GatewayStats.gateway := by
  induction h with
  | nil => rfl
  | cons hhead _ ih => simp [hhead, ih]

/--
A ranking names no gateway twice, because there is one row of statistics for each.
-/
theorem steady_getRankedGateways {amount : Nat}
    : (partyProtocol D).Steady s (getRankedGateways D amount) List.Nodup := by
  unfold getRankedGateways
  rw [Prog.bind_def]
  apply Steady.bind (Φ := fun stats => (stats.map GatewayStats.gateway).Nodup)
  . apply steady_perform
    . exact trivial
    . intro r hr
      refine ⟨rfl, fun stats hstats => ?_⟩
      subst hstats
      exact hr
  . intro stats hstats
    rw [Prog.bind_def]
    apply Steady.bind (steady_all (fun _ _ => steady_candidate))
    intro cs hcs
    apply rank_nodup
    rw [map_provider_eq hcs]
    exact hstats.sublist (List.filter_sublist.map _)

end RoutingEngine

namespace StateMachine

/--
A transition ends with the row it has committed, or with an exception. An exception on the way to
the commit leaves the role as it was, the loss of the commit itself aborts it.
-/
theorem wp_transition {id : String} {toState : TransactionState} {metadata : TransitionMetadata}
    {Q : Except Err Transaction → Party → Prop} (htx : s.tx = .idle)
    (htarget : s.role.target = some id)
    (hpermit : ∀ row now, row.id = id → toState ∈ VALID_TRANSITIONS row.currentState →
      Permit D s.role ⟨row, toState, metadata, now⟩)
    (hok : ∀ row now, row.id = id → toState ∈ VALID_TRANSITIONS row.currentState →
      (∀ dto phase, s.role = .creating dto phase → row.idempotencyKey = dto.idempotencyKey) →
      Q (.ok (mutate row toState metadata now))
        ⟨s.role.advance (mutate row toState metadata now), .idle⟩)
    (herror : ∀ e role, (role = s.role ∨ role = s.role.abort) → Q (.error e) ⟨role, .idle⟩)
    : (partyProtocol D).wp (transition id toState metadata) Q s := by
  rcases s with ⟨role, tx⟩
  dsimp only at htx htarget hpermit hok herror
  subst htx
  have hrollback : ∀ (role' : Role) (tx : TxPhase) (e : Err), (role' = role ∨ role' = role.abort) →
      (partyProtocol D).wp ((perform .rollback).bind (fun _ => .throw e)) Q ⟨role', tx⟩ := by
    intro role' tx e hrole'
    rw [wp_bind, wp_perform]
    refine ⟨trivial, fun r hr => ?_⟩
    cases r with
    | error e => cases hr
    | ok _ => exact herror _ _ hrole'
  unfold transition inTransaction
  rw [Prog.tryCatch_def, wp_tryCatch, Prog.bind_def, wp_bind, wp_perform]
  refine ⟨rfl, fun r _ => ?_⟩
  cases r with
  | error e => exact hrollback _ _ _ (.inl rfl)
  | ok _ =>
    dsimp only
    rw [Prog.bind_def, wp_bind, Prog.bind_def, wp_bind, wp_perform]
    refine ⟨⟨rfl, htarget⟩, fun r hr => ?_⟩
    rcases r with e | _ | row
    . exact hrollback _ _ _ (.inl rfl)
    . exact hrollback _ _ _ (.inl rfl)
    . dsimp only
      split
      . exact hrollback _ _ _ (.inl rfl)
      . next hvalid =>
        rw [Decidable.not_not] at hvalid
        rcases hr with ⟨hid, hkey⟩
        rw [Prog.bind_def, wp_bind, wp_perform]
        refine ⟨trivial, fun r hr => ?_⟩
        rcases r with e | now
        . cases hr
        . dsimp only
          have hstep := hpermit row now hid hvalid
          rw [Prog.bind_def, wp_bind, wp_perform]
          refine ⟨⟨_, rfl, hstep, rfl⟩, fun r _ => ?_⟩
          rcases r with e | _
          . exact hrollback _ _ _ (.inl rfl)
          . dsimp only
            rw [Prog.bind_def, wp_bind, wp_perform]
            refine ⟨⟨_, rfl, hstep, rfl⟩, fun r _ => ?_⟩
            rcases r with e | _
            . exact hrollback _ _ _ (.inl rfl)
            . dsimp only
              rw [Prog.pure_def, wp_pure]
              dsimp only
              rw [Prog.bind_def, wp_bind, wp_perform]
              refine ⟨⟨_, _, _, rfl⟩, fun r _ => ?_⟩
              rcases r with e | _
              . exact hrollback _ _ _ (.inr rfl)
              . exact hok row now hid hvalid hkey

end StateMachine

end PaymentOrchestration
