import PaymentOrchestration.Concurrency.Alone
import PaymentOrchestration.Gateways.RoutingEngine

/-!
This module is about single calls of `RoutingEngineService` that nobody interferes with, while every
statement succeeds: the effect of such a call is a function of the world it starts in.
-/

namespace PaymentOrchestration

inductive BreakerCall where
  | recordSuccess (gateway : GatewayProvider) (latencyMs : Nat)
  | recordFailure (gateway : GatewayProvider) (latencyMs : Nat)
  | getRankedGateways (amount : Nat)
  deriving DecidableEq

-- What a call of `recordSuccess` or `recordFailure` answers is an empty ranking here.
def BreakerCall.program (D : Deployment) (call : BreakerCall) : Program (List GatewayProvider) :=
  match call with
  | .recordSuccess gateway latencyMs => do
    RoutingEngine.recordSuccess gateway latencyMs
    return []
  | .recordFailure gateway latencyMs => do
    RoutingEngine.recordFailure gateway latencyMs
    return []
  | .getRankedGateways amount => RoutingEngine.getRankedGateways D amount

-- The call records an outcome of this gateway.
def BreakerCall.records (g : GatewayProvider) (call : BreakerCall) : Bool :=
  match call with
  | .recordSuccess gateway _ => gateway = g
  | .recordFailure gateway _ => gateway = g
  | .getRankedGateways _ => false

namespace World

def statsOf (w : World) (gateway : GatewayProvider) : Option GatewayStats :=
  w.gatewayStats.find? (·.gateway = gateway)

def mapStats (f : GatewayStats → GatewayStats) (w : World) : World :=
  { w with gatewayStats := w.gatewayStats.map f }

def setKey (key : String) (entry : Option Entry) (w : World) : World :=
  { w with redis := { w.redis with entries := Function.update w.redis.entries key entry } }

@[simp]
theorem mapStats_redis (f : GatewayStats → GatewayStats) (w : World)
    : (w.mapStats f).redis = w.redis := by
  rfl

@[simp]
theorem mapStats_clock (f : GatewayStats → GatewayStats) (w : World)
    : (w.mapStats f).clock = w.clock := by
  rfl

@[simp]
theorem mapStats_mem (f : GatewayStats → GatewayStats) (w : World)
    : (w.mapStats f).mem = w.mem := by
  rfl

@[simp]
theorem mapStats_gatewayStats (f : GatewayStats → GatewayStats) (w : World)
    : (w.mapStats f).gatewayStats = w.gatewayStats.map f := by
  rfl

@[simp]
theorem setKey_gatewayStats (key : String) (entry : Option Entry) (w : World)
    : (w.setKey key entry).gatewayStats = w.gatewayStats := by
  rfl

@[simp]
theorem setKey_clock (key : String) (entry : Option Entry) (w : World)
    : (w.setKey key entry).clock = w.clock := by
  rfl

@[simp]
theorem setKey_mem (key : String) (entry : Option Entry) (w : World)
    : (w.setKey key entry).mem = w.mem := by
  rfl

theorem mapStats_id (w : World) : w.mapStats (fun row => row) = w := by
  simp [mapStats]

end World

namespace RoutingEngine

/-!
What the calls do to one row of `gateway_stats`.
-/

def succeeded (latencyMs : Nat) (row : GatewayStats) : GatewayStats :=
  { row with
    successCount := row.successCount + 1
    consecutiveFailures := 0
    avgLatencyMs := smooth row.avgLatencyMs latencyMs
    circuitState := .CLOSED }

def trips (row : GatewayStats) : Bool :=
  3 ≤ row.consecutiveFailures + 1 ∧ row.circuitState ≠ .OPEN

def failed (latencyMs : Nat) (row : GatewayStats) : GatewayStats :=
  { row with
    failureCount := row.failureCount + 1
    consecutiveFailures := row.consecutiveFailures + 1
    avgLatencyMs := if latencyMs > 0 then smooth row.avgLatencyMs latencyMs else row.avgLatencyMs
    circuitState := if trips row then .OPEN else row.circuitState }

def promoted (row : GatewayStats) : GatewayStats :=
  { row with circuitState := .HALF_OPEN, consecutiveFailures := 0 }

-- `getRankedGateways` takes this gateway into account.
def considered (D : Deployment) (gateway : GatewayProvider) : Bool :=
  D.env "NODE_ENV" = some "test" || isGatewayConfigured D gateway

def cooledDown (D : Deployment) (w : World) (row : GatewayStats) : Bool :=
  considered D row.gateway ∧ row.circuitState = .OPEN ∧
    Stored.missing (w.redis.lookup w.clock (circuitKey row.gateway))

def refreshed (D : Deployment) (w : World) (row : GatewayStats) : GatewayStats :=
  if cooledDown D w row then promoted row else row

def scored (D : Deployment) (amount : Nat) (row : GatewayStats) : Candidate where
  provider := row.gateway
  score := if row.circuitState = .OPEN then -1 else D.score row row.circuitState amount
  stats := row

-- The entry that `recordFailure` leaves in Redis when the circuit trips.
def openEntry (now : Nat) : Entry where
  value := .raw "open"
  expireAt := some (now + 30000)

theorem cooledDown_eq_true {D : Deployment} {w : World} {row : GatewayStats}
    : cooledDown D w row = true ↔
        considered D row.gateway ∧ row.circuitState = .OPEN ∧
          Stored.missing (w.redis.lookup w.clock (circuitKey row.gateway)) := by
  unfold cooledDown
  rw [decide_eq_true_eq]

theorem circuitKey_inj {g g' : GatewayProvider} (h : circuitKey g = circuitKey g') : g = g' := by
  cases g <;> cases g' <;> first | rfl | exact absurd h (by decide)

theorem refreshed_gateway (D : Deployment) (w : World) (row : GatewayStats)
    : (refreshed D w row).gateway = row.gateway := by
  unfold refreshed
  split <;> rfl

-- A row that has been promoted is not OPEN any more.
theorem refreshed_refreshed (D : Deployment) (w : World) (row : GatewayStats)
    : refreshed D w (refreshed D w row) = refreshed D w row := by
  by_cases h : cooledDown D w row
  . rw [show refreshed D w row = promoted row from if_pos h]
    apply if_neg
    simp [cooledDown, promoted]
  . rw [show refreshed D w row = row from if_neg h]
    exact if_neg h

end RoutingEngine

open RoutingEngine

namespace BreakerCall

/--
The world a call leaves behind that has it for itself.
-/
def effect (D : Deployment) (call : BreakerCall) (w : World) : World :=
  match call with
  | .recordSuccess gateway latencyMs =>
    match w.statsOf gateway with
    | none => w
    | some row =>
      let w' := if row.circuitState = .CLOSED then w else w.setKey (circuitKey gateway) none
      w'.mapStats (fun old => if old.gateway = gateway then succeeded latencyMs row else old)
  | .recordFailure gateway latencyMs =>
    match w.statsOf gateway with
    | none => w
    | some row =>
      let w' := if trips row then w.setKey (circuitKey gateway) (some (openEntry w.clock)) else w
      w'.mapStats (fun old => if old.gateway = gateway then failed latencyMs row else old)
  | .getRankedGateways _ =>
    w.mapStats (refreshed D w)

theorem effect_recordSuccess {D : Deployment} {gateway : GatewayProvider} {latencyMs : Nat}
    {w : World} {row : GatewayStats} (h : w.statsOf gateway = some row)
    : (recordSuccess gateway latencyMs).effect D w =
        (if row.circuitState = .CLOSED then w else w.setKey (circuitKey gateway) none).mapStats
          (fun old => if old.gateway = gateway then succeeded latencyMs row else old) := by
  simp [effect, h]

theorem effect_recordFailure {D : Deployment} {gateway : GatewayProvider} {latencyMs : Nat}
    {w : World} {row : GatewayStats} (h : w.statsOf gateway = some row)
    : (recordFailure gateway latencyMs).effect D w =
        (if trips row then w.setKey (circuitKey gateway) (some (openEntry w.clock))
          else w).mapStats
          (fun old => if old.gateway = gateway then failed latencyMs row else old) := by
  simp [effect, h]

def ranking (D : Deployment) (call : BreakerCall) (w : World) : List GatewayProvider :=
  match call with
  | .getRankedGateways amount =>
    let rows := w.gatewayStats.filter (fun row => considered D row.gateway)
    rank (rows.map (fun row => scored D amount (refreshed D w row)))
  | _ => []

end BreakerCall

/-!
The calls have these effects.
-/

variable {D : Deployment} {i : Pid} {o : Oracle} {w : World}

def Healthy (o : Oracle) : Prop :=
  o.fault = .none

theorem exec_mock_of_connected {op : MockOp} (hmem : (w.mem i.inst).isMockMode = false)
    : exec D i (.mock op) o w = some (.ok none, w) := by
  simp [exec, Exec.mock, hmem]

theorem exec_client_of_healthy {op : ClientOp} (ho : Healthy o)
    : exec D i (.client op) o w =
        some (.ok (op.run w.clock w.redis).1,
          { w with redis := (op.run w.clock w.redis).2 }) := by
  simp [exec, Exec.client, Exec.statement, show o.fault = .none from ho]

theorem exec_findStats_of_healthy (ho : Healthy o)
    : exec D i .findStats o w = some (.ok w.gatewayStats, w) := by
  simp [exec, Exec.query, show o.fault = .none from ho]

theorem exec_findStatsOf_of_healthy {gateway : GatewayProvider} (ho : Healthy o)
    : exec D i (.findStatsOf gateway) o w = some (.ok (w.statsOf gateway), w) := by
  simp [exec, Exec.query, World.statsOf, show o.fault = .none from ho]

theorem exec_saveStats_of_healthy {stats : GatewayStats} (ho : Healthy o)
    : exec D i (.saveStats stats) o w =
        some (.ok (),
          w.mapStats (fun old => if old.gateway = stats.gateway then stats else old)) := by
  simp [exec, Exec.saveStats, Exec.statement, World.mapStats, show o.fault = .none from ho]

section Assures

variable {R G : World → World → Prop}

/--
A command that answers `x` and leads to `w'` whenever nothing goes wrong.
-/
theorem assures_perform {c : Cmd} {x : World → c.Resp} {n : World → World}
    {Φ : c.Resp → World → Prop}
    (hexec : ∀ o w₁, R w w₁ → Healthy o → exec D i c o w₁ = some (.ok (x w₁), n w₁))
    (h : ∀ w₁, R w w₁ → G w₁ (n w₁) ∧ Φ (x w₁) (n w₁))
    : ((machine D).setting i Healthy).Assures R G (perform c) Φ w := by
  apply Setting.Assures.perform
  intro w₁ hw₁
  refine ⟨⟨{}, _, _, rfl, hexec {} w₁ hw₁ rfl⟩, ?_⟩
  rintro r w₂ ⟨o, ho, hr⟩
  have heq := (hexec o w₁ hw₁ ho).symm.trans hr
  rw [Option.some.injEq, Prod.mk.injEq] at heq
  rcases heq with ⟨hx, hw₂⟩
  subst hw₂
  exact ⟨(h w₁ hw₁).left, x w₁, hx.symm, (h w₁ hw₁).right⟩

/--
Redis answers with the value under the key, if nobody changes Redis meanwhile.
-/
theorem RedisService.assures_get {key : String} {Φ : Option Stored → World → Prop}
    (hR : ∀ w w', R w w' → w'.mem = w.mem ∧ w'.clock = w.clock ∧ w'.redis = w.redis)
    (htrans : ∀ w₁ w₂ w₃, R w₁ w₂ → R w₂ w₃ → R w₁ w₃) (hG : ∀ w, G w w)
    (hmem : (w.mem i.inst).isMockMode = false)
    (hΦ : ∀ w', R w w' → Φ (w.redis.lookup w.clock key) w')
    : ((machine D).setting i Healthy).Assures R G (RedisService.get key) Φ w := by
  unfold RedisService.get
  apply Setting.Assures.bind (Φ := fun r w₁ => r = none ∧ R w w₁)
  . apply assures_perform (x := fun _ => none) (n := id)
    . intro o w₁ hw₁ _
      apply exec_mock_of_connected
      rw [(hR w w₁ hw₁).left]
      exact hmem
    . intro w₁ hw₁
      exact ⟨hG w₁, rfl, hw₁⟩
  . rintro r w₁ ⟨hr, hw₁⟩
    subst hr
    apply Setting.Assures.tryCatch
    apply assures_perform (x := fun w => w.redis.lookup w.clock key) (n := id)
    . intro o w₂ _ ho
      exact exec_client_of_healthy ho
    . intro w₂ hw₂
      have hw := htrans w w₁ w₂ hw₁ hw₂
      rcases hR w w₂ hw with ⟨_, hclock, hredis⟩
      rw [hclock, hredis]
      exact ⟨hG w₂, hΦ w₂ hw⟩

end Assures

def Alone (D : Deployment) (i : Pid) {α : Type} (p : Program α) (Φ : α → World → Prop) (w : World)
    : Prop :=
  ((machine D).setting i Healthy).Assures Eq (fun _ _ => True) p Φ w

theorem RedisService.alone_del {key : String} {Φ : Nat → World → Prop}
    (hmem : (w.mem i.inst).isMockMode = false) (hΦ : ∀ n, Φ n (w.setKey key none))
    : Alone D i (RedisService.del key) Φ w := by
  unfold RedisService.del
  apply Setting.Assures.bind (Φ := fun r w₁ => r = none ∧ w₁ = w)
  . apply assures_perform (x := fun _ => none) (n := id)
    . intro o w₁ hw₁ _
      subst hw₁
      exact exec_mock_of_connected hmem
    . intro w₁ hw₁
      exact ⟨trivial, rfl, hw₁.symm⟩
  . rintro r w₁ ⟨hr, hw₁⟩
    subst hr hw₁
    apply Setting.Assures.tryCatch
    apply assures_perform (c := .client (.del key))
      (n := fun w => w.setKey key none)
    . intro o w₂ _ ho
      exact exec_client_of_healthy ho
    . intro w₂ hw₂
      subst hw₂
      exact ⟨trivial, hΦ _⟩

theorem RedisService.alone_set {key : String} {Φ : Bool → World → Prop}
    (hmem : (w.mem i.inst).isMockMode = false)
    (hΦ : ∀ ok, Φ ok (w.setKey key (some (openEntry w.clock))))
    : Alone D i (RedisService.set key (.raw "open") none (some .EX) (some 30)) Φ w := by
  unfold RedisService.set
  apply Setting.Assures.bind (Φ := fun r w₁ => r = none ∧ w₁ = w)
  . apply assures_perform (x := fun _ => none) (n := id)
    . intro o w₁ hw₁ _
      subst hw₁
      exact exec_mock_of_connected hmem
    . intro w₁ hw₁
      exact ⟨trivial, rfl, hw₁.symm⟩
  . rintro r w₁ ⟨hr, hw₁⟩
    subst hr hw₁
    apply Setting.Assures.tryCatch
    apply assures_perform (c := .client (.set key (.raw "open") (some (.EX, 30)) none))
      (x := fun _ => true) (n := fun w => w.setKey key (some (openEntry w.clock)))
    . intro o w₂ _ ho
      rw [exec_client_of_healthy ho]
      simp [ClientOp.run, World.setKey, openEntry, DurationMode.millis]
    . intro w₂ hw₂
      subst hw₂
      exact ⟨trivial, hΦ _⟩

theorem alone_saveStats {stats : GatewayStats} {Φ : Unit → World → Prop}
    (hΦ : Φ () (w.mapStats (fun old => if old.gateway = stats.gateway then stats else old)))
    : Alone D i (perform (.saveStats stats)) Φ w := by
  apply assures_perform (x := fun _ => ()) (n := World.mapStats _)
  . intro o w₁ _ ho
    exact exec_saveStats_of_healthy ho
  . intro w₁ hw₁
    subst hw₁
    exact ⟨trivial, hΦ⟩

theorem World.gateway_of_statsOf {gateway : GatewayProvider} {row : GatewayStats}
    (h : w.statsOf gateway = some row) : row.gateway = gateway := by
  simpa using List.find?_some h

/--
A call reads the row of its gateway first.
-/
theorem alone_findStatsOf {gateway : GatewayProvider} {α : Type}
    {k : Option GatewayStats → Program α} {Φ : α → World → Prop}
    (h : Alone D i (k (w.statsOf gateway)) Φ w)
    : Alone D i ((perform (.findStatsOf gateway)).bind k) Φ w := by
  apply Setting.Assures.bind (Φ := fun r w₁ => r = w.statsOf gateway ∧ w₁ = w)
  . apply assures_perform (x := fun w => w.statsOf gateway) (n := id)
    . intro o w₁ _ ho
      exact exec_findStatsOf_of_healthy ho
    . intro w₁ hw₁
      subst hw₁
      exact ⟨trivial, rfl, rfl⟩
  . rintro r w₁ ⟨hr, hw₁⟩
    subst hr hw₁
    exact h

theorem alone_recordSuccess {gateway : GatewayProvider} {latencyMs : Nat}
    (hmem : (w.mem i.inst).isMockMode = false)
    : Alone D i (recordSuccess gateway latencyMs)
        (fun _ w' => w' = (BreakerCall.recordSuccess gateway latencyMs).effect D w) w := by
  apply alone_findStatsOf
  cases hrow : w.statsOf gateway with
  | none => simp [Alone, Setting.Assures, BreakerCall.effect, hrow]
  | some row =>
    have hgateway := World.gateway_of_statsOf hrow
    rw [BreakerCall.effect_recordSuccess hrow]
    dsimp only
    split
    . next hstate =>
      apply Setting.Assures.bind (RedisService.alone_del
        (Φ := fun _ w' => w' = w.setKey (circuitKey gateway) none) hmem (fun _ => rfl))
      intro _ w' hw'
      subst hw'
      apply alone_saveStats
      simp only [hgateway, succeeded]
    . next hstate =>
      rw [Decidable.not_not] at hstate
      rw [if_pos hstate]
      apply alone_saveStats
      simp only [hgateway, succeeded, ← hstate]

theorem alone_recordFailure {gateway : GatewayProvider} {latencyMs : Nat}
    (hmem : (w.mem i.inst).isMockMode = false)
    : Alone D i (recordFailure gateway latencyMs)
        (fun _ w' => w' = (BreakerCall.recordFailure gateway latencyMs).effect D w) w := by
  apply alone_findStatsOf
  cases hrow : w.statsOf gateway with
  | none => simp [Alone, Setting.Assures, BreakerCall.effect, hrow]
  | some row =>
    have hgateway := World.gateway_of_statsOf hrow
    rw [BreakerCall.effect_recordFailure hrow]
    dsimp only
    split
    . next htrips =>
      have htrips : trips row = true := by simpa [trips] using htrips
      rw [if_pos htrips]
      apply Setting.Assures.bind (RedisService.alone_set
        (Φ := fun _ w' => w' = w.setKey (circuitKey gateway) (some (openEntry w.clock))) hmem
        (fun _ => rfl))
      intro _ w' hw'
      subst hw'
      apply alone_saveStats
      simp only [hgateway, failed, if_pos htrips]
    . next htrips =>
      have htrips : ¬trips row = true := by simpa [trips] using htrips
      rw [if_neg htrips]
      apply alone_saveStats
      simp only [hgateway, failed, if_neg htrips]

/-!
The promises of `getRankedGateways` run at the same time. Between them they only ever promote rows
that have cooled down.
-/

def UniqueStats (w : World) : Prop :=
  (w.gatewayStats.map (·.gateway)).Nodup

theorem UniqueStats.eq (hunique : UniqueStats w) {row row' : GatewayStats}
    (hrow : row ∈ w.gatewayStats) (hrow' : row' ∈ w.gatewayStats)
    (hgateway : row.gateway = row'.gateway) : row = row' := by
  exact List.inj_on_of_nodup_map hunique hrow hrow' hgateway

theorem UniqueStats.mapStats (hunique : UniqueStats w) {f : GatewayStats → GatewayStats}
    (hf : ∀ row ∈ w.gatewayStats, (f row).gateway = row.gateway) : UniqueStats (w.mapStats f) := by
  unfold UniqueStats
  rw [World.mapStats_gatewayStats, List.map_map]
  rw [List.map_congr_left (g := (·.gateway)) hf]
  exact hunique

/--
Some of the rows that have cooled down were promoted.
-/
def Promotes (D : Deployment) (w w' : World) : Prop :=
  ∃ f : GatewayStats → GatewayStats,
    (∀ row ∈ w.gatewayStats, f row = row ∨ f row = refreshed D w row) ∧ w' = w.mapStats f

namespace Promotes

theorem refl (D : Deployment) (w : World) : Promotes D w w := by
  exact ⟨fun row => row, fun _ _ => .inl rfl, w.mapStats_id.symm⟩

theorem frame {w w' : World} (h : Promotes D w w')
    : w'.mem = w.mem ∧ w'.clock = w.clock ∧ w'.redis = w.redis := by
  rcases h with ⟨f, _, hw'⟩
  subst hw'
  exact ⟨rfl, rfl, rfl⟩

theorem refreshed_eq {w w' : World} (h : Promotes D w w') (row : GatewayStats)
    : refreshed D w' row = refreshed D w row := by
  rcases h.frame with ⟨_, hclock, hredis⟩
  simp [refreshed, cooledDown, hclock, hredis]

theorem trans {w₁ w₂ w₃ : World} (h : Promotes D w₁ w₂) (h' : Promotes D w₂ w₃) : Promotes D w₁ w₃ := by
  have hrefreshed := h.refreshed_eq
  rcases h with ⟨f, hf, hw₂⟩
  rcases h' with ⟨f', hf', hw₃⟩
  refine ⟨fun row => f' (f row), fun row hrow => ?_, ?_⟩
  . have hmem : f row ∈ w₂.gatewayStats := by
      rw [hw₂]
      exact List.mem_map_of_mem hrow
    dsimp only
    rcases hf' (f row) hmem with heq' | heq'
    . rw [heq']
      exact hf row hrow
    . right
      rw [heq', hrefreshed]
      rcases hf row hrow with heq | heq
      . rw [heq]
      . rw [heq, refreshed_refreshed]
  . rw [hw₃, hw₂]
    simp [World.mapStats, List.map_map, Function.comp_def]

theorem unique {w w' : World} (h : Promotes D w w') (hunique : UniqueStats w) : UniqueStats w' := by
  rcases h with ⟨f, hf, hw'⟩
  subst hw'
  apply hunique.mapStats
  intro row hrow
  rcases hf row hrow with heq | heq
  . rw [heq]
  . rw [heq, refreshed_gateway]

-- A row is found again as it was or promoted.
theorem mem {w w' : World} (h : Promotes D w w') {row : GatewayStats} (hrow : row ∈ w.gatewayStats)
    : row ∈ w'.gatewayStats ∨ refreshed D w row ∈ w'.gatewayStats := by
  rcases h with ⟨f, hf, hw'⟩
  subst hw'
  rcases hf row hrow with heq | heq
  . left
    rw [World.mapStats_gatewayStats, List.mem_map]
    exact ⟨row, hrow, heq⟩
  . right
    rw [World.mapStats_gatewayStats, List.mem_map]
    exact ⟨row, hrow, heq⟩

theorem refreshed_mem {w w' : World} (h : Promotes D w w') {row : GatewayStats}
    (hrow : refreshed D w row ∈ w.gatewayStats) : refreshed D w row ∈ w'.gatewayStats := by
  rcases h.mem hrow with hmem | hmem
  . exact hmem
  . rw [refreshed_refreshed] at hmem
    exact hmem

/--
Saving the promoted row is such a change.
-/
theorem save {w w' : World} (h : Promotes D w w') (hunique : UniqueStats w) {row : GatewayStats}
    (hrow : row ∈ w.gatewayStats)
    : Promotes D w' (w'.mapStats
        (fun old => if old.gateway = row.gateway then refreshed D w row else old)) := by
  refine ⟨_, fun old hold => ?_, rfl⟩
  split
  . next hgateway =>
    right
    rw [h.refreshed_eq]
    rcases h.mem hrow with hmem | hmem
    . rw [(h.unique hunique).eq hold hmem hgateway]
    . rw [← refreshed_gateway D w row] at hgateway
      rw [(h.unique hunique).eq hold hmem hgateway, refreshed_refreshed]
  . exact .inl rfl

theorem saved_mem {w w' : World} (h : Promotes D w w') {row : GatewayStats}
    (hrow : row ∈ w.gatewayStats)
    : refreshed D w row ∈ (w'.mapStats
        (fun old => if old.gateway = row.gateway then refreshed D w row else old)).gatewayStats := by
  rw [World.mapStats_gatewayStats, List.mem_map]
  rcases h.mem hrow with hmem | hmem
  . exact ⟨row, hmem, if_pos rfl⟩
  . exact ⟨refreshed D w row, hmem, if_pos (refreshed_gateway D w row)⟩

end Promotes

-- The row in the table is the one a ranking takes it for.
def Refreshed (D : Deployment) (w : World) (row : GatewayStats) (w' : World) : Prop :=
  Promotes D w w' ∧ refreshed D w row ∈ w'.gatewayStats

theorem Refreshed.later {w₁ w₂ : World} {row : GatewayStats} (h : Refreshed D w row w₁)
    (hw : Promotes D w₁ w₂) : Refreshed D w row w₂ := by
  refine ⟨h.left.trans hw, ?_⟩
  rw [← h.left.refreshed_eq]
  apply hw.refreshed_mem
  rw [h.left.refreshed_eq]
  exact h.right

/--
Once all rows that count have been looked at, all that have cooled down are promoted.
-/
theorem Promotes.eq_mapStats {w w' : World} (h : Promotes D w w') (hunique : UniqueStats w)
    (hrefreshed : ∀ row ∈ w.gatewayStats, considered D row.gateway →
      refreshed D w row ∈ w'.gatewayStats) : w' = w.mapStats (refreshed D w) := by
  rcases h with ⟨f, hf, hw'⟩
  subst hw'
  unfold World.mapStats
  congr 1
  apply List.map_congr_left
  intro row hrow
  rcases hf row hrow with heq | heq
  . by_cases hconsidered : considered D row.gateway
    . have hmem := hrefreshed row hrow hconsidered
      rw [World.mapStats_gatewayStats, List.mem_map] at hmem
      rcases hmem with ⟨row', hrow', heq'⟩
      have hgateway : row'.gateway = row.gateway := by
        rw [← refreshed_gateway D w row, ← heq']
        rcases hf row' hrow' with h | h
        . rw [h]
        . rw [h, refreshed_gateway]
      rw [← hunique.eq hrow' hrow hgateway, heq', hunique.eq hrow' hrow hgateway]
    . rw [heq]
      symm
      apply if_neg
      rw [cooledDown_eq_true]
      rintro ⟨hconsidered', _⟩
      exact hconsidered hconsidered'
  . exact heq

theorem eq_map_of_forall₂ {α β : Type} {f : α → β} {P : α → Prop} {l : List α} {l' : List β}
    (h : List.Forall₂ (fun a b => b = f a ∧ P a) l l') : l' = l.map f ∧ ∀ a ∈ l, P a := by
  induction h with
  | nil => simp
  | cons hab _ ih =>
    rw [List.map_cons, List.forall_mem_cons]
    exact ⟨by rw [hab.left, ih.left], hab.right, ih.right⟩

theorem assures_checkCooldown (hmem : (w.mem i.inst).isMockMode = false) (hunique : UniqueStats w)
    {row : GatewayStats} (hrow : row ∈ w.gatewayStats) (hconsidered : considered D row.gateway)
    : ((machine D).setting i Healthy).Assures (Promotes D) (Promotes D) (checkCooldown row)
        (fun row' w' => row' = refreshed D w row ∧ Refreshed D w row w') w := by
  unfold checkCooldown
  split
  . next hopen =>
    apply Setting.Assures.bind
      (Φ := fun r w₁ => r = w.redis.lookup w.clock (circuitKey row.gateway) ∧ Promotes D w w₁)
    . apply RedisService.assures_get (fun _ _ h => h.frame) (fun _ _ _ h h' => h.trans h')
        (Promotes.refl D) hmem
      intro w' hw'
      exact ⟨rfl, hw'⟩
    . rintro r w₁ ⟨hr, hw₁⟩
      subst hr
      split
      . next hnone =>
        have hrefreshed : refreshed D w row = promoted row := by
          apply if_pos
          rw [cooledDown_eq_true]
          exact ⟨hconsidered, hopen, hnone⟩
        apply Setting.Assures.bind (Φ := fun _ w' => Refreshed D w row w')
        . apply assures_perform (c := .saveStats (promoted row)) (x := fun _ => ())
            (n := World.mapStats _)
          . intro o w₂ _ ho
            exact exec_saveStats_of_healthy ho
          . intro w₂ hw₂
            have hw := hw₁.trans hw₂
            have hsave := hw.save hunique hrow
            have hsaved := hw.saved_mem hrow
            rw [hrefreshed] at hsave hsaved
            refine ⟨hsave, hw.trans hsave, ?_⟩
            rw [hrefreshed]
            exact hsaved
        . intro _ w' hw'
          exact ⟨hrefreshed.symm, hw'⟩
      . next hsome =>
        have hrefreshed : refreshed D w row = row := by
          apply if_neg
          rw [cooledDown_eq_true]
          rintro ⟨_, _, hnone⟩
          exact hsome hnone
        refine ⟨hrefreshed.symm, hw₁, ?_⟩
        rcases hw₁.mem hrow with hmem | hmem
        . rw [hrefreshed]
          exact hmem
        . exact hmem
  . next hopen =>
    have hrefreshed : refreshed D w row = row := by
      apply if_neg
      rw [cooledDown_eq_true]
      rintro ⟨_, hopen', _⟩
      exact hopen hopen'
    refine ⟨hrefreshed.symm, Promotes.refl D w, ?_⟩
    rw [hrefreshed]
    exact hrow

theorem assures_candidate (hmem : (w.mem i.inst).isMockMode = false) (hunique : UniqueStats w)
    {row : GatewayStats} (hrow : row ∈ w.gatewayStats) (hconsidered : considered D row.gateway)
    (amount : Nat)
    : ((machine D).setting i Healthy).Assures (Promotes D) (Promotes D) (candidate D amount row)
        (fun c w' => c = scored D amount (refreshed D w row) ∧ Refreshed D w row w') w := by
  apply Setting.Assures.bind (assures_checkCooldown hmem hunique hrow hconsidered)
  rintro row' w' ⟨hrow', hw'⟩
  subst hrow'
  exact ⟨rfl, hw'⟩

theorem alone_getRankedGateways {amount : Nat} (hmem : (w.mem i.inst).isMockMode = false)
    (hunique : UniqueStats w)
    : Alone D i (getRankedGateways D amount)
        (fun ranking w' =>
          ranking = (BreakerCall.getRankedGateways amount).ranking D w ∧
            w' = (BreakerCall.getRankedGateways amount).effect D w) w := by
  apply Setting.Assures.bind (Φ := fun r w₁ => r = w.gatewayStats ∧ w₁ = w)
  . apply assures_perform (x := World.gatewayStats) (n := id)
    . intro o w₁ _ ho
      exact exec_findStats_of_healthy ho
    . intro w₁ hw₁
      subst hw₁
      exact ⟨trivial, rfl, rfl⟩
  . rintro r w₁ ⟨hr, hw₁⟩
    subst hr hw₁
    have hcandidates : ∀ row ∈ w₁.gatewayStats.filter (fun row => considered D row.gateway),
        ((machine D).setting i Healthy).Assures (Promotes D) (Promotes D) (candidate D amount row)
          (fun c w' => c = scored D amount (refreshed D w₁ row) ∧ Refreshed D w₁ row w') w₁ := by
      intro row hrow
      rw [List.mem_filter] at hrow
      exact assures_candidate hmem hunique hrow.left hrow.right amount
    have hrows : (w₁.gatewayStats.filter (fun row => considered D row.gateway)).Pairwise
        (fun _ _ => ∀ w w', (Promotes D w w' → Promotes D w w') ∧
          (Promotes D w w' → Promotes D w w')) := by
      apply List.pairwise_of_forall
      intro _ _ _ _
      exact ⟨id, id⟩
    have hall : ((machine D).setting i Healthy).Assures Eq (Promotes D)
        (Prog.all ((w₁.gatewayStats.filter (fun row => considered D row.gateway)).map
          (candidate D amount)))
        (fun cs w' => List.Forall₂
          (fun row c => c = scored D amount (refreshed D w₁ row) ∧ Refreshed D w₁ row w')
          (w₁.gatewayStats.filter (fun row => considered D row.gateway)) cs) w₁ := by
      apply (Setting.Assures.all (fun _ => Promotes.refl D) (fun _ _ _ _ h h' => h.trans h')
        (fun row c w w' hw hc => ⟨hc.left, hc.right.later hw⟩) hrows hcandidates).mono
      . rintro w _ rfl _ _
        exact Promotes.refl D w
      . rintro w w' ⟨_, _, hw⟩
        exact hw
      . exact fun _ _ h => h
    have hchange := hall.change (Promotes.refl D) (fun _ _ _ h h' => h.trans h')
    apply Setting.Assures.bind (hchange.mono (fun _ _ h => h) (fun _ _ _ => trivial)
      (fun _ _ h => h))
    rintro candidates w' ⟨hcandidates, hpromotes⟩
    rcases eq_map_of_forall₂ hcandidates with ⟨heq, hrefreshed⟩
    refine ⟨?_, hpromotes.eq_mapStats hunique (fun row hrow hconsidered => ?_)⟩
    . rw [heq]
      rfl
    . apply (hrefreshed row _).right
      rw [List.mem_filter]
      exact ⟨hrow, hconsidered⟩

theorem BreakerCall.alone_program (call : BreakerCall) (hmem : (w.mem i.inst).isMockMode = false)
    (hunique : UniqueStats w)
    : Alone D i (call.program D)
        (fun ranking w' => ranking = call.ranking D w ∧ w' = call.effect D w) w := by
  cases call with
  | recordSuccess gateway latencyMs =>
    apply (alone_recordSuccess hmem).bind
    intro _ w' hw'
    exact ⟨rfl, hw'⟩
  | recordFailure gateway latencyMs =>
    apply (alone_recordFailure hmem).bind
    intro _ w' hw'
    exact ⟨rfl, hw'⟩
  | getRankedGateways amount => exact alone_getRankedGateways hmem hunique

namespace BreakerCall

/--
What the call makes of a row.
-/
def onRow (D : Deployment) (call : BreakerCall) (w : World) (row : GatewayStats) : GatewayStats :=
  match call with
  | .recordSuccess gateway latencyMs =>
    if row.gateway = gateway then succeeded latencyMs row else row
  | .recordFailure gateway latencyMs =>
    if row.gateway = gateway then failed latencyMs row else row
  | .getRankedGateways _ => refreshed D w row

theorem onRow_gateway (D : Deployment) (call : BreakerCall) (w : World) (row : GatewayStats)
    : (call.onRow D w row).gateway = row.gateway := by
  cases call with
  | recordSuccess gateway latencyMs =>
    unfold onRow
    dsimp only
    split <;> rfl
  | recordFailure gateway latencyMs =>
    unfold onRow
    dsimp only
    split <;> rfl
  | getRankedGateways amount => exact refreshed_gateway D w row

theorem effect_clock (call : BreakerCall) : (call.effect D w).clock = w.clock := by
  cases call with
  | recordSuccess gateway latencyMs =>
    unfold effect
    dsimp only
    split
    . rfl
    . rw [World.mapStats_clock]
      split <;> rfl
  | recordFailure gateway latencyMs =>
    unfold effect
    dsimp only
    split
    . rfl
    . rw [World.mapStats_clock]
      split <;> rfl
  | getRankedGateways amount => rfl

theorem effect_mem (call : BreakerCall) : (call.effect D w).mem = w.mem := by
  cases call with
  | recordSuccess gateway latencyMs =>
    unfold effect
    dsimp only
    split
    . rfl
    . rw [World.mapStats_mem]
      split <;> rfl
  | recordFailure gateway latencyMs =>
    unfold effect
    dsimp only
    split
    . rfl
    . rw [World.mapStats_mem]
      split <;> rfl
  | getRankedGateways amount => rfl

end BreakerCall

theorem UniqueStats.statsOf (hunique : UniqueStats w) {row : GatewayStats}
    (hrow : row ∈ w.gatewayStats) : w.statsOf row.gateway = some row := by
  cases hfind : w.statsOf row.gateway with
  | none =>
    unfold World.statsOf at hfind
    rw [List.find?_eq_none] at hfind
    exact absurd (hfind row hrow) (by simp)
  | some row' =>
    rw [hunique.eq (List.mem_of_find?_eq_some hfind) hrow (World.gateway_of_statsOf hfind)]

theorem World.gateway_ne_of_statsOf {gateway : GatewayProvider} (h : w.statsOf gateway = none)
    {row : GatewayStats} (hrow : row ∈ w.gatewayStats) : row.gateway ≠ gateway := by
  unfold World.statsOf at h
  rw [List.find?_eq_none] at h
  simpa using h row hrow

theorem BreakerCall.effect_gatewayStats (hunique : UniqueStats w) (call : BreakerCall)
    : (call.effect D w).gatewayStats = w.gatewayStats.map (call.onRow D w) := by
  cases call with
  | recordSuccess gateway latencyMs =>
    cases hrow : w.statsOf gateway with
    | none =>
      rw [List.map_congr_left (g := id)]
      . simp [effect, hrow]
      . intro row hmem
        exact if_neg (World.gateway_ne_of_statsOf hrow hmem)
    | some row =>
      rw [effect_recordSuccess hrow, World.mapStats_gatewayStats, apply_ite World.gatewayStats,
        World.setKey_gatewayStats, ite_self]
      apply List.map_congr_left
      intro old hold
      unfold onRow
      dsimp only
      split
      . next hgateway =>
        rw [← hgateway, hunique.statsOf hold, Option.some.injEq] at hrow
        rw [hrow]
      . rfl
  | recordFailure gateway latencyMs =>
    cases hrow : w.statsOf gateway with
    | none =>
      rw [List.map_congr_left (g := id)]
      . simp [effect, hrow]
      . intro row hmem
        exact if_neg (World.gateway_ne_of_statsOf hrow hmem)
    | some row =>
      rw [effect_recordFailure hrow, World.mapStats_gatewayStats, apply_ite World.gatewayStats,
        World.setKey_gatewayStats, ite_self]
      apply List.map_congr_left
      intro old hold
      unfold onRow
      dsimp only
      split
      . next hgateway =>
        rw [← hgateway, hunique.statsOf hold, Option.some.injEq] at hrow
        rw [hrow]
      . rfl
  | getRankedGateways amount => rfl

theorem BreakerCall.effect_unique (hunique : UniqueStats w) (call : BreakerCall)
    : UniqueStats (call.effect D w) := by
  have := hunique.mapStats (f := call.onRow D w) (fun row _ => onRow_gateway D call w row)
  unfold UniqueStats at this ⊢
  rw [effect_gatewayStats hunique]
  exact this

end PaymentOrchestration
