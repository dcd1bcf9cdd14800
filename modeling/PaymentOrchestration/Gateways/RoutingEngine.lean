import Mathlib.Data.List.Sort
import Mathlib.Algebra.Order.Field.Rat
import PaymentOrchestration.Common.Strings
import PaymentOrchestration.Redis.RedisService

/-!
This module contains `RoutingEngineService`: which gateways are configured, how they are ranked and
how the outcome of a charge moves their statistics and their circuit breaker.
-/

namespace PaymentOrchestration

namespace RoutingEngine

-- `process.env.NAME`, as a condition: an empty variable counts as a missing one.
def envVar (D : Deployment) (name : String) : Option String :=
  (D.env name).filter (· ≠ "")

def isConfiguredKey (key : Option String) : Bool :=
  match key with
  | some key => !includes key "xxxxxxxxxxxx" && !endsWith key "xxx"
  | none => false

def isGatewayConfigured (D : Deployment) (gateway : GatewayProvider) : Bool :=
  match gateway with
  | .STRIPE => isConfiguredKey (envVar D "STRIPE_SECRET_KEY")
  | .RAZORPAY => isConfiguredKey (envVar D "RAZORPAY_KEY_SECRET")
  | .PAYU => isConfiguredKey (envVar D "PAYU_SALT" <|> envVar D "PAYU_MERCHANT_KEY")
  | .UPI => isConfiguredKey (envVar D "UPI_VPA" <|> envVar D "UPI_MERCHANT_ID")

/--
The score of a gateway whose circuit is not OPEN, in exact arithmetic.
-/
def exactScore (stats : GatewayStats) (circuitState : CircuitState) (amount : Nat) : ℚ :=
  let totalTxns := stats.successCount + stats.failureCount
  let successRate : ℚ := if totalTxns = 0 then 1 else stats.successCount / totalTxns
  let maxCost : ℚ := 300
  let costScore : ℚ := max 0 ((maxCost - stats.costBps) / maxCost)
  let effectiveLatency : Nat := if stats.avgLatencyMs = 0 then 200 else stats.avgLatencyMs
  let latencyScore : ℚ := 1000 / max effectiveLatency 50
  let healthMultiplier : ℚ := if circuitState = .HALF_OPEN then 3 / 10 else 1
  let (wSuccess, wCost, wLatency) : ℚ × ℚ × ℚ :=
    if amount > 5000 then (7 / 10, 1 / 10, 2 / 10) else (3 / 10, 5 / 10, 2 / 10)
  healthMultiplier *
    (wSuccess * successRate + wCost * costScore + wLatency * (latencyScore / 20))

structure Candidate where
  provider : GatewayProvider
  score : ℚ
  stats : GatewayStats

def circuitKey (gateway : GatewayProvider) : String :=
  s!"circuit:open:{gateway}"

-- An OPEN circuit whose cooldown key is gone (or empty) becomes HALF_OPEN.
def checkCooldown (stats : GatewayStats) : Program GatewayStats := do
  if stats.circuitState = .OPEN then
    let isTripped ← RedisService.get (circuitKey stats.gateway)
    if Stored.missing isTripped then
      let stats := { stats with circuitState := .HALF_OPEN, consecutiveFailures := 0 }
      perform (.saveStats stats)
      return stats
    else
      return stats
  else
    return stats

/--
The body of the `map` in `getRankedGateways`.
-/
def candidate (D : Deployment) (amount : Nat) (stats : GatewayStats) : Program Candidate := do
  let stats ← checkCooldown stats
  let score := if stats.circuitState = .OPEN then -1 else D.score stats stats.circuitState amount
  return ⟨stats.gateway, score, stats⟩

def rank (candidatesWithScores : List Candidate) : List GatewayProvider :=
  let filtered := candidatesWithScores.filter (fun c => 0 ≤ c.score)
  let sorted := filtered.insertionSort (fun a b => b.score ≤ a.score)
  if sorted.isEmpty then
    let allSorted := candidatesWithScores.insertionSort (fun a b => a.stats.costBps ≤ b.stats.costBps)
    allSorted.map (·.provider)
  else
    sorted.map (·.provider)

def getRankedGateways (D : Deployment) (amount : Nat) : Program (List GatewayProvider) := do
  let isTest : Bool := D.env "NODE_ENV" = some "test"
  let statsList := (← perform .findStats).filter fun stats =>
    isTest || isGatewayConfigured D stats.gateway
  let candidatesWithScores ← Prog.all (statsList.map (candidate D amount))
  return rank candidatesWithScores

-- `Math.round(avgLatencyMs * 0.9 + latencyMs * 0.1)`, exactly
def smooth (avgLatencyMs latencyMs : Nat) : Nat :=
  if avgLatencyMs = 0 then latencyMs else (9 * avgLatencyMs + latencyMs + 5) / 10

def recordSuccess (gateway : GatewayProvider) (latencyMs : Nat) : Program Unit := do
  match ← perform (.findStatsOf gateway) with
  | none => return ()
  | some stats =>
    let stats := { stats with
      successCount := stats.successCount + 1
      consecutiveFailures := 0
      avgLatencyMs := smooth stats.avgLatencyMs latencyMs }
    if stats.circuitState ≠ .CLOSED then
      let _ ← RedisService.del (circuitKey gateway)
      perform (.saveStats { stats with circuitState := .CLOSED })
    else
      perform (.saveStats stats)

def recordFailure (gateway : GatewayProvider) (latencyMs : Nat) : Program Unit := do
  match ← perform (.findStatsOf gateway) with
  | none => return ()
  | some stats =>
    let stats := { stats with
      failureCount := stats.failureCount + 1
      consecutiveFailures := stats.consecutiveFailures + 1
      avgLatencyMs :=
        if latencyMs > 0 then smooth stats.avgLatencyMs latencyMs else stats.avgLatencyMs }
    if stats.consecutiveFailures ≥ 3 ∧ stats.circuitState ≠ .OPEN then
      let _ ← RedisService.set (circuitKey gateway) (.raw "open") none (some .EX) (some 30)
      perform (.saveStats { stats with circuitState := .OPEN })
    else
      perform (.saveStats stats)

end RoutingEngine

end PaymentOrchestration
