import Mathlib.Tactic.GCongr
import Mathlib.Tactic.NormNum
import PaymentOrchestration.Breaker.Refinement
import PaymentOrchestration.Common.StableSort

/-!
This module is about the list that `getRankedGateways` returns: which gateways are on it, in which
order, and how the order depends on the statistics.
-/

namespace PaymentOrchestration

open RoutingEngine StableSort

namespace RoutingEngine

variable {D : Deployment} {amount : Nat} {w w' : World}

-- The rows of the configured gateways, in the order in which they are read.
def configured (D : Deployment) (w : World) : List GatewayStats :=
  w.gatewayStats.filter (fun row => considered D row.gateway)

def available (D : Deployment) (w : World) : List GatewayStats :=
  (configured D w).filter (fun row => row.circuitState ≠ .OPEN)

def scoreOf (amount : Nat) (row : GatewayStats) : ℚ :=
  exactScore row row.circuitState amount

/--
`ranking` is the right list for the statistics as they are in `w`. A tie is decided by the order of
the rows.
-/
structure ExactRanking (D : Deployment) (amount : Nat) (w : World)
    (ranking : List GatewayProvider) : Prop where
  nodup : ranking.Nodup
  ranked : available D w ≠ [] →
    ∃ rows : List GatewayStats, rows.Perm (available D w) ∧ ranking = rows.map (·.gateway) ∧
      rows.Pairwise (fun a b => scoreOf amount b < scoreOf amount a ∨
        scoreOf amount a = scoreOf amount b ∧ [a, b].Sublist w.gatewayStats)
  exhausted : available D w = [] →
    ∃ rows : List GatewayStats, rows.Perm (configured D w) ∧ ranking = rows.map (·.gateway) ∧
      rows.Pairwise (fun a b => a.costBps ≤ b.costBps)
  empty : ranking = [] → configured D w = []

def rankingOf (D : Deployment) (amount : Nat) (w : World) : List GatewayProvider :=
  rank ((configured D w).map (scored D amount))

theorem configured_effect (w : World)
    : configured D (w.mapStats (refreshed D w)) =
        (w.gatewayStats.filter (fun row => considered D row.gateway)).map (refreshed D w) := by
  unfold configured
  rw [World.mapStats_gatewayStats, List.filter_map]
  congr 2
  funext row
  exact congrArg (considered D) (refreshed_gateway D w row)

theorem ranking_eq_rankingOf (w : World)
    : (BreakerCall.getRankedGateways amount).ranking D w =
        rankingOf D amount (w.mapStats (refreshed D w)) := by
  unfold rankingOf
  rw [configured_effect, List.map_map]
  rfl

/--
What one ranking leaves behind the next one finds in order.
-/
theorem refreshed_effect {row : GatewayStats}
    (hrow : row ∈ (w.mapStats (refreshed D w)).gatewayStats)
    : refreshed D (w.mapStats (refreshed D w)) row = row := by
  rw [World.mapStats_gatewayStats, List.mem_map] at hrow
  rcases hrow with ⟨old, _, heq⟩
  subst heq
  exact refreshed_refreshed D w old

theorem effect_effect (w : World)
    : (w.mapStats (refreshed D w)).mapStats (refreshed D (w.mapStats (refreshed D w))) =
        w.mapStats (refreshed D w) := by
  have hsame : (w.mapStats (refreshed D w)).gatewayStats.map
      (refreshed D (w.mapStats (refreshed D w))) = (w.mapStats (refreshed D w)).gatewayStats := by
    conv => rhs; rw [← List.map_id (w.mapStats (refreshed D w)).gatewayStats]
    apply List.map_congr_left
    intro row hrow
    exact refreshed_effect hrow
  generalize w.mapStats (refreshed D w) = w₁ at hsame ⊢
  unfold World.mapStats
  rw [hsame]

/-!
The two sorts.
-/

section Sorts

variable (hscore : D.score = exactScore)

include hscore

theorem scored_nonneg_iff {row : GatewayStats}
    : 0 ≤ (scored D amount row).score ↔ row.circuitState ≠ .OPEN := by
  apply score_nonneg_iff
  intro stats circuitState amount h
  rw [hscore]
  exact h

theorem filter_scored (rows : List GatewayStats)
    : (rows.map (scored D amount)).filter (fun c => 0 ≤ c.score) =
        (rows.filter (fun row => row.circuitState ≠ .OPEN)).map (scored D amount) := by
  rw [List.filter_map]
  congr 2
  funext row
  exact decide_eq_decide.mpr (scored_nonneg_iff hscore)

theorem sorted_scored {rows : List GatewayStats} (hrows : ∀ row ∈ rows, row.circuitState ≠ .OPEN)
    : (rows.map (scored D amount)).insertionSort (fun a b => b.score ≤ a.score) =
        (descending (scoreOf amount) rows).map (scored D amount) := by
  symm
  apply List.map_insertionSort
  intro a ha b hb
  have hkey : ∀ row ∈ rows, (scored D amount row).score = scoreOf amount row := by
    intro row hrow
    simp only [scored, hrows row hrow, if_false, hscore]
    rfl
  rw [hkey a ha, hkey b hb]

theorem rankingOf_of_available (h : available D w ≠ [])
    : rankingOf D amount w =
        (descending (scoreOf amount) (available D w)).map (·.gateway) := by
  unfold rankingOf rank
  dsimp only
  rw [filter_scored hscore]
  have hrows : ∀ row ∈ available D w, row.circuitState ≠ .OPEN := by
    intro row hrow
    simpa using (List.mem_filter.mp hrow).right
  rw [show (configured D w).filter (fun row => row.circuitState ≠ .OPEN) = available D w from rfl,
    sorted_scored hscore hrows, if_neg, List.map_map]
  . rfl
  . rw [List.isEmpty_iff, List.map_eq_nil_iff, ← List.length_eq_zero_iff,
      (descending_perm _ _).length_eq, List.length_eq_zero_iff]
    exact h

theorem rankingOf_of_exhausted (h : available D w = [])
    : rankingOf D amount w =
        ((configured D w).insertionSort (fun a b => a.costBps ≤ b.costBps)).map (·.gateway) := by
  unfold rankingOf rank
  dsimp only
  rw [filter_scored hscore]
  rw [show (configured D w).filter (fun row => row.circuitState ≠ .OPEN) = available D w from rfl,
    h, List.map_nil, List.insertionSort_nil, List.isEmpty_nil, if_pos rfl]
  have hmap := List.map_insertionSort (r := fun a b : GatewayStats => a.costBps ≤ b.costBps)
    (s := fun a b : Candidate => a.stats.costBps ≤ b.stats.costBps) (scored D amount)
    (configured D w) (fun _ _ _ _ => Iff.rfl)
  rw [← hmap, List.map_map]
  rfl

end Sorts

theorem nodup_gateway {rows : List GatewayStats} (hunique : UniqueStats w)
    (hrows : rows.Sublist w.gatewayStats) : (rows.map (·.gateway)).Nodup := by
  exact hunique.sublist (hrows.map _)

theorem available_sublist (w : World) : (available D w).Sublist w.gatewayStats := by
  exact List.filter_sublist.trans List.filter_sublist

theorem exactRanking_rankingOf (hscore : D.score = exactScore) (hunique : UniqueStats w)
    (amount : Nat) : ExactRanking D amount w (rankingOf D amount w) := by
  have hempty : ∀ rows : List GatewayStats, rows.Perm (configured D w) →
      rows.map (·.gateway) = [] → configured D w = [] := by
    intro rows hperm h
    rw [List.map_eq_nil_iff] at h
    subst h
    exact hperm.symm.eq_nil
  by_cases h : available D w = []
  . rw [show rankingOf D amount w = _ from rankingOf_of_exhausted hscore h]
    have hperm := List.perm_insertionSort (fun a b : GatewayStats => a.costBps ≤ b.costBps)
      (configured D w)
    have hnodup : ((configured D w).map (·.gateway)).Nodup :=
      nodup_gateway hunique List.filter_sublist
    refine ⟨(hperm.map _).nodup_iff.mpr hnodup, fun hne => absurd h hne, fun _ => ?_, hempty _ hperm⟩
    refine ⟨_, hperm, rfl, ?_⟩
    have : Std.Total (fun a b : GatewayStats => a.costBps ≤ b.costBps) :=
      ⟨fun a b => le_total a.costBps b.costBps⟩
    have : IsTrans GatewayStats (fun a b => a.costBps ≤ b.costBps) := ⟨fun _ _ _ h h' => h.trans h'⟩
    exact List.pairwise_insertionSort _ _
  . rw [show rankingOf D amount w = _ from rankingOf_of_available hscore h]
    have hperm := descending_perm (scoreOf amount) (available D w)
    have hnodup : ((available D w).map (·.gateway)).Nodup :=
      nodup_gateway hunique (available_sublist w)
    refine ⟨(hperm.map _).nodup_iff.mpr hnodup, fun _ => ?_, fun hnil => absurd hnil h, ?_⟩
    . refine ⟨_, hperm, rfl, (pairwise_descending hnodup.of_map).imp ?_⟩
      rintro a b (hlt | ⟨heq, hpair⟩)
      . exact .inl hlt
      . exact .inr ⟨heq, hpair.trans (available_sublist w)⟩
    . intro hnil
      rw [List.map_eq_nil_iff] at hnil
      rw [hnil] at hperm
      exact absurd hperm.symm.eq_nil h

end RoutingEngine

/--
A call of `getRankedGateways` that has the service for itself, from its start to its end.
-/
def Ranks (D : Deployment) (i : Pid) (amount : Nat) (w : World)
    (r : Except Err (List GatewayProvider)) (w' : World) : Prop :=
  (machine D).Completes i Healthy (getRankedGateways D amount) w r w'

variable {D : Deployment} {i : Pid} {amount : Nat} {w w' : World}

theorem Ranks.result {r : Except Err (List GatewayProvider)} (h : Ranks D i amount w r w')
    (hmem : (w.mem i.inst).isMockMode = false) (hunique : UniqueStats w)
    : r = .ok (rankingOf D amount (w.mapStats (refreshed D w))) ∧
        w' = w.mapStats (refreshed D w) := by
  rcases Machine.Completes.result h (alone_getRankedGateways hmem hunique) with
    ⟨ranking, hr, hranking, hw'⟩
  rw [hr, hranking, ranking_eq_rankingOf]
  exact ⟨rfl, hw'⟩

theorem exists_ranks (hmem : (w.mem i.inst).isMockMode = false) (hunique : UniqueStats w)
    (amount : Nat) : ∃ ranking w', Ranks D i amount w (.ok ranking) w' := by
  have halone := @alone_getRankedGateways D i w amount hmem hunique
  rcases Machine.exists_completes halone with ⟨ranking, w', h, _⟩
  exact ⟨ranking, w', h⟩

theorem UniqueStats.refreshed (hunique : UniqueStats w)
    : UniqueStats (w.mapStats (RoutingEngine.refreshed D w)) := by
  apply hunique.mapStats
  intro row _
  exact refreshed_gateway D w row

/--
A ranking always comes to its end. It promotes the rows that have cooled down and does nothing else,
and its list is the right one for the rows as they are then. A second ranking says the same.
-/
theorem ranking_exact (hscore : D.score = exactScore) (hmem : (w.mem i.inst).isMockMode = false)
    (hunique : UniqueStats w) (amount : Nat)
    : (∃ ranking w', Ranks D i amount w (.ok ranking) w') ∧
        ∀ r w', Ranks D i amount w r w' → ∃ ranking, r = .ok ranking ∧
          w' = w.mapStats (fun row =>
            if considered D row.gateway ∧ row.circuitState = .OPEN ∧
                Stored.missing (w.redis.lookup w.clock (circuitKey row.gateway)) then
              { row with circuitState := .HALF_OPEN, consecutiveFailures := 0 }
            else row) ∧
          ExactRanking D amount w' ranking ∧
          ∀ j r₂ w₂, (w.mem j.inst).isMockMode = false → Ranks D j amount w' r₂ w₂ →
            r₂ = .ok ranking ∧ w₂ = w' := by
  refine ⟨exists_ranks hmem hunique amount, fun r w' h => ?_⟩
  rcases h.result hmem hunique with ⟨hr, hw'⟩
  have hunique' : UniqueStats w' := by
    rw [hw']
    exact hunique.refreshed
  refine ⟨_, hr, ?_, ?_, ?_⟩
  . rw [hw']
    congr 1
    funext row
    unfold refreshed
    by_cases hcooled : cooledDown D w row = true
    . rw [if_pos hcooled, if_pos (cooledDown_eq_true.mp hcooled)]
      rfl
    . rw [if_neg hcooled, if_neg (fun h => hcooled (cooledDown_eq_true.mpr h))]
  . rw [← hw']
    exact exactRanking_rankingOf hscore hunique' amount
  . intro j r₂ w₂ hmem' h₂
    subst hw'
    rcases h₂.result hmem' hunique' with ⟨hr₂, hw₂⟩
    rw [effect_effect] at hr₂ hw₂
    exact ⟨hr₂, hw₂⟩

namespace Scenario

-- Two circuits are OPEN, and the cooldown of one of them is over.
def halfCooled : World :=
  { World.start [⟨.STRIPE, 8, 2, 250, 290, .CLOSED, 0⟩, ⟨.PAYU, 0, 3, 5, 190, .OPEN, 3⟩,
      ⟨.UPI, 0, 3, 5, 50, .OPEN, 3⟩] with
    redis := ⟨Function.update (fun _ => none) (circuitKey .PAYU) (some (openEntry 0)), fun _ => []⟩ }

theorem unique_halfCooled : UniqueStats halfCooled := by
  unfold UniqueStats
  decide

end Scenario

open Scenario in
theorem ranking_exact_halfCooled
    : ∃ ranking w', Ranks deployment ⟨0, 0⟩ 1015 halfCooled (.ok ranking) w' ∧
        ExactRanking deployment 1015 w' ranking ∧
        w'.gatewayStats.map (·.circuitState) = [.CLOSED, .OPEN, .HALF_OPEN] := by
  have hexact := ranking_exact (D := deployment) (i := ⟨0, 0⟩) rfl rfl unique_halfCooled 1015
  rcases hexact with ⟨⟨ranking, w', h⟩, hall⟩
  rcases hall _ _ h with ⟨_, heq, hw', hexact, _⟩
  injection heq with heq
  subst heq
  refine ⟨ranking, w', h, hexact, ?_⟩
  rw [hw']
  decide

/-!
How the ranking depends on the statistics of one gateway.
-/

/--
The statistics in `row'` are at least as good as those in `row`.
-/
structure Improves (row row' : GatewayStats) : Prop where
  gateway : row'.gateway = row.gateway
  successCount : row.successCount ≤ row'.successCount
  failureCount : row'.failureCount ≤ row.failureCount
  costBps : row'.costBps ≤ row.costBps
  avgLatencyMs : row'.avgLatencyMs ≤ row.avgLatencyMs
  positive : 0 < row.avgLatencyMs → 0 < row'.avgLatencyMs
  circuitState : row'.circuitState = row.circuitState ∨
    row.circuitState = .HALF_OPEN ∧ row'.circuitState = .CLOSED

namespace Improves

variable {row row' : GatewayStats}

theorem successRate (h : Improves row row')
    : (if row.successCount + row.failureCount = 0 then (1 : ℚ)
        else (row.successCount : ℚ) / ((row.successCount + row.failureCount : Nat) : ℚ)) ≤
      (if row'.successCount + row'.failureCount = 0 then (1 : ℚ)
        else (row'.successCount : ℚ) / ((row'.successCount + row'.failureCount : Nat) : ℚ)) := by
  have hrate : ∀ s f : Nat, (s : ℚ) / ((s + f : Nat) : ℚ) ≤ 1 := by
    intro s f
    apply div_le_one_of_le₀
    . exact_mod_cast Nat.le_add_right s f
    . positivity
  split
  . next hzero =>
    -- Without calls there were no failures, and there are none now.
    split
    . rfl
    . next hnonzero =>
      have hf : row'.failureCount = 0 := by
        have := h.failureCount
        omega
      have hs : (row'.successCount : ℚ) ≠ 0 := by
        rw [hf] at hnonzero
        exact_mod_cast hnonzero
      rw [hf, Nat.add_zero, div_self hs]
  . next hnonzero =>
    split
    . exact hrate _ _
    . next hnonzero' =>
      rw [div_le_div_iff₀ (by exact_mod_cast Nat.pos_of_ne_zero hnonzero)
        (by exact_mod_cast Nat.pos_of_ne_zero hnonzero')]
      have hcross : row.successCount * row'.failureCount ≤ row'.successCount * row.failureCount :=
        Nat.mul_le_mul h.successCount h.failureCount
      have : row.successCount * (row'.successCount + row'.failureCount) ≤
          row'.successCount * (row.successCount + row.failureCount) := by
        rw [Nat.mul_add, Nat.mul_add, Nat.mul_comm row.successCount row'.successCount]
        exact Nat.add_le_add_left hcross _
      exact_mod_cast this

theorem effectiveLatency (h : Improves row row')
    : (if row'.avgLatencyMs = 0 then 200 else row'.avgLatencyMs) ≤
        (if row.avgLatencyMs = 0 then 200 else row.avgLatencyMs) := by
  have := h.avgLatencyMs
  have := h.positive
  split <;> split <;> omega

theorem scoreOf (h : Improves row row') (amount : Nat)
    : RoutingEngine.scoreOf amount row ≤ RoutingEngine.scoreOf amount row' := by
  have hrate := h.successRate
  have hrate₀ : (0 : ℚ) ≤ if row.successCount + row.failureCount = 0 then (1 : ℚ)
      else (row.successCount : ℚ) / ((row.successCount + row.failureCount : Nat) : ℚ) := by
    split <;> positivity
  have hcost : max 0 ((300 - (row.costBps : ℚ)) / 300) ≤
      max 0 ((300 - (row'.costBps : ℚ)) / 300) := by
    have : (row'.costBps : ℚ) ≤ row.costBps := by exact_mod_cast h.costBps
    gcongr
  have hcost₀ : (0 : ℚ) ≤ max 0 ((300 - (row.costBps : ℚ)) / 300) := le_max_left _ _
  have hlatency : (1000 : ℚ) / (max (if row.avgLatencyMs = 0 then 200 else row.avgLatencyMs) 50 : Nat)
      ≤ 1000 / (max (if row'.avgLatencyMs = 0 then 200 else row'.avgLatencyMs) 50 : Nat) := by
    have : max (if row'.avgLatencyMs = 0 then 200 else row'.avgLatencyMs) 50 ≤
        max (if row.avgLatencyMs = 0 then 200 else row.avgLatencyMs) 50 :=
      max_le_max h.effectiveLatency le_rfl
    gcongr
  have hlatency₀ : (0 : ℚ) ≤
      1000 / (max (if row.avgLatencyMs = 0 then 200 else row.avgLatencyMs) 50 : Nat) := by
    positivity
  have hhealth : (if row.circuitState = .HALF_OPEN then (3 / 10 : ℚ) else 1) ≤
      if row'.circuitState = .HALF_OPEN then (3 / 10 : ℚ) else 1 := by
    rcases h.circuitState with heq | ⟨heq, heq'⟩
    . rw [heq]
    . rw [heq, heq', if_pos rfl, if_neg (by decide)]
      norm_num
  have hhealth₀ : (0 : ℚ) ≤ if row.circuitState = .HALF_OPEN then (3 / 10 : ℚ) else 1 := by
    split <;> norm_num
  unfold RoutingEngine.scoreOf exactScore
  dsimp only
  by_cases hamount : amount > 5000
  . simp only [if_pos hamount]
    gcongr
  . simp only [if_neg hamount]
    gcongr

theorem circuitState_ne (h : Improves row row') (hopen : row.circuitState ≠ .OPEN)
    : row'.circuitState ≠ .OPEN := by
  rcases h.circuitState with heq | ⟨_, heq⟩
  . rw [heq]
    exact hopen
  . rw [heq]
    decide

end Improves

-- `row'` is stored in the place of the row of the same gateway.
def stored (row' : GatewayStats) (w : World) : World :=
  w.mapStats (fun old => if old.gateway = row'.gateway then row' else old)

theorem stored_gateway (row' old : GatewayStats)
    : (if old.gateway = row'.gateway then row' else old).gateway = old.gateway := by
  split
  . next h => exact h.symm
  . rfl

theorem UniqueStats.stored (hunique : UniqueStats w) (row' : GatewayStats)
    : UniqueStats (PaymentOrchestration.stored row' w) := by
  apply hunique.mapStats
  intro old _
  exact stored_gateway row' old

section Improved

variable {row row' : GatewayStats}

/--
Both rankings promote the same rows, the one of the gateway is not among them.
-/
theorem refreshed_stored (hopen : row.circuitState ≠ .OPEN) (himproves : Improves row row')
    : (stored row' w).mapStats (refreshed D (stored row' w)) =
        stored row' (w.mapStats (refreshed D w)) := by
  have hrest : ∀ old : GatewayStats, old.circuitState ≠ .OPEN → refreshed D w old = old := by
    intro old hold
    unfold refreshed
    rw [if_neg]
    simp [cooledDown, hold]
  have hopen' : row'.circuitState ≠ .OPEN := himproves.circuitState_ne hopen
  unfold stored World.mapStats
  dsimp only
  congr 1
  rw [List.map_map, List.map_map]
  apply List.map_congr_left
  intro old _
  simp only [Function.comp_apply]
  rw [refreshed_gateway]
  -- Redis is the same in both worlds.
  change refreshed D w _ = _
  by_cases h : old.gateway = row'.gateway
  . rw [if_pos h, if_pos h, hrest row' hopen']
  . rw [if_neg h, if_neg h]

variable {rows : List GatewayStats}

-- What the rows say about a gateway.
def keyOf (amount : Nat) (rows : List GatewayStats) (gateway : GatewayProvider) : ℚ :=
  match rows.find? (fun row => row.gateway = gateway) with
  | some row => scoreOf amount row
  | none => 0

theorem find?_gateway (hnodup : (rows.map (·.gateway)).Nodup) (hrow : row ∈ rows)
    : rows.find? (fun old => old.gateway = row.gateway) = some row := by
  rw [List.find?_eq_some_iff_append]
  rcases List.append_of_mem hrow with ⟨before, after, heq⟩
  subst heq
  refine ⟨by simp, before, after, rfl, ?_⟩
  intro old hold
  simp only [List.map_append, List.map_cons, List.nodup_append] at hnodup
  have hne := hnodup.right.right old.gateway (List.mem_map_of_mem hold) row.gateway (by simp)
  simpa using hne

theorem keyOf_gateway (hnodup : (rows.map (·.gateway)).Nodup) (hrow : row ∈ rows)
    : keyOf amount rows row.gateway = scoreOf amount row := by
  unfold keyOf
  rw [find?_gateway hnodup hrow]

theorem map_gateway_descending (hnodup : (rows.map (·.gateway)).Nodup)
    : (descending (scoreOf amount) rows).map (·.gateway) =
        descending (keyOf amount rows) (rows.map (·.gateway)) := by
  apply List.map_insertionSort
  intro a ha b hb
  rw [keyOf_gateway hnodup ha, keyOf_gateway hnodup hb]

theorem configured_stored
    : configured D (stored row' w) =
        (configured D w).map (fun old => if old.gateway = row'.gateway then row' else old) := by
  unfold configured stored
  rw [World.mapStats_gatewayStats, List.filter_map]
  congr 2
  funext old
  exact congrArg (considered D) (stored_gateway row' old)

theorem available_stored (hunique : UniqueStats w) (hrow : row ∈ w.gatewayStats)
    (hopen : row.circuitState ≠ .OPEN) (himproves : Improves row row')
    : available D (stored row' w) =
        (available D w).map (fun old => if old.gateway = row'.gateway then row' else old) := by
  have hopen' : row'.circuitState ≠ .OPEN := himproves.circuitState_ne hopen
  unfold available
  rw [configured_stored, List.filter_map]
  congr 1
  apply List.filter_congr
  intro old hold
  simp only [Function.comp_apply]
  split
  . next heq =>
    have hsame : old = row :=
      hunique.eq (List.mem_filter.mp hold).left hrow (heq.trans himproves.gateway)
    rw [hsame, decide_eq_true hopen, decide_eq_true hopen']
  . rfl

/--
A gateway that is not OPEN and whose statistics get better moves forward in the ranking or stays
where it is. The others keep their order.
-/
theorem rankingOf_stored (hscore : D.score = exactScore) (hunique : UniqueStats w)
    (hrow : row ∈ w.gatewayStats) (hopen : row.circuitState ≠ .OPEN)
    (himproves : Improves row row') (amount : Nat)
    : (row.gateway ∈ rankingOf D amount (stored row' w) ↔
          row.gateway ∈ rankingOf D amount w) ∧
        (rankingOf D amount (stored row' w)).idxOf row.gateway ≤
          (rankingOf D amount w).idxOf row.gateway ∧
        (rankingOf D amount (stored row' w)).filter (· ≠ row.gateway) =
          (rankingOf D amount w).filter (· ≠ row.gateway) := by
  by_cases hconsidered : considered D row.gateway
  . have hmem : row ∈ available D w := by
      simp only [available, configured, List.mem_filter, decide_eq_true_eq]
      exact ⟨⟨hrow, hconsidered⟩, hopen⟩
    have hmem' : row' ∈ available D (stored row' w) := by
      rw [available_stored hunique hrow hopen himproves, List.mem_map]
      exact ⟨row, hmem, if_pos himproves.gateway.symm⟩
    have hgateways : (available D (stored row' w)).map (·.gateway) =
        (available D w).map (·.gateway) := by
      rw [available_stored hunique hrow hopen himproves, List.map_map]
      apply List.map_congr_left
      intro old _
      exact stored_gateway row' old
    have hnodup : ((available D w).map (·.gateway)).Nodup :=
      nodup_gateway hunique (available_sublist w)
    have hnodup' : ((available D (stored row' w)).map (·.gateway)).Nodup := by
      rw [hgateways]
      exact hnodup
    rw [rankingOf_of_available hscore (List.ne_nil_of_mem hmem),
      rankingOf_of_available hscore (List.ne_nil_of_mem hmem'),
      map_gateway_descending hnodup, map_gateway_descending hnodup', hgateways]
    have hothers : ∀ g ∈ (available D w).map (·.gateway), g ≠ row.gateway →
        keyOf amount (available D (stored row' w)) g = keyOf amount (available D w) g := by
      intro g hg hne
      rw [List.mem_map] at hg
      rcases hg with ⟨old, hold, heq⟩
      subst heq
      have hold' : old ∈ available D (stored row' w) := by
        rw [available_stored hunique hrow hopen himproves, List.mem_map]
        exact ⟨old, hold, if_neg (fun h => hne (h.trans himproves.gateway))⟩
      rw [keyOf_gateway hnodup hold, keyOf_gateway hnodup' hold']
    have hkey : keyOf amount (available D w) row.gateway ≤
        keyOf amount (available D (stored row' w)) row.gateway := by
      rw [keyOf_gateway hnodup hmem, ← himproves.gateway, keyOf_gateway hnodup' hmem']
      exact himproves.scoreOf amount
    refine ⟨?_, idxOf_descending_le hnodup hothers hkey, filter_ne_descending hnodup hothers⟩
    rw [(descending_perm _ _).mem_iff, (descending_perm _ _).mem_iff]
  . -- A gateway that is not configured plays no part.
    have hsame : configured D (stored row' w) = configured D w := by
      rw [configured_stored]
      conv => rhs; rw [← List.map_id (configured D w)]
      apply List.map_congr_left
      intro old hold
      apply if_neg
      intro heq
      rw [himproves.gateway] at heq
      rw [← heq] at hconsidered
      exact hconsidered (List.mem_filter.mp hold).right
    unfold rankingOf
    rw [hsame]
    exact ⟨Iff.rfl, le_rfl, rfl⟩

end Improved

/--
Better statistics of a gateway whose circuit is not OPEN never cost it its place, and they do not
change the order of the others.
-/
theorem ranking_monotone (hscore : D.score = exactScore)
    (hmem : (w.mem i.inst).isMockMode = false) (hunique : UniqueStats w) {row row' : GatewayStats}
    (hrow : row ∈ w.gatewayStats) (hopen : row.circuitState ≠ .OPEN)
    (himproves : Improves row row') {ranking ranking' : List GatewayProvider} {w₁ w₁' : World}
    (h : Ranks D i amount w (.ok ranking) w₁)
    (h' : Ranks D i amount (stored row' w) (.ok ranking') w₁')
    : (row.gateway ∈ ranking' ↔ row.gateway ∈ ranking) ∧
        ranking'.idxOf row.gateway ≤ ranking.idxOf row.gateway ∧
        ranking'.filter (· ≠ row.gateway) = ranking.filter (· ≠ row.gateway) := by
  rcases h.result hmem hunique with ⟨hranking, _⟩
  rcases h'.result hmem (hunique.stored row') with ⟨hranking', _⟩
  injection hranking with hranking
  injection hranking' with hranking'
  subst hranking hranking'
  rw [refreshed_stored hopen himproves]
  have hkept : row ∈ (w.mapStats (refreshed D w)).gatewayStats := by
    rw [World.mapStats_gatewayStats, List.mem_map]
    refine ⟨row, hrow, ?_⟩
    unfold refreshed
    rw [if_neg]
    simp [cooledDown, hopen]
  exact rankingOf_stored hscore hunique.refreshed hkept hopen himproves amount

open Scenario in
theorem ranking_monotone_stripe
    : ∃ ranking ranking' w₁ w₁',
        Ranks deployment ⟨0, 0⟩ 9000 (World.start seedStats) (.ok ranking) w₁ ∧
        Ranks deployment ⟨0, 0⟩ 9000
          (stored ⟨.STRIPE, 5, 0, 0, 100, .CLOSED, 0⟩ (World.start seedStats)) (.ok ranking') w₁' ∧
        ranking'.idxOf .STRIPE ≤ ranking.idxOf .STRIPE ∧
        ranking'.filter (· ≠ .STRIPE) = ranking.filter (· ≠ .STRIPE) := by
  have hunique : UniqueStats (World.start seedStats) := fresh_start.unique
  rcases exists_ranks (D := deployment) (i := ⟨0, 0⟩) rfl hunique 9000 with ⟨ranking, w₁, h⟩
  rcases exists_ranks (D := deployment) (i := ⟨0, 0⟩) rfl (hunique.stored _) 9000 with
    ⟨ranking', w₁', h'⟩
  have himproves : Improves ⟨.STRIPE, 0, 0, 0, 290, .CLOSED, 0⟩
      ⟨.STRIPE, 5, 0, 0, 100, .CLOSED, 0⟩ :=
    ⟨rfl, by decide, by decide, by decide, by decide, by decide, .inl rfl⟩
  have hmonotone := ranking_monotone rfl rfl hunique (by decide) (by decide) himproves h h'
  exact ⟨ranking, ranking', w₁, w₁', h, h', hmonotone.right⟩

end PaymentOrchestration
