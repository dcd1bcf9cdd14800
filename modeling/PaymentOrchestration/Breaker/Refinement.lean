import Mathlib.Data.List.DropRight
import Mathlib.Tactic.Positivity
import PaymentOrchestration.Breaker.Automaton
import PaymentOrchestration.Breaker.Calls
import PaymentOrchestration.Scenario

/-!
This module is about sequences of calls of `RoutingEngineService`: for each gateway they drive the
automaton of a circuit breaker.
-/

namespace PaymentOrchestration

open RoutingEngine

/--
One call of a sequence, with the worlds before and after it.
-/
structure CallEntry where
  call : BreakerCall
  before : World
  ranking : List GatewayProvider
  after : World

/--
The calls in the log follow each other without overlapping. Any time may pass between two of them.
-/
inductive Calls (D : Deployment) (w₀ : World) : List CallEntry → World → Prop where
  | start : Calls D w₀ [] w₀
  | pause {log : List CallEntry} {w : World} (ms : Nat) (h : Calls D w₀ log w)
    : Calls D w₀ log { w with clock := w.clock + ms }
  | call {log : List CallEntry} {w w' : World} (i : Pid) (call : BreakerCall)
      (ranking : List GatewayProvider) (h : Calls D w₀ log w)
      (hcompletes : (machine D).Completes i Healthy (call.program D) w (.ok ranking) w')
    : Calls D w₀ (log ++ [⟨call, w, ranking, w'⟩]) w'

/--
No call has been recorded yet, and every instance is connected to Redis.
-/
structure Fresh (w : World) : Prop where
  unique : UniqueStats w
  closed : ∀ row ∈ w.gatewayStats, row.circuitState = .CLOSED ∧ row.consecutiveFailures = 0
  connected : ∀ inst, (w.mem inst).isMockMode = false

def World.circuitOf (w : World) (gateway : GatewayProvider) : Option CircuitState :=
  (w.statsOf gateway).map (·.circuitState)

namespace CallEntry

def succeeds (gateway : GatewayProvider) (e : CallEntry) : Bool :=
  match e.call with
  | .recordSuccess g _ => g = gateway
  | _ => false

def fails (gateway : GatewayProvider) (e : CallEntry) : Bool :=
  match e.call with
  | .recordFailure g _ => g = gateway
  | _ => false

def ranks (e : CallEntry) : Bool :=
  match e.call with
  | .getRankedGateways _ => true
  | _ => false

def promotes (gateway : GatewayProvider) (e : CallEntry) : Bool :=
  e.before.circuitOf gateway = some .OPEN ∧ e.after.circuitOf gateway = some .HALF_OPEN

def trips (gateway : GatewayProvider) (e : CallEntry) : Bool :=
  e.before.circuitOf gateway ≠ some .OPEN ∧ e.after.circuitOf gateway = some .OPEN

end CallEntry

-- The calls of `recordFailure` since the last success and the last promotion to HALF_OPEN.
def failuresSince (gateway : GatewayProvider) (log : List CallEntry) : Nat :=
  (log.rtakeWhile (fun e => !(e.succeeds gateway || e.promotes gateway))).countP
    (·.fails gateway)

variable {D : Deployment} {w₀ w : World} {log : List CallEntry}

namespace Calls

/--
What no call changes.
-/
structure Sane (w : World) : Prop where
  unique : UniqueStats w
  connected : ∀ inst, (w.mem inst).isMockMode = false

theorem Sane.completes (hsane : Sane w) {i : Pid} {call : BreakerCall}
    {ranking : List GatewayProvider} {w' : World}
    (h : (machine D).Completes i Healthy (call.program D) w (.ok ranking) w')
    : ranking = call.ranking D w ∧ w' = call.effect D w := by
  rcases h.result (call.alone_program (hsane.connected i.inst) hsane.unique) with ⟨a, heq, ha⟩
  rw [Except.ok.injEq] at heq
  rw [heq]
  exact ha

theorem Sane.effect (hsane : Sane w) (call : BreakerCall) : Sane (call.effect D w) where
  unique := call.effect_unique hsane.unique
  connected := by
    rw [BreakerCall.effect_mem]
    exact hsane.connected

theorem sane (h : Calls D w₀ log w) (hsane : Sane w₀) : Sane w := by
  induction h with
  | start => exact hsane
  | pause ms h ih => exact ⟨ih.unique, ih.connected⟩
  | call i call ranking h hcompletes ih =>
    rw [(ih.completes hcompletes).right]
    exact ih.effect call

/--
Every call is answered.
-/
theorem next (h : Calls D w₀ log w) (hsane : Sane w₀) (call : BreakerCall)
    : Calls D w₀ (log ++ [⟨call, w, call.ranking D w, call.effect D w⟩]) (call.effect D w) := by
  have hsane := h.sane hsane
  have halone := call.alone_program (D := D) (i := ⟨0, 0⟩) (hsane.connected 0) hsane.unique
  rcases Machine.exists_completes halone with ⟨ranking, w', hcompletes, hranking, hw'⟩
  rw [← hranking, ← hw']
  exact h.call _ call ranking hcompletes

/--
An entry of the log was reached by the calls before it, and it shows what its call does.
-/
theorem split (hsane : Sane w₀) {earlier later : List CallEntry} {e : CallEntry}
    (h : Calls D w₀ (earlier ++ e :: later) w)
    : Calls D w₀ earlier e.before ∧ Calls D w₀ (earlier ++ [e]) e.after ∧
        e.ranking = e.call.ranking D e.before ∧ e.after = e.call.effect D e.before := by
  generalize hlog : earlier ++ e :: later = log at h
  induction h generalizing later with
  | start => simp at hlog
  | pause ms h ih => exact ih hlog
  | call i call ranking h hcompletes ih =>
    rcases List.eq_nil_or_concat later with hlater | ⟨later', last, hlater⟩
    . subst hlater
      rcases List.append_inj' hlog (by simp) with ⟨hearlier, he⟩
      rw [List.cons.injEq] at he
      rw [he.left, hearlier]
      have hend := (h.sane hsane).completes hcompletes
      exact ⟨h, h.call i call ranking hcompletes, hend⟩
    . subst hlater
      rw [List.concat_eq_append, ← List.cons_append, ← List.append_assoc] at hlog
      rcases List.append_inj' hlog (by simp) with ⟨hearlier, _⟩
      exact ih hearlier

end Calls

/--
The sequence of these calls, each after a pause.
-/
def callsFrom (D : Deployment) (calls : List (Nat × BreakerCall)) (log : List CallEntry) (w : World)
    : List CallEntry × World :=
  match calls with
  | [] => (log, w)
  | (ms, call) :: calls =>
    let w := { w with clock := w.clock + ms }
    callsFrom D calls (log ++ [⟨call, w, call.ranking D w, call.effect D w⟩]) (call.effect D w)

theorem Calls.extend (hsane : Calls.Sane w₀) (calls : List (Nat × BreakerCall))
    (h : Calls D w₀ log w)
    : Calls D w₀ (callsFrom D calls log w).1 (callsFrom D calls log w).2 := by
  induction calls generalizing log w with
  | nil => exact h
  | cons call calls ih =>
    rcases call with ⟨ms, call⟩
    exact ih ((h.pause ms).next hsane call)

/-!
The number of failures in a row.
-/

theorem circuitOf_of_mem (hunique : UniqueStats w) {row : GatewayStats}
    (hrow : row ∈ w.gatewayStats) : w.circuitOf row.gateway = some row.circuitState := by
  simp [World.circuitOf, hunique.statsOf hrow]

theorem failuresSince_nil (gateway : GatewayProvider) : failuresSince gateway [] = 0 := by
  rfl

theorem failuresSince_of_reset {gateway : GatewayProvider} {e : CallEntry}
    (h : e.succeeds gateway ∨ e.promotes gateway) : failuresSince gateway (log ++ [e]) = 0 := by
  unfold failuresSince
  rw [List.rtakeWhile_concat_neg]
  . rfl
  . rcases h with h | h <;> simp [h]

theorem failuresSince_concat {gateway : GatewayProvider} {e : CallEntry}
    (hsucceeds : e.succeeds gateway = false) (hpromotes : e.promotes gateway = false)
    : failuresSince gateway (log ++ [e]) =
        failuresSince gateway log + if e.fails gateway then 1 else 0 := by
  unfold failuresSince
  rw [List.rtakeWhile_concat_pos]
  . rw [List.countP_append, List.countP_singleton]
  . simp [hsucceeds, hpromotes]

/--
A call that does not promote its gateway leaves the circuit as it was or closes or trips it.
-/
theorem promotes_eq (call : BreakerCall) (ranking : List GatewayProvider) (hsane : Calls.Sane w)
    {row : GatewayStats} (hrow : row ∈ w.gatewayStats)
    : (CallEntry.mk call w ranking (call.effect D w)).promotes row.gateway =
        decide (row.circuitState = .OPEN ∧ (call.onRow D w row).circuitState = .HALF_OPEN) := by
  have hrow' : call.onRow D w row ∈ (call.effect D w).gatewayStats := by
    rw [BreakerCall.effect_gatewayStats hsane.unique]
    exact List.mem_map_of_mem hrow
  have hafter := circuitOf_of_mem (hsane.effect (D := D) call).unique hrow'
  rw [BreakerCall.onRow_gateway] at hafter
  simp [CallEntry.promotes, circuitOf_of_mem hsane.unique hrow, hafter]

theorem consecutiveFailures_onRow {call : BreakerCall} {ranking : List GatewayProvider}
    (hsane : Calls.Sane w) {row : GatewayStats} (hrow : row ∈ w.gatewayStats)
    (hcount : row.consecutiveFailures = failuresSince row.gateway log)
    : (call.onRow D w row).consecutiveFailures =
        failuresSince row.gateway (log ++ [⟨call, w, ranking, call.effect D w⟩]) := by
  have hpromotes := promotes_eq (D := D) call ranking hsane hrow
  cases call with
  | recordSuccess gateway latencyMs =>
    by_cases hgateway : row.gateway = gateway
    . rw [failuresSince_of_reset (.inl (by simp [CallEntry.succeeds, hgateway]))]
      simp [BreakerCall.onRow, hgateway, succeeded]
    . have hsame : (BreakerCall.recordSuccess gateway latencyMs).onRow D w row = row :=
        if_neg hgateway
      rw [hsame] at hpromotes ⊢
      rw [failuresSince_concat (by simp [CallEntry.succeeds, Ne.symm hgateway])]
      . simpa [CallEntry.fails] using hcount
      . rw [hpromotes]
        grind
  | recordFailure gateway latencyMs =>
    by_cases hgateway : row.gateway = gateway
    . have hfailed : (BreakerCall.recordFailure gateway latencyMs).onRow D w row =
          failed latencyMs row := if_pos hgateway
      rw [hfailed] at hpromotes ⊢
      rw [failuresSince_concat rfl, ← hcount]
      . simp [failed, CallEntry.fails, hgateway]
      . rw [hpromotes]
        simp only [failed]
        grind
    . have hsame : (BreakerCall.recordFailure gateway latencyMs).onRow D w row = row :=
        if_neg hgateway
      rw [hsame] at hpromotes ⊢
      rw [failuresSince_concat rfl]
      . simpa [CallEntry.fails, Ne.symm hgateway] using hcount
      . rw [hpromotes]
        grind
  | getRankedGateways amount =>
    by_cases hcooled : cooledDown D w row
    . have hpromoted : (BreakerCall.getRankedGateways amount).onRow D w row = promoted row :=
        if_pos hcooled
      rw [hpromoted] at hpromotes ⊢
      rw [failuresSince_of_reset]
      . rfl
      . right
        rw [hpromotes]
        rw [cooledDown_eq_true] at hcooled
        simp [promoted, hcooled.right.left]
    . have hsame : (BreakerCall.getRankedGateways amount).onRow D w row = row := if_neg hcooled
      rw [hsame] at hpromotes ⊢
      rw [failuresSince_concat rfl]
      . simpa [CallEntry.fails] using hcount
      . rw [hpromotes]
        grind

theorem Calls.consecutiveFailures (h : Calls D w₀ log w) (hfresh : Fresh w₀) {row : GatewayStats}
    (hrow : row ∈ w.gatewayStats)
    : row.consecutiveFailures = failuresSince row.gateway log := by
  have hsane : Calls.Sane w₀ := ⟨hfresh.unique, hfresh.connected⟩
  induction h generalizing row with
  | start => rw [(hfresh.closed row hrow).right, failuresSince_nil]
  | pause ms h ih => exact ih hrow
  | call i call ranking h hcompletes ih =>
    rcases (h.sane hsane).completes hcompletes with ⟨_, heffect⟩
    rw [heffect, BreakerCall.effect_gatewayStats (h.sane hsane).unique, List.mem_map] at hrow
    rcases hrow with ⟨old, hold, heq⟩
    subst heq
    rw [BreakerCall.onRow_gateway, heffect]
    exact consecutiveFailures_onRow (h.sane hsane) hold (ih hold)

/-!
The simulation: the row and the key of a gateway show the state of its automaton.
-/

def settings : Breaker.Settings where
  threshold := 3
  cooldown := 30000

def BreakerCall.input (D : Deployment) (gateway : GatewayProvider) (call : BreakerCall)
    : Option Breaker.Input :=
  match call with
  | .recordSuccess g _ => if g = gateway then some .success else none
  | .recordFailure g _ => if g = gateway then some .failure else none
  | .getRankedGateways _ => if considered D gateway then some .probe else none

def CallEntry.input (D : Deployment) (gateway : GatewayProvider) (e : CallEntry)
    : Option (Nat × Breaker.Input) :=
  (e.call.input D gateway).map (fun input => (e.before.clock, input))

structure Shows (w : World) (row : GatewayStats) (b : Breaker.State) : Prop where
  failures : row.consecutiveFailures = b.failures
  phase :
    match b.phase with
    | .closed => row.circuitState = .CLOSED
    | .tripped since => row.circuitState = .OPEN ∧
        w.redis.entries (circuitKey row.gateway) = some (openEntry since)
    | .probing => row.circuitState = .HALF_OPEN

variable {row : GatewayStats} {b : Breaker.State}

theorem Shows.isTripped_iff (h : Shows w row b)
    : b.phase.isTripped ↔ row.circuitState = .OPEN := by
  rcases b with ⟨failures, phase⟩
  have hphase := h.phase
  cases phase with
  | closed => simp [Breaker.Phase.isTripped, show row.circuitState = .CLOSED from hphase]
  | tripped since => simp [Breaker.Phase.isTripped, show row.circuitState = .OPEN from hphase.left]
  | probing => simp [Breaker.Phase.isTripped, show row.circuitState = .HALF_OPEN from hphase]

-- Only the row itself and its own key matter.
theorem Shows.congr {w' : World} (h : Shows w row b)
    (hkey : w'.redis.entries (circuitKey row.gateway) = w.redis.entries (circuitKey row.gateway))
    : Shows w' row b := by
  refine ⟨h.failures, ?_⟩
  have hphase := h.phase
  split at hphase
  . exact hphase
  . rw [hkey]
    exact hphase
  . exact hphase

theorem setKey_of_ne {gateway : GatewayProvider} {entry : Option Entry}
    (hne : row.gateway ≠ gateway)
    : (w.setKey (circuitKey gateway) entry).redis.entries (circuitKey row.gateway) =
        w.redis.entries (circuitKey row.gateway) := by
  apply Function.update_of_ne
  intro heq
  exact hne (circuitKey_inj heq)

/--
The key of a tripped circuit can be seen until the cooldown is over.
-/
theorem cooledDown_iff {since : Nat} (h : Shows w row b) (hb : b.phase = .tripped since)
    : cooledDown D w row ↔ considered D row.gateway ∧ since + settings.cooldown ≤ w.clock := by
  have hphase := h.phase
  rw [hb] at hphase
  simp only [cooledDown, Redis.lookup, hphase.left, hphase.right, openEntry, settings,
    decide_eq_true_eq, true_and]
  split
  . simp [Stored.missing, Stored.truthy]
    omega
  . simp [Stored.missing]
    omega

theorem trips_iff (h : Shows w row b)
    : trips row ↔ settings.threshold ≤ b.failures + 1 ∧ ¬b.phase.isTripped := by
  simp [trips, h.isTripped_iff, ← h.failures, settings]

-- A call about another gateway.
theorem effect_key_of_ne (call : BreakerCall) (hne : call.input D row.gateway = none)
    : (call.effect D w).redis.entries (circuitKey row.gateway) =
        w.redis.entries (circuitKey row.gateway) := by
  cases call with
  | recordSuccess gateway latencyMs =>
    have hne : row.gateway ≠ gateway := by
      rintro rfl
      simp [BreakerCall.input] at hne
    cases hold : w.statsOf gateway with
    | none => simp [BreakerCall.effect, hold]
    | some old =>
      rw [BreakerCall.effect_recordSuccess hold, World.mapStats_redis]
      split
      . rfl
      . exact setKey_of_ne hne
  | recordFailure gateway latencyMs =>
    have hne : row.gateway ≠ gateway := by
      rintro rfl
      simp [BreakerCall.input] at hne
    cases hold : w.statsOf gateway with
    | none => simp [BreakerCall.effect, hold]
    | some old =>
      rw [BreakerCall.effect_recordFailure hold, World.mapStats_redis]
      split
      . exact setKey_of_ne hne
      . rfl
  | getRankedGateways amount => rfl

theorem onRow_of_ne (call : BreakerCall) (hne : call.input D row.gateway = none)
    : call.onRow D w row = row := by
  cases call with
  | recordSuccess gateway latencyMs =>
    apply if_neg
    rintro rfl
    simp [BreakerCall.input] at hne
  | recordFailure gateway latencyMs =>
    apply if_neg
    rintro rfl
    simp [BreakerCall.input] at hne
  | getRankedGateways amount =>
    apply if_neg
    intro hcooled
    rw [cooledDown_eq_true] at hcooled
    simp [BreakerCall.input, hcooled.left] at hne

def BreakerCall.next (D : Deployment) (call : BreakerCall) (gateway : GatewayProvider) (now : Nat)
    (b : Breaker.State) : Breaker.State :=
  match call.input D gateway with
  | some input => Breaker.step settings b now input
  | none => b

theorem Shows.effect (hunique : UniqueStats w) (hrow : row ∈ w.gatewayStats) (h : Shows w row b)
    (call : BreakerCall)
    : Shows (call.effect D w) (call.onRow D w row) (call.next D row.gateway w.clock b) := by
  unfold BreakerCall.next
  cases hinput : call.input D row.gateway with
  | none =>
    rw [onRow_of_ne call hinput]
    exact h.congr (effect_key_of_ne call hinput)
  | some input =>
    cases call with
    | recordSuccess gateway latencyMs =>
      have hgateway : gateway = row.gateway ∧ input = .success := by
        simp only [BreakerCall.input] at hinput
        grind
      rcases hgateway with ⟨hgateway, hsuccess⟩
      subst hgateway hsuccess
      rw [show (BreakerCall.recordSuccess row.gateway latencyMs).onRow D w row =
        succeeded latencyMs row from if_pos rfl]
      exact ⟨rfl, rfl⟩
    | recordFailure gateway latencyMs =>
      have hgateway : gateway = row.gateway ∧ input = .failure := by
        simp only [BreakerCall.input] at hinput
        grind
      rcases hgateway with ⟨hgateway, hfailure⟩
      subst hgateway hfailure
      rw [show (BreakerCall.recordFailure row.gateway latencyMs).onRow D w row =
        failed latencyMs row from if_pos rfl]
      rw [BreakerCall.effect_recordFailure (hunique.statsOf hrow)]
      simp only [Breaker.step]
      by_cases htrips : trips row
      . rw [if_pos ((trips_iff h).mp htrips), if_pos htrips]
        refine ⟨by simp [failed, h.failures], by simp [failed, htrips], ?_⟩
        exact Function.update_self ..
      . rw [if_neg (fun hb => htrips ((trips_iff h).mpr hb)), if_neg htrips]
        have hstate : (failed latencyMs row).circuitState = row.circuitState := by
          simp [failed, htrips]
        refine ⟨by simp [failed, h.failures], ?_⟩
        rw [hstate]
        exact h.phase
    | getRankedGateways amount =>
      have hconsidered : considered D row.gateway ∧ input = .probe := by
        simp only [BreakerCall.input] at hinput
        grind
      rcases hconsidered with ⟨hconsidered, hprobe⟩
      subst hprobe
      have hsame : ¬cooledDown D w row → Shows ((BreakerCall.getRankedGateways amount).effect D w)
          ((BreakerCall.getRankedGateways amount).onRow D w row) b := by
        intro hcooled
        rw [show (BreakerCall.getRankedGateways amount).onRow D w row = row from if_neg hcooled]
        exact h.congr rfl
      have hopen : ¬b.phase.isTripped → ¬cooledDown D w row := by
        intro htripped hcooled
        rw [cooledDown_eq_true] at hcooled
        exact htripped (h.isTripped_iff.mpr hcooled.right.left)
      simp only [Breaker.step]
      split
      . next since hsince =>
        by_cases hcooled : cooledDown D w row
        . have htime := ((cooledDown_iff h hsince).mp hcooled).right
          rw [show (BreakerCall.getRankedGateways amount).onRow D w row = promoted row from
            if_pos hcooled, if_pos htime]
          exact ⟨rfl, rfl⟩
        . rw [if_neg (fun htime => hcooled ((cooledDown_iff h hsince).mpr ⟨hconsidered, htime⟩))]
          exact hsame hcooled
      . next hphase =>
        apply hsame (hopen _)
        cases hb : b.phase with
        | tripped since => exact absurd hb (hphase since)
        | _ => simp [Breaker.Phase.isTripped]

/--
What the automaton of a gateway is told in the course of the calls.
-/
def inputs (D : Deployment) (gateway : GatewayProvider) (log : List CallEntry)
    : List (Nat × Breaker.Input) :=
  log.filterMap (·.input D gateway)

theorem run_inputs_concat (gateway : GatewayProvider) (e : CallEntry)
    : Breaker.run settings b (inputs D gateway (log ++ [e])) =
        e.call.next D gateway e.before.clock
          (Breaker.run settings b (inputs D gateway log)) := by
  unfold inputs BreakerCall.next CallEntry.input
  rw [List.filterMap_append, Breaker.run_append]
  cases hinput : e.call.input D gateway <;> simp [hinput]

theorem Calls.shows (h : Calls D w₀ log w) (hfresh : Fresh w₀) (hrow : row ∈ w.gatewayStats)
    : Shows w row (Breaker.run settings .start (inputs D row.gateway log)) := by
  have hsane : Calls.Sane w₀ := ⟨hfresh.unique, hfresh.connected⟩
  induction h generalizing row with
  | start =>
    rcases hfresh.closed row hrow with ⟨hclosed, hcount⟩
    exact ⟨hcount, hclosed⟩
  | pause ms h ih => exact (ih hrow).congr rfl
  | call i call ranking h hcompletes ih =>
    rcases (h.sane hsane).completes hcompletes with ⟨_, heffect⟩
    rw [heffect, BreakerCall.effect_gatewayStats (h.sane hsane).unique, List.mem_map] at hrow
    rcases hrow with ⟨old, hold, heq⟩
    subst heq
    rw [BreakerCall.onRow_gateway, heffect, run_inputs_concat]
    exact (ih hold).effect (h.sane hsane).unique hold call

/-!
Rankings.
-/

theorem exactScore_nonneg (stats : GatewayStats) (circuitState : CircuitState) (amount : Nat)
    : 0 ≤ exactScore stats circuitState amount := by
  unfold exactScore
  dsimp only
  split
  all_goals
    split
    all_goals
      split
      all_goals
        have : (0 : ℚ) ≤ max 0 ((300 - (stats.costBps : ℚ)) / 300) := le_max_left _ _
        positivity

theorem mem_rank_of_nonneg {candidates : List Candidate} {c : Candidate} (hc : c ∈ candidates)
    (hscore : 0 ≤ c.score) : c.provider ∈ rank candidates := by
  have hmem : c ∈ (candidates.filter (fun c => 0 ≤ c.score)).insertionSort
      (fun a b => b.score ≤ a.score) := by
    rw [List.mem_insertionSort, List.mem_filter]
    exact ⟨hc, decide_eq_true hscore⟩
  unfold rank
  dsimp only
  rw [if_neg]
  . exact List.mem_map_of_mem hmem
  . rw [List.isEmpty_iff]
    exact List.ne_nil_of_mem hmem

/--
A gateway is ranked for its score, or because no gateway has one.
-/
theorem of_mem_rank {candidates : List Candidate} {gateway : GatewayProvider}
    (h : gateway ∈ rank candidates)
    : (∃ c ∈ candidates, c.provider = gateway ∧ 0 ≤ c.score) ∨
        ∀ c ∈ candidates, ¬0 ≤ c.score := by
  unfold rank at h
  dsimp only at h
  split at h
  . next hempty =>
    right
    intro c hc hscore
    rw [List.isEmpty_iff] at hempty
    have hmem : c ∈ (candidates.filter (fun c => 0 ≤ c.score)).insertionSort
        (fun a b => b.score ≤ a.score) := by
      rw [List.mem_insertionSort, List.mem_filter]
      exact ⟨hc, decide_eq_true hscore⟩
    exact List.ne_nil_of_mem hmem hempty
  . left
    rw [List.mem_map] at h
    rcases h with ⟨c, hc, hprovider⟩
    rw [List.mem_insertionSort, List.mem_filter, decide_eq_true_eq] at hc
    exact ⟨c, hc.left, hprovider, hc.right⟩

/--
Number arithmetic rounds, but it does not make a score negative.
-/
def Deployment.RoundsScores (D : Deployment) : Prop :=
  ∀ stats circuitState amount, 0 ≤ exactScore stats circuitState amount →
    0 ≤ D.score stats circuitState amount

theorem score_nonneg_iff (hround : D.RoundsScores) {amount : Nat}
    : 0 ≤ (scored D amount row).score ↔ row.circuitState ≠ .OPEN := by
  unfold scored
  dsimp only
  split
  . next hopen =>
    constructor
    . intro hscore
      exact absurd hscore (by norm_num)
    . intro hclosed
      exact absurd hopen hclosed
  . next hopen => simp [hopen, hround _ _ _ (exactScore_nonneg _ _ _)]

theorem mem_ranking (hround : D.RoundsScores) (hrow : row ∈ w.gatewayStats)
    (hconsidered : considered D row.gateway) (hstate : (refreshed D w row).circuitState ≠ .OPEN)
    (amount : Nat) : row.gateway ∈ (BreakerCall.getRankedGateways amount).ranking D w := by
  rw [← refreshed_gateway D w row]
  apply mem_rank_of_nonneg (c := scored D amount (refreshed D w row))
  . apply List.mem_map_of_mem
    rw [List.mem_filter]
    exact ⟨hrow, hconsidered⟩
  . exact (score_nonneg_iff hround).mpr hstate

/--
A ranking with an OPEN gateway in it is the one of the fallback.
-/
theorem open_of_mem_ranking (hround : D.RoundsScores) (hunique : UniqueStats w)
    (hrow : row ∈ w.gatewayStats) (hstate : (refreshed D w row).circuitState = .OPEN) {amount : Nat}
    (h : row.gateway ∈ (BreakerCall.getRankedGateways amount).ranking D w)
    : ∀ old ∈ w.gatewayStats, considered D old.gateway →
        (refreshed D w old).circuitState = .OPEN := by
  rcases of_mem_rank h with ⟨c, hc, hprovider, hscore⟩ | hall
  . rw [List.mem_map] at hc
    rcases hc with ⟨old, hold, heq⟩
    subst heq
    rw [List.mem_filter] at hold
    have hgateway : old.gateway = row.gateway := (refreshed_gateway D w old).symm.trans hprovider
    rw [hunique.eq hold.left hrow hgateway, score_nonneg_iff hround] at hscore
    exact absurd hstate hscore
  . intro old hold hconsidered
    have hmem : scored D amount (refreshed D w old) ∈
        (w.gatewayStats.filter (fun row => considered D row.gateway)).map
          (fun row => scored D amount (refreshed D w row)) := by
      apply List.mem_map_of_mem
      rw [List.mem_filter]
      exact ⟨hold, hconsidered⟩
    have hscore := hall _ hmem
    rw [score_nonneg_iff hround, Decidable.not_not] at hscore
    exact hscore

/-!
From a trip on.
-/

theorem Calls.clock_le (h : Calls D w₀ log w) (hsane : Calls.Sane w₀) {e : CallEntry}
    (he : e ∈ log) : e.before.clock ≤ w.clock := by
  induction h with
  | start => cases he
  | pause ms h ih =>
    have := ih he
    dsimp only
    omega
  | call i call ranking h hcompletes ih =>
    rcases (h.sane hsane).completes hcompletes with ⟨_, heffect⟩
    rw [heffect, BreakerCall.effect_clock]
    rw [List.mem_append, List.mem_singleton] at he
    rcases he with he | he
    . exact ih he
    . rw [he]

theorem exists_row_of_circuitOf {gateway : GatewayProvider} {circuitState : CircuitState}
    (h : w.circuitOf gateway = some circuitState)
    : ∃ row ∈ w.gatewayStats, row.gateway = gateway ∧ row.circuitState = circuitState := by
  unfold World.circuitOf at h
  rw [Option.map_eq_some_iff] at h
  rcases h with ⟨row, hrow, hstate⟩
  exact ⟨row, List.mem_of_find?_eq_some hrow, World.gateway_of_statsOf hrow, hstate⟩

theorem Calls.tripped (hfresh : Fresh w₀) {earlier later : List CallEntry} {e : CallEntry}
    (h : Calls D w₀ (earlier ++ e :: later) w) {gateway : GatewayProvider}
    (htrips : e.trips gateway)
    : (Breaker.run settings .start (inputs D gateway (earlier ++ [e]))).phase =
        .tripped e.before.clock := by
  have hsane : Calls.Sane w₀ := ⟨hfresh.unique, hfresh.connected⟩
  rcases h.split hsane with ⟨hbefore, hafter, _, heffect⟩
  simp only [CallEntry.trips, decide_eq_true_eq] at htrips
  rcases exists_row_of_circuitOf htrips.right with ⟨row, hrow, hgateway, hopen⟩
  have hshows := hafter.shows hfresh hrow
  have htripped := hshows.isTripped_iff.mpr hopen
  rw [heffect, BreakerCall.effect_gatewayStats (hbefore.sane hsane).unique, List.mem_map] at hrow
  rcases hrow with ⟨old, hold, heq⟩
  have hold_gateway : old.gateway = gateway := by
    rw [← hgateway, ← heq, BreakerCall.onRow_gateway]
  have hstart := hbefore.shows hfresh hold
  have hnot : ¬(Breaker.run settings .start (inputs D gateway earlier)).phase.isTripped := by
    rw [← hold_gateway, hstart.isTripped_iff]
    intro hopen'
    have := circuitOf_of_mem (hbefore.sane hsane).unique hold
    rw [hold_gateway, hopen'] at this
    exact htrips.left this
  rw [hgateway, run_inputs_concat] at htripped
  rw [run_inputs_concat]
  unfold BreakerCall.next at htripped ⊢
  split at htripped
  . exact Breaker.tripped_step hnot htripped
  . exact absurd htripped hnot

theorem mem_inputs {gateway : GatewayProvider} {x : Nat × Breaker.Input}
    (hx : x ∈ inputs D gateway log)
    : ∃ e ∈ log, x.1 = e.before.clock ∧ (x.2 = .success → e.succeeds gateway) ∧
        (x.2 = .probe → e.ranks) := by
  unfold inputs at hx
  rw [List.mem_filterMap] at hx
  rcases hx with ⟨e, he, heq⟩
  unfold CallEntry.input at heq
  rw [Option.map_eq_some_iff] at heq
  rcases heq with ⟨input, hinput, hx⟩
  subst hx
  refine ⟨e, he, rfl, ?_⟩
  unfold BreakerCall.input at hinput
  unfold CallEntry.succeeds CallEntry.ranks
  split at hinput <;> grind

/--
A circuit that has tripped shows it until a call succeeds or a ranking finds that the cooldown is
over.
-/
theorem Calls.shows_tripped (hfresh : Fresh w₀) {earlier quiet later : List CallEntry}
    {trip next : CallEntry} (h : Calls D w₀ (earlier ++ trip :: quiet ++ next :: later) w)
    {gateway : GatewayProvider} (htrips : trip.trips gateway)
    (hsuccess : ∀ e ∈ quiet, ¬e.succeeds gateway)
    (hranks : ∀ e ∈ quiet, e.ranks → e.before.clock < trip.before.clock + settings.cooldown)
    (hrow : row ∈ next.before.gatewayStats) (hgateway : row.gateway = gateway)
    : ∃ b, Shows next.before row b ∧ b.phase = .tripped trip.before.clock := by
  have hsane : Calls.Sane w₀ := ⟨hfresh.unique, hfresh.connected⟩
  rcases h.split hsane with ⟨hbefore, _⟩
  refine ⟨_, hbefore.shows hfresh hrow, ?_⟩
  rw [hgateway, show earlier ++ trip :: quiet = earlier ++ [trip] ++ quiet by simp]
  unfold inputs
  rw [List.filterMap_append, Breaker.run_append]
  apply Breaker.tripped_run (hbefore.tripped hfresh htrips)
  . intro x hx heq
    rcases mem_inputs hx with ⟨e, he, _, hsucceeds, _⟩
    exact hsuccess e he (hsucceeds heq)
  . intro x hx heq
    rcases mem_inputs hx with ⟨e, he, hclock, _, hprobe⟩
    rw [hclock]
    exact hranks e he (hprobe heq)

-- No call adds a gateway or takes one away.
theorem Calls.gateways (h : Calls D w₀ log w) (hsane : Calls.Sane w₀)
    : w.gatewayStats.map (·.gateway) = w₀.gatewayStats.map (·.gateway) := by
  induction h with
  | start => rfl
  | pause ms h ih => exact ih
  | call i call ranking h hcompletes ih =>
    rcases (h.sane hsane).completes hcompletes with ⟨_, heffect⟩
    rw [heffect, BreakerCall.effect_gatewayStats (h.sane hsane).unique, List.map_map, ← ih]
    apply List.map_congr_left
    intro row _
    exact BreakerCall.onRow_gateway D call _ row

theorem Calls.exists_row (h : Calls D w₀ log w) (hsane : Calls.Sane w₀)
    (hrow : row ∈ w.gatewayStats) {log' : List CallEntry} {w' : World} (h' : Calls D w₀ log' w')
    : ∃ row' ∈ w'.gatewayStats, row'.gateway = row.gateway := by
  have hmem : row.gateway ∈ w.gatewayStats.map (·.gateway) := List.mem_map_of_mem hrow
  rw [h.gateways hsane, ← h'.gateways hsane, List.mem_map] at hmem
  exact hmem

/--
For each gateway the row counts the failures since the last success and the last promotion, the
circuit is OPEN exactly from three failures on, a trip keeps the gateway out of the rankings for 30
seconds unless all circuits are OPEN, the first ranking after that promotes it, and a success closes
its circuit.
-/
theorem breaker_refines_automaton (hround : D.RoundsScores) (hfresh : Fresh w₀)
    (h : Calls D w₀ log w) (hrow : row ∈ w.gatewayStats)
    : row.consecutiveFailures = failuresSince row.gateway log ∧
        (row.circuitState = .OPEN ↔ 3 ≤ row.consecutiveFailures) ∧
        (∀ earlier trip quiet next later amount,
          log = earlier ++ trip :: quiet ++ next :: later → trip.trips row.gateway →
          (∀ e ∈ quiet, ¬e.succeeds row.gateway) → next.call = .getRankedGateways amount →
          (next.before.clock < trip.before.clock + 30000 → row.gateway ∈ next.ranking →
            ∀ other ∈ next.after.gatewayStats, considered D other.gateway →
              other.circuitState = .OPEN) ∧
          (trip.before.clock + 30000 ≤ next.before.clock →
            (∀ e ∈ quiet, e.ranks → e.before.clock < trip.before.clock + 30000) →
            considered D row.gateway →
            row.gateway ∈ next.ranking ∧
              ∃ row' ∈ next.after.gatewayStats, row'.gateway = row.gateway ∧
                row'.circuitState = .HALF_OPEN ∧ row'.consecutiveFailures = 0)) ∧
        ∀ e ∈ log, e.succeeds row.gateway → e.after.circuitOf row.gateway = some .CLOSED := by
  have hsane : Calls.Sane w₀ := ⟨hfresh.unique, hfresh.connected⟩
  refine ⟨h.consecutiveFailures hfresh hrow, ?_, ?_, ?_⟩
  . have hshows := h.shows hfresh hrow
    have hsound := (Breaker.Sound.start (S := settings) (by decide)).run (by decide)
      (inputs D row.gateway log)
    rw [← hshows.isTripped_iff, hshows.failures]
    exact hsound
  . intro earlier trip quiet next later amount hlog htrips hsuccess hcall
    subst hlog
    rcases h.split hsane with ⟨hbefore, _, hranking, hafter⟩
    have hsane' := hbefore.sane hsane
    rcases h.exists_row hsane hrow hbefore with ⟨row', hrow', hgateway⟩
    rw [hcall] at hranking hafter
    have hrows : next.after.gatewayStats =
        next.before.gatewayStats.map (refreshed D next.before) := by
      rw [hafter]
      rfl
    rw [hranking, hrows]
    constructor
    . -- The rankings before this one came even earlier.
      intro htime hmem other hother hconsidered
      have hranks : ∀ e ∈ quiet, e.ranks →
          e.before.clock < trip.before.clock + settings.cooldown := by
        intro e he _
        have := hbefore.clock_le hsane (e := e) (by simp [he])
        simp only [settings]
        omega
      rcases h.shows_tripped hfresh htrips hsuccess hranks hrow' hgateway with ⟨b, hshows, hphase⟩
      have hopen : row'.circuitState = .OPEN := by
        have := hshows.phase
        rw [hphase] at this
        exact this.left
      have hcooled : ¬cooledDown D next.before row' := by
        rw [cooledDown_iff hshows hphase]
        rintro ⟨_, hover⟩
        simp only [settings] at hover
        omega
      have hsame : refreshed D next.before row' = row' := if_neg hcooled
      rw [List.mem_map] at hother
      rcases hother with ⟨old, hold, heq⟩
      subst heq
      rw [refreshed_gateway] at hconsidered
      rw [← hgateway] at hmem
      apply open_of_mem_ranking hround hsane'.unique hrow' _ hmem old hold hconsidered
      rw [hsame]
      exact hopen
    . intro htime hranks hconsidered
      rcases h.shows_tripped hfresh htrips hsuccess hranks hrow' hgateway with ⟨b, hshows, hphase⟩
      have hcooled : cooledDown D next.before row' := by
        rw [cooledDown_iff hshows hphase, hgateway]
        exact ⟨hconsidered, htime⟩
      have hpromoted : refreshed D next.before row' = promoted row' := if_pos hcooled
      rw [← hgateway] at hconsidered ⊢
      refine ⟨mem_ranking hround hrow' hconsidered ?_ amount, promoted row', ?_, rfl, rfl, rfl⟩
      . rw [hpromoted]
        simp [promoted]
      . rw [← hpromoted]
        exact List.mem_map_of_mem hrow'
  . intro e he hsucceeds
    rcases List.append_of_mem he with ⟨earlier, later, hlog⟩
    subst hlog
    rcases h.split hsane with ⟨hbefore, _, _, hafter⟩
    rcases h.exists_row hsane hrow hbefore with ⟨row', hrow', hgateway⟩
    have hclosed : (e.call.onRow D e.before row').circuitState = .CLOSED := by
      unfold CallEntry.succeeds at hsucceeds
      split at hsucceeds
      . next g latencyMs hcall =>
        rw [decide_eq_true_eq] at hsucceeds
        rw [hcall]
        simp [BreakerCall.onRow, hgateway, hsucceeds, succeeded]
      . cases hsucceeds
    rw [← hgateway, ← BreakerCall.onRow_gateway D e.call e.before row', ← hclosed, hafter]
    apply circuitOf_of_mem ((hbefore.sane hsane).effect e.call).unique
    rw [BreakerCall.effect_gatewayStats (hbefore.sane hsane).unique]
    exact List.mem_map_of_mem hrow'

namespace Scenario

theorem fresh_start : Fresh (World.start seedStats) where
  unique := by
    unfold UniqueStats
    decide
  closed := by decide
  connected := fun _ => rfl

theorem roundsScores_deployment : deployment.RoundsScores := by
  intro stats circuitState amount h
  exact h

-- Three failures, and a ranking half a minute later.
def outage : List (Nat × BreakerCall) :=
  [(0, .recordFailure .UPI 5), (10, .recordFailure .UPI 5), (10, .recordFailure .UPI 5),
    (30000, .getRankedGateways 1015)]

end Scenario

open Scenario in
theorem breaker_refines_automaton_outage
    : ∃ log w next, Calls deployment (World.start seedStats) (log ++ [next]) w ∧
        .UPI ∈ next.ranking ∧ ∃ row ∈ next.after.gatewayStats, row.gateway = .UPI ∧
          row.circuitState = .HALF_OPEN := by
  let s := callsFrom deployment outage [] (World.start seedStats)
  have hfresh := fresh_start
  have hcalls : Calls deployment (World.start seedStats) s.1 s.2 :=
    Calls.extend ⟨hfresh.unique, hfresh.connected⟩ outage .start
  have hrow : (⟨.UPI, 0, 3, 5, 50, .HALF_OPEN, 0⟩ : GatewayStats) ∈ s.2.gatewayStats := by decide
  have h := breaker_refines_automaton roundsScores_deployment hfresh hcalls hrow
  rcases h with ⟨_, _, htrip, _⟩
  have hnext := htrip [_, _] _ [] _ [] 1015 rfl (by decide) (by simp) rfl
  rcases hnext.right (by decide) (by simp) (by decide) with ⟨hmem, row, hrow', hgateway, hstate, _⟩
  exact ⟨_, _, _, hcalls, hmem, row, hrow', hgateway, hstate⟩

end PaymentOrchestration
