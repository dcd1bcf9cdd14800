import PaymentOrchestration.Breaker.Refinement

/-!
This module is about what a sequence of calls does to one gateway: to its row and to its key, whatever
happens to the others.
-/

namespace PaymentOrchestration

open RoutingEngine

variable {D : Deployment} {g : GatewayProvider} {w w' : World}

theorem World.statsOf_mapStats {f : GatewayStats → GatewayStats}
    (hf : ∀ row, (f row).gateway = row.gateway) : (w.mapStats f).statsOf g = (w.statsOf g).map f := by
  unfold World.statsOf
  rw [World.mapStats_gatewayStats, List.find?_map]
  congr 2
  funext row
  simp [hf]

theorem BreakerCall.effect_statsOf (hunique : UniqueStats w) (call : BreakerCall)
    : (call.effect D w).statsOf g = (w.statsOf g).map (call.onRow D w) := by
  rw [← World.statsOf_mapStats (BreakerCall.onRow_gateway D call w)]
  unfold World.statsOf
  rw [effect_gatewayStats hunique]
  rfl

/--
What the call makes of the key of a gateway.
-/
def BreakerCall.onKey (call : BreakerCall) (g : GatewayProvider) (now : Nat)
    (row : Option GatewayStats) (key : Option Entry) : Option Entry :=
  match call with
  | .recordSuccess gateway _ =>
    if gateway = g ∧ row.any (·.circuitState ≠ .CLOSED) then none else key
  | .recordFailure gateway _ => if gateway = g ∧ row.any trips then some (openEntry now) else key
  | .getRankedGateways _ => key

theorem World.setKey_entries {gateway : GatewayProvider} {entry : Option Entry}
    : (w.setKey (circuitKey gateway) entry).redis.entries (circuitKey g) =
        if gateway = g then entry else w.redis.entries (circuitKey g) := by
  unfold World.setKey
  split
  . next heq =>
    subst heq
    exact Function.update_self ..
  . next hne =>
    apply Function.update_of_ne
    intro heq
    exact hne (circuitKey_inj heq).symm

theorem BreakerCall.effect_key (call : BreakerCall)
    : (call.effect D w).redis.entries (circuitKey g) =
        call.onKey g w.clock (w.statsOf g) (w.redis.entries (circuitKey g)) := by
  unfold onKey
  cases call with
  | recordSuccess gateway latencyMs =>
    cases hrow : w.statsOf gateway with
    | none =>
      dsimp only
      rw [if_neg]
      . simp [effect, hrow]
      . rintro ⟨heq, hany⟩
        simp [← heq, hrow] at hany
    | some row =>
      rw [effect_recordSuccess hrow, World.mapStats_redis]
      by_cases hgateway : gateway = g
      . subst hgateway
        simp only [hrow]
        split <;> simp_all [World.setKey_entries]
      . simp only [hgateway, false_and, if_false]
        split
        . rfl
        . rw [World.setKey_entries, if_neg hgateway]
  | recordFailure gateway latencyMs =>
    cases hrow : w.statsOf gateway with
    | none =>
      dsimp only
      rw [if_neg]
      . simp [effect, hrow]
      . rintro ⟨heq, hany⟩
        simp [← heq, hrow] at hany
    | some row =>
      rw [effect_recordFailure hrow, World.mapStats_redis]
      by_cases hgateway : gateway = g
      . subst hgateway
        simp only [hrow]
        split <;> simp_all [World.setKey_entries]
      . simp only [hgateway, false_and, if_false]
        split
        . rw [World.setKey_entries, if_neg hgateway]
        . rfl
  | getRankedGateways amount => rfl

variable (g) in
/--
The two worlds look the same to whoever is interested in one gateway.
-/
structure SameView (w w' : World) : Prop where
  row : w.statsOf g = w'.statsOf g
  key : w.redis.entries (circuitKey g) = w'.redis.entries (circuitKey g)
  clock : w.clock = w'.clock

theorem SameView.cooledDown (h : SameView g w w') {row : GatewayStats} (hg : row.gateway = g)
    : cooledDown D w row = cooledDown D w' row := by
  subst hg
  unfold RoutingEngine.cooledDown Redis.lookup
  rw [h.key, h.clock]

theorem SameView.trans {w'' : World} (h : SameView g w w') (h' : SameView g w' w'')
    : SameView g w w'' := by
  exact ⟨h.row.trans h'.row, h.key.trans h'.key, h.clock.trans h'.clock⟩

theorem SameView.effect (h : SameView g w w') (hunique : UniqueStats w) (hunique' : UniqueStats w')
    (call : BreakerCall) : SameView g (call.effect D w) (call.effect D w') := by
  constructor
  . rw [call.effect_statsOf hunique, call.effect_statsOf hunique', ← h.row]
    apply Option.map_congr
    intro row hrow
    cases call with
    | getRankedGateways amount =>
      simp only [BreakerCall.onRow, refreshed, h.cooledDown (World.gateway_of_statsOf hrow)]
    | _ => rfl
  . rw [call.effect_key, call.effect_key, h.row, h.key, h.clock]
  . rw [call.effect_clock, call.effect_clock, h.clock]

/-!
Sequences of calls.
-/

def World.after (ms : Nat) (w : World) : World :=
  { w with clock := w.clock + ms }

def runCalls (D : Deployment) (calls : List (Nat × BreakerCall)) (w : World) : World :=
  calls.foldl (fun w x => x.2.effect D (w.after x.1)) w

@[simp]
theorem runCalls_nil : runCalls D [] w = w := by
  rfl

@[simp]
theorem runCalls_cons (x : Nat × BreakerCall) (calls : List (Nat × BreakerCall))
    : runCalls D (x :: calls) w = runCalls D calls (x.2.effect D (w.after x.1)) := by
  rfl

theorem runCalls_append (calls calls' : List (Nat × BreakerCall))
    : runCalls D (calls ++ calls') w = runCalls D calls' (runCalls D calls w) := by
  exact List.foldl_append

theorem callsFrom_world (calls : List (Nat × BreakerCall)) (log : List CallEntry)
    : (callsFrom D calls log w).2 = runCalls D calls w := by
  induction calls generalizing log w with
  | nil => rfl
  | cons x calls ih => exact ih _

theorem callsFrom_calls (calls : List (Nat × BreakerCall)) (log : List CallEntry)
    : (callsFrom D calls log w).1.map (·.call) = log.map (·.call) ++ calls.map (·.2) := by
  induction calls generalizing log w with
  | nil => simp [callsFrom]
  | cons x calls ih =>
    rcases x with ⟨ms, call⟩
    unfold callsFrom
    rw [ih]
    simp

theorem UniqueStats.runCalls (hunique : UniqueStats w) (calls : List (Nat × BreakerCall))
    : UniqueStats (runCalls D calls w) := by
  induction calls generalizing w with
  | nil => exact hunique
  | cons x calls ih => exact ih (x.2.effect_unique (w := w.after x.1) hunique)

theorem SameView.runCalls (h : SameView g w w') (hunique : UniqueStats w)
    (hunique' : UniqueStats w') (calls : List (Nat × BreakerCall))
    : SameView g (runCalls D calls w) (runCalls D calls w') := by
  induction calls generalizing w w' with
  | nil => exact h
  | cons x calls ih =>
    have hafter : SameView g (w.after x.1) (w'.after x.1) :=
      ⟨h.row, h.key, congrArg (· + x.1) h.clock⟩
    apply ih _ (x.2.effect_unique (w := w.after x.1) hunique)
      (x.2.effect_unique (w := w'.after x.1) hunique')
    have hunique₁ : UniqueStats (w.after x.1) := hunique
    have hunique₁' : UniqueStats (w'.after x.1) := hunique'
    exact hafter.effect hunique₁ hunique₁' x.2

/-!
Calls that leave the gateway alone.
-/

variable (D) (g) in
/--
A ranking would leave the row of the gateway as it is.
-/
def AtRest (w : World) : Prop :=
  ∀ row, w.statsOf g = some row → cooledDown D w row = false

theorem SameView.atRest (h : SameView g w w') (hrest : AtRest D g w) : AtRest D g w' := by
  intro row hrow
  rw [← h.row] at hrow
  rw [← h.cooledDown (World.gateway_of_statsOf hrow)]
  exact hrest row hrow

-- The call does nothing to the gateway in world `w`.
def BreakerCall.Idle (D : Deployment) (g : GatewayProvider) (w : World) (call : BreakerCall)
    : Prop :=
  call.records g = false ∧ ∀ amount, call = .getRankedGateways amount → AtRest D g w

theorem BreakerCall.Idle.sameView (hunique : UniqueStats w) {call : BreakerCall}
    (hidle : call.Idle D g w) : SameView g w (call.effect D w) := by
  rcases hidle with ⟨hrecords, hrest⟩
  constructor
  . rw [call.effect_statsOf hunique]
    cases hrow : w.statsOf g with
    | none => rfl
    | some row =>
      have hgateway := World.gateway_of_statsOf hrow
      rw [Option.map_some, Option.some.injEq]
      symm
      cases call with
      | recordSuccess gateway latencyMs =>
        apply if_neg
        intro heq
        simp [records, ← heq, hgateway] at hrecords
      | recordFailure gateway latencyMs =>
        apply if_neg
        intro heq
        simp [records, ← heq, hgateway] at hrecords
      | getRankedGateways amount =>
        apply if_neg
        rw [hrest amount rfl row hrow]
        simp
  . rw [call.effect_key]
    cases call <;> simp_all [onKey, records]
  . rw [call.effect_clock]

theorem runCalls_idle (hunique : UniqueStats w) {calls : List BreakerCall}
    (hidle : ∀ call ∈ calls, call.Idle D g w)
    : SameView g w (runCalls D (calls.map (fun call => (0, call))) w) := by
  induction calls generalizing w with
  | nil => exact ⟨rfl, rfl, rfl⟩
  | cons call calls ih =>
    have hcall := (hidle call (by simp)).sameView hunique
    rw [List.map_cons, runCalls_cons]
    apply hcall.trans
    apply ih (call.effect_unique hunique)
    intro call' hcall'
    rcases hidle call' (by simp [hcall']) with ⟨hrecords, hrest⟩
    exact ⟨hrecords, fun amount heq => hcall.atRest (hrest amount heq)⟩

/--
Calls that do nothing at some point of a sequence can be put there.
-/
theorem runCalls_insert (hunique : UniqueStats w) {calls : List BreakerCall}
    (before later : List (Nat × BreakerCall))
    (hidle : ∀ call ∈ calls, call.Idle D g (runCalls D before w))
    : SameView g (runCalls D (before ++ later) w)
        (runCalls D (before ++ calls.map (fun call => (0, call)) ++ later) w) := by
  rw [runCalls_append, runCalls_append, runCalls_append]
  have hbefore := hunique.runCalls (D := D) before
  exact (runCalls_idle hbefore hidle).runCalls hbefore (hbefore.runCalls _) later

/-!
The key of the gateway.
-/

variable (g) in
/--
The key is one that a trip has set, and it will be gone half a minute from now.
-/
def KeyExpires (w : World) : Prop :=
  ∀ entry, w.redis.entries (circuitKey g) = some entry → ∃ t ≤ w.clock, entry = openEntry t

theorem KeyExpires.after (h : KeyExpires g w) (ms : Nat) : KeyExpires g (w.after ms) := by
  intro entry hentry
  rcases h entry hentry with ⟨t, ht, heq⟩
  refine ⟨t, ?_, heq⟩
  unfold World.after
  dsimp only
  omega

theorem KeyExpires.effect (h : KeyExpires g w) (call : BreakerCall)
    : KeyExpires g (call.effect D w) := by
  intro entry hentry
  rw [call.effect_key] at hentry
  rw [call.effect_clock]
  cases call with
  | recordSuccess gateway latencyMs =>
    unfold BreakerCall.onKey at hentry
    dsimp only at hentry
    split at hentry
    . cases hentry
    . exact h entry hentry
  | recordFailure gateway latencyMs =>
    unfold BreakerCall.onKey at hentry
    dsimp only at hentry
    split at hentry
    . rw [Option.some.injEq] at hentry
      exact ⟨w.clock, Nat.le_refl _, hentry.symm⟩
    . exact h entry hentry
  | getRankedGateways amount => exact h entry hentry

theorem KeyExpires.runCalls (h : KeyExpires g w) (calls : List (Nat × BreakerCall))
    : KeyExpires g (runCalls D calls w) := by
  induction calls generalizing w with
  | nil => exact h
  | cons x calls ih => exact ih ((h.after x.1).effect x.2)

/--
After half a minute a ranking promotes the gateway if it is OPEN.
-/
theorem cooledDown_after (h : KeyExpires g w) {row : GatewayStats} (hgateway : row.gateway = g)
    : cooledDown D (w.after 30000) row =
        decide (considered D row.gateway ∧ row.circuitState = .OPEN) := by
  subst hgateway
  have hnone : Stored.missing (w.redis.lookup (w.clock + 30000) (circuitKey row.gateway)) := by
    unfold Redis.lookup
    split
    . next entry hentry =>
      rcases h entry hentry with ⟨t, ht, heq⟩
      subst heq
      simp only [openEntry]
      rw [if_neg (by omega)]
      rfl
    . rfl
  unfold cooledDown World.after
  dsimp only
  rw [hnone]
  simp

/-!
What is left of the calls in the row.
-/

def recorded (row : GatewayStats) : Nat :=
  row.successCount + row.failureCount

theorem recorded_onRow (call : BreakerCall) {row : GatewayStats} (hgateway : row.gateway = g)
    : recorded (call.onRow D w row) = recorded row + if call.records g then 1 else 0 := by
  subst hgateway
  cases call with
  | recordSuccess gateway latencyMs =>
    by_cases hgateway : row.gateway = gateway
    . simp [BreakerCall.onRow, BreakerCall.records, hgateway, recorded, succeeded]
      omega
    . simp [BreakerCall.onRow, BreakerCall.records, hgateway, Ne.symm hgateway]
  | recordFailure gateway latencyMs =>
    by_cases hgateway : row.gateway = gateway
    . simp [BreakerCall.onRow, BreakerCall.records, hgateway, recorded, failed]
      omega
    . simp [BreakerCall.onRow, BreakerCall.records, hgateway, Ne.symm hgateway]
  | getRankedGateways amount =>
    simp only [BreakerCall.onRow, BreakerCall.records, refreshed]
    split <;> rfl

variable {w₀ : World} {log : List CallEntry}

/--
What is true of the row before the calls and kept by each of them is true of it after them.
-/
theorem Calls.row_induction {P : List BreakerCall → GatewayStats → Prop} (h : Calls D w₀ log w)
    (hsane : Calls.Sane w₀) {row₀ : GatewayStats} (hrow₀ : w₀.statsOf g = some row₀)
    (hstart : P [] row₀)
    (hstep : ∀ calls call w row, row.gateway = g → P calls row →
      P (calls ++ [call]) (call.onRow D w row))
    : ∃ row, w.statsOf g = some row ∧ P (log.map (·.call)) row := by
  induction h with
  | start => exact ⟨row₀, hrow₀, hstart⟩
  | pause ms h ih => exact ih
  | @call log w w' i call ranking h hcompletes ih =>
    rcases ih with ⟨row, hrow, hP⟩
    rcases (h.sane hsane).completes hcompletes with ⟨_, heffect⟩
    refine ⟨call.onRow D w row, ?_, ?_⟩
    . rw [heffect, call.effect_statsOf (h.sane hsane).unique, hrow]
      rfl
    . rw [List.map_append]
      exact hstep _ call w row (World.gateway_of_statsOf hrow) hP

theorem Calls.recorded (h : Calls D w₀ log w) (hsane : Calls.Sane w₀) {row₀ : GatewayStats}
    (hrow₀ : w₀.statsOf g = some row₀)
    : ∃ row, w.statsOf g = some row ∧
        recorded row = PaymentOrchestration.recorded row₀ +
          (log.map (·.call)).countP (·.records g) := by
  apply h.row_induction hsane hrow₀
    (P := fun calls row => PaymentOrchestration.recorded row =
      PaymentOrchestration.recorded row₀ + calls.countP (·.records g)) (by simp)
  intro calls call w row hgateway hcount
  rw [recorded_onRow call hgateway, hcount, List.countP_append, List.countP_singleton,
    Nat.add_assoc]

-- No success of the gateway and no ranking.
def Failing (g : GatewayProvider) (calls : List BreakerCall) : Prop :=
  ∀ call ∈ calls, (∀ latencyMs, call ≠ .recordSuccess g latencyMs) ∧
    ∀ amount, call ≠ .getRankedGateways amount

theorem failed_closed {row : GatewayStats} {n latencyMs : Nat} (hfailures : n ≤ row.consecutiveFailures)
    (hstate : row.circuitState = .OPEN ∨ row.circuitState = .CLOSED ∧ n < 3)
    : n + 1 ≤ (failed latencyMs row).consecutiveFailures ∧
        ((failed latencyMs row).circuitState = .OPEN ∨
          (failed latencyMs row).circuitState = .CLOSED ∧ n + 1 < 3) := by
  unfold failed trips
  dsimp only
  refine ⟨by omega, ?_⟩
  rcases hstate with hopen | ⟨hclosed, hless⟩
  . simp [hopen]
  . rw [hclosed]
    by_cases htrips : 3 ≤ row.consecutiveFailures + 1
    . simp [htrips]
    . simp [htrips]
      omega

/--
Three failures of a CLOSED gateway trip it.
-/
theorem Calls.open_of_failing (h : Calls D w₀ log w) (hsane : Calls.Sane w₀) {row₀ : GatewayStats}
    (hrow₀ : w₀.statsOf g = some row₀) (hclosed : row₀.circuitState = .CLOSED)
    (hfailing : Failing g (log.map (·.call)))
    (hcount : 3 ≤ (log.map (·.call)).countP (·.records g))
    : ∃ row, w.statsOf g = some row ∧ row.circuitState = .OPEN := by
  have hrow := h.row_induction hsane hrow₀ (P := fun calls row => Failing g calls →
    calls.countP (·.records g) ≤ row.consecutiveFailures ∧
      (row.circuitState = .OPEN ∨
        row.circuitState = .CLOSED ∧ calls.countP (·.records g) < 3)) (by simp [hclosed])
  rcases hrow (by
    intro calls call w row hgateway hP hfailing
    rw [List.countP_append, List.countP_singleton]
    have hcall := hfailing call (by simp)
    rcases hP (fun call' hcall' => hfailing call' (by simp [hcall'])) with ⟨hfailures, hstate⟩
    cases call with
    | recordSuccess gateway latencyMs =>
      have hne : gateway ≠ g := by
        rintro rfl
        exact hcall.left latencyMs rfl
      have hne' : row.gateway ≠ gateway := by
        rw [hgateway]
        exact hne.symm
      simpa [BreakerCall.onRow, BreakerCall.records, hne, hne'] using ⟨hfailures, hstate⟩
    | recordFailure gateway latencyMs =>
      by_cases hne : gateway = g
      . subst hne
        rw [if_pos (by simp [BreakerCall.records])]
        rw [show (BreakerCall.recordFailure gateway latencyMs).onRow D w row =
          failed latencyMs row from if_pos hgateway]
        exact failed_closed hfailures hstate
      . have hne' : row.gateway ≠ gateway := by
          rw [hgateway]
          exact Ne.symm hne
        simpa [BreakerCall.onRow, BreakerCall.records, hne, hne'] using ⟨hfailures, hstate⟩
    | getRankedGateways amount => exact absurd rfl (hcall.right amount)) with ⟨row, hrow, hP⟩
  rcases (hP hfailing).right with hopen | ⟨_, hless⟩
  . exact ⟨row, hrow, hopen⟩
  . omega

end PaymentOrchestration
