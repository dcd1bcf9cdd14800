import PaymentOrchestration.Breaker.Caller
import PaymentOrchestration.Breaker.Serial
import PaymentOrchestration.Concurrency.Observed

/-!
This module is about calls of `RoutingEngineService` that overlap. Each of them reads a row, computes
a new one and saves it as a whole, so that a save undoes what others have saved since its call read
the row. Where that does not happen the calls have run in some order.
-/

namespace PaymentOrchestration

open RoutingEngine

inductive StatsEvent where
  | read (i : Pid)
  | saved (i : Pid) (gateway : GatewayProvider)
  deriving DecidableEq

-- The observer sees who reads the statistics and who saves a row of them.
def seesStats (i : Pid) (cmd : Cmd) (_ : Oracle) (_ : World) : List StatsEvent :=
  match cmd with
  | .findStats => [.read i]
  | .findStatsOf _ => [.read i]
  | .saveStats stats => [.saved i stats.gateway]
  | _ => []

abbrev Callers (D : Deployment) :=
  ((machine D).observed seesStats).Config (List GatewayProvider)

variable {D : Deployment}

namespace Callers

structure Start (w₀ : World) (c : Callers D) : Prop where
  idle : ∀ i, c.pool i = .idle
  world : c.world = (w₀, [])

/--
Nothing fails. Time may pass at any moment.
-/
def Smooth (_ : Callers D) (a : ((machine D).observed seesStats).Act) : Prop :=
  match a with
  | .run _ o => Healthy o
  | .env (.tick _) => True
  | .env _ => False
  | .crash _ => False
  | _ => True

def sinceRead (i : Pid) (log : List StatsEvent) : List StatsEvent :=
  log.rtakeWhile (fun e => e ≠ .read i)

variable (calls : Pid → BreakerCall) (g : GatewayProvider)

-- The event saves the row of the gateway with a new outcome.
def recordedBy (e : StatsEvent) : Bool :=
  match e with
  | .saved j gateway => gateway = g ∧ (calls j).records g
  | .read _ => false

def changedBy (e : StatsEvent) : Bool :=
  match e with
  | .saved _ gateway => gateway = g
  | .read _ => false

/--
A call must not save the row if it has been saved since the call read it. Only where the call does
not go by the state of the circuit nor by the failures in a row may the row have been promoted.
-/
def overtakenBy (call : BreakerCall) (e : StatsEvent) : Bool :=
  match call with
  | .recordFailure _ _ => changedBy g e
  | _ => recordedBy calls g e

/--
Nothing fails, and no call saves the row of the gateway after it has been overtaken.
-/
def Undisturbed (c : Callers D) (a : ((machine D).observed seesStats).Act) : Prop :=
  Smooth c a ∧
    ∀ i o stats k, a = .run i o → c.pool i = .running (.op (.saveStats stats) k) →
      stats.gateway = g → ∀ e ∈ sinceRead i c.world.2, ¬overtakenBy calls g (calls i) e

end Callers

open Callers

/-!
The calls that have saved the row so far, in the order of their saves.
-/

variable {calls : Pid → BreakerCall} {g : GatewayProvider} {w₀ w : World}

structure Undamaged (g : GatewayProvider) (w : World) : Prop where
  unique : UniqueStats w
  connected : ∀ inst, (w.mem inst).isMockMode = false
  key : KeyExpires g w

def schedule (calls : Pid → BreakerCall) (order : List (Nat × Pid)) : List (Nat × BreakerCall) :=
  order.map (fun x => (x.1, calls x.2))

/--
`row` is the row as it is now and `old` as it was read. `events` is what has happened since.
-/
structure Since (calls : Pid → BreakerCall) (g : GatewayProvider) (events : List StatsEvent)
    (old row : GatewayStats) : Prop where
  recorded : (∀ e ∈ events, ¬recordedBy calls g e) →
    row = old ∨ old.circuitState = .OPEN ∧ row = promoted old
  changed : (∀ e ∈ events, ¬changedBy g e) → row = old

/--
The calls in `order` have saved the row, one after the other.
-/
structure Orderly (D : Deployment) (calls : Pid → BreakerCall) (g : GatewayProvider) (w₀ : World)
    (order : List (Nat × Pid)) (row : GatewayStats) (w : World) (log : List StatsEvent)
    (state : Pid → Caller) : Prop where
  unique : UniqueStats w
  connected : ∀ inst, (w.mem inst).isMockMode = false
  call : ∀ i, (state i).call = calls i
  nodup : (order.map (·.2)).Nodup
  settled : ∀ i ∈ order.map (·.2), (state i).turn = .settled
  recorded : ∀ i, (calls i).records g → (state i).turn = .settled → i ∈ order.map (·.2)
  table : w.statsOf g = some row
  serial : (runCalls D (schedule calls order) w₀).statsOf g = some row
  loaded : ∀ i old, (state i).turn = .loaded (some old) → old.gateway = g →
    Since calls g (sinceRead i log) old row
  missing : ∀ i, (calls i).records g → (state i).turn ≠ .loaded none
  -- The row has been free of a due promotion at some point, or it is due since the beginning.
  rest : (∃ before later, order = before ++ later ∧
      AtRest D g (runCalls D (schedule calls before) w₀)) ∨
    cooledDown D w row ∧ ∀ i old, (state i).turn = .loaded (some old) → old.gateway = g →
      old.circuitState = .OPEN
  -- A ranking that has settled without a save has seen the row when no promotion was due.
  passed : ∀ i amount, calls i = .getRankedGateways amount → (state i).turn = .settled →
    i ∈ order.map (·.2) ∨ ∃ before later, order = before ++ later ∧
      AtRest D g (runCalls D (schedule calls before) w₀)

variable {order : List (Nat × Pid)} {row : GatewayStats} {log : List StatsEvent}
  {state : Pid → Caller}

theorem sinceRead_read (i : Pid) : sinceRead i (log ++ [.read i]) = [] := by
  unfold sinceRead
  apply List.rtakeWhile_concat_neg
  simp

theorem sinceRead_concat {i : Pid} {e : StatsEvent} (h : e ≠ .read i)
    : sinceRead i (log ++ [e]) = sinceRead i log ++ [e] := by
  unfold sinceRead
  apply List.rtakeWhile_concat_pos
  simpa using h

theorem promoted_promoted (row : GatewayStats) : promoted (promoted row) = promoted row := by
  rfl

-- An event that does not save the row.
theorem Since.other {events : List StatsEvent} {old : GatewayStats}
    (h : Since calls g events old row) (e : StatsEvent)
    : Since calls g (events ++ [e]) old row := by
  constructor
  . intro hevents
    apply h.recorded
    intro e' he'
    exact hevents e' (by simp [he'])
  . intro hevents
    apply h.changed
    intro e' he'
    exact hevents e' (by simp [he'])

/--
A save by another call. It is a new outcome, or it promotes the row.
-/
theorem Since.saved {events : List StatsEvent} {old row' : GatewayStats} {j : Pid}
    (h : Since calls g events old row)
    (hrow' : (calls j).records g = false →
      row' = promoted row ∧ (row.circuitState = .OPEN ∨ promoted row = row))
    : Since calls g (events ++ [.saved j g]) old row' := by
  constructor
  . intro hevents
    have hj : (calls j).records g = false := by
      have := hevents (.saved j g) (by simp)
      simpa [recordedBy] using this
    rcases hrow' hj with ⟨heq, hstate⟩
    subst heq
    rcases h.recorded (fun e he => hevents e (by simp [he])) with hold | ⟨hopen, hold⟩
    . subst hold
      rcases hstate with hopen | hsame
      . exact .inr ⟨hopen, rfl⟩
      . exact .inl hsame
    . subst hold
      exact .inr ⟨hopen, promoted_promoted old⟩
  . intro hevents
    have := hevents (.saved j g) (by simp)
    simp [changedBy] at this

/-!
What the steps of a call do.
-/

namespace Orderly

theorem start (hg : Undamaged g w) (hrow : w.statsOf g = some row)
    : Orderly D calls g w [] row w [] (fun i => ⟨calls i, .waiting⟩) where
  unique := hg.unique
  connected := hg.connected
  call := fun _ => rfl
  nodup := List.nodup_nil
  settled := by simp
  recorded := by simp
  table := hrow
  serial := hrow
  loaded := by simp
  missing := by simp
  rest := by
    by_cases hcooled : cooledDown D w row
    . exact .inr ⟨hcooled, by simp⟩
    . left
      refine ⟨[], [], rfl, ?_⟩
      intro row' hrow'
      have hstart : runCalls D (schedule calls []) w = w := rfl
      rw [hstart] at hrow' ⊢
      rw [hrow, Option.some.injEq] at hrow'
      rw [← hrow']
      simpa using hcooled
  passed := by simp

-- Nothing happens to the row, and a promotion that is due stays due.
theorem world (h : Orderly D calls g w₀ order row w log state) {w' : World}
    (hunique : UniqueStats w') (hmem : w'.mem = w.mem) (htable : w'.statsOf g = w.statsOf g)
    (hdue : cooledDown D w row →
      (∀ i old, (state i).turn = .loaded (some old) → old.gateway = g →
        old.circuitState = .OPEN) → cooledDown D w' row)
    : Orderly D calls g w₀ order row w' log state where
  unique := hunique
  connected := by
    rw [hmem]
    exact h.connected
  call := h.call
  nodup := h.nodup
  settled := h.settled
  recorded := h.recorded
  table := htable.trans h.table
  serial := h.serial
  loaded := h.loaded
  missing := h.missing
  rest := by
    rcases h.rest with hrest | ⟨hcooled, hopen⟩
    . exact .inl hrest
    . exact .inr ⟨hdue hcooled hopen, hopen⟩
  passed := h.passed

-- Somebody reads the statistics, or saves the row of another gateway.
theorem event (h : Orderly D calls g w₀ order row w log state) {e : StatsEvent}
    (he : ∀ i old, (state i).turn = .loaded (some old) → e ≠ .read i)
    : Orderly D calls g w₀ order row w (log ++ [e]) state where
  unique := h.unique
  connected := h.connected
  call := h.call
  nodup := h.nodup
  settled := h.settled
  recorded := h.recorded
  table := h.table
  serial := h.serial
  loaded := by
    intro i old hturn hgateway
    rw [sinceRead_concat (he i old hturn)]
    exact (h.loaded i old hturn hgateway).other e
  missing := h.missing
  rest := h.rest
  passed := h.passed

/--
A call moves on without saving the row.
-/
theorem turn (h : Orderly D calls g w₀ order row w log state) {i : Pid} {turn : Turn}
    (hi : (state i).turn ≠ .settled)
    (hsettled : turn = .settled → (calls i).records g = false ∧
      ∀ amount, calls i = .getRankedGateways amount → ¬cooledDown D w row)
    (hloaded : ∀ old, turn = .loaded (some old) → old.gateway = g → old = row ∧
      sinceRead i log = [])
    (hmissing : turn = .loaded none → (calls i).records g = false)
    : Orderly D calls g w₀ order row w log
        (Function.update state i { state i with turn := turn }) where
  unique := h.unique
  connected := h.connected
  call := by
    intro j
    by_cases hj : j = i
    . subst hj
      simp [h.call]
    . simp [hj, h.call]
  nodup := h.nodup
  settled := by
    intro j hmem
    have hne : j ≠ i := by
      rintro rfl
      exact hi (h.settled j hmem)
    simpa [hne] using h.settled j hmem
  recorded := by
    intro j hrecords hturn
    by_cases hj : j = i
    . subst hj
      simp only [Function.update_self] at hturn
      rw [(hsettled hturn).left] at hrecords
      cases hrecords
    . simp only [ne_eq, hj, not_false_eq_true, Function.update_of_ne] at hturn
      exact h.recorded j hrecords hturn
  table := h.table
  serial := h.serial
  loaded := by
    intro j old hturn hgateway
    by_cases hj : j = i
    . subst hj
      simp only [Function.update_self] at hturn
      rcases hloaded old hturn hgateway with ⟨heq, hnil⟩
      rw [hnil]
      exact ⟨fun _ => .inl heq.symm, fun _ => heq.symm⟩
    . simp only [ne_eq, hj, not_false_eq_true, Function.update_of_ne] at hturn
      exact h.loaded j old hturn hgateway
  missing := by
    intro j hrecords hturn
    by_cases hj : j = i
    . subst hj
      simp only [Function.update_self] at hturn
      rw [hmissing hturn] at hrecords
      cases hrecords
    . simp only [ne_eq, hj, not_false_eq_true, Function.update_of_ne] at hturn
      exact h.missing j hrecords hturn
  rest := by
    rcases h.rest with hrest | ⟨hcooled, hopen⟩
    . exact .inl hrest
    . refine .inr ⟨hcooled, ?_⟩
      intro j old hturn hgateway
      by_cases hj : j = i
      . subst hj
        simp only [Function.update_self] at hturn
        rw [(hloaded old hturn hgateway).left]
        rw [cooledDown_eq_true] at hcooled
        exact hcooled.right.left
      . simp only [ne_eq, hj, not_false_eq_true, Function.update_of_ne] at hturn
        exact hopen j old hturn hgateway
  passed := by
    intro j amount hcall hturn
    by_cases hj : j = i
    . subst hj
      simp only [Function.update_self] at hturn
      rcases h.rest with hrest | ⟨hcooled, _⟩
      . exact .inr hrest
      . exact absurd hcooled ((hsettled hturn).right amount hcall)
    . simp only [ne_eq, hj, not_false_eq_true, Function.update_of_ne] at hturn
      exact h.passed j amount hcall hturn

theorem schedule_concat (x : Nat × Pid)
    : runCalls D (schedule calls (order ++ [x])) w₀ =
        (calls x.2).effect D ((runCalls D (schedule calls order) w₀).after x.1) := by
  unfold schedule
  rw [List.map_append, runCalls_append]
  rfl

/--
A call saves the row.
-/
theorem saves (h : Orderly D calls g w₀ order row w log state) {i : Pid} {ms : Nat}
    {row' : GatewayStats} {w' : World} (hi : (state i).turn ≠ .settled)
    (hunique : UniqueStats w') (hmem : w'.mem = w.mem) (htable : w'.statsOf g = some row')
    (hserial : (runCalls D (schedule calls (order ++ [(ms, i)])) w₀).statsOf g = some row')
    (hpromoted : (calls i).records g = false →
      row' = promoted row ∧ (row.circuitState = .OPEN ∨ promoted row = row))
    (hrest : row'.circuitState ≠ .OPEN ∨ (cooledDown D w row → cooledDown D w' row'))
    : Orderly D calls g w₀ (order ++ [(ms, i)]) row' w' (log ++ [.saved i g])
        (Function.update state i { state i with turn := .settled }) where
  unique := hunique
  connected := by
    rw [hmem]
    exact h.connected
  call := by
    intro j
    by_cases hj : j = i
    . subst hj
      simp [h.call]
    . simp [hj, h.call]
  nodup := by
    rw [List.map_append, List.map_singleton, List.nodup_append]
    refine ⟨h.nodup, List.nodup_singleton i, ?_⟩
    intro j hj k hk heq
    rw [List.mem_singleton] at hk
    subst hk heq
    exact hi (h.settled j hj)
  settled := by
    intro j hmem
    by_cases hj : j = i
    . subst hj
      simp
    . rw [Function.update_of_ne hj]
      apply h.settled
      simpa [hj] using hmem
  recorded := by
    intro j hrecords hturn
    rw [List.map_append, List.mem_append]
    by_cases hj : j = i
    . exact .inr (by simp [hj])
    . rw [Function.update_of_ne hj] at hturn
      exact .inl (h.recorded j hrecords hturn)
  table := htable
  serial := hserial
  loaded := by
    intro j old hturn hgateway
    by_cases hj : j = i
    . subst hj
      simp at hturn
    . rw [Function.update_of_ne hj] at hturn
      rw [sinceRead_concat (by simp)]
      exact (h.loaded j old hturn hgateway).saved hpromoted
  missing := by
    intro j hrecords hturn
    by_cases hj : j = i
    . subst hj
      simp at hturn
    . rw [Function.update_of_ne hj] at hturn
      exact h.missing j hrecords hturn
  rest := by
    rcases h.rest with ⟨before, later, horder, hatRest⟩ | ⟨hcooled, hopen⟩
    . left
      refine ⟨before, later ++ [(ms, i)], ?_, hatRest⟩
      rw [horder, List.append_assoc]
    . rcases hrest with hstate | hdue
      . left
        refine ⟨order ++ [(ms, i)], [], by simp, ?_⟩
        intro row'' hrow''
        rw [hserial, Option.some.injEq] at hrow''
        subst hrow''
        simp [cooledDown, hstate]
      . right
        refine ⟨hdue hcooled, ?_⟩
        intro j old hturn hgateway
        by_cases hj : j = i
        . subst hj
          simp at hturn
        . rw [Function.update_of_ne hj] at hturn
          exact hopen j old hturn hgateway
  passed := by
    intro j amount hcall hturn
    by_cases hj : j = i
    . left
      simp [hj]
    . rw [Function.update_of_ne hj] at hturn
      rcases h.passed j amount hcall hturn with hmem | ⟨before, later, horder, hatRest⟩
      . left
        rw [List.map_append, List.mem_append]
        exact .inl hmem
      . right
        refine ⟨before, later ++ [(ms, i)], ?_, hatRest⟩
        rw [horder, List.append_assoc]

end Orderly

/--
A save that has not been overtaken is what the call makes of the row as it is.
-/
theorem Orderly.exists_serial (hg : Undamaged g w₀)
    (h : Orderly D calls g w₀ order row w log state) {i : Pid} {stats : GatewayStats}
    (hsaves : (state i).saves D g stats) (hgateway : stats.gateway = g)
    (hovertaken : ∀ e ∈ sinceRead i log, ¬overtakenBy calls g (calls i) e)
    : (∃ ms, (runCalls D (schedule calls (order ++ [(ms, i)])) w₀).statsOf g = some stats) ∧
        ((calls i).records g = false →
          stats = promoted row ∧ (row.circuitState = .OPEN ∨ promoted row = row)) ∧
        (stats.circuitState ≠ .OPEN ∨ (cooledDown D w row → cooledDown D w stats)) := by
  have hrow := World.gateway_of_statsOf h.table
  have hserial : ∀ ms, (runCalls D (schedule calls (order ++ [(ms, i)])) w₀).statsOf g =
      some ((calls i).onRow D ((runCalls D (schedule calls order) w₀).after ms) row) := by
    intro ms
    rw [schedule_concat, BreakerCall.effect_statsOf]
    . rw [show ((runCalls D (schedule calls order) w₀).after ms).statsOf g = _ from h.serial]
      rfl
    . exact hg.unique.runCalls (D := D) (schedule calls order)
  unfold Caller.saves at hsaves
  rw [h.call] at hsaves
  unfold overtakenBy at hovertaken
  split at hsaves
  . next gateway latencyMs hcall =>
    rcases hsaves with ⟨old, hturn, hold, hstats⟩
    have hold_g : old.gateway = g := by
      rw [← hgateway, hstats]
      rfl
    have hcall_g : gateway = g := hold.symm.trans hold_g
    rw [hcall] at hovertaken
    have hsame : succeeded latencyMs row = stats := by
      rw [hstats]
      rcases (h.loaded i old hturn hold_g).recorded hovertaken with heq | ⟨_, heq⟩
      . rw [heq]
      . rw [heq]
        rfl
    refine ⟨⟨0, ?_⟩, ?_, .inl ?_⟩
    . rw [hserial, hcall, ← hsame]
      simp [BreakerCall.onRow, hrow, hcall_g]
    . simp [hcall, BreakerCall.records, hcall_g]
    . rw [hstats]
      simp [succeeded]
  . next gateway latencyMs hcall =>
    rcases hsaves with ⟨old, hturn, hold, hstats⟩
    have hold_g : old.gateway = g := by
      rw [← hgateway, hstats]
      rfl
    have hcall_g : gateway = g := hold.symm.trans hold_g
    rw [hcall] at hovertaken
    have hsame : row = old := (h.loaded i old hturn hold_g).changed hovertaken
    subst hsame
    refine ⟨⟨0, ?_⟩, ?_, .inr ?_⟩
    . rw [hserial, hcall, hstats]
      simp [BreakerCall.onRow, hrow, hcall_g]
    . simp [hcall, BreakerCall.records, hcall_g]
    . intro hcooled
      rw [hstats]
      rw [cooledDown_eq_true] at hcooled ⊢
      refine ⟨hcooled.left, ?_, hcooled.right.right⟩
      simp [failed, hcooled.right.left]
  . next amount hcall =>
    rcases hsaves hgateway with ⟨old, hturn, hold, hstats, hconsidered, hopen⟩
    rw [hcall] at hovertaken
    have hsince := (h.loaded i old hturn hold).recorded hovertaken
    have hpromoted : stats = promoted row ∧ (row.circuitState = .OPEN ∨ promoted row = row) := by
      rcases hsince with heq | ⟨_, heq⟩
      . rw [heq]
        exact ⟨hstats, .inl hopen⟩
      . rw [heq]
        exact ⟨hstats, .inr rfl⟩
    refine ⟨⟨30000, ?_⟩, fun _ => hpromoted, .inl ?_⟩
    . have hkey := hg.key.runCalls (D := D) (schedule calls order)
      rw [hserial, hcall, Option.some.injEq]
      unfold BreakerCall.onRow refreshed
      dsimp only
      rw [cooledDown_after hkey hrow, hrow]
      rcases hsince with heq | ⟨_, heq⟩
      . rw [heq, if_pos (by simp [hconsidered, hopen]), hstats]
      . rw [heq, if_neg (by simp [promoted]), hstats]
    . rw [hstats]
      simp [promoted]

/-!
The pool.
-/

variable (D) (calls) (g) (w₀) in
def InOrder (c : Callers D) (d : ((machine D).observed seesStats).Parties (callerProtocol D g))
    : Prop :=
  ∃ order row, Orderly D calls g w₀ order row c.world.1 c.world.2 d.state

theorem cooledDown_setKey_of_ne {gateway : GatewayProvider} {entry : Option Entry}
    (hne : row.gateway ≠ gateway)
    : cooledDown D (w.setKey (circuitKey gateway) entry) row = cooledDown D w row := by
  unfold cooledDown Redis.lookup
  rw [World.setKey_clock, setKey_of_ne hne]

-- A key that is gone does not come back by itself.
theorem cooledDown_after_of_cooledDown (h : cooledDown D w row) (ms : Nat)
    : cooledDown D (w.after ms) row := by
  rw [cooledDown_eq_true] at h ⊢
  refine ⟨h.left, h.right.left, ?_⟩
  have hnone := h.right.right
  unfold Redis.lookup World.after at *
  split
  . next entry hentry =>
    rw [hentry] at hnone
    dsimp only at hnone ⊢
    split
    . next t ht =>
      rw [ht] at hnone
      dsimp only at hnone
      split
      . rw [if_pos (by omega)] at hnone
        exact hnone
      . rfl
    . next ht =>
      rw [ht] at hnone
      exact hnone
  . rfl

theorem cooledDown_of_lookup {key : String} {value : Stored}
    (hvalue : w.redis.lookup w.clock key = some value) (htruthy : value.truthy = true)
    (hkey : key = circuitKey row.gateway) : ¬cooledDown D w row := by
  subst hkey
  simp [cooledDown, Stored.missing, hvalue, htruthy]

namespace Orderly

/-!
The commands of a call.
-/

variable {i : Pid} {o : Oracle}

theorem get (h : Orderly D calls g w₀ order row w log state) {amount : Nat}
    (hcall : calls i = .getRankedGateways amount) (key : String)
    : Orderly D calls g w₀ order row w log
        (Function.update state i
          ((state i).next D g (.client (.get key)) (.ok (w.redis.lookup w.clock key)))) := by
  have hrow := World.gateway_of_statsOf h.table
  cases hvalue : w.redis.lookup w.clock key with
  | none =>
    rw [show (state i).next D g (.client (.get key)) (.ok none) = state i from rfl,
      Function.update_eq_self]
    exact h
  | some value =>
    by_cases hread : key = circuitKey g ∧ value.truthy
    . rw [show (state i).next D g (.client (.get key)) (.ok (some value)) =
        { state i with turn := .settled } from if_pos hread]
      rcases hread with ⟨hkey, htruthy⟩
      by_cases hturn : (state i).turn = .settled
      . rw [← hturn, Function.update_eq_self]
        exact h
      . rw [← hrow] at hkey
        apply h.turn hturn
        . intro _
          refine ⟨by rw [hcall]; rfl, ?_⟩
          intro _ _
          exact cooledDown_of_lookup hvalue htruthy hkey
        . intro old hold
          cases hold
        . intro hnone
          cases hnone
    . rw [show (state i).next D g (.client (.get key)) (.ok (some value)) = state i from
        if_neg hread, Function.update_eq_self]
      exact h

theorem set (h : Orderly D calls g w₀ order row w log state) {old : GatewayStats}
    (hturn : (state i).turn = .loaded (some old)) (htrips : trips old) (entry : Option Entry)
    : Orderly D calls g w₀ order row (w.setKey (circuitKey old.gateway) entry) log state := by
  have hrow := World.gateway_of_statsOf h.table
  have hunique : UniqueStats (w.setKey (circuitKey old.gateway) entry) := h.unique
  apply h.world hunique rfl rfl
  intro hcooled hopen
  by_cases hgateway : row.gateway = old.gateway
  . -- A call that sets the key has read the row while it was not OPEN.
    have := hopen i old hturn (hgateway.symm.trans hrow)
    simp [trips, this] at htrips
  . rw [cooledDown_setKey_of_ne hgateway]
    exact hcooled

theorem del (h : Orderly D calls g w₀ order row w log state) (gateway : GatewayProvider)
    : Orderly D calls g w₀ order row (w.setKey (circuitKey gateway) none) log state := by
  have hunique : UniqueStats (w.setKey (circuitKey gateway) none) := h.unique
  apply h.world hunique rfl rfl
  intro hcooled _
  by_cases hgateway : row.gateway = gateway
  . subst hgateway
    rw [cooledDown_eq_true] at hcooled ⊢
    refine ⟨hcooled.left, hcooled.right.left, ?_⟩
    unfold Redis.lookup
    rw [World.setKey_entries, if_pos rfl]
    rfl
  . rw [cooledDown_setKey_of_ne hgateway]
    exact hcooled

-- A call that has not read the statistics yet reads them.
theorem reads (h : Orderly D calls g w₀ order row w log state) (hwaiting : (state i).turn = .waiting)
    {turn : Turn}
    (hsettled : turn = .settled → (calls i).records g = false ∧
      ∀ amount, calls i = .getRankedGateways amount → ¬cooledDown D w row)
    (hloaded : ∀ old, turn = .loaded (some old) → old.gateway = g → old = row)
    (hmissing : turn = .loaded none → (calls i).records g = false)
    : Orderly D calls g w₀ order row w (log ++ [.read i])
        (Function.update state i { state i with turn := turn }) := by
  have hread : Orderly D calls g w₀ order row w (log ++ [.read i]) state := by
    apply h.event
    intro j old hj heq
    rw [StatsEvent.read.injEq] at heq
    subst heq
    rw [hwaiting] at hj
    cases hj
  apply hread.turn _ hsettled _ hmissing
  . rw [hwaiting]
    simp
  . intro old hturn hgateway
    exact ⟨hloaded old hturn hgateway, sinceRead_read i⟩

theorem findStats (h : Orderly D calls g w₀ order row w log state)
    (hwaiting : (state i).turn = .waiting) {amount : Nat}
    (hcall : calls i = .getRankedGateways amount)
    : Orderly D calls g w₀ order row w (log ++ [.read i])
        (Function.update state i ((state i).next D g .findStats (.ok w.gatewayStats))) := by
  have hrow := World.gateway_of_statsOf h.table
  have hfind : w.gatewayStats.find? (fun row => decide (row.gateway = g)) = some row := h.table
  have hrecords : (calls i).records g = false := by
    rw [hcall]
    rfl
  by_cases hdue : row.circuitState = .OPEN ∧ considered D g
  . have hnext : (state i).next D g .findStats (.ok w.gatewayStats) =
        { state i with turn := .loaded (some row) } := by
      simp [Caller.next, hfind, hdue]
    rw [hnext]
    apply h.reads hwaiting
    . intro hturn
      cases hturn
    . intro old hold _
      simpa using hold.symm
    . intro hturn
      cases hturn
  . have hnext : (state i).next D g .findStats (.ok w.gatewayStats) =
        { state i with turn := .settled } := by
      simp [Caller.next, hfind, hdue]
    rw [hnext]
    apply h.reads hwaiting
    . intro _
      refine ⟨hrecords, fun _ _ hcooled => hdue ?_⟩
      rw [cooledDown_eq_true, hrow] at hcooled
      exact ⟨hcooled.right.left, hcooled.left⟩
    . intro old hold
      cases hold
    . intro hturn
      cases hturn

theorem findStatsOf (h : Orderly D calls g w₀ order row w log state)
    (hwaiting : (state i).turn = .waiting) {gateway : GatewayProvider}
    (hcall : (calls i).records gateway)
    : Orderly D calls g w₀ order row w (log ++ [.read i])
        (Function.update state i
          ((state i).next D g (.findStatsOf gateway) (.ok (w.statsOf gateway)))) := by
  have hnext : (state i).next D g (.findStatsOf gateway) (.ok (w.statsOf gateway)) =
      { state i with turn := .loaded (w.statsOf gateway) } := rfl
  rw [hnext]
  apply h.reads hwaiting
  . intro hturn
    cases hturn
  . intro old hold hgateway
    rw [Turn.loaded.injEq] at hold
    rw [← World.gateway_of_statsOf hold, hgateway, h.table, Option.some.injEq] at hold
    exact hold.symm
  . intro hturn
    rw [Turn.loaded.injEq] at hturn
    have hne : gateway ≠ g := by
      rintro rfl
      rw [h.table] at hturn
      cases hturn
    cases hrecords : (calls i).records g with
    | false => rfl
    | true =>
      unfold BreakerCall.records at hcall hrecords
      split at hcall <;> simp_all

theorem saveStats (hg : Undamaged g w₀) (h : Orderly D calls g w₀ order row w log state)
    {stats : GatewayStats} (hsaves : (state i).saves D g stats)
    (hovertaken : stats.gateway = g → ∀ e ∈ sinceRead i log, ¬overtakenBy calls g (calls i) e)
    : ∃ order' row', Orderly D calls g w₀ order' row'
        (w.mapStats (fun old => if old.gateway = stats.gateway then stats else old))
        (log ++ [.saved i stats.gateway])
        (Function.update state i ((state i).next D g (.saveStats stats) (.ok ()))) := by
  have hunique : UniqueStats
      (w.mapStats (fun old => if old.gateway = stats.gateway then stats else old)) := by
    apply h.unique.mapStats
    intro old _
    split
    . next heq => exact heq.symm
    . rfl
  by_cases hgateway : stats.gateway = g
  . have hi : (state i).turn ≠ .settled := by
      unfold Caller.saves at hsaves
      intro hturn
      split at hsaves
      . rcases hsaves with ⟨old, hold, _⟩
        rw [hturn] at hold
        cases hold
      . rcases hsaves with ⟨old, hold, _⟩
        rw [hturn] at hold
        cases hold
      . rcases hsaves hgateway with ⟨old, hold, _⟩
        rw [hturn] at hold
        cases hold
    have hnext : (state i).next D g (.saveStats stats) (.ok ()) =
        { state i with turn := .settled } := by
      simp only [Caller.next]
      split
      . exact if_pos hgateway
      . rfl
    rcases h.exists_serial hg hsaves hgateway (hovertaken hgateway) with
      ⟨⟨ms, hserial⟩, hpromoted, hrest⟩
    refine ⟨order ++ [(ms, i)], stats, ?_⟩
    rw [hnext, hgateway]
    rw [hgateway] at hunique
    apply h.saves hi hunique rfl _ hserial hpromoted hrest
    rw [World.statsOf_mapStats]
    . rw [h.table, Option.map_some, if_pos (World.gateway_of_statsOf h.table)]
    . intro old
      split
      . next heq => rw [hgateway, heq]
      . rfl
  . have htable : (w.mapStats
        (fun old => if old.gateway = stats.gateway then stats else old)).statsOf g =
          w.statsOf g := by
      rw [World.statsOf_mapStats]
      . rw [h.table, Option.map_some, if_neg]
        rw [World.gateway_of_statsOf h.table]
        exact Ne.symm hgateway
      . intro old
        split
        . next heq => exact heq.symm
        . rfl
    have hworld := h.world hunique rfl htable (fun hcooled _ => hcooled)
    have hsaved := hworld.event (e := .saved i stats.gateway) (by simp)
    refine ⟨order, row, ?_⟩
    simp only [Caller.next]
    split
    . rw [if_neg hgateway, Function.update_eq_self]
      exact hsaved
    . next hcall =>
      rw [h.call] at hcall
      by_cases hturn : (state i).turn = .settled
      . rw [← hturn, Function.update_eq_self]
        exact hsaved
      . apply hsaved.turn hturn
        . intro _
          refine ⟨?_, fun amount hcall' => absurd hcall' (hcall amount)⟩
          -- The call has saved the row of its own gateway.
          unfold Caller.saves at hsaves
          rw [h.call] at hsaves
          split at hsaves
          . next gateway latencyMs hcall' =>
            rcases hsaves with ⟨old, _, hold, hstats⟩
            rw [hcall', BreakerCall.records, decide_eq_false_iff_not, ← hold]
            rw [hstats] at hgateway
            exact hgateway
          . next gateway latencyMs hcall' =>
            rcases hsaves with ⟨old, _, hold, hstats⟩
            rw [hcall', BreakerCall.records, decide_eq_false_iff_not, ← hold]
            rw [hstats] at hgateway
            exact hgateway
          . next amount hcall' => exact absurd hcall' (hcall amount)
        . intro old hold
          cases hold
        . intro hnone
          cases hnone

end Orderly

theorem Orderly.exec (hg : Undamaged g w₀) (h : Orderly D calls g w₀ order row w log state)
    {i : Pid} {cmd : Cmd} {o : Oracle} {r : Except Err cmd.Resp} {w' : World} (ho : Healthy o)
    (hallowed : (state i).allowed D g cmd)
    (hexec : PaymentOrchestration.exec D i cmd o w = some (r, w'))
    (hovertaken : ∀ stats, cmd = .saveStats stats → stats.gateway = g →
      ∀ e ∈ sinceRead i log, ¬overtakenBy calls g (calls i) e)
    : (state i).answers cmd r ∧
        ∃ order' row', Orderly D calls g w₀ order' row' w' (log ++ seesStats i cmd o w)
          (Function.update state i ((state i).next D g cmd r)) := by
  unfold Caller.allowed at hallowed
  split at hallowed
  . next op =>
    rw [exec_mock_of_connected (h.connected i.inst), Option.some.injEq, Prod.mk.injEq] at hexec
    rcases hexec with ⟨hr, hw'⟩
    subst hr hw'
    refine ⟨rfl, order, row, ?_⟩
    rw [show (state i).next D g (.mock op) (.ok none) = state i from rfl, Function.update_eq_self]
    simpa [seesStats] using h
  . next key =>
    rw [exec_client_of_healthy ho, Option.some.injEq, Prod.mk.injEq] at hexec
    rcases hexec with ⟨hr, hw'⟩
    subst hr hw'
    rcases hallowed with ⟨amount, hcall⟩
    rw [h.call] at hcall
    refine ⟨trivial, order, row, ?_⟩
    simp only [seesStats, List.append_nil]
    exact h.get hcall key
  . next key value expiry mode =>
    rw [exec_client_of_healthy ho, Option.some.injEq, Prod.mk.injEq] at hexec
    rcases hexec with ⟨hr, hw'⟩
    rcases hallowed with ⟨gateway, latencyMs, old, _, hturn, hgateway, htrips, hkey, hvalue,
      hexpiry, hmode⟩
    subst hkey hvalue hexpiry hmode hgateway
    have hset := h.set hturn htrips (some (openEntry w.clock))
    subst hr hw'
    refine ⟨trivial, order, row, ?_⟩
    simp only [seesStats, List.append_nil]
    rw [show (state i).next D g (.client (.set _ _ _ _)) _ = state i from rfl,
      Function.update_eq_self]
    simpa [ClientOp.run, World.setKey, openEntry, DurationMode.millis] using hset
  . next key =>
    rw [exec_client_of_healthy ho, Option.some.injEq, Prod.mk.injEq] at hexec
    rcases hexec with ⟨hr, hw'⟩
    rcases hallowed with ⟨gateway, latencyMs, _, hkey⟩
    subst hr hw' hkey
    refine ⟨trivial, order, row, ?_⟩
    simp only [seesStats, List.append_nil]
    rw [show (state i).next D g (.client (.del _)) _ = state i from rfl, Function.update_eq_self]
    exact h.del gateway
  . rw [exec_findStats_of_healthy ho, Option.some.injEq, Prod.mk.injEq] at hexec
    rcases hexec with ⟨hr, hw'⟩
    subst hr hw'
    rcases hallowed with ⟨hwaiting, amount, hcall⟩
    rw [h.call] at hcall
    exact ⟨h.unique, order, row, h.findStats hwaiting hcall⟩
  . next gateway =>
    rw [exec_findStatsOf_of_healthy ho, Option.some.injEq, Prod.mk.injEq] at hexec
    rcases hexec with ⟨hr, hw'⟩
    subst hr hw'
    rcases hallowed with ⟨hwaiting, hrecords⟩
    rw [h.call] at hrecords
    refine ⟨?_, order, row, h.findStatsOf hwaiting hrecords⟩
    intro row' hrow'
    exact World.gateway_of_statsOf hrow'
  . next stats =>
    rw [exec_saveStats_of_healthy ho, Option.some.injEq, Prod.mk.injEq] at hexec
    rcases hexec with ⟨hr, hw'⟩
    subst hr hw'
    exact ⟨trivial, h.saveStats hg hallowed (hovertaken stats rfl)⟩
  . exact hallowed.elim

theorem inOrder_conformsBy (hg : Undamaged g w₀)
    : ((machine D).observed seesStats).ConformsBy (P := callerProtocol D g)
        (fun i => (calls i).program D) (fun i => ⟨calls i, .waiting⟩)
        (fun i r s => (∃ a, r = .ok a) ∧ s.Through (calls i)) (Undisturbed calls g)
        (InOrder D calls g w₀) where
  program := fun i => wp_caller (calls i)
  crash_start := fun _ => rfl
  crash_fin := fun _ _ _ h => h
  answers := by
    intro c d i o cmd k r w hsim hJ hact hop hallowed hexec
    rcases hJ with ⟨order, row, h⟩
    rw [Machine.observed_exec] at hexec
    apply (h.exec hg hact.left hallowed hexec.left _).left
    intro stats hstats hgateway
    subst hstats
    exact hact.right i o stats k rfl hop hgateway
  step := by
    intro a c c' d d' hsim hJ hact hmoves hsim'
    rcases hJ with ⟨order, row, h⟩
    cases hmoves with
    | spawn i hidle => exact ⟨order, row, h⟩
    | left i p q halt => exact ⟨order, row, h⟩
    | right i p q halt => exact ⟨order, row, h⟩
    | run i o cmd k r w hop hallowed hexec =>
      rw [Machine.observed_exec] at hexec
      have hstep := h.exec hg hact.left hallowed hexec.left (by
        intro stats hstats hgateway
        subst hstats
        exact hact.right i o stats k rfl hop hgateway)
      rcases hstep.right with ⟨order', row', h'⟩
      refine ⟨order', row', ?_⟩
      rw [hexec.right]
      exact h'
    | env e w henv =>
      have hsmooth := hact.left
      cases e with
      | tick ms =>
        rcases (Machine.observed_env (M := machine D) seesStats).mp henv with ⟨hw, hlog⟩
        injection hw with hw
        refine ⟨order, row, ?_⟩
        rw [← hw, hlog]
        have hunique : UniqueStats (c.world.1.after ms) := h.unique
        apply h.world hunique rfl rfl
        intro hcooled _
        exact cooledDown_after_of_cooledDown hcooled ms
      | _ => exact hsmooth.elim
    | crash n => exact hact.left.elim

/--
Calls that have not saved the row do nothing at some point of the order.
-/
theorem Orderly.exists_point (h : Orderly D calls g w₀ order row w log state) {rest : List Pid}
    (hrest : ∀ i ∈ rest, i ∉ order.map (·.2))
    (hthrough : ∀ i ∈ rest, (state i).Through (calls i))
    : ∃ before later, order = before ++ later ∧
        ∀ i ∈ rest, (calls i).Idle D g (runCalls D (schedule calls before) w₀) := by
  have hrecords : ∀ i ∈ rest, (calls i).records g = false := by
    intro i hi
    rw [Bool.eq_false_iff]
    intro hrecords
    rcases hthrough i hi with ⟨_, hturn | ⟨hturn, _⟩⟩
    . exact hrest i hi (h.recorded i hrecords hturn)
    . exact h.missing i hrecords hturn
  by_cases hpoint : ∃ before later, order = before ++ later ∧
      AtRest D g (runCalls D (schedule calls before) w₀)
  . rcases hpoint with ⟨before, later, horder, hatRest⟩
    exact ⟨before, later, horder, fun i hi => ⟨hrecords i hi, fun _ _ => hatRest⟩⟩
  . refine ⟨order, [], by simp, fun i hi => ⟨hrecords i hi, fun amount hcall => ?_⟩⟩
    rcases hthrough i hi with ⟨_, hturn | ⟨_, gateway, hgateway⟩⟩
    . rcases h.passed i amount hcall hturn with hmem | hpoint'
      . exact absurd hmem (hrest i hi)
      . exact absurd hpoint' hpoint
    . rw [hcall] at hgateway
      cases hgateway

/--
Calls that are not overtaken leave the row of the gateway as if they had run one after the other.
-/
theorem no_update_lost (hg : Undamaged g w₀) {c₀ c : Callers D} (hstart : c₀.Start w₀)
    (hrun : ((machine D).observed seesStats).RunBy (fun i => (calls i).program D)
      (Undisturbed calls g) c₀ c)
    (hdone : ∀ i, c.pool i ≠ .idle → ∃ r, (c.pool i).result = some r) {row₀ : GatewayStats}
    (hrow₀ : w₀.statsOf g = some row₀)
    : ∃ order : List Pid, order.Nodup ∧ (∀ i, i ∈ order ↔ c.pool i ≠ .idle) ∧
        ∃ log w row, Calls D w₀ log w ∧ log.map (·.call) = order.map calls ∧
          w.statsOf g = some row ∧ c.world.1.statsOf g = some row ∧
          recorded row = recorded row₀ + (order.map calls).countP (·.records g) ∧
          (row₀.circuitState = .CLOSED → Failing g (order.map calls) →
            3 ≤ (order.map calls).countP (·.records g) → row.circuitState = .OPEN) := by
  rcases hrun.exists_started hstart.idle with ⟨started, hnodup, hstarted⟩
  have hconforms := @inOrder_conformsBy D calls _ _ hg
  let d₀ : ((machine D).observed seesStats).Parties (callerProtocol D g) :=
    ⟨c₀.world, fun i => ⟨calls i, .waiting⟩⟩
  have hsim₀ : Machine.Simulates (P := callerProtocol D g) (fun i => ⟨calls i, .waiting⟩)
      (fun i r s => (∃ a, r = .ok a) ∧ s.Through (calls i)) c₀ d₀ := by
    refine ⟨rfl, fun i => ?_⟩
    rw [hstart.idle i]
    rfl
  have hJ₀ : InOrder D calls g w₀ c₀ d₀ := by
    refine ⟨[], row₀, ?_⟩
    rw [hstart.world]
    exact Orderly.start hg hrow₀
  rcases hsim₀.runBy hconforms hJ₀ hrun with ⟨d, hsim, order, row, h⟩
  -- Whatever has saved the row has started.
  have horder : ∀ i ∈ order.map (·.2), i ∈ started := by
    intro i hi
    rw [hstarted]
    intro hidle
    have hfollows := hsim.follows i
    rw [hidle] at hfollows
    have hturn := h.settled i hi
    rw [show d.state i = ⟨calls i, .waiting⟩ from hfollows] at hturn
    cases hturn
  let rest := started.filter (fun i => i ∉ order.map (·.2))
  have hrest : ∀ i ∈ rest, i ∉ order.map (·.2) := by
    intro i hi
    simpa using (List.mem_filter.mp hi).right
  have hthrough : ∀ i ∈ rest, (d.state i).Through (calls i) := by
    intro i hi
    have hi := (List.mem_filter.mp hi).left
    rcases hdone i ((hstarted i).mp hi) with ⟨r, hr⟩
    exact (hsim.result hr).right
  rcases h.exists_point hrest hthrough with ⟨before, later, horder_eq, hidle⟩
  let list := before.map (·.2) ++ rest ++ later.map (·.2)
  have hperm : list.Perm (order.map (·.2) ++ rest) := by
    rw [horder_eq, List.map_append, List.append_assoc]
    show (before.map (·.2) ++ rest ++ later.map (·.2)).Perm _
    rw [List.append_assoc]
    exact List.Perm.append_left _ List.perm_append_comm
  have hsane : Calls.Sane w₀ := ⟨hg.unique, hg.connected⟩
  let serial := schedule calls before ++ (rest.map calls).map (fun call => (0, call)) ++
    schedule calls later
  have hcalls := Calls.extend hsane serial (.start (D := D))
  have hlog : (callsFrom D serial [] w₀).1.map (·.call) = list.map calls := by
    rw [callsFrom_calls]
    simp [serial, list, schedule, Function.comp_def]
  have hidle' : ∀ call ∈ rest.map calls,
      call.Idle D g (runCalls D (schedule calls before) w₀) := by simpa using hidle
  have hview := runCalls_insert hg.unique (schedule calls before) (schedule calls later) hidle'
  have hrow : (callsFrom D serial [] w₀).2.statsOf g = some row := by
    rw [callsFrom_world, ← hview.row, ← h.serial, horder_eq]
    simp [schedule]
  refine ⟨list, ?_, ?_, _, _, row, hcalls, hlog, hrow, h.table, ?_, ?_⟩
  . rw [hperm.nodup_iff, List.nodup_append]
    refine ⟨h.nodup, hnodup.filter _, ?_⟩
    intro i hi j hj heq
    subst heq
    exact hrest i hj hi
  . intro i
    rw [hperm.mem_iff, List.mem_append, ← hstarted i]
    constructor
    . rintro (hi | hi)
      . exact horder i hi
      . exact (List.mem_filter.mp hi).left
    . intro hi
      by_cases hmem : i ∈ order.map (·.2)
      . exact .inl hmem
      . exact .inr (List.mem_filter.mpr ⟨hi, by simpa using hmem⟩)
  . rcases hcalls.recorded hsane hrow₀ with ⟨row', hrow', hcount⟩
    rw [hrow, Option.some.injEq] at hrow'
    rw [hrow', hcount, hlog]
  . intro hclosed hfailing hcount
    rw [← hlog] at hfailing hcount
    rcases hcalls.open_of_failing hsane hrow₀ hclosed hfailing hcount with ⟨row', hrow', hopen⟩
    rw [hrow, Option.some.injEq] at hrow'
    rw [hrow', hopen]

namespace Scenario

abbrev CallersAct := ((machine deployment).observed seesStats).Act

def callersStart : Callers deployment where
  world := (World.start seedStats, [])
  pool := fun _ => .idle

theorem callersStart_start : callersStart.Start (World.start seedStats) := by
  exact ⟨fun _ => rfl, rfl⟩

theorem undamaged_start : Undamaged .UPI (World.start seedStats) := by
  refine ⟨fresh_start.unique, fun _ => rfl, ?_⟩
  intro entry hentry
  cases hentry

def faultlessCalls (_ : Callers deployment) (a : CallersAct) : Bool :=
  match a with
  | .run _ o => o.fault = .none
  | .env (.tick _) => true
  | .env _ => false
  | .crash _ => false
  | _ => true

theorem smooth_of_faultlessCalls {c : Callers deployment} {a : CallersAct} (h : faultlessCalls c a = true)
    : Smooth c a := by
  unfold faultlessCalls at h
  unfold Smooth
  split at h <;> simp_all [Healthy]

def undisturbedCalls (calls : Pid → BreakerCall) (c : Callers deployment) (a : CallersAct) : Bool :=
  faultlessCalls c a &&
    match a with
    | .run i _ =>
      match c.pool i with
      | .running (.op (.saveStats stats) _) =>
        stats.gateway ≠ .UPI ||
          (sinceRead i c.world.2).all (fun e => !overtakenBy calls .UPI (calls i) e)
      | _ => true
    | _ => true

theorem undisturbed_of_undisturbedCalls {calls : Pid → BreakerCall} {c : Callers deployment}
    {a : CallersAct} (h : undisturbedCalls calls c a = true) : Undisturbed calls .UPI c a := by
  unfold undisturbedCalls at h
  rw [Bool.and_eq_true] at h
  refine ⟨smooth_of_faultlessCalls h.left, ?_⟩
  rintro i o stats k rfl hop hgateway
  have h := h.right
  simp only [hop] at h
  simpa [hgateway] using h

-- A failure of UPI is recorded while the gateways are ranked.
def failureAndRanking (i : Pid) : BreakerCall :=
  if i.num = 0 then .recordFailure .UPI 5 else .getRankedGateways 1015

def overlapping : List CallersAct :=
  [.spawn ⟨0, 0⟩, .run ⟨0, 0⟩ {}, .spawn ⟨0, 1⟩, .run ⟨0, 1⟩ {}, .run ⟨0, 0⟩ {}]

-- Two successes, both of which read the row before either of them saves it.
def twoSuccesses (_ : Pid) : BreakerCall :=
  .recordSuccess .UPI 5

def overtaking : List CallersAct :=
  [.spawn ⟨0, 0⟩, .run ⟨0, 0⟩ {}, .spawn ⟨0, 1⟩, .run ⟨0, 1⟩ {}, .run ⟨0, 1⟩ {}, .run ⟨0, 0⟩ {}]

def finished (i : Pid) (c : Callers deployment) : Bool :=
  (c.pool i).result.isSome

theorem statsOf_start
    : (World.start seedStats).statsOf .UPI = some ⟨.UPI, 0, 0, 0, 50, .CLOSED, 0⟩ := by
  decide

variable {calls : Pid → BreakerCall} {check : Callers deployment → CallersAct → Bool}

def callersOutcome (calls : Pid → BreakerCall) (check : Callers deployment → CallersAct → Bool)
    (acts : List CallersAct) : Option (Callers deployment) :=
  ((machine deployment).observed seesStats).runActsIf (fun i => (calls i).program deployment) check
    acts callersStart

theorem started_of_outcome {acts : List CallersAct} {c : Callers deployment}
    (h : callersOutcome calls check acts = some c) (i : Pid)
    : c.pool i ≠ .idle ↔ .spawn i ∈ acts := by
  rw [Ne, Machine.runActsIf_idle h i]
  simp [callersStart]

theorem exists_result {i : Pid} {c : Callers deployment} (h : finished i c = true)
    : ∃ r, (c.pool i).result = some r := by
  exact Option.isSome_iff_exists.mp h

/--
The calls of processes 0 and 1, run to their end.
-/
theorem exists_outcome {acts : List CallersAct} {p : Callers deployment → Bool}
    (hspawn : ∀ i, .spawn i ∈ acts ↔ i = ⟨0, 0⟩ ∨ i = ⟨0, 1⟩)
    (h : (callersOutcome calls check acts).any
      (fun c => finished ⟨0, 0⟩ c && finished ⟨0, 1⟩ c && p c) = true)
    : ∃ c, callersOutcome calls check acts = some c ∧
        (∀ i, c.pool i ≠ .idle ↔ i = ⟨0, 0⟩ ∨ i = ⟨0, 1⟩) ∧
        (∀ i, c.pool i ≠ .idle → ∃ r, (c.pool i).result = some r) ∧ p c = true := by
  cases hrun : callersOutcome calls check acts with
  | none => simp [hrun] at h
  | some c =>
    simp only [hrun, Option.any_some, Bool.and_eq_true] at h
    have hstarted : ∀ i, c.pool i ≠ .idle ↔ i = ⟨0, 0⟩ ∨ i = ⟨0, 1⟩ := by
      intro i
      rw [started_of_outcome hrun i, hspawn]
    refine ⟨c, rfl, hstarted, ?_, h.right⟩
    intro i hi
    rcases (hstarted i).mp hi with heq | heq
    . rw [heq]
      exact exists_result h.left.left
    . rw [heq]
      exact exists_result h.left.right

end Scenario

open Scenario in
theorem no_update_lost_overlapping
    : ∃ (c : Callers deployment) (order : List Pid) (row : GatewayStats),
        (∀ i, i ∈ order ↔ i = ⟨0, 0⟩ ∨ i = ⟨0, 1⟩) ∧
          c.world.1.statsOf .UPI = some row ∧ recorded row =
            (order.map failureAndRanking).countP (·.records .UPI) := by
  have houtcome : ∃ c, callersOutcome failureAndRanking (undisturbedCalls failureAndRanking)
      overlapping = some c ∧ _ := exists_outcome (p := fun _ => true) (by simp [overlapping])
    (by decide +kernel)
  rcases houtcome with ⟨c, hrun, hstarted, hdone, _⟩
  have hrun := Machine.runBy_of_runActsIf
    (fun c a _ h => undisturbed_of_undisturbedCalls (c := c) (a := a) h) hrun
  rcases no_update_lost undamaged_start callersStart_start hrun hdone statsOf_start with
    ⟨order, _, hmem, _, _, row, _, _, _, hrow, hcount, _⟩
  refine ⟨c, order, row, fun i => (hmem i).trans (hstarted i), hrow, ?_⟩
  rw [hcount]
  simp [recorded]

open Scenario in
/--
The row of a gateway after two overlapping successes is none that the two calls leave one after the
other.
-/
theorem update_lost
    : ∃ c : Callers deployment,
        ((machine deployment).observed seesStats).RunBy
          (fun i => (twoSuccesses i).program deployment) Smooth callersStart c ∧
        (∀ i, c.pool i ≠ .idle → ∃ r, (c.pool i).result = some r) ∧
        ∀ order : List Pid, order.Nodup → (∀ i, i ∈ order ↔ c.pool i ≠ .idle) →
          ∀ log w, Calls deployment (World.start seedStats) log w →
            log.map (·.call) = order.map twoSuccesses →
            w.statsOf .UPI ≠ c.world.1.statsOf .UPI := by
  have houtcome : ∃ c, callersOutcome twoSuccesses faultlessCalls overtaking = some c ∧ _ :=
    exists_outcome (p := fun c => (c.world.1.statsOf .UPI).any (fun row => recorded row = 1))
      (by simp [overtaking]) (by decide +kernel)
  rcases houtcome with ⟨c, hrun, hstarted, hdone, hrow⟩
  refine ⟨c, Machine.runBy_of_runActsIf (fun _ _ _ h => smooth_of_faultlessCalls h) hrun, hdone, ?_⟩
  intro order hnodup hmem log w hcalls hlog heq
  have hfresh := fresh_start
  rcases hcalls.recorded ⟨hfresh.unique, hfresh.connected⟩ statsOf_start with ⟨row, hw, hcount⟩
  rw [← heq, hw, Option.any_some, decide_eq_true_eq, hcount] at hrow
  have hperm : order.Perm [⟨0, 0⟩, ⟨0, 1⟩] := by
    rw [List.perm_ext_iff_of_nodup hnodup (by decide)]
    intro i
    rw [hmem, hstarted]
    simp
  rw [hlog, List.countP_map] at hrow
  rw [hperm.countP_eq] at hrow
  exact absurd hrow (by decide)

end PaymentOrchestration
