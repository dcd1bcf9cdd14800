import PaymentOrchestration.Concurrency.Endings
import PaymentOrchestration.Transactions.Attempts
import PaymentOrchestration.Webhooks.OffQueue

/-!
This module is about a call of `create` that has the database for itself while Redis may be in any
state and may get into any other.
-/

namespace PaymentOrchestration

open Machine StateMachine TransactionsService RoutingEngine ReconciliationWorker

section Turbulence

variable (D : Deployment) (i : Pid) (outcome : GatewayProvider → GatewayOutcome)

/--
Time passes, Redis loses keys, instances fall back to their memory, and the gateways answer the
charge calls of process `i` as `outcome` says.
-/
def Turbulence (w : World) (e : EnvAct) : Prop :=
  match e with
  | .lose _ => True
  | .fallBack _ => True
  | e => Surroundings i outcome w e

/--
No statement of the database fails, and the timer goes off only for a gateway that does not answer in
time.
-/
def DatabaseUp (w : World) (cmd : Cmd) (o : Oracle) : Prop :=
  ((∀ op, cmd ≠ .client op) → o.fault = .none) ∧
  ∀ n charge, cmd = .race n → o.timer = true → w.charges[n]? = some charge →
    outcome charge.gateway = .timesOut

abbrev enduring : Setting Cmd Cmd.Resp Err World :=
  (machine D).amid i (Turbulence i outcome) (DatabaseUp outcome) True

end Turbulence

/--
The world without Redis and without the memory of the instances.
-/
def World.bare (w : World) : World :=
  { w with redis := ⟨fun _ => none, fun _ => []⟩, mem := fun _ => ⟨false, fun _ => none⟩ }

@[simp] theorem World.bare_ledger (w : World) : w.bare.ledger = w.ledger := by
  rfl

@[simp] theorem World.bare_charges (w : World) : w.bare.charges = w.charges := by
  rfl

@[simp] theorem World.bare_webhookEvents (w : World) : w.bare.webhookEvents = w.webhookEvents := by
  rfl

def Cmd.offRedis (cmd : Cmd) : Prop :=
  match cmd with
  | .mock _ => False
  | .client _ => False
  | .fallback _ => False
  | _ => True

variable {D : Deployment} {i : Pid} {outcome : GatewayProvider → GatewayOutcome} {a : Account}
  {tx : Option OpenTx} {α : Type} {w w' : World} {p : Program α} {cmd : Cmd}

theorem Cmd.ofAttempt.offRedis (h : cmd.ofAttempt) : cmd.offRedis := by
  cases cmd <;> first | exact h | trivial

theorem exec_bare (h : cmd.offRedis) (o : Oracle) (w : World)
    : exec D i cmd o w.bare = (exec D i cmd o w).map (fun r => (r.1, r.2.bare)) := by
  cases cmd with
  | mock op => exact h.elim
  | client op => exact h.elim
  | fallback op => exact h.elim
  | findTransaction conditions =>
    simp only [exec, Exec.findTransaction, World.bare_ledger]
    split
    . rfl
    . split <;> rfl
  | insertTransaction txn =>
    simp only [exec, Exec.insertTransaction, World.bare_ledger]
    split
    . rfl
    . split
      . rfl
      . split
        . rfl
        . cases o.fault <;> rfl
  | insertAudit row =>
    simp only [exec, Exec.insertAudit]
    split
    . rfl
    . cases o.fault <;> rfl
  | begin =>
    simp only [exec, Exec.begin]
    cases o.fault <;> rfl
  | selectForUpdate id =>
    simp only [exec, Exec.selectForUpdate, Exec.inSession, World.bare_ledger]
    split
    . rfl
    . cases o.fault with
      | none =>
        dsimp only
        split
        . rfl
        . split <;> rfl
      | _ => rfl
  | saveTransaction row =>
    simp only [exec, Exec.saveTransaction, Exec.inSession, World.bare_ledger]
    split
    . rfl
    . cases o.fault with
      | none =>
        dsimp only
        split <;> rfl
      | _ => rfl
  | saveAudit row =>
    simp only [exec, Exec.saveAudit, Exec.inSession, World.bare_ledger]
    split
    . rfl
    . cases o.fault with
      | none =>
        dsimp only
        split <;> rfl
      | _ => rfl
  | commit =>
    simp only [exec, Exec.commit, World.bare_ledger]
    split
    . rfl
    . cases o.fault <;> rfl
  | findEvent id =>
    simp only [exec, Exec.findEvent, World.bare_webhookEvents]
    split
    . rfl
    . split <;> rfl
  | insertEvent event =>
    simp only [exec, Exec.insertEvent, World.bare_webhookEvents]
    split
    . rfl
    . split
      . rfl
      . split
        . rfl
        . cases o.fault <;> rfl
  | race n =>
    simp only [exec, Exec.race, World.bare_charges]
    split
    . rfl
    . split
      . rfl
      . rfl
      . split <;> rfl
  | charge gateway request => rfl
  | rollback => rfl
  | now => rfl
  | saveEvent event =>
    simp only [exec, Exec.saveEvent]
    cases o.fault <;> rfl
  | saveStats stats =>
    simp only [exec, Exec.saveStats]
    cases o.fault <;> rfl
  | findStats =>
    simp only [exec, Exec.query]
    cases o.fault <;> rfl
  | findStatsOf gateway =>
    simp only [exec, Exec.query]
    cases o.fault <;> rfl

theorem env_bare {e : EnvAct} (h : Surroundings i outcome w e)
    : envStep e w.bare = (envStep e w).map World.bare := by
  cases e with
  | tick ms => rfl
  | settle n status =>
    simp only [envStep, World.bare_charges]
    split
    . split <;> rfl
    . rfl
  | _ => exact h.elim

/-!
What happens around the call is nothing but `Surroundings` to those that do not look at Redis.
-/

theorem Surroundings.bare {e : EnvAct} : Surroundings i outcome w.bare e ↔ Surroundings i outcome w e := by
  cases e <;> rfl

theorem idles_bare (log : List GatewayEvent)
    (h : (machine D).Drifts (Turbulence i outcome) w w')
    : Idles D i outcome (w.bare, log) (w'.bare, log) := by
  induction h with
  | refl => exact .refl
  | @tail w₁ w₂ _ hstep ih =>
    rcases hstep with ⟨e, he, henv⟩
    have hsame : ∀ he : Surroundings i outcome w₁ e,
        Idles D i outcome (w.bare, log) (w₂.bare, log) := by
      intro he
      apply ih.tail
      refine ⟨e, Surroundings.bare.mpr he, (observed_env seesGateways).mpr ⟨?_, rfl⟩⟩
      change envStep e w₁.bare = some w₂.bare
      rw [env_bare he, show envStep e w₁ = some w₂ from henv]
      rfl
    cases e with
    | tick ms => exact hsame he
    | settle n status => exact hsame he
    | lose key =>
      injection henv with henv
      subst henv
      exact ih
    | fallBack inst =>
      injection henv with henv
      subst henv
      exact ih

theorem exists_drifts {s : Scene} {log : List GatewayEvent}
    (h : Idles D i outcome (w.bare, log) s)
    : ∃ w', (machine D).Drifts (Turbulence i outcome) w w' ∧ s = (w'.bare, log) := by
  induction h with
  | refl => exact ⟨w, .refl, rfl⟩
  | @tail s₁ s₂ _ hstep ih =>
    rcases hstep with ⟨e, he, henv⟩
    rcases ih with ⟨w₁, hdrifts, hs₁⟩
    subst hs₁
    rcases (observed_env seesGateways).mp henv with ⟨henv, hlog⟩
    have he := Surroundings.bare.mp he
    have henv : envStep e w₁.bare = some s₂.1 := henv
    rw [env_bare he, Option.map_eq_some_iff] at henv
    rcases henv with ⟨w₂, henv, hw₂⟩
    refine ⟨w₂, hdrifts.tail ⟨e, ?_, henv⟩, ?_⟩
    . cases e <;> first | exact he | exact he.elim
    . rw [hw₂]
      exact Prod.ext rfl hlog

theorem exec_of_bare {o : Oracle} {r : Except Err cmd.Resp} (h : cmd.offRedis)
    (hexec : exec D i cmd o w.bare = some (r, w')) : ∃ w₁, exec D i cmd o w = some (r, w₁) := by
  rw [exec_bare h, Option.map_eq_some_iff] at hexec
  rcases hexec with ⟨⟨r', w₁⟩, hexec, heq⟩
  injection heq with hr _
  subst hr
  exact ⟨w₁, hexec⟩

/--
A program that does not look at Redis does what it does without Redis.
-/
theorem Leads.returns {Φ : α → Scene → Prop} {log : List GatewayEvent} (hp : p.Issues Cmd.offRedis)
    (h : Leads D i outcome True p Φ (w.bare, log))
    : (enduring D i outcome).Returns p (fun r w' => ∃ log, Φ r (w'.bare, log)) w := by
  have hcarry := Setting.Meets.carry (T := enduring D i outcome)
    (R := fun w s => ∃ log, s = (w.bare, log)) ?_ hp h ⟨log, rfl⟩
  . apply hcarry.mono
    rintro _ w' ⟨r, hr, _, ⟨log, hs⟩, hΦ⟩
    subst hs
    exact ⟨r, hr, log, hΦ⟩
  . rintro w _ cmd ⟨log, hs⟩ hcmd hready
    subst hs
    rcases hready trivial with ⟨s₁, o, x, s₂, hidles, ho, hexec⟩
    rcases exists_drifts hidles with ⟨w₁, hdrifts, hs₁⟩
    subst hs₁
    rcases observed_exec.mp hexec with ⟨hexec, _⟩
    rcases exec_of_bare hcmd hexec with ⟨w₂, hexec⟩
    refine ⟨fun _ => ⟨w₁, o, x, w₂, hdrifts, ⟨fun _ => ho.left, ho.right.right⟩, hexec⟩, ?_⟩
    -- The command fits, so every answer to it is one in time.
    rintro x' w₂' ⟨w₁', o', hdrifts', ho', hexec'⟩
    have hclient : ∀ op, cmd ≠ .client op := by
      rintro op rfl
      exact hcmd
    refine ⟨(w₂'.bare, log ++ seesGateways i cmd o' w₁'.bare),
      ⟨(w₁'.bare, log), o', idles_bare log hdrifts', ⟨ho'.left hclient, ho.right.left, ho'.right⟩,
        observed_exec.mpr ⟨?_, rfl⟩⟩, _, rfl⟩
    change exec D i cmd o' w₁'.bare = _
    rw [exec_bare hcmd, show exec D i cmd o' w₁' = _ from hexec']
    rfl

/--
The account is right about the world, whatever the state of Redis. The events are left out of it.
-/
def Account.Holds (a : Account) (i : Pid) (tx : Option OpenTx) (w : World) : Prop :=
  ({ a with events := [] } : Account).Shows i tx (w.bare, [])

theorem Account.Shows.holds {log : List GatewayEvent} (h : a.Shows i tx (w.bare, log))
    : a.Holds i tx w := by
  exact ⟨h.transactions, h.fresh, h.trail, h.session, h.locks, h.connected, h.gateways, h.unique,
    h.calls, rfl, h.created⟩

theorem Account.Holds.around {log : List GatewayEvent} (h : a.Holds i tx w)
    (hs : Around (w.bare, []) (w'.bare, log)) : a.Holds i tx w' := by
  have h : ({ a with events := [] } : Account).Shows i tx (w.bare, []) := h
  exact (h.around hs).holds

theorem Account.Holds.drifts (h : a.Holds i tx w)
    (hdrifts : (machine D).Drifts (Turbulence i outcome) w w') : a.Holds i tx w' := by
  exact Account.Shows.around h (idles_bare [] hdrifts).around

/-!
A transition whose values the columns do not take.
-/

theorem ready_of_exec {x : Except Err cmd.Resp} (hexec : exec D i cmd {} w = some (x, w'))
    (hrace : ∀ n, cmd ≠ .race n) : (enduring D i outcome).ready w cmd := by
  intro _
  refine ⟨w, {}, x, w', .refl, ⟨fun _ => rfl, ?_⟩, hexec⟩
  intro n charge hn
  exact absurd hn (hrace n)

theorem returns_perform {Φ : cmd.Resp → Scene → Prop}
    (h : Leads D i outcome True (perform cmd) Φ (w.bare, [])) (hcmd : cmd.offRedis)
    : (enduring D i outcome).Returns (perform cmd) (fun r w' => ∃ log, Φ r (w'.bare, log)) w := by
  exact h.returns (issues_perform hcmd)

variable {row : Transaction} {toState : TransactionState} {metadata : TransitionMetadata}

/--
The party uses Redis and the statistics of the gateways, and only Redis may fail.
-/
def aside : Protocol Cmd Cmd.Resp Err where
  State := List GatewayProvider
  allowed := fun _ cmd => cmd.routing
  answers := fun gateways cmd r =>
    match cmd with
    | .client _ => True
    | .findStats => ∃ rows : List GatewayStats, r = .ok rows ∧ rows.map GatewayStats.gateway = gateways
    | _ => ∃ v, r = .ok v
  next := fun gateways _ _ => gateways
  crash := id

theorem Account.Holds.of_bare (h : a.Holds i tx w) (hw : w'.bare = w.bare) : a.Holds i tx w' := by
  unfold Holds
  rw [hw]
  exact h

-- A statement about the statistics is answered.
theorem aside_of_returns {Φ : cmd.Resp → World → Prop}
    (h : (enduring D i outcome).Returns (perform cmd) Φ w)
    : (enduring D i outcome).ready w cmd ∧
        ∀ x w', (enduring D i outcome).answer w cmd x w' → ∃ v, x = .ok v ∧ Φ v w' := by
  exact Setting.Meets.perform_iff.mp h

theorem aside_step (h : a.Holds i none w) (hcmd : cmd.routing)
    : (enduring D i outcome).ready w cmd ∧
        ∀ x w', (enduring D i outcome).answer w cmd x w' →
          aside.answers a.gateways cmd x ∧ a.Holds i none w' := by
  cases cmd with
  | mock op =>
    refine ⟨ready_of_exec rfl (by simp), ?_⟩
    rintro x w' ⟨w₁, o, hdrifts, ho, hexec⟩
    have hexec : exec D i (.mock op) o w₁ = some (x, w') := hexec
    simp only [exec, Option.some.injEq, Prod.mk.injEq] at hexec
    rcases hexec with ⟨hx, hw'⟩
    refine ⟨⟨_, hx.symm⟩, (h.drifts hdrifts).of_bare ?_⟩
    rw [← hw']
    unfold Exec.mock
    dsimp only
    split <;> rfl
  | client op =>
    refine ⟨ready_of_exec rfl (by simp), ?_⟩
    rintro x w' ⟨w₁, o, hdrifts, ho, hexec⟩
    have hexec : exec D i (.client op) o w₁ = some (x, w') := hexec
    refine ⟨trivial, (h.drifts hdrifts).of_bare ?_⟩
    simp only [exec, Exec.statement] at hexec
    split at hexec <;>
    . simp only [Option.some.injEq, Prod.mk.injEq] at hexec
      rcases hexec with ⟨_, hw'⟩
      subst hw'
      rfl
  | fallback op =>
    refine ⟨ready_of_exec rfl (by simp), ?_⟩
    rintro x w' ⟨w₁, o, hdrifts, ho, hexec⟩
    have hexec : exec D i (.fallback op) o w₁ = some (x, w') := hexec
    simp only [exec, Option.some.injEq, Prod.mk.injEq] at hexec
    rcases hexec with ⟨hx, hw'⟩
    refine ⟨⟨_, hx.symm⟩, (h.drifts hdrifts).of_bare ?_⟩
    rw [← hw']
    rfl
  | findStats =>
    have hstats := h.gateways
    rcases aside_of_returns (returns_perform (D := D) (i := i) leads_findStats trivial)
      with ⟨hready, hanswer⟩
    refine ⟨hready, fun x w' hx => ?_⟩
    rcases hanswer x w' hx with ⟨rows, hrows, _, hstats', hs⟩
    exact ⟨⟨rows, hrows, by rw [hstats', hstats]⟩, h.around hs⟩
  | findStatsOf gateway =>
    rcases aside_of_returns (returns_perform (D := D) (i := i) leads_findStatsOf trivial)
      with ⟨hready, hanswer⟩
    refine ⟨hready, fun x w' hx => ?_⟩
    rcases hanswer x w' hx with ⟨v, hv, _, _, hs⟩
    exact ⟨⟨v, hv⟩, h.around hs⟩
  | saveStats stats =>
    have hleads : Leads D i outcome True (perform (.saveStats stats)) _ (w.bare, []) :=
      leads_saveStats h
    rcases aside_of_returns (returns_perform hleads trivial) with ⟨hready, hanswer⟩
    refine ⟨hready, fun x w' hx => ?_⟩
    rcases hanswer x w' hx with ⟨v, hv, _, h', _⟩
    exact ⟨⟨v, hv⟩, h'.holds⟩
  | _ => exact hcmd.elim

/--
A program that the account has nothing to do with.
-/
theorem returns_aside {Φ : α → Prop} (h : a.Holds i none w)
    (hp : aside.Within a.gateways p Φ (fun _ => False))
    : (enduring D i outcome).Returns p (fun r w' => Φ r ∧ a.Holds i none w') w := by
  apply Setting.Meets.of_within _ hp h
  intro w₁ cmd h₁ hcmd
  exact aside_step h₁ hcmd

section Within

variable {gateways : List GatewayProvider} {stats : GatewayStats}

theorem within_answered {cmd : Cmd} {Φ : cmd.Resp → Prop}
    (h : ∀ r, aside.answers gateways cmd r → ∃ v, r = .ok v ∧ Φ v) (hcmd : cmd.routing)
    : aside.Within gateways (perform cmd) Φ (fun _ => False) := by
  apply Protocol.within_perform hcmd
  intro r hr
  rcases h r hr with ⟨v, hv, hΦ⟩
  subst hv
  refine ⟨rfl, ?_, ?_⟩
  . intro v' hv
    injection hv with hv
    subst hv
    exact hΦ
  . intro e he
    cases he

theorem within_saveStats
    : aside.Within gateways (perform (.saveStats stats)) (fun _ => True) (fun _ => False) := by
  refine within_answered ?_ trivial
  rintro r ⟨v, hv⟩
  exact ⟨v, hv, trivial⟩

theorem within_client {op : ClientOp} (hop : op.offQueue)
    : aside.Within gateways (perform (.client op)) (fun _ => True) (fun _ => True) := by
  apply Protocol.within_perform hop
  intro r _
  exact ⟨rfl, fun _ _ => trivial, fun _ _ => trivial⟩

/--
An operation of `RedisService` never throws.
-/
theorem within_service {op : MockOp} {client : Program op.Reply}
    {k : Option op.Reply → Program op.Reply} (hop : op.offQueue)
    (hclient : aside.Within gateways client (fun _ => True) (fun _ => True))
    (hsome : ∀ v, k (some v) = .pure v)
    (hnone : k none = client.tryCatch (fun _ => perform (.fallback op)))
    : aside.Within gateways ((perform (.mock op)).bind k) (fun _ => True) (fun _ => False) := by
  apply Protocol.Within.bind (Φ := fun _ => True)
  . refine within_answered ?_ hop
    rintro r ⟨v, hv⟩
    exact ⟨v, hv, trivial⟩
  . intro reply _
    cases reply with
    | some v =>
      rw [hsome]
      trivial
    | none =>
      rw [hnone]
      apply Protocol.Within.tryCatch hclient
      intro _ _
      refine within_answered ?_ hop
      rintro r ⟨v, hv⟩
      exact ⟨v, hv, trivial⟩

theorem within_get {key : String}
    : aside.Within gateways (RedisService.get key) (fun _ => True) (fun _ => False) := by
  apply within_service (show (MockOp.get key).offQueue from trivial) _ (fun _ => rfl) rfl
  exact within_client trivial

theorem within_del {key : String} (hkey : key ≠ queueName)
    : aside.Within gateways (RedisService.del key) (fun _ => True) (fun _ => False) := by
  apply within_service (show (MockOp.del key).offQueue from hkey) _ (fun _ => rfl) rfl
  exact within_client trivial

theorem within_set {key : String} {value : Stored} {mode : Option SetMode}
    {durationMode : Option DurationMode} {duration : Option Nat} (hkey : key ≠ queueName)
    : aside.Within gateways (RedisService.set key value mode durationMode duration) (fun _ => True)
        (fun _ => False) := by
  apply within_service (show (MockOp.set key value mode).offQueue from hkey) _ (fun _ => rfl) rfl
  split
  all_goals exact within_client trivial

theorem within_recordSuccess {g : GatewayProvider} {latencyMs : Nat}
    : aside.Within gateways (recordSuccess g latencyMs) (fun _ => True) (fun _ => False) := by
  unfold recordSuccess
  apply Protocol.Within.bind (Φ := fun _ => True)
  . refine within_answered ?_ trivial
    rintro r ⟨v, hv⟩
    exact ⟨v, hv, trivial⟩
  . intro row _
    cases row with
    | none => trivial
    | some row =>
      dsimp only
      split
      . apply (within_del (circuitKey_ne_queueName g)).bind
        intro _ _
        exact within_saveStats
      . exact within_saveStats

theorem within_recordFailure {g : GatewayProvider} {latencyMs : Nat}
    : aside.Within gateways (recordFailure g latencyMs) (fun _ => True) (fun _ => False) := by
  unfold recordFailure
  apply Protocol.Within.bind (Φ := fun _ => True)
  . refine within_answered ?_ trivial
    rintro r ⟨v, hv⟩
    exact ⟨v, hv, trivial⟩
  . intro row _
    cases row with
    | none => trivial
    | some row =>
      dsimp only
      split
      . apply (within_set (circuitKey_ne_queueName g)).bind
        intro _ _
        exact within_saveStats
      . exact within_saveStats

theorem within_candidate {amount : Nat}
    : aside.Within gateways (candidate D amount stats) (fun c => c.provider = stats.gateway)
        (fun _ => False) := by
  have hcooldown : aside.Within gateways (checkCooldown stats)
      (fun stats' => stats'.gateway = stats.gateway) (fun _ => False) := by
    unfold checkCooldown
    split
    . apply within_get.bind
      intro isTripped _
      split
      . apply within_saveStats.bind
        intro _ _
        rfl
      . rfl
    . rfl
  unfold candidate
  apply hcooldown.bind
  intro stats' hstats'
  exact hstats'

/--
The ranking is not empty if some gateway is configured.
-/
theorem within_getRankedGateways {amount : Nat}
    (hconfigured : ∃ g ∈ gateways, considered D g)
    : aside.Within gateways (getRankedGateways D amount) (fun ranking => ranking ≠ [])
        (fun _ => False) := by
  unfold getRankedGateways
  apply Protocol.Within.bind (Φ := fun rows : List GatewayStats =>
    rows.map GatewayStats.gateway = gateways)
  . refine within_answered ?_ trivial
    exact fun _ h => h
  . intro rows hrows
    apply Protocol.Within.bind (Φ := fun cs => List.Forall₂
      (fun (stats : GatewayStats) (c : Candidate) => c.provider = stats.gateway)
      (rows.filter (fun row => considered D row.gateway)) cs)
    . apply Protocol.within_all
      intro stats _
      exact within_candidate
    . intro cs hcs
      apply rank_ne_nil
      intro hnil
      subst hnil
      rw [List.forall₂_nil_right_iff, List.filter_eq_nil_iff] at hcs
      rcases hconfigured with ⟨g, hg, hconsidered⟩
      rw [← hrows, List.mem_map] at hg
      rcases hg with ⟨row, hrow, hgateway⟩
      rw [← hgateway] at hconsidered
      exact hcs row hrow hconsidered

end Within

/-!
The lock of a fresh key.
-/

section Lock

variable {key : String} {value : Stored} {d : Nat}

/--
The key is neither in Redis nor in the memory of the instance.
-/
structure Vacant (key : String) (i : Pid) (w : World) : Prop where
  redis : w.redis.lookup w.clock key = none
  mock : (w.mem i.inst).mockStore key = none

theorem mockStore_drifts {inst : Nat} (hdrifts : (machine D).Drifts (Turbulence i outcome) w w')
    : (w'.mem inst).mockStore = (w.mem inst).mockStore := by
  apply drifts_keeps (f := fun w : World => (w.mem inst).mockStore) _ hdrifts
  intro w e w' _ henv
  have henv : envStep e w = some w' := henv
  cases e with
  | fallBack inst' =>
    injection henv with henv
    subst henv
    by_cases hinst : inst = inst'
    . subst hinst
      simp
    . simp [hinst]
  | settle n status =>
    simp only [envStep] at henv
    split at henv
    . split at henv
      . injection henv with henv
        subst henv
        rfl
      . cases henv
    . cases henv
  | _ =>
    injection henv with henv
    subst henv
    rfl

theorem lookup_drifts (h : w.redis.lookup w.clock key = none)
    (hdrifts : (machine D).Drifts (Turbulence i outcome) w w')
    : w'.redis.lookup w'.clock key = none := by
  induction hdrifts with
  | refl => exact h
  | tail _ hstep ih =>
    rcases hstep with ⟨e, _, henv⟩
    have henv : envStep e _ = some _ := henv
    cases e with
    | tick ms =>
      injection henv with henv
      subst henv
      exact Redis.lookup_later ih (Nat.le_add_right _ _)
    | lose key' =>
      injection henv with henv
      subst henv
      simp only [Redis.lookup] at ih ⊢
      by_cases hkey : key = key'
      . subst hkey
        simp
      . rw [Function.update_of_ne hkey]
        exact ih
    | fallBack inst =>
      injection henv with henv
      subst henv
      exact ih
    | settle n status =>
      simp only [envStep] at henv
      split at henv
      . split at henv
        . injection henv with henv
          subst henv
          exact ih
        . cases henv
      . cases henv

theorem Vacant.drifts (h : Vacant key i w)
    (hdrifts : (machine D).Drifts (Turbulence i outcome) w w') : Vacant key i w' := by
  refine ⟨lookup_drifts h.redis hdrifts, ?_⟩
  rw [mockStore_drifts hdrifts]
  exact h.mock

end Lock

end PaymentOrchestration
