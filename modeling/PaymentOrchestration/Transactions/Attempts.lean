import PaymentOrchestration.Party.Services
import PaymentOrchestration.Transactions.Account

/-!
This module is about the calls that `create` makes outside the database, when nobody interferes and
every gateway has made up its mind: the charge at a gateway, its statistics, the ranking and Redis.
-/

namespace PaymentOrchestration

open Machine StateMachine TransactionsService RoutingEngine

variable {D : Deployment} {i : Pid} {outcome : GatewayProvider → GatewayOutcome} {a : Account}
  {s s' : Scene} {g : GatewayProvider} {request : GatewayChargeRequest} {total : Prop}

/-!
The charge.
-/

def Account.charges (a : Account) (i : Pid) (g : GatewayProvider) (request : GatewayChargeRequest)
    : Account :=
  { a with calls := a.calls ++ [(i, g, request)], events := a.events ++ [.charged g] }

/--
Charge call `n` has been sent, and what is known of it agrees with what the gateway is going to do.
-/
def Sent (i : Pid) (outcome : GatewayOutcome) (g : GatewayProvider) (request : GatewayChargeRequest)
    (n : Nat) (w : World) : Prop :=
  ∃ status, w.charges[n]? = some ⟨i, g, request, status, false⟩ ∧ outcome.settles status false

theorem leads_charge (h : a.Shows i none s)
    : Leads D i outcome total (perform (.charge g request))
        (fun n s' => (a.charges i g request).Shows i none s' ∧
          s'.1.charges[n]? = some ⟨i, g, request, .pending false, false⟩) s := by
  apply leads_command (by simp) (fun _ => rfl)
  intro s₁ hs₁ _
  have h₁ := h.around hs₁
  refine ⟨s₁.1.charges.length, _, fun o ho => rfl, ?_, List.getElem?_concat_length⟩
  refine ⟨h₁.transactions, h₁.fresh, h₁.trail, h₁.session, h₁.locks, h₁.connected, h₁.gateways,
    h₁.unique, ?_, ?_, ?_⟩
  . change (s₁.1.charges ++ [_]).map Charge.call = _
    rw [List.map_append, h₁.calls]
    rfl
  . change s₁.2 ++ _ = _
    rw [h₁.events]
    rfl
  . intro row hrow
    exact List.mem_append_left _ (h₁.created row hrow)

theorem Sent.idles {n : Nat} (h : Sent i (outcome g) g request n s.1)
    (hidles : Idles D i outcome s s') : Sent i (outcome g) g request n s'.1 := by
  induction hidles with
  | refl => exact h
  | tail _ hstep ih =>
    rcases hstep with ⟨e, he, henv⟩
    have henv := ((observed_env seesGateways).mp henv).left
    rcases ih with ⟨status, hcharge, hsettles⟩
    cases e with
    | tick ms =>
      injection henv with henv
      rw [← henv]
      exact ⟨status, hcharge, hsettles⟩
    | settle m status' =>
      simp only [envStep] at henv
      split at henv
      . next charge hm =>
        split at henv
        . injection henv with henv
          rw [← henv]
          by_cases hmn : m = n
          . subst hmn
            rw [hcharge] at hm
            injection hm with hm
            subst hm
            refine ⟨status', ?_, he _ hcharge rfl⟩
            have hlength := (List.getElem?_eq_some_iff.mp hcharge).choose
            simp [hlength]
          . refine ⟨status, ?_, hsettles⟩
            rw [List.getElem?_set_ne hmn]
            exact hcharge
        . cases henv
      . cases henv
    | _ => exact he.elim

/--
`chargeResult` is what `callGateway` makes of the outcome.
-/
structure GatewayOutcome.Gives (outcome : GatewayOutcome) (chargeResult : GatewayChargeResponse)
    : Prop where
  success : chargeResult.success = outcome.succeeds
  error : errorOf chargeResult = outcome.error
  rawResponse : chargeResult.rawResponse = outcome.rawResponse
  answered : ∀ response, outcome = .answers response → chargeResult = response

/--
However the charge call ends, the race ends as the gateway has made up its mind.
-/
theorem Sent.race {n : Nat} {w w' : World} {o : Oracle} {x : Except Err GatewayChargeResponse}
    (h : Sent i (outcome g) g request n w) (ho : InTime D outcome w (.race n) o)
    (hexec : Exec.race n o w = some (x, w'))
    : x = (outcome g).reply ∧
        ∃ charges, w' = { w with charges := charges } ∧
          charges.map Charge.call = w.charges.map Charge.call := by
  rcases h with ⟨status, hcharge, hsettles⟩
  simp only [Exec.race, hcharge] at hexec
  cases status with
  | answered response =>
    injection hexec with hexec
    injection hexec with hx hw
    subst hx hw
    refine ⟨?_, _, rfl, rfl⟩
    cases houtcome : outcome g with
    | answers response' =>
      rw [houtcome] at hsettles
      rw [show response = response' from hsettles]
      rfl
    | throws message =>
      rw [houtcome] at hsettles
      exact hsettles.elim
    | timesOut =>
      rw [houtcome] at hsettles
      cases hsettles
  | threw message captured =>
    injection hexec with hexec
    injection hexec with hx hw
    subst hx hw
    refine ⟨?_, _, rfl, rfl⟩
    cases houtcome : outcome g with
    | answers response =>
      rw [houtcome] at hsettles
      exact hsettles.elim
    | throws message' =>
      rw [houtcome] at hsettles
      rw [show message = message' from hsettles]
      rfl
    | timesOut =>
      rw [houtcome] at hsettles
      cases hsettles
  | pending captured =>
    dsimp only at hexec
    split at hexec
    . next htimer =>
      injection hexec with hexec
      injection hexec with hx hw
      subst hx hw
      rw [ho.right.right n _ rfl htimer hcharge]
      exact ⟨rfl, _, rfl, Books.map_set_of_eq hcharge rfl⟩
    . cases hexec

/--
The race does end.
-/
theorem exists_race {n : Nat} {s : Scene}
    (hcharge : s.1.charges[n]? = some ⟨i, g, request, .pending false, false⟩)
    : ∃ s₁ o x w, Idles D i outcome s s₁ ∧ InTime D outcome s₁.1 (.race n) o ∧
        exec D i (.race n) o s₁.1 = some (x, w) := by
  have hsettle : ∀ status, (outcome g).settles status false →
      ∃ s₁ : Scene, Idles D i outcome s s₁ ∧
        s₁.1.charges[n]? = some ⟨i, g, request, status, false⟩ := by
    intro status hstatus
    refine ⟨({ s.1 with charges := s.1.charges.set n ⟨i, g, request, status, false⟩ }, s.2), ?_, ?_⟩
    . apply Relation.ReflTransGen.single
      refine ⟨.settle n status, ?_, ?_⟩
      . intro charge hn _
        rw [hcharge] at hn
        injection hn with hn
        subst hn
        exact hstatus
      . exact (observed_env seesGateways).mpr ⟨by simp [envStep, hcharge], rfl⟩
    . have hlength := (List.getElem?_eq_some_iff.mp hcharge).choose
      simp [hlength]
  cases houtcome : outcome g with
  | answers response =>
    rw [houtcome] at hsettle
    rcases hsettle (.answered response) rfl with ⟨s₁, hidles, hn⟩
    refine ⟨s₁, {}, .ok response, s₁.1, hidles, ⟨rfl, rfl, by simp⟩, ?_⟩
    simp only [exec, Exec.race, hn]
  | throws message =>
    rw [houtcome] at hsettle
    rcases hsettle (.threw message false) rfl with ⟨s₁, hidles, hn⟩
    refine ⟨s₁, {}, .error (.error message), s₁.1, hidles, ⟨rfl, rfl, by simp⟩, ?_⟩
    simp only [exec, Exec.race, hn]
  | timesOut =>
    let charges := s.1.charges.set n ⟨i, g, request, .pending false, true⟩
    refine ⟨s, { timer := true }, .error (.error "Gateway call timed out"),
      { s.1 with charges := charges }, .refl, ⟨rfl, rfl, ?_⟩, ?_⟩
    . intro m charge hm _ hcharge'
      injection hm with hm
      rw [← hm, hcharge] at hcharge'
      injection hcharge' with hcharge'
      rw [← hcharge']
      exact houtcome
    . simp only [exec, Exec.race, hcharge]
      rfl

theorem Sent.of_pending {n : Nat} {w : World}
    (hcharge : w.charges[n]? = some ⟨i, g, request, .pending false, false⟩)
    : Sent i (outcome g) g request n w := by
  refine ⟨_, hcharge, ?_⟩
  cases outcome g <;> trivial

theorem leads_callGateway (h : a.Shows i none s) (startTime : Nat)
    : Leads D i outcome total (callGateway request g startTime)
        (fun chargeResult s' => (outcome g).Gives chargeResult ∧
          (a.charges i g request).Shows i none s') s := by
  unfold callGateway
  apply Setting.Assures.bind (leads_charge h)
  rintro n s₁ ⟨h₁, hn⟩ s₂ hs₂
  subst hs₂
  refine ⟨fun _ => ?_, ?_⟩
  . rcases @exists_race D i outcome g request n s₁ hn with ⟨s₂, o, x, w, hidles, ho, hexec⟩
    exact ⟨s₂, o, x, (w, s₂.2 ++ []), hidles, ho, observed_exec.mpr ⟨hexec, rfl⟩⟩
  rintro x s₃ ⟨s₂, o, hidles, ho, hanswer⟩
  rcases observed_exec.mp hanswer with ⟨hexec, hlog⟩
  have hsent : Sent i (outcome g) g request n s₁.1 := .of_pending hn
  rcases (hsent.idles hidles).race ho hexec with ⟨hx, charges, hw, hcalls⟩
  have h₃ : (a.charges i g request).Shows i none s₃ := by
    apply (h₁.around (Idles.around hidles)).around
    refine ⟨⟨_, charges, hw⟩, ?_, ?_, ?_⟩
    . rw [hw]
    . rw [hw]
      exact hcalls
    . rw [hlog]
      exact List.append_nil _
  refine ⟨trivial, ?_⟩
  cases houtcome : outcome g with
  | answers response =>
    rw [houtcome] at hx
    rw [hx]
    refine ⟨⟨rfl, rfl, rfl, ?_⟩, h₃⟩
    intro response' heq
    injection heq
  | throws message =>
    rw [houtcome] at hx
    rw [hx]
    apply Setting.Assures.bind leads_now
    intro endTime s₄ hs₄
    exact ⟨⟨rfl, rfl, rfl, by simp⟩, h₃.around hs₄⟩
  | timesOut =>
    rw [houtcome] at hx
    rw [hx]
    apply Setting.Assures.bind leads_now
    intro endTime s₄ hs₄
    exact ⟨⟨rfl, rfl, rfl, by simp⟩, h₃.around hs₄⟩

/--
The account after a round of the loop has charged the gateway.
-/
def Account.attempted (a : Account) (i : Pid) (dto : CreateTransactionDto) (row : Transaction)
    (g : GatewayProvider) : Account :=
  let routed := transitioned row .ROUTED (routedMetadata g)
  let processing := transitioned routed .PROCESSING (processingMetadata g)
  ((a.moved routed (auditRow row.currentState routed .ROUTED (routedMetadata g))).moved processing
    (auditRow .ROUTED processing .PROCESSING (processingMetadata g))).charges i g
      (chargeRequest dto row.id g)

theorem fits_routedMetadata (g : GatewayProvider) : (routedMetadata g).fits D = true := by
  have hreason : Exec.varchar 500 s!"Gateway {g} selected for attempt" = true := by
    cases g <;> exact Exec.varchar_of_holds (by decide)
  simp [TransitionMetadata.fits, routedMetadata, hreason]

theorem fits_processingMetadata (g : GatewayProvider) : (processingMetadata g).fits D = true := by
  have hreason : Exec.varchar 500 s!"Initiating API call to {g}" = true := by
    cases g <;> exact Exec.varchar_of_holds (by decide)
  simp [TransitionMetadata.fits, processingMetadata, hreason]

theorem leads_attempt {dto : CreateTransactionDto} {row : Transaction} (h : a.Shows i none s)
    (hrow : a.payment = some row) (hstate : .ROUTED ∈ VALID_TRANSITIONS row.currentState)
    (hfits : total → Exec.Transaction.fits row = true)
    : Leads D i outcome total (attempt dto row.id g)
        (fun r s' => (outcome g).Gives r.1 ∧ (a.attempted i dto row g).Shows i none s') s := by
  unfold attempt
  have hrouted : Leads D i outcome total (transition row.id .ROUTED (routedMetadata g)) _ s :=
    leads_transition h hrow rfl hstate (by decide) hfits (fun _ => fits_routedMetadata g)
  apply Setting.Assures.bind hrouted
  rintro _ s₁ ⟨rfl, h₁⟩
  have hprocess : .PROCESSING ∈ VALID_TRANSITIONS .ROUTED := by decide
  have hprocessing : Leads D i outcome total (transition row.id .PROCESSING (processingMetadata g)) _ s₁ :=
    leads_transition h₁ rfl rfl hprocess (by decide) hfits (fun _ => fits_processingMetadata g)
  apply Setting.Assures.bind hprocessing
  rintro _ s₂ ⟨rfl, h₂⟩
  apply Setting.Assures.bind leads_now
  intro startTime s₃ hs₃
  apply Setting.Assures.bind (leads_callGateway (h₂.around hs₃) startTime)
  rintro chargeResult s₄ ⟨hgives, h₄⟩
  apply Setting.Assures.bind leads_now
  intro endTime s₅ hs₅
  exact ⟨hgives, h₄.around hs₅⟩

/-!
Redis.
-/

variable {tx : Option OpenTx} {key : String} {value : Stored}

theorem Account.Shows.setRedis (h : a.Shows i tx s) (redis : Redis)
    : a.Shows i tx ({ s.1 with redis := redis }, s.2) := by
  exact ⟨h.transactions, h.fresh, h.trail, h.session, h.locks, h.connected, h.gateways, h.unique,
    h.calls, h.events, h.created⟩

theorem leads_mock {op : MockOp} (h : a.Shows i tx s)
    : Leads D i outcome total (perform (.mock op)) (fun r s' => r = none ∧ Around s s') s := by
  apply leads_unseen (by simp) (fun _ => rfl) (fun _ => rfl)
  intro s₁ hs₁ _
  exact ⟨none, s₁.1, fun o _ => exec_mock_of_connected (h.around hs₁).connected, rfl, hs₁⟩

theorem leads_client {op : ClientOp}
    : Leads D i outcome total (perform (.client op))
        (fun r s' => ∃ s₁, Around s s₁ ∧ r = (op.run s₁.1.clock s₁.1.redis).1 ∧
          s' = ({ s₁.1 with redis := (op.run s₁.1.clock s₁.1.redis).2 }, s₁.2)) s := by
  apply leads_unseen (by simp) (fun _ => rfl) (fun _ => rfl)
  intro s₁ hs₁ _
  exact ⟨_, _, fun o ho => exec_client_of_healthy ho, s₁, hs₁, rfl, rfl⟩

-- What the instance does with Redis is of no account to the payment and to the statistics.
structure Account.Keeps (a : Account) (i : Pid) (s s' : Scene) : Prop where
  shows : a.Shows i none s'
  gatewayStats : s'.1.gatewayStats = s.1.gatewayStats

theorem leads_setKey {d : Nat} (h : a.Shows i none s) (hd : 0 < d)
    : Leads D i outcome total (RedisService.set key value none (some .EX) (some d))
        (fun _ s' => a.Keeps i s s' ∧ s'.1.redis.lookup s'.1.clock key = some value) s := by
  unfold RedisService.set
  apply Setting.Assures.bind (leads_mock h)
  rintro _ s₁ ⟨rfl, hs₁⟩
  apply Setting.Assures.tryCatch
  apply leads_client.mono (fun _ _ h => h) (fun _ _ h => h)
  rintro _ s' ⟨s₂, hs₂, _, rfl⟩
  have hs := hs₁.trans hs₂
  refine ⟨⟨(h.around hs).setRedis _, hs.gatewayStats⟩, ?_⟩
  simp [ClientOp.run, Redis.lookup, DurationMode.millis, hd]

theorem leads_del (h : a.Shows i none s)
    : Leads D i outcome total (RedisService.del key) (fun _ s' => a.Keeps i s s') s := by
  unfold RedisService.del
  apply Setting.Assures.bind (leads_mock h)
  rintro _ s₁ ⟨rfl, hs₁⟩
  apply Setting.Assures.tryCatch
  apply leads_client.mono (fun _ _ h => h) (fun _ _ h => h)
  rintro _ s' ⟨s₂, hs₂, _, rfl⟩
  have hs := hs₁.trans hs₂
  exact ⟨(h.around hs).setRedis _, hs.gatewayStats⟩

theorem Redis.lookup_later {redis : Redis} {t t' : Nat} (h : redis.lookup t key = none)
    (ht : t ≤ t') : redis.lookup t' key = none := by
  unfold lookup at h ⊢
  split at h
  . next entry hentry =>
    split at h
    . next expireAt hexpire =>
      split at h
      . cases h
      . rw [if_neg]
        omega
    . cases h
  . rfl

-- A key that is not there is taken.
theorem leads_setNX {d : Nat} (h : a.Shows i none s)
    (hnone : s.1.redis.lookup s.1.clock key = none)
    : Leads D i outcome total (RedisService.set key value (some .NX) (some .EX) (some d))
        (fun ok s' => ok = true ∧ a.Keeps i s s') s := by
  unfold RedisService.set
  apply Setting.Assures.bind (leads_mock h)
  rintro _ s₁ ⟨rfl, hs₁⟩
  apply Setting.Assures.tryCatch
  apply leads_client.mono (fun _ _ h => h) (fun _ _ h => h)
  rintro ok s' ⟨s₂, hs₂, rfl, rfl⟩
  have hs := hs₁.trans hs₂
  refine ⟨?_, (h.around hs).setRedis _, hs.gatewayStats⟩
  have hlater := Redis.lookup_later hnone hs.clock
  rw [← hs.redis] at hlater
  simp [ClientOp.run, hlater]

/-!
The statistics.
-/

theorem Account.Shows.exists_stats (h : a.Shows i tx s) (hg : g ∈ a.gateways)
    : ∃ row, s.1.statsOf g = some row := by
  rw [← h.gateways, List.mem_map] at hg
  rcases hg with ⟨row, hrow, hgateway⟩
  unfold World.statsOf
  rw [← Option.isSome_iff_exists, List.find?_isSome]
  exact ⟨row, hrow, by simpa using hgateway⟩

theorem Around.statsOf (h : Around s s') (g : GatewayProvider) : s'.1.statsOf g = s.1.statsOf g := by
  unfold World.statsOf
  rw [h.gatewayStats]

theorem leads_findStatsOf
    : Leads D i outcome total (perform (.findStatsOf g))
        (fun r s' => r = s.1.statsOf g ∧ Around s s') s := by
  apply leads_unseen (by simp) (fun _ => rfl) (fun _ => rfl)
  intro s₁ hs₁ _
  refine ⟨s₁.1.statsOf g, s₁.1, fun o ho => exec_findStatsOf_of_healthy ho, ?_, hs₁⟩
  exact hs₁.statsOf g

/--
What the observer notes when the row is saved in the given world.
-/
def Account.saves (a : Account) (i : Pid) (stats : GatewayStats) (w : World) : Account :=
  { a with events := a.events ++ seesGateways i (.saveStats stats) {} w }

theorem leads_saveStats {stats : GatewayStats} (h : a.Shows i none s)
    : Leads D i outcome total (perform (.saveStats stats))
        (fun _ s' => (a.saves i stats s.1).Shows i none s' ∧
          s'.1.gatewayStats = s.1.gatewayStats.map
            (fun old => if old.gateway = stats.gateway then stats else old)) s := by
  apply leads_command (by simp) (fun _ => rfl)
  intro s₁ hs₁ _
  have h₁ := h.around hs₁
  refine ⟨(), _, fun o ho => exec_saveStats_of_healthy ho, ?_, ?_⟩
  . refine ⟨h₁.transactions, h₁.fresh, h₁.trail, h₁.session, h₁.locks, h₁.connected, ?_, h₁.unique,
      h₁.calls, ?_, h₁.created⟩
    . change _ = a.gateways
      rw [World.mapStats_gatewayStats, List.map_map, ← h₁.gateways]
      apply List.map_congr_left
      intro old _
      simp only [Function.comp_apply]
      split
      . next heq => exact heq.symm
      . rfl
    . change s₁.2 ++ _ = a.events ++ _
      rw [h₁.events]
      simp only [seesGateways, hs₁.statsOf]
  . rw [World.mapStats_gatewayStats, hs₁.gatewayStats]

/--
A row that is saved with one failure more than it has been read with.
-/
theorem leads_saveFailure {row stats : GatewayStats} (h : a.Shows i none s)
    (hrow : s.1.statsOf g = some row) (hgateway : stats.gateway = g)
    (hfailures : stats.failureCount = row.failureCount + 1)
    : Leads D i outcome total (perform (.saveStats stats))
        (fun _ s' => (a.notes (.failed g)).Shows i none s') s := by
  have hevents : a.saves i stats s.1 = a.notes (.failed g) := by
    simp [Account.saves, Account.notes, seesGateways, hgateway, hrow, hfailures]
  rw [← hevents]
  exact (leads_saveStats h).mono (fun _ _ h => h) (fun _ _ h => h) (fun _ _ h => h.left)

theorem leads_saveSuccess {row stats : GatewayStats} (h : a.Shows i none s)
    (hrow : s.1.statsOf g = some row) (hgateway : stats.gateway = g)
    (hfailures : stats.failureCount = row.failureCount)
    (hsuccesses : stats.successCount = row.successCount + 1)
    : Leads D i outcome total (perform (.saveStats stats))
        (fun _ s' => (a.notes (.succeeded g)).Shows i none s') s := by
  have hevents : a.saves i stats s.1 = a.notes (.succeeded g) := by
    simp [Account.saves, Account.notes, seesGateways, hgateway, hrow, hfailures, hsuccesses]
  rw [← hevents]
  exact (leads_saveStats h).mono (fun _ _ h => h) (fun _ _ h => h) (fun _ _ h => h.left)

theorem Account.Keeps.statsOf (h : a.Keeps i s s') (g : GatewayProvider)
    : s'.1.statsOf g = s.1.statsOf g := by
  unfold World.statsOf
  rw [h.gatewayStats]

theorem leads_recordFailure {latencyMs : Nat} (h : a.Shows i none s) (hg : g ∈ a.gateways)
    : Leads D i outcome total (recordFailure g latencyMs)
        (fun _ s' => (a.notes (.failed g)).Shows i none s') s := by
  rcases h.exists_stats hg with ⟨row, hrow⟩
  have hgateway := World.gateway_of_statsOf hrow
  unfold recordFailure
  apply Setting.Assures.bind leads_findStatsOf
  rintro _ s₁ ⟨rfl, hs₁⟩
  have hrow₁ := (hs₁.statsOf g).trans hrow
  rw [hrow]
  dsimp only
  split
  . apply Setting.Assures.bind (leads_setKey (h.around hs₁) (by decide))
    rintro _ s₂ ⟨hkeeps, _⟩
    exact leads_saveFailure hkeeps.shows ((hkeeps.statsOf g).trans hrow₁) hgateway rfl
  . exact leads_saveFailure (h.around hs₁) hrow₁ hgateway rfl

theorem leads_recordSuccess {latencyMs : Nat} (h : a.Shows i none s) (hg : g ∈ a.gateways)
    : Leads D i outcome total (recordSuccess g latencyMs)
        (fun _ s' => (a.notes (.succeeded g)).Shows i none s') s := by
  rcases h.exists_stats hg with ⟨row, hrow⟩
  have hgateway := World.gateway_of_statsOf hrow
  unfold recordSuccess
  apply Setting.Assures.bind leads_findStatsOf
  rintro _ s₁ ⟨rfl, hs₁⟩
  have hrow₁ := (hs₁.statsOf g).trans hrow
  rw [hrow]
  dsimp only
  split
  . apply Setting.Assures.bind (leads_del (h.around hs₁))
    intro _ s₂ hkeeps
    exact leads_saveSuccess hkeeps.shows ((hkeeps.statsOf g).trans hrow₁) hgateway rfl rfl
  . exact leads_saveSuccess (h.around hs₁) hrow₁ hgateway rfl rfl

/-!
The ranking.
-/

theorem leads_findStats
    : Leads D i outcome total (perform .findStats)
        (fun r s' => r = s.1.gatewayStats ∧ Around s s') s := by
  apply leads_unseen (by simp) (fun _ => rfl) (fun _ => rfl)
  intro s₁ hs₁ _
  exact ⟨s₁.1.gatewayStats, s₁.1, fun o ho => exec_findStats_of_healthy ho, hs₁.gatewayStats, hs₁⟩

def GatewayStats.tally (row : GatewayStats) : GatewayProvider × Nat × Nat :=
  (row.gateway, row.successCount, row.failureCount)

/--
The account is up to date, and the calls have been counted as in `tallies`.
-/
structure Account.Counted (a : Account) (i : Pid) (tallies : List (GatewayProvider × Nat × Nat))
    (s : Scene) : Prop where
  shows : a.Shows i none s
  tallies : s.1.gatewayStats.map GatewayStats.tally = tallies

namespace Account.Counted

variable {tallies : List (GatewayProvider × Nat × Nat)} {row old : GatewayStats}

theorem around (h : a.Counted i tallies s) (hs : Around s s') : a.Counted i tallies s' := by
  refine ⟨h.shows.around hs, ?_⟩
  rw [hs.gatewayStats]
  exact h.tallies

theorem tally_eq (h : a.Counted i tallies s) (hold : old ∈ s.1.gatewayStats)
    (hrow : row.tally ∈ tallies) (hgateway : old.gateway = row.gateway) : old.tally = row.tally := by
  have hnodup : (tallies.map Prod.fst).Nodup := by
    rw [← h.tallies, List.map_map]
    have := h.shows.unique
    rw [← h.shows.gateways] at this
    exact this
  apply List.inj_on_of_nodup_map hnodup _ hrow hgateway
  rw [← h.tallies]
  exact List.mem_map_of_mem hold

-- Nothing is noted when a row is saved with the counts it has.
theorem saves_eq (h : a.Counted i tallies s) (hrow : row.tally ∈ tallies)
    : a.saves i row s.1 = a := by
  have hunseen : seesGateways i (.saveStats row) {} s.1 = [] := by
    simp only [seesGateways]
    split
    . next old hold =>
      have htally := h.tally_eq (List.mem_of_find?_eq_some hold) hrow
        (World.gateway_of_statsOf hold)
      simp only [GatewayStats.tally, Prod.mk.injEq] at htally
      rw [htally.right.left, htally.right.right]
      simp
    . rfl
  unfold saves
  rw [hunseen, List.append_nil]

theorem save (h : a.Counted i tallies s) (hrow : row.tally ∈ tallies)
    : Leads D i outcome total (perform (.saveStats row)) (fun _ s' => a.Counted i tallies s') s := by
  have hsave : Leads D i outcome total (perform (.saveStats row)) _ s := leads_saveStats h.shows
  rw [h.saves_eq hrow] at hsave
  apply hsave.mono (fun _ _ h => h) (fun _ _ h => h)
  rintro _ s' ⟨hshows, hstats⟩
  refine ⟨hshows, ?_⟩
  rw [hstats, List.map_map, ← h.tallies]
  apply List.map_congr_left
  intro old hold
  simp only [Function.comp_apply]
  split
  . next hgateway => exact (h.tally_eq hold hrow hgateway).symm
  . rfl

end Account.Counted

-- What the promises of a ranking do to the scene.
def Recounts (a : Account) (i : Pid) (tallies : List (GatewayProvider × Nat × Nat))
    (s s' : Scene) : Prop :=
  a.Counted i tallies s → a.Counted i tallies s'

section Ranking

variable {tallies : List (GatewayProvider × Nat × Nat)} {row : GatewayStats} {amount : Nat}

abbrev LeadsAmong (D : Deployment) (i : Pid) (outcome : GatewayProvider → GatewayOutcome)
    (total : Prop) (a : Account) (tallies : List (GatewayProvider × Nat × Nat)) {α : Type} (p : Program α)
    (Φ : α → Scene → Prop) (s : Scene) : Prop :=
  ((sceneMachine D).amid i (fun s e => Surroundings i outcome s.1 e)
    (fun s cmd o => InTime D outcome s.1 cmd o) total).Assures (Recounts a i tallies) (Recounts a i tallies)
    p Φ s

theorem leads_among {cmd : Cmd} {Ψ : cmd.Resp → Prop} (h : a.Counted i tallies s)
    (hcmd : ∀ s₁, a.Counted i tallies s₁ →
      Leads D i outcome total (perform cmd) (fun r s' => a.Counted i tallies s' ∧ Ψ r) s₁)
    : LeadsAmong D i outcome total a tallies (perform cmd)
        (fun r s' => a.Counted i tallies s' ∧ Ψ r) s := by
  apply Setting.Assures.relying
  intro s₁ hs₁
  apply (hcmd s₁ (hs₁ h)).mono (fun _ _ h => h) (fun _ _ h => h)
  intro r s' hr
  exact ⟨fun _ => hr.left, hr⟩

theorem among_get (h : a.Counted i tallies s) (key : String)
    : LeadsAmong D i outcome total a tallies (RedisService.get key)
        (fun _ s' => a.Counted i tallies s') s := by
  unfold RedisService.get
  apply Setting.Assures.bind (Φ := fun r s' => a.Counted i tallies s' ∧ r = none)
  . apply leads_among h
    intro s₁ h₁
    apply (leads_mock h₁.shows).mono (fun _ _ h => h) (fun _ _ h => h)
    rintro r s' ⟨hr, hs'⟩
    exact ⟨h₁.around hs', hr⟩
  . rintro _ s₁ ⟨h₁, rfl⟩
    apply Setting.Assures.tryCatch
    have hclient : LeadsAmong D i outcome total a tallies (perform (.client (.get key)))
        (fun _ s' => a.Counted i tallies s' ∧ True) s₁ := by
      apply leads_among h₁
      intro s₂ h₂
      apply leads_client.mono (fun _ _ h => h) (fun _ _ h => h)
      rintro _ s' ⟨s₃, hs₃, _, rfl⟩
      have h₃ := h₂.around hs₃
      exact ⟨⟨h₃.shows.setRedis _, h₃.tallies⟩, trivial⟩
    exact hclient.mono (fun _ _ h => h) (fun _ _ h => h) (fun _ _ h => h.left)

theorem among_checkCooldown (h : a.Counted i tallies s) (hrow : row.tally ∈ tallies)
    : LeadsAmong D i outcome total a tallies (checkCooldown row)
        (fun row' _ => row'.gateway = row.gateway) s := by
  unfold checkCooldown
  split
  . apply (among_get h (circuitKey row.gateway)).bind
    intro isTripped s₁ h₁
    dsimp only
    split
    . have hpromoted : (promoted row).tally ∈ tallies := hrow
      have hsave : LeadsAmong D i outcome total a tallies (perform (.saveStats (promoted row)))
          (fun _ s' => a.Counted i tallies s' ∧ True) s₁ := by
        apply leads_among h₁
        intro s₂ h₂
        apply (h₂.save hpromoted).mono (fun _ _ h => h) (fun _ _ h => h)
        exact fun _ _ h => ⟨h, trivial⟩
      apply hsave.bind
      exact fun _ _ _ => rfl
    . rfl
  . rfl

theorem among_candidate (h : a.Counted i tallies s) (hrow : row.tally ∈ tallies)
    : LeadsAmong D i outcome total a tallies (candidate D amount row)
        (fun c _ => c.provider = row.gateway) s := by
  unfold candidate
  apply (among_checkCooldown h hrow).bind
  intro row' s' hrow'
  exact hrow'

/--
The promises of a ranking run at the same time. Each of them may rely on what the others do.
-/
theorem leads_candidates {rows : List GatewayStats} (h : a.Counted i tallies s)
    (hrows : ∀ row ∈ rows, row.tally ∈ tallies)
    : Leads D i outcome total (Prog.all (rows.map (candidate D amount)))
        (fun cs s' => List.Forall₂ (fun row c => c.provider = row.gateway) rows cs ∧
          Recounts a i tallies s s') s := by
  have hpairs : rows.Pairwise (fun _ _ => ∀ s s',
      (Recounts a i tallies s s' → Recounts a i tallies s s') ∧
        (Recounts a i tallies s s' → Recounts a i tallies s s')) := by
    apply List.pairwise_of_forall
    intro _ _ _ _
    exact ⟨id, id⟩
  have hcandidates : ∀ row ∈ rows, LeadsAmong D i outcome total a tallies (candidate D amount row)
      (fun c _ => c.provider = row.gateway) s := by
    intro row hrow
    exact among_candidate h (hrows row hrow)
  have hpromises := Setting.Assures.all (fun _ s h => h) (fun _ s₁ s₂ s₃ h h' hs => h' (h hs))
    (fun _ c s s' _ hc => hc) hpairs hcandidates
  have halone : ((sceneMachine D).amid i (fun s e => Surroundings i outcome s.1 e)
      (fun s cmd o => InTime D outcome s.1 cmd o) total).Assures Eq (Recounts a i tallies)
        (Prog.all (rows.map (candidate D amount)))
        (fun cs _ => List.Forall₂ (fun row c => c.provider = row.gateway) rows cs) s := by
    apply hpromises.mono
    . rintro s _ rfl _ _ h
      exact h
    . rintro s s' ⟨_, _, h⟩
      exact h
    . exact fun _ _ h => h
  apply (halone.change (fun s h => h) (fun s₁ s₂ s₃ h h' hs => h' (h hs))).mono
    (fun _ _ h => h) (fun _ _ _ => trivial)
  exact fun _ _ h => h

/--
The ranking is not empty if some gateway is configured, and it names each gateway once.
-/
theorem leads_getRankedGateways (h : a.Shows i none s) (hconfigured : ∃ g ∈ a.gateways,
      considered D g)
    : Leads D i outcome total (getRankedGateways D amount)
        (fun ranking s' => a.Shows i none s' ∧ ranking ≠ [] ∧ ranking.Nodup ∧
          ∀ g ∈ ranking, g ∈ a.gateways) s := by
  unfold getRankedGateways
  apply Setting.Assures.bind leads_findStats
  rintro _ s₁ ⟨rfl, hs₁⟩
  have hcounted : a.Counted i (s.1.gatewayStats.map GatewayStats.tally) s₁ :=
    Account.Counted.around ⟨h, rfl⟩ hs₁
  generalize hrows : s.1.gatewayStats.filter (fun row => considered D row.gateway) = rows
  have hgateways : (rows.map GatewayStats.gateway).Sublist a.gateways := by
    rw [← h.gateways, ← hrows]
    exact List.filter_sublist.map _
  have hne : rows ≠ [] := by
    rcases hconfigured with ⟨g, hg, hconsidered⟩
    rw [← h.gateways, List.mem_map] at hg
    rcases hg with ⟨row, hrow, hgateway⟩
    rw [← hgateway] at hconsidered
    rw [← hrows]
    exact List.ne_nil_of_mem (List.mem_filter.mpr ⟨hrow, hconsidered⟩)
  have htally : ∀ row ∈ rows, row.tally ∈ s.1.gatewayStats.map GatewayStats.tally := by
    intro row hrow
    rw [← hrows] at hrow
    exact List.mem_map_of_mem (List.mem_filter.mp hrow).left
  generalize s.1.gatewayStats.map GatewayStats.tally = tallies at hcounted htally
  have hall : Leads D i outcome total (Prog.all (rows.map (candidate D amount))) _ s₁ :=
    leads_candidates hcounted htally
  subst hrows
  apply hall.bind
  rintro cs s₂ ⟨hcs, hrecounts⟩
  have hproviders := map_provider_eq hcs
  rcases rank_perm cs with ⟨ds, hsub, hperm⟩
  refine ⟨(hrecounts hcounted).shows, ?_, ?_, ?_⟩
  . apply rank_ne_nil
    intro hnil
    subst hnil
    rw [List.forall₂_nil_right_iff] at hcs
    exact hne hcs
  . apply rank_nodup
    rw [hproviders]
    exact h.unique.sublist hgateways
  . intro g hg
    rw [hperm.mem_iff] at hg
    apply hgateways.subset
    rw [← hproviders]
    exact (hsub.map _).subset hg

end Ranking

end PaymentOrchestration
