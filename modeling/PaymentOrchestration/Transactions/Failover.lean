import Mathlib.Data.Fintype.EquivFin
import PaymentOrchestration.Scenario
import PaymentOrchestration.Transactions.Attempts

/-!
This module shows what the failover loop of `create` comes to when nobody interferes: it stops at the
first gateway that accepts the charge, or at the last one, and every record says so.
-/

namespace PaymentOrchestration

open Machine StateMachine TransactionsService RoutingEngine

/--
The gateways in `retried` fail, and `last` is the first one that accepts the charge, or the last one
of all.
-/
structure Verdict (outcome : GatewayProvider → GatewayOutcome)
    (ranked retried : List GatewayProvider) (last : GatewayProvider) : Prop where
  failed : ∀ g ∈ retried, (outcome g).succeeds = false
  accepted : (outcome last).succeeds = true → ∃ rest, ranked = retried ++ last :: rest
  exhausted : (outcome last).succeeds = false → ranked = retried ++ [last]

namespace GatewayOutcome

def finalState (outcome : GatewayOutcome) : TransactionState :=
  if outcome.succeeds then .SUCCESS else .FAILED

-- The column is left as it is for `none`.
def gatewayTxnId (outcome : GatewayOutcome) : Option (Option String) :=
  match outcome with
  | .answers response => if response.success then response.gatewayTxnId else none
  | _ => none

def lastEvent (outcome : GatewayOutcome) (last : GatewayProvider) : GatewayEvent :=
  if outcome.succeeds then .succeeded last else .failed last

-- The audit row takes the reason and the answer.
def logs (D : Deployment) (outcome : GatewayOutcome) (reason : String) : Bool :=
  Exec.varchar 500 reason && D.jsonb outcome.rawResponse

/--
The columns take what the outcome leads to.
-/
structure Fits (D : Deployment) (outcome : GatewayOutcome) : Prop where
  succeeded : outcome.succeeds = true → outcome.logs D "Payment charge succeeded" = true
  retried : outcome.succeeds = false → ∀ g : GatewayProvider,
    outcome.logs D s!"Attempt failed on {g}: {outcome.error}" = true
  failed : outcome.succeeds = false →
    outcome.logs D s!"All attempts failed. Last error: {outcome.error}" = true
  gatewayTxnId : ∀ id, outcome.gatewayTxnId = some (some id) → Exec.varchar 255 id = true

end GatewayOutcome

/--
The audit rows of a round of the loop.
-/
def roundTrail (id : String) (fromState : TransactionState) (g : GatewayProvider)
    (toState : TransactionState)
    : List (String × Option TransactionState × TransactionState × Option GatewayProvider) :=
  [(id, some fromState, .ROUTED, some g), (id, some .ROUTED, .PROCESSING, some g),
    (id, some .PROCESSING, toState, some g)]

def loopTrail (id : String) (fromState : TransactionState) (retried : List GatewayProvider)
    (last : GatewayProvider) (toState : TransactionState)
    : List (String × Option TransactionState × TransactionState × Option GatewayProvider) :=
  match retried with
  | [] => roundTrail id fromState last toState
  | g :: retried =>
    roundTrail id fromState g .RETRY_PENDING ++ loopTrail id .RETRY_PENDING retried last toState

/--
The row after the loop.
-/
def Transaction.concluded (row : Transaction) (retried : List GatewayProvider)
    (last : GatewayProvider) (outcome : GatewayOutcome) : Transaction :=
  { row with
    currentState := outcome.finalState
    selectedGateway := some last
    gatewayTxnId := outcome.gatewayTxnId.getD row.gatewayTxnId
    attemptCount := row.attemptCount + (retried.length + 1) }

/--
The account after the loop.
-/
def Account.concluded (a : Account) (i : Pid) (dto : CreateTransactionDto) (row : Transaction)
    (retried : List GatewayProvider) (last : GatewayProvider) (outcome : GatewayOutcome) : Account :=
  { a with
    payment := some (row.concluded retried last outcome)
    trail := a.trail ++ loopTrail row.id row.currentState retried last outcome.finalState
    calls := a.calls ++ (retried ++ [last]).map (fun g => (i, g, chargeRequest dto row.id g))
    events := a.events ++ retried.flatMap (fun g => [.charged g, .failed g]) ++
      [.charged last, outcome.lastEvent last] }

variable {D : Deployment} {i : Pid} {outcome : GatewayProvider → GatewayOutcome} {a : Account}
  {s s' : Scene} {g : GatewayProvider} {total : Prop} {dto : CreateTransactionDto}
  {row : Transaction} {retried fallbackList : List GatewayProvider} {last : GatewayProvider}
  {chargeResult : GatewayChargeResponse}

theorem Verdict.retry (hg : (outcome g).succeeds = false)
    (h : Verdict outcome fallbackList retried last)
    : Verdict outcome (g :: fallbackList) (g :: retried) last := by
  refine ⟨?_, ?_, ?_⟩
  . rw [List.forall_mem_cons]
    exact ⟨hg, h.failed⟩
  . intro hlast
    rcases h.accepted hlast with ⟨rest, hrest⟩
    exact ⟨rest, by rw [hrest, List.cons_append]⟩
  . intro hlast
    rw [h.exhausted hlast, List.cons_append]

/-!
The row and the account at the end of a round.
-/

def Transaction.processing (row : Transaction) (g : GatewayProvider) : Transaction :=
  transitioned (transitioned row .ROUTED (routedMetadata g)) .PROCESSING (processingMetadata g)

theorem succeeded_row (hgives : (outcome g).Gives chargeResult)
    (hsuccess : (outcome g).succeeds = true)
    : transitioned (row.processing g) .SUCCESS (successMetadata g chargeResult) =
        row.concluded [] g (outcome g) := by
  cases houtcome : outcome g with
  | answers response =>
    have hresult := hgives.answered response houtcome
    rw [houtcome] at hsuccess
    have hresponse : response.success = true := hsuccess
    simp [transitioned, Transaction.processing, Transaction.concluded, mutate, successMetadata,
      routedMetadata, processingMetadata, hresult, GatewayOutcome.gatewayTxnId, hresponse,
      GatewayOutcome.finalState, GatewayOutcome.succeeds]
  | _ =>
    rw [houtcome] at hsuccess
    cases hsuccess

theorem gatewayTxnId_of_failure (hfailure : (outcome g).succeeds = false)
    : (outcome g).gatewayTxnId = none := by
  cases houtcome : outcome g with
  | answers response =>
    rw [houtcome] at hfailure
    have hresponse : response.success = false := hfailure
    simp [GatewayOutcome.gatewayTxnId, hresponse]
  | _ => rfl

theorem failed_row (hfailure : (outcome g).succeeds = false)
    : transitioned (row.processing g) .FAILED (failedMetadata g chargeResult) =
        row.concluded [] g (outcome g) := by
  simp [transitioned, Transaction.processing, Transaction.concluded, mutate, failedMetadata,
    routedMetadata, processingMetadata, gatewayTxnId_of_failure hfailure,
    GatewayOutcome.finalState, hfailure]

-- The rounds that follow a failed one.
theorem retried_row (retried : List GatewayProvider) (last : GatewayProvider)
    (out : GatewayOutcome)
    : (transitioned (row.processing g) .RETRY_PENDING (retryMetadata g chargeResult)).concluded
          retried last out =
        row.concluded (g :: retried) last out := by
  simp [transitioned, Transaction.processing, Transaction.concluded, mutate, retryMetadata,
    routedMetadata, processingMetadata, Nat.add_assoc, Nat.add_comm 1]

theorem succeeded_account (hsuccess : (outcome g).succeeds = true) {t : Transaction}
    (ht : t = row.concluded [] g (outcome g))
    : ((a.attempted i dto row g).moved t
          (auditRow .PROCESSING t .SUCCESS (successMetadata g chargeResult))).notes (.succeeded g) =
        a.concluded i dto row [] g (outcome g) := by
  subst ht
  simp [Account.moved, Account.notes, Account.attempted, Account.charges, Account.concluded,
    AuditLog.entry, auditRow, loopTrail, roundTrail, Transaction.concluded, transitioned, mutate,
    routedMetadata, processingMetadata, successMetadata, GatewayOutcome.lastEvent,
    GatewayOutcome.finalState, hsuccess]

theorem failed_account (hfailure : (outcome g).succeeds = false) {t : Transaction}
    (ht : t = row.concluded [] g (outcome g))
    : ((a.attempted i dto row g).notes (.failed g)).moved t
          (auditRow .PROCESSING t .FAILED (failedMetadata g chargeResult)) =
        a.concluded i dto row [] g (outcome g) := by
  subst ht
  simp [Account.moved, Account.notes, Account.attempted, Account.charges, Account.concluded,
    AuditLog.entry, auditRow, loopTrail, roundTrail, Transaction.concluded, transitioned, mutate,
    routedMetadata, processingMetadata, failedMetadata, GatewayOutcome.lastEvent,
    GatewayOutcome.finalState, hfailure]

/--
The account at the start of the round that follows a failed one.
-/
def Account.afterRetry (a : Account) (i : Pid) (dto : CreateTransactionDto) (row : Transaction)
    (g : GatewayProvider) (chargeResult : GatewayChargeResponse) : Account :=
  let t := transitioned (row.processing g) .RETRY_PENDING (retryMetadata g chargeResult)
  ((a.attempted i dto row g).notes (.failed g)).moved t
    (auditRow .PROCESSING t .RETRY_PENDING (retryMetadata g chargeResult))

theorem retried_account (retried : List GatewayProvider) (last : GatewayProvider)
    (out : GatewayOutcome)
    : (a.afterRetry i dto row g chargeResult).concluded i dto
          (transitioned (row.processing g) .RETRY_PENDING (retryMetadata g chargeResult)) retried
          last out =
        a.concluded i dto row (g :: retried) last out := by
  unfold Account.concluded
  rw [retried_row]
  simp [Account.afterRetry, Account.moved, Account.notes, Account.attempted, Account.charges,
    AuditLog.entry, auditRow, loopTrail, roundTrail, transitioned, Transaction.processing, mutate,
    routedMetadata, processingMetadata, retryMetadata]

/-!
The loop.
-/

theorem leads_setCompleted {t : Transaction} (h : a.Shows i none s) (idempotencyKey : String)
    : Leads D i outcome total (setCompleted idempotencyKey t)
        (fun _ s' => a.Shows i none s' ∧
          s'.1.redis.lookup s'.1.clock (redisKey idempotencyKey) = some (.completed t)) s := by
  unfold setCompleted
  apply Setting.Assures.bind (leads_setKey h (by decide))
  rintro _ s' ⟨hkeeps, hlookup⟩
  exact ⟨hkeeps.shows, hlookup⟩

/-!
What the last transition of a round writes into its audit row.
-/

theorem fits_successMetadata (hgives : (outcome g).Gives chargeResult)
    : (successMetadata g chargeResult).fits D =
        (outcome g).logs D "Payment charge succeeded" := by
  simp only [TransitionMetadata.fits, successMetadata, hgives.rawResponse, Option.all_some,
    GatewayOutcome.logs]

theorem fits_retryMetadata (hgives : (outcome g).Gives chargeResult)
    : (retryMetadata g chargeResult).fits D =
        (outcome g).logs D s!"Attempt failed on {g}: {(outcome g).error}" := by
  simp only [TransitionMetadata.fits, retryMetadata, hgives.error, hgives.rawResponse,
    Option.all_some, GatewayOutcome.logs]

theorem fits_failedMetadata (hgives : (outcome g).Gives chargeResult)
    : (failedMetadata g chargeResult).fits D =
        (outcome g).logs D s!"All attempts failed. Last error: {(outcome g).error}" := by
  simp only [TransitionMetadata.fits, failedMetadata, hgives.error, hgives.rawResponse,
    Option.all_some, GatewayOutcome.logs]

theorem fits_concluded (hrow : Exec.Transaction.fits row = true) (hfits : (outcome g).Fits D)
    : Exec.Transaction.fits (row.concluded [] g (outcome g)) = true := by
  unfold Exec.Transaction.fits Transaction.concluded
  cases hid : (outcome g).gatewayTxnId with
  | none => exact hrow
  | some id =>
    cases id with
    | none => rfl
    | some id => exact hfits.gatewayTxnId id hid

-- How the loop ends: with the row as the database and the cache have it.
def Ends (i : Pid) (dto : CreateTransactionDto) (a : Account) (t : Transaction) (s : Scene) : Prop :=
  a.payment = some t ∧ a.Shows i none s ∧
    s.1.redis.lookup s.1.clock (redisKey dto.idempotencyKey) = some (.completed t)

section Round

variable (h : (a.attempted i dto row g).Shows i none s) (hgives : (outcome g).Gives chargeResult)
  (hgateway : g ∈ a.gateways) (hfits : total → Exec.Transaction.fits row = true)
  (houtcome : total → (outcome g).Fits D)

include h hgives hgateway hfits houtcome

theorem leads_success (hsuccess : (outcome g).succeeds = true) (latencyMs : Nat)
    : Leads D i outcome total
        (do
          let updatedTxn ← transition row.id .SUCCESS (successMetadata g chargeResult)
          recordSuccess g latencyMs
          setCompleted dto.idempotencyKey updatedTxn
          return updatedTxn)
        (Ends i dto (a.concluded i dto row [] g (outcome g))) s := by
  have hvalid : .SUCCESS ∈ VALID_TRANSITIONS .PROCESSING := by decide
  have hrow : transitioned (row.processing g) .SUCCESS (successMetadata g chargeResult) = _ :=
    succeeded_row hgives hsuccess
  have hfits' : total → Exec.Transaction.fits
      (transitioned (row.processing g) .SUCCESS (successMetadata g chargeResult)) = true := by
    intro htotal
    rw [hrow]
    exact fits_concluded (hfits htotal) (houtcome htotal)
  have hmetadata : total → (successMetadata g chargeResult).fits D = true := by
    intro htotal
    rw [fits_successMetadata hgives]
    exact (houtcome htotal).succeeded hsuccess
  apply Setting.Assures.bind (leads_transition h (show _ = some (row.processing g) from rfl) rfl
    hvalid (by decide) hfits' hmetadata)
  rintro t s₁ ⟨ht, h₁⟩
  rw [hrow] at ht
  apply Setting.Assures.bind (leads_recordSuccess h₁ hgateway)
  intro _ s₂ h₂
  rw [show auditRow (row.processing g).currentState t .SUCCESS _ = auditRow .PROCESSING t .SUCCESS _
    from rfl, succeeded_account hsuccess ht] at h₂
  apply Setting.Assures.bind (leads_setCompleted h₂ dto.idempotencyKey)
  rintro _ s₃ ⟨h₃, hlookup⟩
  exact ⟨congrArg some ht.symm, h₃, hlookup⟩

theorem leads_failed (hfailure : (outcome g).succeeds = false) (latencyMs : Nat)
    : Leads D i outcome total
        (do
          recordFailure g latencyMs
          let failedTxn ← transition row.id .FAILED (failedMetadata g chargeResult)
          setCompleted dto.idempotencyKey failedTxn
          return failedTxn)
        (Ends i dto (a.concluded i dto row [] g (outcome g))) s := by
  have hvalid : .FAILED ∈ VALID_TRANSITIONS .PROCESSING := by decide
  have hrow : transitioned (row.processing g) .FAILED (failedMetadata g chargeResult) = _ :=
    failed_row hfailure
  have hmetadata : total → (failedMetadata g chargeResult).fits D = true := by
    intro htotal
    rw [fits_failedMetadata hgives]
    exact (houtcome htotal).failed hfailure
  apply Setting.Assures.bind (leads_recordFailure h hgateway)
  intro _ s₁ h₁
  apply Setting.Assures.bind (leads_transition h₁ (show _ = some (row.processing g) from rfl) rfl
    hvalid (by decide) hfits hmetadata)
  rintro t s₂ ⟨ht, h₂⟩
  rw [hrow] at ht
  rw [show auditRow (row.processing g).currentState t .FAILED _ = auditRow .PROCESSING t .FAILED _
    from rfl, failed_account hfailure ht] at h₂
  apply Setting.Assures.bind (leads_setCompleted h₂ dto.idempotencyKey)
  rintro _ s₃ ⟨h₃, hlookup⟩
  exact ⟨congrArg some ht.symm, h₃, hlookup⟩

end Round

theorem leads_retry (h : ((a.attempted i dto row g).notes (.failed g)).Shows i none s)
    (hgives : (outcome g).Gives chargeResult) (hfits : total → Exec.Transaction.fits row = true)
    (houtcome : total → (outcome g).Fits D) (hfailure : (outcome g).succeeds = false)
    : Leads D i outcome total (transition row.id .RETRY_PENDING (retryMetadata g chargeResult))
        (fun _ s' => (a.afterRetry i dto row g chargeResult).Shows i none s') s := by
  have hvalid : .RETRY_PENDING ∈ VALID_TRANSITIONS .PROCESSING := by decide
  have hmetadata : total → (retryMetadata g chargeResult).fits D = true := by
    intro htotal
    rw [fits_retryMetadata hgives]
    exact (houtcome htotal).retried hfailure g
  apply Setting.Assures.mono (leads_transition h (show _ = some (row.processing g) from rfl) rfl
    hvalid (by decide) hfits hmetadata) (fun _ _ h => h) (fun _ _ h => h)
  rintro t s' ⟨rfl, h'⟩
  exact h'

/--
The loop stops at the first gateway that accepts the charge, or at the last one.
-/
theorem leads_execute (h : a.Shows i none s) (hrow : a.payment = some row)
    (hstate : .ROUTED ∈ VALID_TRANSITIONS row.currentState)
    (hfits : total → Exec.Transaction.fits row = true)
    (hgateways : ∀ g' ∈ g :: fallbackList, g' ∈ a.gateways)
    (houtcome : total → ∀ g, (outcome g).Fits D)
    : Leads D i outcome total (execute dto row.id g fallbackList)
        (fun t s' => ∃ retried last, Verdict outcome (g :: fallbackList) retried last ∧
          Ends i dto (a.concluded i dto row retried last (outcome last)) t s') s := by
  have hretry : .ROUTED ∈ VALID_TRANSITIONS .RETRY_PENDING := by decide
  induction fallbackList generalizing g row a s with
  | nil =>
    rw [List.forall_mem_singleton] at hgateways
    unfold execute
    apply Setting.Assures.bind (leads_attempt h hrow hstate hfits)
    rintro ⟨chargeResult, latencyMs⟩ s₁ ⟨hgives, h₁⟩
    dsimp only
    split
    . next hsuccess =>
      rw [hgives.success] at hsuccess
      apply Setting.Assures.mono (leads_success h₁ hgives hgateways hfits (fun h => houtcome h g)
        hsuccess latencyMs) (fun _ _ h => h) (fun _ _ h => h)
      intro t s' hends
      exact ⟨[], g, ⟨by simp, fun _ => ⟨[], rfl⟩, fun _ => rfl⟩, hends⟩
    . next hfailure =>
      rw [hgives.success, Bool.not_eq_true] at hfailure
      apply Setting.Assures.mono (leads_failed h₁ hgives hgateways hfits (fun h => houtcome h g)
        hfailure latencyMs) (fun _ _ h => h) (fun _ _ h => h)
      intro t s' hends
      exact ⟨[], g, ⟨by simp, fun _ => ⟨[], rfl⟩, fun _ => rfl⟩, hends⟩
  | cons nextGateway fallbackList ih =>
    rw [List.forall_mem_cons] at hgateways
    unfold execute
    apply Setting.Assures.bind (leads_attempt h hrow hstate hfits)
    rintro ⟨chargeResult, latencyMs⟩ s₁ ⟨hgives, h₁⟩
    dsimp only
    split
    . next hsuccess =>
      rw [hgives.success] at hsuccess
      apply Setting.Assures.mono (leads_success h₁ hgives hgateways.left hfits
        (fun h => houtcome h g) hsuccess latencyMs) (fun _ _ h => h) (fun _ _ h => h)
      intro t s' hends
      refine ⟨[], g, ⟨by simp, fun _ => ⟨_, rfl⟩, fun hfailure => ?_⟩, hends⟩
      rw [hsuccess] at hfailure
      cases hfailure
    . next hfailure =>
      rw [hgives.success, Bool.not_eq_true] at hfailure
      apply Setting.Assures.bind (leads_recordFailure h₁ hgateways.left)
      intro _ s₂ h₂
      apply Setting.Assures.bind (leads_retry h₂ hgives hfits (fun h => houtcome h g) hfailure)
      intro _ s₃ h₃
      have hnext := ih h₃ (show _ = some (transitioned (row.processing g) .RETRY_PENDING
        (retryMetadata g chargeResult)) from rfl) hretry hfits hgateways.right
      apply hnext.mono (fun _ _ h => h) (fun _ _ h => h)
      rintro t s' ⟨retried, last, hverdict, hends⟩
      rw [retried_account] at hends
      exact ⟨g :: retried, last, hverdict.retry hfailure, hends⟩

/-!
The call before its loop.
-/

/--
The call of process `i` is the first one with its key, and nobody else is at work.
-/
structure Unstarted (D : Deployment) (i : Pid) (dto : CreateTransactionDto) (s : Scene) : Prop where
  unused : ∀ t ∈ s.1.ledger.transactions, t.idempotencyKey ≠ dto.idempotencyKey
  unlocked : s.1.redis.lookup s.1.clock (redisKey dto.idempotencyKey) = none
  connected : (s.1.mem i.inst).isMockMode = false
  session : s.1.ledger.sessions i = none
  locks : ∀ id, s.1.ledger.locks id = none
  unique : UniqueStats s.1
  configured : ∃ row ∈ s.1.gatewayStats, considered D row.gateway = true

-- The account before the payment exists.
def Scene.account (s : Scene) : Account where
  others := s.1.ledger.transactions
  payment := none
  trail := s.1.ledger.auditLog.map AuditLog.entry
  calls := s.1.charges.map Charge.call
  gateways := s.1.gatewayStats.map GatewayStats.gateway
  events := s.2
  created := none

theorem Unstarted.shows (h : Unstarted D i dto s) : (Scene.account s).Shows i none s := by
  refine ⟨?_, ?_, rfl, h.session, h.locks, h.connected, rfl, h.unique, rfl, rfl, ?_⟩
  . simp [Scene.account]
  . intro row hrow
    cases hrow
  . intro row hrow
    cases hrow

variable {key : String} {txn : NewTransaction}

theorem leads_findByKey (h : a.Shows i none s) (hnone : a.payment = none)
    (hunused : ∀ t ∈ a.others, t.idempotencyKey ≠ key)
    : Leads D i outcome total (findByKey key) (fun r s' => r = none ∧ a.Shows i none s') s := by
  apply leads_unseen (by simp) (fun _ => rfl) (fun _ => rfl)
  intro s₁ hs₁ _
  have h₁ := h.around hs₁
  have hmatching : matching D [.idempotencyKey (.str key)] s₁.1.ledger.transactions = [] := by
    rw [h₁.transactions, hnone, Option.toList_none, List.append_nil]
    unfold matching
    rw [List.filter_eq_nil_iff]
    intro t ht
    simp [TxnWhere.holds, Deployment.bind, hunused t ht]
  refine ⟨none, { s₁.1 with history := s₁.1.history ++
    [.read i [.idempotencyKey (.str key)] none] }, fun o ho => ?_, rfl, ?_⟩
  . simp only [exec, Exec.findTransaction, hmatching, ho]
    simp
  . refine ⟨h₁.transactions, h₁.fresh, h₁.trail, h₁.session, h₁.locks, h₁.connected, h₁.gateways,
      h₁.unique, h₁.calls, h₁.events, ?_⟩
    intro row hrow
    exact List.mem_append_left _ (h₁.created row hrow)

-- The payment has got its row.
def Account.opened (a : Account) (row : Transaction) : Account :=
  { a with payment := some row, created := some row }

theorem exec_insertTransaction_of_new {w : World} {o : Oracle} (ho : o.fault = .none)
    (hid : o.id ∉ w.ledger.transactions.map (·.id)) (hfits : Exec.NewTransaction.fits txn = true)
    (hkey : txn.idempotencyKey ∉ w.ledger.transactions.map (·.idempotencyKey))
    : exec D i (.insertTransaction txn) o w =
        some (.ok (txn.row o.id),
          { w with
            ledger := w.ledger.insert (txn.row o.id)
            history := w.history ++ [.inserted i (txn.row o.id)] }) := by
  simp only [exec, Exec.insertTransaction]
  rw [if_neg hid, if_neg (by simpa using hfits), if_neg hkey, ho]
  rfl

theorem leads_insertTransaction (h : a.Shows i none s) (hnone : a.payment = none)
    (hunused : ∀ t ∈ a.others, t.idempotencyKey ≠ txn.idempotencyKey)
    (hfits : total → Exec.NewTransaction.fits txn = true)
    : Leads D i outcome total (perform (.insertTransaction txn))
        (fun saved s' => ∃ id, saved = txn.row id ∧ (a.opened saved).Shows i none s') s := by
  have htransactions : ∀ s₁, a.Shows i none s₁ → s₁.1.ledger.transactions = a.others := by
    intro s₁ h₁
    rw [h₁.transactions, hnone, Option.toList_none, List.append_nil]
  have hkey : ∀ s₁, a.Shows i none s₁ →
      txn.idempotencyKey ∉ s₁.1.ledger.transactions.map (·.idempotencyKey) := by
    intro s₁ h₁ hmem
    rw [htransactions s₁ h₁, List.mem_map] at hmem
    rcases hmem with ⟨t, ht, heq⟩
    exact hunused t ht heq
  apply leads_perform
  . intro htotal
    rcases Infinite.exists_notMem_finset (s.1.ledger.transactions.map (·.id)).toFinset with ⟨id, hid⟩
    rw [List.mem_toFinset] at hid
    have hexec := exec_insertTransaction_of_new (D := D) (i := i) (o := { id := id }) rfl hid
      (hfits htotal) (hkey s h)
    exact ⟨s, { id := id }, _, _, .refl, ⟨rfl, hfits htotal, by simp⟩, hexec⟩
  . intro s₁ o x w hidles ho hexec
    have h₁ := h.around (Idles.around hidles)
    by_cases hid : o.id ∈ s₁.1.ledger.transactions.map (·.id)
    . simp only [exec, Exec.insertTransaction, if_pos hid] at hexec
      cases hexec
    . have heq := (exec_insertTransaction_of_new ho.left hid ho.right.left (hkey s₁ h₁)).symm.trans hexec
      injection heq with heq
      injection heq with hx hw
      subst hx hw
      refine ⟨_, rfl, o.id, rfl, ?_⟩
      refine ⟨?_, ?_, h₁.trail, h₁.session, h₁.locks, h₁.connected, h₁.gateways, h₁.unique,
        h₁.calls, ?_, ?_⟩
      . change s₁.1.ledger.transactions ++ [_] = _
        rw [htransactions s₁ h₁]
        rfl
      . intro row hrow t ht heq
        injection hrow with hrow
        subst hrow
        rw [htransactions s₁ h₁] at hid
        exact hid (List.mem_map.mpr ⟨t, ht, heq⟩)
      . exact (List.append_nil _).trans h₁.events
      . intro row hrow
        injection hrow with hrow
        subst hrow
        exact List.mem_append_right _ (List.mem_singleton_self _)

theorem leads_insertAudit {audit : AuditLog} (h : a.Shows i none s)
    (hfits : Exec.AuditLog.fits D audit = true)
    : Leads D i outcome total (perform (.insertAudit audit))
        (fun _ s' => ({ a with trail := a.trail ++ [audit.entry] } : Account).Shows i none s') s := by
  have hcmd : (Cmd.insertAudit audit).fits D = true := hfits
  apply leads_unseen (by simp) (fun _ => rfl) (fun _ => hcmd)
  intro s₁ hs₁ _
  have h₁ := h.around hs₁
  refine ⟨(), { s₁.1 with ledger := { s₁.1.ledger with
    auditLog := s₁.1.ledger.auditLog ++ [{ audit with createdAt := s₁.1.clock }] } },
    fun o ho => ?_, ?_⟩
  . simp only [exec, Exec.insertAudit, hfits, ho]
    rfl
  . refine ⟨h₁.transactions, h₁.fresh, ?_, h₁.session, h₁.locks, h₁.connected, h₁.gateways,
      h₁.unique, h₁.calls, h₁.events, h₁.created⟩
    change (s₁.1.ledger.auditLog ++ [_]).map AuditLog.entry = _
    rw [List.map_append, h₁.trail]
    rfl

/--
The records after a call of `create` whose ranking was `ranked`, and the row `t` it has answered with.
-/
structure FailedOver (i : Pid) (dto : CreateTransactionDto)
    (outcome : GatewayProvider → GatewayOutcome) (s s' : Scene)
    (ranked retried : List GatewayProvider) (last : GatewayProvider) (t : Transaction) : Prop where
  nodup : ranked.Nodup
  verdict : Verdict outcome ranked retried last
  -- The row it was created with names the ranking, and the loop has gone on from there.
  row : ∃ g fb, ranked = g :: fb ∧ .inserted i ((newTransaction dto g fb).row t.id) ∈ s'.1.history ∧
    t = ((newTransaction dto g fb).row t.id).concluded retried last (outcome last)
  transactions : s'.1.ledger.transactions = s.1.ledger.transactions ++ [t]
  trail : s'.1.ledger.auditLog.map AuditLog.entry =
    s.1.ledger.auditLog.map AuditLog.entry ++ (t.id, none, .INITIATED, ranked.head?) ::
      loopTrail t.id .INITIATED retried last (outcome last).finalState
  calls : s'.1.charges.map Charge.call =
    s.1.charges.map Charge.call ++
      (retried ++ [last]).map (fun g => (i, g, chargeRequest dto t.id g))
  events : s'.2 = s.2 ++ retried.flatMap (fun g => [.charged g, .failed g]) ++
    [.charged last, (outcome last).lastEvent last]
  cached : s'.1.redis.lookup s'.1.clock (redisKey dto.idempotencyKey) = some (.completed t)

theorem leads_createLocked (h : Unstarted D i dto s) {s₁ : Scene}
    (h₁ : (Scene.account s).Shows i none s₁)
    (hdto : total → ∀ g fb, Exec.NewTransaction.fits (newTransaction dto g fb) = true)
    (houtcome : total → ∀ g, (outcome g).Fits D)
    : Leads D i outcome total (createLocked D dto)
        (fun t s' => ∃ ranked retried last, FailedOver i dto outcome s s' ranked retried last t)
        s₁ := by
  unfold createLocked
  apply Setting.Assures.bind (leads_findByKey h₁ rfl h.unused)
  rintro _ s₂ ⟨rfl, h₂⟩
  have hconfigured : ∃ g ∈ (Scene.account s).gateways, considered D g = true := by
    rcases h.configured with ⟨row, hrow, hconsidered⟩
    exact ⟨row.gateway, List.mem_map_of_mem hrow, hconsidered⟩
  apply Setting.Assures.bind (leads_getRankedGateways h₂ hconfigured)
  rintro ranking s₃ ⟨h₃, hne, hnodup, hsubset⟩
  cases ranking with
  | nil => exact absurd rfl hne
  | cons g fb =>
    have hunused : ∀ t ∈ (Scene.account s).others,
        t.idempotencyKey ≠ (newTransaction dto g fb).idempotencyKey := h.unused
    apply Setting.Assures.bind (leads_insertTransaction h₃ rfl hunused (fun ht => hdto ht g fb))
    rintro saved s₄ ⟨id, hsaved, h₄⟩
    apply Setting.Assures.bind (leads_insertAudit h₄ fits_creationAudit)
    intro _ s₅ h₅
    have hstate : .ROUTED ∈ VALID_TRANSITIONS .INITIATED := by decide
    subst hsaved
    apply Setting.Assures.mono (leads_execute h₅ rfl hstate (fun _ => rfl) hsubset houtcome)
      (fun _ _ h => h) (fun _ _ h => h)
    rintro t s' ⟨retried, last, hverdict, hpayment, hshows, hcached⟩
    injection hpayment with hpayment
    subst hpayment
    refine ⟨g :: fb, retried, last, hnodup, hverdict, ⟨g, fb, rfl, hshows.created _ rfl, rfl⟩, ?_, ?_,
      ?_, hshows.events, hcached⟩
    . exact hshows.transactions
    . rw [hshows.trail]
      exact List.append_assoc _ _ _
    . exact hshows.calls

/--
The failover loop computes the first success. A call of `create` that meets no fault and has the
service for itself charges the gateways of its ranking one after the other, up to the first one that
accepts the charge in time or to the last one of all. The statistics, the audit log, the row and the
cache say so, and the call returns the row.
-/
theorem first_success (h : Unstarted D i dto s)
    : (∀ r s', Undergoes D i outcome (create D dto) s r s' →
          ∃ t ranked retried last, r = .ok t ∧ FailedOver i dto outcome s s' ranked retried last t) ∧
        ((∀ g fb, Exec.NewTransaction.fits (newTransaction dto g fb) = true) →
          (∀ g, (outcome g).Fits D) → ∃ t s', Undergoes D i outcome (create D dto) s (.ok t) s') := by
  have hcreate : ∀ total : Prop,
      (total → ∀ g fb, Exec.NewTransaction.fits (newTransaction dto g fb) = true) →
      (total → ∀ g, (outcome g).Fits D) →
      Leads D i outcome total (create D dto)
        (fun t s' => ∃ ranked retried last, FailedOver i dto outcome s s' ranked retried last t)
        s := by
    intro total hdto houtcome
    unfold create
    apply Setting.Assures.bind (leads_setNX h.shows h.unlocked)
    rintro _ s₁ ⟨rfl, hkeeps⟩
    apply Setting.Assures.tryCatch
    exact leads_createLocked h hkeeps.shows hdto houtcome
  refine ⟨?_, ?_⟩
  . intro r s' hundergoes
    rcases CompletesAmid.result hundergoes (hcreate False False.elim False.elim) with
      ⟨t, hr, ranked, retried, last, hfailedOver⟩
    exact ⟨t, ranked, retried, last, hr, hfailedOver⟩
  . intro hdto houtcome
    exact exists_completesAmid (hcreate True (fun _ => hdto) (fun _ => houtcome))

namespace Scenario

-- UPI is down, PayU does not answer in time, Stripe declines.
def outcomes (g : GatewayProvider) : GatewayOutcome :=
  match g with
  | .UPI => .throws "UPI is down"
  | .PAYU => .timesOut
  | .RAZORPAY => .answers (accepted "order_1")
  | .STRIPE => .answers (declined "card_declined")

-- The database takes all these answers.
theorem logs_eq (out : GatewayOutcome) (reason : String)
    : out.logs deployment reason = Exec.varchar 500 reason := by
  exact Bool.and_true _

theorem outcomes_fits (g : GatewayProvider) : (outcomes g).Fits deployment := by
  refine ⟨?_, ?_, ?_, ?_⟩
  . intro _
    rw [logs_eq]
    exact Exec.varchar_of_holds (by decide)
  . intro _ g'
    rw [logs_eq]
    apply Exec.varchar_of_holds
    cases g <;> cases g' <;> decide
  . intro _
    rw [logs_eq]
    apply Exec.varchar_of_holds
    cases g <;> decide
  . intro id hid
    apply Exec.varchar_of_holds
    cases g with
    | RAZORPAY =>
      injection hid with hid
      injection hid with hid
      subst hid
      decide
    | _ => cases hid

theorem fits_order (g : GatewayProvider) (fb : List GatewayProvider)
    : Exec.NewTransaction.fits (newTransaction order g fb) = true := by
  have hkey : Exec.varchar 255 order.idempotencyKey = true := Exec.varchar_of_holds (by decide)
  have hmerchant : Exec.varchar 100 order.merchantId = true := Exec.varchar_of_holds (by decide)
  have hcurrency : Exec.varchar 10 order.currency = true := Exec.varchar_of_holds (by decide)
  have hamount : order.amount < 2 ^ 63 := by decide
  exact decide_eq_true ⟨hkey, hmerchant, hamount, hcurrency⟩

theorem unstarted_order : Unstarted deployment ⟨0, 0⟩ order (World.start seedStats, []) where
  unused := by simp [World.start]
  unlocked := rfl
  connected := rfl
  session := rfl
  locks := fun _ => rfl
  unique := by
    unfold UniqueStats
    decide
  configured := ⟨⟨.UPI, 0, 0, 0, 50, .CLOSED, 0⟩, by decide, by decide⟩

end Scenario

open Scenario in
theorem first_success_order
    : ∃ t s', Undergoes deployment ⟨0, 0⟩ outcomes (create deployment order)
          (World.start seedStats, []) (.ok t) s' ∧
        ∃ ranked retried last,
          FailedOver ⟨0, 0⟩ order outcomes (World.start seedStats, []) s' ranked retried last t := by
  rcases @first_success deployment ⟨0, 0⟩ outcomes _ order unstarted_order with ⟨hall, hexists⟩
  rcases hexists fits_order outcomes_fits with ⟨t, s', h⟩
  rcases hall _ _ h with ⟨t', ranked, retried, last, ht, hfailedOver⟩
  injection ht with ht
  subst ht
  exact ⟨t, s', h, ranked, retried, last, hfailedOver⟩

end PaymentOrchestration
